import Unjar.Proofs.FileSystem.Standing

/-!
Making the directories of a path where some of them are there already. The way of a path is there as far as
to its end, or to its last name, or it breaks off before; making the directories again comes to the same.
-/

namespace Unjar.FileSystem

variable {fs fs' final : FileSystem} {p : Path} {l : Location} {front : List Step} {name : Bytes}

/-- Steps that pass directories only are all taken. -/
theorem Sound.followLinks_passed (sound : fs.Sound) {purpose : Purpose} (notOpened : purpose ≠ .openFile)
    {links : Nat} (rest : List Step) (passed : ∀ k ∈ trailFrom l front, fs.isDirectoryAt k = true) :
    fs.followLinks purpose links l (front ++ rest) =
      fs.followLinks purpose links (front.foldl Step.apply l) rest := by
  induction front generalizing l with
  | nil => rfl
  | cons step front ih =>
    have later := fun k member => passed k (List.mem_cons_of_mem _ member)
    rw [List.cons_append, List.foldl_cons, ← ih later]
    cases step with
    | stay | slashEnd => exact followLinks_stays (by simp)
    | ascend => exact followLinks_ascends
    | descend name =>
      have here := later _ (start_mem_trailFrom _ _)
      exact followLinks_enters ⟨fun both => notOpened both.1, sound.fits_of_directory here⟩ here

/-- All directories of a path are there. -/
def Complete (fs : FileSystem) (p : Path) : Prop :=
  ∀ l ∈ fs.trail p, fs.isDirectoryAt l = true

theorem Sound.leads_of_complete (sound : fs.Sound) (complete : fs.Complete p) : fs.Leads p (fs.place p) := by
  refine ⟨?_, complete _ (place_mem_trail fs p)⟩
  have passed : fs.followLinks .use linksMax (fs.start p) (p.way ++ []) = fs.followLinks .use linksMax (fs.place p) [] :=
    sound.followLinks_passed (by simp) [] complete
  rwa [List.append_nil] at passed

/-- All directories of a path are there but the last one. -/
structure Lacks (fs : FileSystem) (p : Path) (front : List Step) (name : Bytes) : Prop where
  way : p.way = front ++ [.descend name]
  passed : ∀ l ∈ trailFrom (fs.start p) front, fs.isDirectoryAt l = true
  fits : name.length ≤ nameMax
  free : fs.node? (fs.place p) = none

theorem place_of_way (fs : FileSystem) (way : p.way = front ++ [.descend name]) :
    fs.place p = front.foldl Step.apply (fs.start p) ++ [name] := by
  rw [place, way, List.foldl_append]
  rfl

theorem mem_trail_of_way (way : p.way = front ++ [.descend name]) :
    l ∈ fs.trail p ↔ l ∈ trailFrom (fs.start p) front ∨ l = fs.place p := by
  rw [trail, way, mem_trailFrom_append, place_of_way fs way]
  have atFront := foldl_mem_trailFrom (fs.start p) front
  constructor
  · rintro (early | late)
    · exact Or.inl early
    · rcases List.mem_cons.mp late with rfl | last
      · exact Or.inl atFront
      · exact Or.inr (List.mem_singleton.mp last)
  · rintro (early | rfl)
    · exact Or.inl early
    · exact Or.inr (List.mem_cons_of_mem _ (List.mem_singleton.mpr rfl))

theorem Lacks.makeDirectory (lacks : fs.Lacks p front name) (sound : fs.Sound) (spelled : p.fault? = none) :
    fs.makeDirectory p = .ok (fs.put (fs.place p) (.directory (fs.modeBelow (fs.place p).dropLast))) := by
  have free := lacks.free
  rw [place_of_way fs lacks.way] at free ⊢
  obtain ⟨slashed, steps⟩ := p.steps_eq_way
  have found : fs.find .makeDirectory p = .ok (.free (front.foldl Step.apply (fs.start p)) name slashed) := by
    rw [find_eq, Path.checked_of_sound spelled, steps, lacks.way, List.append_assoc,
      sound.followLinks_passed (by simp) _ lacks.passed]
    exact followLinks_ok.mpr (.vacant ⟨by simp, lacks.fits⟩ free rfl rfl)
  rw [FileSystem.makeDirectory, makeNode, found, List.dropLast_concat]
  rfl

/-- Nothing is in the way of a path, and its names fit. -/
structure Clear (fs : FileSystem) (p : Path) : Prop where
  nodes : ∀ l ∈ fs.trail p, fs.node? l = none ∨ fs.isDirectoryAt l = true
  fits : ∀ name, .descend name ∈ p.way → name.length ≤ nameMax

theorem Clear.plain (clear : fs.Clear p) : fs.Plain p := by
  intro l member target link
  rcases clear.nodes l member with absent | directory
  · rw [link] at absent
    cases absent
  · rw [isDirectoryAt, link] at directory
    cases directory

theorem slashEnd_notMem_way (p : Path) : .slashEnd ∉ p.way := by
  intro member
  obtain ⟨segment, _, found⟩ := List.mem_filterMap.mp member
  unfold Step.ofSegment? at found
  split_ifs at found <;> cases found

/-- Where nothing is in the way of some steps, they pass directories only, or they do up to a name that is free. -/
theorem Sound.passes_or_breaks (sound : fs.Sound) {steps : List Step} (here : fs.isDirectoryAt l = true)
    (clear : ∀ k ∈ trailFrom l steps, fs.node? k = none ∨ fs.isDirectoryAt k = true) :
    (∀ k ∈ trailFrom l steps, fs.isDirectoryAt k = true) ∨
      ∃ front name back, steps = front ++ .descend name :: back ∧
        (∀ k ∈ trailFrom l front, fs.isDirectoryAt k = true) ∧ fs.node? (front.foldl Step.apply l ++ [name]) = none := by
  induction steps generalizing l with
  | nil =>
    left
    intro k member
    rwa [List.mem_singleton.mp member]
  | cons step rest ih =>
    have later := fun k member => clear k (List.mem_cons_of_mem _ member)
    by_cases onward : fs.isDirectoryAt (step.apply l) = true
    · rcases ih onward later with complete | ⟨front, name, back, rfl, passed, free⟩
      · exact Or.inl (List.forall_mem_cons.mpr ⟨here, complete⟩)
      · exact Or.inr ⟨step :: front, name, back, rfl, List.forall_mem_cons.mpr ⟨here, passed⟩, free⟩
    · cases step with
      | stay | slashEnd => exact absurd here onward
      | ascend => exact absurd (sound.directory_of_prefix here (List.dropLast_prefix l)) onward
      | descend name =>
        refine Or.inr ⟨[], name, rest, rfl, fun k member => ?_,
          (later _ (start_mem_trailFrom _ _)).resolve_right onward⟩
        rwa [List.mem_singleton.mp member]

/-- A path that nothing is in the way of is there, or lacks its last directory, or others as well. -/
theorem Clear.cases (clear : fs.Clear p) (sound : fs.Sound) (spelled : p.fault? = none) :
    fs.Complete p ∨ (∃ front name, fs.Lacks p front name) ∨ fs.makeDirectory p = .error .notFound := by
  rcases sound.passes_or_breaks (sound.directory_start p) clear.nodes with
    complete | ⟨front, name, back, way, passed, free⟩
  · exact Or.inl complete
  · right
    have fits := clear.fits name (by rw [way]; simp)
    by_cases last : back = []
    · left
      subst last
      rw [← place_of_way fs way] at free
      exact ⟨front, name, way, passed, fits, free⟩
    · right
      obtain ⟨slashed, steps⟩ := p.steps_eq_way
      have behind : back ++ Path.slashStep slashed ≠ [.slashEnd] := by
        intro same
        rcases List.append_eq_singleton_iff.mp same with ⟨bare, _⟩ | ⟨slash, _⟩
        · exact last bare
        · exact slashEnd_notMem_way p (by rw [way, slash]; simp)
      have found : fs.find .makeDirectory p = .error .notFound := by
        rw [find_eq, Path.checked_of_sound spelled, steps, way, List.append_assoc,
          sound.followLinks_passed (by simp) _ passed, List.cons_append, followLinks_tried ⟨by simp, fits⟩, free, meet,
          if_neg (by simp [last]), if_neg behind]
      rw [makeDirectory, makeNode, found]
      rfl

theorem makeLast_of_complete (sound : fs.Sound) (complete : fs.Complete p) (spelled : p.fault? = none) :
    fs.makeDirectory p = .error .alreadyExists ∧ fs.makeLast p = (.ok (), fs) := by
  have leads := sound.leads_of_complete complete
  have taken := leads.makeDirectory_taken spelled
  refine ⟨taken, ?_⟩
  rw [makeLast_of_error taken, if_pos (leads.isDirectory spelled)]

/-- Where the last directory of a path can be made, nothing else is missing. -/
theorem Clear.of_makeLast (clear : fs.Clear p) (sound : fs.Sound) (spelled : p.fault? = none)
    (made : fs.makeLast p = (.ok (), fs')) :
    fs.Complete p ∧ fs' = fs ∨ ∃ front name, fs.Lacks p front name ∧
      fs' = fs.put (fs.place p) (.directory (fs.modeBelow (fs.place p).dropLast)) := by
  rcases clear.cases sound spelled with complete | ⟨front, name, lacks⟩ | missing
  · rw [(makeLast_of_complete sound complete spelled).2] at made
    cases made
    exact Or.inl ⟨complete, rfl⟩
  · rw [makeLast_of_made (lacks.makeDirectory sound spelled)] at made
    cases made
    exact Or.inr ⟨front, name, lacks, rfl⟩
  · -- what is missing is no directory
    exfalso
    obtain ⟨_, there, _⟩ := (makeLast_ok made).resolve_left (by rw [missing]; simp)
    have complete : fs.Complete p := (clear.plain.leads there).1.isDirectoryAt_trail sound clear.plain
    rw [(makeLast_of_complete sound complete spelled).1] at missing
    cases missing

/-- What is on the way of a path in the second file system is there in the first one too, or is to be there in
the end. -/
structure Between (p : Path) (fs final fs' : FileSystem) : Prop where
  here : fs'.here = fs.here
  nodes : ∀ l ∈ fs.trail p, fs'.node? l = fs.node? l ∨ fs'.node? l = final.node? l

namespace Between

variable {ready : FileSystem}

theorem refl (p : Path) (fs final : FileSystem) : Between p fs final fs :=
  ⟨rfl, fun _ _ => Or.inl rfl⟩

/-- What is there stays as it is to the end. -/
theorem settled (between : Between p fs final fs') (grows : fs.Grows final) {node : Node} (passed : l ∈ fs.trail p)
    (there : fs'.node? l = some node) : final.node? l = some node := by
  rcases between.nodes l passed with same | same
  · exact grows.kept (by rw [← same, there])
  · rw [← same, there]

theorem clear (between : Between p fs final fs') (grows : fs.Grows final) (sound : final.Sound)
    (complete : final.Complete p) : fs'.Clear p := by
  have trail : final.trail p = fs.trail p := trail_congr grows.here p
  refine ⟨?_, ?_⟩
  · intro l member
    rw [trail_congr between.here] at member
    cases atNode : fs'.node? l with
    | none => exact Or.inl rfl
    | some node =>
      have directory := complete l (by rwa [trail])
      rw [isDirectoryAt, between.settled grows member atNode] at directory
      rw [isDirectoryAt, atNode]
      exact Or.inr directory
  · intro name member
    obtain ⟨front, back, split⟩ := List.append_of_mem member
    have passed : front.foldl Step.apply (final.start p) ++ [name] ∈ final.trail p := by
      rw [FileSystem.trail, split, List.append_cons, mem_trailFrom_append]
      refine Or.inl ?_
      have atEnd := foldl_mem_trailFrom (final.start p) (front ++ [.descend name])
      rwa [List.foldl_append] at atEnd
    obtain ⟨mode, there⟩ := isDirectoryAt_iff.mp (complete _ passed)
    exact (sound.names _ (by rw [there]; rfl)).2 name (by simp)

/-- With all its directories there, the second file system has come to the end. -/
theorem ended (between : Between p fs final fs') (grows : fs.Grows final) (complete : fs'.Complete p)
    (here : ready.here = fs.here) : Between p ready final fs' := by
  refine ⟨between.here.trans here.symm, fun l member => Or.inr ?_⟩
  rw [trail_congr here] at member
  obtain ⟨mode, there⟩ := isDirectoryAt_iff.mp (complete l (by rwa [trail_congr between.here]))
  rw [there, between.settled grows member there]

/-- Where the first file system has come to the end, the second one has as well. -/
theorem complete (between : Between p fs final fs') (grows : fs.Grows final) (complete : fs.Complete p) :
    fs'.Complete p := by
  intro l member
  rw [trail_congr between.here] at member
  obtain ⟨mode, there⟩ := isDirectoryAt_iff.mp (complete l member)
  rcases between.nodes l member with same | same
  · rw [isDirectoryAt, same, ← isDirectoryAt, complete l member]
  · rw [isDirectoryAt, same, grows.kept there]
    rfl

/-- Two directories made in a place that both lack. -/
theorem put (between : Between p fs final fs') {m : Location} {node node' : Node}
    (same : node' = node ∨ final.node? m = some node') :
    Between p (fs.put m node) final (fs'.put m node') := by
  refine ⟨between.here, fun l member => ?_⟩
  rw [node?_put, node?_put]
  by_cases atM : l = m
  · rw [if_pos atM, if_pos atM, atM]
    rcases same with rfl | atEnd
    · exact Or.inl rfl
    · exact Or.inr atEnd.symm
  · rw [if_neg atM, if_neg atM]
    exact between.nodes l member

theorem makeLast (between : Between p fs final fs') (sound : fs.Sound) (sound' : fs'.Sound)
    (soundFinal : final.Sound) (grows : fs.Grows final) (atEnd : final.Complete p) (spelled : p.fault? = none)
    (made : fs.makeLast p = (.ok (), ready)) (growsReady : ready.Grows final) :
    ∃ ready', fs'.makeLast p = (.ok (), ready') ∧ Between p ready final ready' := by
  have clear := (refl p fs final).clear grows soundFinal atEnd
  have clear' := between.clear grows soundFinal atEnd
  rcases clear.of_makeLast sound spelled made with ⟨complete, rfl⟩ | ⟨front, name, lacks, rfl⟩
  · exact ⟨fs', (makeLast_of_complete sound' (between.complete grows complete) spelled).2, between⟩
  · have start := start_congr between.here p
    have place := place_congr between.here p
    have passed : ∀ l ∈ trailFrom (fs.start p) front, fs'.node? l = fs.node? l := by
      intro l member
      obtain ⟨mode, there⟩ := isDirectoryAt_iff.mp (lacks.passed l member)
      rcases between.nodes l ((mem_trail_of_way lacks.way).mpr (Or.inl member)) with same | same
      · exact same
      · rw [same, there, grows.kept there]
    have directories : ∀ l ∈ trailFrom (fs'.start p) front, fs'.isDirectoryAt l = true := by
      intro l member
      rw [start] at member
      rw [isDirectoryAt, passed l member, ← isDirectoryAt, lacks.passed l member]
    rcases clear'.nodes (fs.place p) (by rw [← place]; exact place_mem_trail _ _) with vacant | there
    · have lacks' : fs'.Lacks p front name := ⟨lacks.way, directories, lacks.fits, by rw [place, vacant]⟩
      refine ⟨_, makeLast_of_made (lacks'.makeDirectory sound' spelled), ?_⟩
      have mode : fs'.modeBelow (fs.place p).dropLast = fs.modeBelow (fs.place p).dropLast := by
        rw [modeBelow, modeBelow, place_of_way fs lacks.way, List.dropLast_concat,
          passed _ (foldl_mem_trailFrom _ _)]
      rw [place, mode]
      exact between.put (Or.inl rfl)
    · have complete : fs'.Complete p := by
        intro l member
        rcases (mem_trail_of_way lacks.way).mp member with early | last
        · exact directories l early
        · rw [last, place, there]
      exact ⟨fs', (makeLast_of_complete sound' complete spelled).2, between.ended grows complete rfl⟩

end Between

/-- A lineage is made of paths that are not refused by their spelling. -/
theorem spelled_of_makeLineage {ancestors : List Path} (named : p.components ≠ [])
    (made : makeLineage (p :: ancestors) fs = (.ok (), fs')) : p.fault? = none := by
  cases spelled : p.fault? with
  | none => rfl
  | some fault =>
    obtain ⟨failed, noDirectory⟩ : fs.makeDirectory p = .error fault ∧ fs.isDirectory p = false :=
      makeDirectory_of_fault spelled
    rcases (makeLineage_ok named).mp made with ⟨_, last⟩ | ⟨missing, _⟩
    · rw [makeLast_of_error failed] at last
      simp [noDirectory] at last
    · exact absurd missing (makeDirectory_ne_notFound named spelled)

theorem trail_parent {q : Path} (above : p.parent = some q) (passed : l ∈ fs.trail q) : l ∈ fs.trail p := by
  obtain ⟨isFront, _, anchored⟩ := Path.way_parent above
  rw [trail, start, anchored] at passed
  exact trailFrom_prefix isFront _ l passed

theorem Plain.parent {q : Path} (plain : fs.Plain p) (above : p.parent = some q) : fs.Plain q :=
  fun l member => plain l (trail_parent above member)

theorem Clear.of_adds {fresh : Location → Prop} (clear : fs.Clear p) (adds : fs.AddsDirectories fs' fresh) :
    fs'.Clear p := by
  refine ⟨fun l member => ?_, clear.fits⟩
  rw [trail_congr adds.here] at member
  rcases adds.nodes l with same | ⟨_, _, directory⟩
  · rw [isDirectoryAt, same, ← isDirectoryAt]
    exact clear.nodes l member
  · exact Or.inr directory

theorem Clear.makeLast (clear : fs.Clear p) (sound : fs.Sound) (spelled : p.fault? = none)
    (made : fs.makeLast p = (.ok (), fs')) : fs.Grows fs' ∧ fs.makeDirectory p ≠ .error .notFound := by
  rcases clear.of_makeLast sound spelled made with ⟨complete, rfl⟩ | ⟨front, name, lacks, rfl⟩
  · exact ⟨.refl _, by rw [(makeLast_of_complete sound complete spelled).1]; simp⟩
  · exact ⟨.put lacks.free _, by rw [lacks.makeDirectory sound spelled]; simp⟩

namespace Between

variable {ready prepared prepared' : FileSystem} {q : Path}

/-- What a directory is made in was there, or was made before it. So the mode of the last directory is the same
in the end, whether those above it were made before or not. -/
theorem mode_of_last (between : Between p fs final fs') (above : p.parent = some q) (grows : fs.Grows final)
    (atEnd : final.Complete p) (adds : fs.AddsDirectories prepared (· ∈ fs.trail q))
    (growsPrepared : prepared.Grows final) (clear : prepared.Clear p) (sound : prepared.Sound)
    (spelled : p.fault? = none) (made : prepared.makeLast p = (.ok (), ready)) (growsReady : ready.Grows final)
    (lacks : fs'.Lacks p front name) :
    final.node? (fs'.place p) = some (.directory (fs'.modeBelow (fs'.place p).dropLast)) := by
  have sameStart := start_congr between.here p
  have free := lacks.free
  rw [place_congr between.here] at free ⊢
  have onTrail : ∀ l ∈ trailFrom (fs.start p) front, l ∈ fs.trail p :=
    fun l member => (mem_trail_of_way lacks.way).mpr (Or.inl member)
  obtain ⟨modeAtEnd, thereAtEnd⟩ := isDirectoryAt_iff.mp
    (atEnd (fs.place p) (by rw [trail_congr grows.here]; exact place_mem_trail fs p))
  rcases clear.of_makeLast sound spelled made with ⟨complete, rfl⟩ | ⟨front', name', lacks', rfl⟩
  · -- the place was free, and is not on the way to the parent
    exfalso
    obtain ⟨mode, there⟩ := isDirectoryAt_iff.mp (complete (fs.place p)
      (by rw [trail_congr adds.here]; exact place_mem_trail fs p))
    have vacant : fs.node? (fs.place p) = none := by
      rcases between.nodes _ (place_mem_trail fs p) with same | same
      · rw [← same, free]
      · rw [same, thereAtEnd] at free
        cases free
    rcases adds.nodes (fs.place p) with same | ⟨_, passed, _⟩
    · rw [same, vacant] at there
      cases there
    · obtain ⟨isFront, differs, anchored⟩ := Path.way_parent above
      rw [lacks.way] at isFront differs
      rw [FileSystem.trail, FileSystem.start, anchored] at passed
      have early := trailFrom_prefix ((List.prefix_concat_iff.mp isFront).resolve_left differs) _ _ passed
      have directory := lacks.passed _ (by rw [sameStart]; exact early)
      rw [isDirectoryAt, free] at directory
      cases directory
  · obtain rfl : front' = front := (List.append_inj' (lacks'.way.symm.trans lacks.way) rfl).1
    have parent := foldl_mem_trailFrom (fs.start p) front'
    obtain ⟨mode, there⟩ := isDirectoryAt_iff.mp (lacks'.passed _ (by rw [start_congr adds.here]; exact parent))
    obtain ⟨mode', there'⟩ := isDirectoryAt_iff.mp (lacks.passed _ (by rw [sameStart]; exact parent))
    have sameNode : fs'.node? (front'.foldl Step.apply (fs.start p)) =
        prepared.node? (front'.foldl Step.apply (fs.start p)) := by
      rw [there, there', ← growsPrepared.kept there, ← between.settled grows (onTrail _ parent) there']
    have placed : (fs.place p).dropLast = front'.foldl Step.apply (fs.start p) := by
      rw [place_of_way fs lacks.way, List.dropLast_concat]
    rw [modeBelow, placed, sameNode, ← placed, ← modeBelow]
    refine growsReady.kept ?_
    rw [place_congr adds.here, node?_put, if_pos rfl]

/-- When the last directory is made in the second file system alone, that one has come to the end. -/
theorem put_last (between : Between p fs final fs') (grows : fs.Grows final) (here : ready.here = fs.here)
    (lacks : fs'.Lacks p front name) {node : Node} (atLast : final.node? (fs'.place p) = some node) :
    Between p ready final (fs'.put (fs'.place p) node) := by
  refine ⟨between.here.trans here.symm, fun l member => Or.inr ?_⟩
  rw [trail_congr here] at member
  rw [node?_put]
  split
  · rename_i same
    rw [same, atLast]
  · rename_i differs
    have early := ((mem_trail_of_way lacks.way).mp (by rwa [trail_congr between.here])).resolve_right differs
    obtain ⟨mode, there⟩ := isDirectoryAt_iff.mp (lacks.passed l early)
    rw [there, between.settled grows member there]

/-- Making directories on the way to the parent changes nothing else on the way of the path. -/
theorem of_parent (between : Between p fs final fs') (above : Between q prepared final prepared')
    (adds : fs.AddsDirectories prepared (· ∈ fs.trail q)) (adds' : fs'.AddsDirectories prepared' (· ∈ fs'.trail q)) :
    Between p prepared final prepared' := by
  refine ⟨above.here, fun l member => ?_⟩
  by_cases passed : l ∈ fs.trail q
  · exact above.nodes l (by rwa [trail_congr adds.here])
  · rw [trail_congr adds.here] at member
    have same := (adds.nodes l).resolve_right fun ⟨_, inTrail, _⟩ => passed inTrail
    rw [trail_congr between.here] at adds'
    have same' := (adds'.nodes l).resolve_right fun ⟨_, inTrail, _⟩ => passed inTrail
    rw [same, same']
    exact between.nodes l member

/-- What is made of a lineage is made of it again where some of it is there. -/
theorem makeLineage {fuel : Nat} (between : Between p fs final fs') (sound : fs.Sound) (sound' : fs'.Sound)
    (soundFinal : final.Sound) (plain : fs.Plain p) (growsReady : ready.Grows final) (atEnd : final.Complete p)
    (made : FileSystem.makeLineage (parentsFrom fuel p) fs = (.ok (), ready)) :
    ∃ ready', FileSystem.makeLineage (parentsFrom fuel p) fs' = (.ok (), ready') ∧ Between p ready final ready' := by
  induction fuel using Nat.strong_induction_on generalizing p ready with
  | _ fuel ih =>
  have adds := (sound.makeParents plain fuel).2
  rw [made] at adds
  have grows := adds.grows.trans growsReady
  obtain ⟨ancestors, split⟩ := parentsFrom_eq_cons fuel p
  by_cases named : p.components = []
  · rw [split, makeLineage_unnamed named] at made ⊢
    cases made
    exact ⟨fs', rfl, between⟩
  have spelled := spelled_of_makeLineage named (split ▸ made)
  have clear := (refl p fs final).clear grows soundFinal atEnd
  have clear' := between.clear grows soundFinal atEnd
  rcases (makeLineage_ok named).mp (split ▸ made) with ⟨_, last⟩ | ⟨_, prepared, first, last⟩
  · -- the last directory is all that is missing
    obtain ⟨ready', last', between'⟩ := between.makeLast sound sound' soundFinal grows atEnd spelled last growsReady
    refine ⟨ready', ?_, between'⟩
    rw [split]
    exact (makeLineage_ok named).mpr (Or.inl ⟨(clear'.makeLast sound' spelled last').2, last'⟩)
  · -- those above it are made first
    rcases parentsFrom_cases fuel p with alone | ⟨less, q, rfl, above, split'⟩
    · rw [alone] at split
      cases split
      cases first
    · rw [split'] at split ⊢
      cases split
      have plainParent := plain.parent above
      obtain ⟨soundPrepared, addsPrepared⟩ := sound.makeParents plainParent less
      rw [first] at soundPrepared addsPrepared
      have clearPrepared := clear.of_adds addsPrepared
      have growsPrepared := (clearPrepared.makeLast soundPrepared spelled last).1.trans growsReady
      rcases clear'.cases sound' spelled with complete | ⟨front, name, lacks⟩ | missing
      · have there := makeLast_of_complete sound' complete spelled
        refine ⟨fs', (makeLineage_ok named).mpr (Or.inl ⟨by rw [there.1]; simp, there.2⟩), ?_⟩
        exact between.ended grows complete adds.here
      · have place := lacks.makeDirectory sound' spelled
        refine ⟨_, (makeLineage_ok named).mpr (Or.inl ⟨by rw [place]; simp, makeLast_of_made place⟩), ?_⟩
        have mode := between.mode_of_last above grows atEnd addsPrepared growsPrepared clearPrepared soundPrepared
          spelled last growsReady lacks
        exact between.put_last grows adds.here lacks mode
      · have betweenParent : Between q fs final fs' :=
          ⟨between.here, fun l member => between.nodes l (trail_parent above member)⟩
        have soundPrepared' := (sound'.makeParents (clear'.plain.parent above) less).1
        have addsPrepared' := (sound'.makeParents (clear'.plain.parent above) less).2
        obtain ⟨prepared', first', betweenPrepared⟩ := ih less (by omega) betweenParent plainParent growsPrepared
          (fun l member => atEnd l (trail_parent above member)) first
        rw [first'] at soundPrepared' addsPrepared'
        obtain ⟨ready', last', between'⟩ := (between.of_parent betweenPrepared addsPrepared addsPrepared').makeLast
          soundPrepared soundPrepared' soundFinal growsPrepared atEnd spelled last growsReady
        exact ⟨ready', (makeLineage_ok named).mpr (Or.inr ⟨missing, prepared', first', last'⟩), between'⟩

end Between

/-- Directories that were made once are made again where some of them are gone: all of them are there, as
they were, and what is on no way to them is left alone. -/
theorem Sound.makeDirectories_again {ready : FileSystem} (sound : fs.Sound) (sound' : fs'.Sound) (plain : fs.Plain p)
    (made : fs.makeDirectories p = (.ok (), ready)) (between : Between p fs ready fs') :
    ∃ ready', fs'.makeDirectories p = (.ok (), ready') ∧ ready'.Sound ∧
      fs'.AddsDirectories ready' (· ∈ fs.trail p) ∧ ∀ l ∈ fs.trail p, ready'.node? l = ready.node? l := by
  obtain ⟨soundReady, adds⟩ := sound.makeDirectories plain
  rw [made] at soundReady adds
  have atEnd : ready.Complete p :=
    (sound.leads_of_makeDirectories plain made).1.isDirectoryAt_trail soundReady (adds.plain plain)
  have plain' := (between.clear adds.grows soundReady atEnd).plain
  obtain ⟨ready', made', between'⟩ := between.makeLineage sound sound' soundReady plain (.refl _) atEnd made
  obtain ⟨soundReady', adds'⟩ := sound'.makeDirectories plain'
  rw [show fs'.makeDirectories p = (.ok (), ready') from made'] at soundReady' adds'
  rw [trail_congr between.here] at adds'
  refine ⟨ready', made', soundReady', adds', fun l member => ?_⟩
  rcases between'.nodes l (by rwa [trail_congr adds.here]) with same | same <;> exact same

end Unjar.FileSystem
