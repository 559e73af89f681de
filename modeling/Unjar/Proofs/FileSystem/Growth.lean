import Unjar.FileSystem.Operations
import Unjar.Proofs.FileSystem.Trail

/-!
What making directories does to a file system: it adds directories on the trail of the path, whether it
succeeds or not, and changes nothing else.
-/

namespace Unjar

theorem Path.isName_of_step {p : Path} {name : Bytes} (member : Step.descend name ∈ p.steps) : IsName name := by
  have inWay : Step.descend name ∈ p.way := by
    obtain ⟨slashed, same⟩ := p.steps_eq_way
    rw [same] at member
    refine (List.mem_append.mp member).resolve_right fun last => ?_
    cases Path.eq_slashEnd_of_mem last
  obtain ⟨segment, inSegments, found⟩ := List.mem_filterMap.mp inWay
  obtain ⟨rfl, valid⟩ := isName_of_component (Path.slash_notMem_segment inSegments) (Step.component_of_descend found)
  exact valid

namespace FileSystem

variable {fs fs' fs'' : FileSystem}

/-- A free name in an existing directory. -/
structure Vacancy (fs : FileSystem) (parent : Location) (name : Bytes) : Prop where
  directory : fs.isDirectoryAt parent = true
  valid : IsName name
  fits : name.length ≤ nameMax
  free : fs.node? (parent ++ [name]) = none

theorem isDirectoryAt_put (fs : FileSystem) (l m : Location) (node : Node) :
    (fs.put l node).isDirectoryAt m = if m = l then node.isDirectory else fs.isDirectoryAt m := by
  unfold isDirectoryAt
  rw [node?_put]
  split <;> rfl

theorem distinct_put (fs : FileSystem) (l : Location) (node : Node) (distinct : (fs.nodes.map Prod.fst).Nodup) :
    ((fs.put l node).nodes.map Prod.fst).Nodup := by
  rw [put, List.map_cons, List.nodup_cons]
  refine ⟨?_, (List.filter_sublist.map _).nodup distinct⟩
  intro member
  obtain ⟨entry, kept, same⟩ := List.mem_map.mp member
  simp only [ne_eq, decide_not, List.mem_filter, Bool.not_eq_true', decide_eq_false_iff_not] at kept
  exact kept.2 same

theorem Sound.put_new (sound : fs.Sound) {parent : Location} {name : Bytes} (vacancy : fs.Vacancy parent name)
    (node : Node) : (fs.put (parent ++ [name]) node).Sound := by
  have differs : ∀ l, fs.isDirectoryAt l = true → l ≠ parent ++ [name] := by
    rintro l there rfl
    rw [isDirectoryAt, vacancy.free] at there
    cases there
  have stays : ∀ l, fs.isDirectoryAt l = true → (fs.put (parent ++ [name]) node).isDirectoryAt l = true := by
    intro l there
    rw [isDirectoryAt_put, if_neg (differs l there)]
    exact there
  refine ⟨distinct_put _ _ _ sound.distinct, stays _ sound.root, stays _ sound.here, ?_, ?_⟩
  · intro l other there
    rw [node?_put] at there
    split at there
    · rename_i same
      rw [List.append_inj_left' same rfl]
      exact stays _ vacancy.directory
    · exact stays _ (sound.parent _ _ there)
  · intro l there
    rw [node?_put] at there
    split at there
    · rename_i same
      obtain ⟨valid, fits⟩ := sound.names parent (isSome_of_isDirectoryAt vacancy.directory)
      rw [same]
      refine ⟨valid.append (.singleton vacancy.valid), ?_⟩
      intro other member
      rcases List.mem_append.mp member with inParent | isName
      · exact fits other inParent
      · rw [List.mem_singleton.mp isName]
        exact vacancy.fits
    · exact sound.names _ there

/-- A node may be exchanged for another one, if a directory stays a directory. -/
theorem Sound.put_same (sound : fs.Sound) {l : Location} {old node : Node} (there : fs.node? l = some old)
    (directory : old.isDirectory = true → node.isDirectory = true) : (fs.put l node).Sound := by
  have stays : ∀ m, fs.isDirectoryAt m = true → (fs.put l node).isDirectoryAt m = true := by
    intro m isDirectory
    rw [isDirectoryAt_put]
    split
    · rename_i same
      rw [same, isDirectoryAt, there] at isDirectory
      exact directory isDirectory
    · exact isDirectory
  have existed : ∀ m, ((fs.put l node).node? m).isSome → (fs.node? m).isSome := by
    intro m isThere
    rw [node?_put] at isThere
    split at isThere
    · rename_i same; rw [same, there]; rfl
    · exact isThere
  exact ⟨distinct_put _ _ _ sound.distinct, stays _ sound.root, stays _ sound.here,
    fun m name isThere => stays _ (sound.parent _ _ (existed _ isThere)),
    fun m isThere => sound.names _ (existed _ isThere)⟩

/-- The second file system is the first one and new directories at such locations. -/
structure AddsDirectories (fs fs' : FileSystem) (fresh : Location → Prop) : Prop where
  here : fs'.here = fs.here
  nodes : ∀ l, fs'.node? l = fs.node? l ∨ fs.node? l = none ∧ fresh l ∧ fs'.isDirectoryAt l = true

namespace AddsDirectories

variable {fresh : Location → Prop}

theorem refl (fs : FileSystem) : fs.AddsDirectories fs fresh :=
  ⟨rfl, fun _ => Or.inl rfl⟩

theorem kept (adds : fs.AddsDirectories fs' fresh) {l : Location} {node : Node} (there : fs.node? l = some node) :
    fs'.node? l = some node := by
  rcases adds.nodes l with same | ⟨absent, _⟩
  · rw [same, there]
  · rw [there] at absent; cases absent

theorem absent (adds : fs.AddsDirectories fs' fresh) {l : Location} (vacant : fs'.node? l = none) :
    fs.node? l = none := by
  rcases adds.nodes l with same | ⟨absent, _⟩
  · rw [← same, vacant]
  · exact absent

theorem directory (adds : fs.AddsDirectories fs' fresh) {l : Location} (there : fs.isDirectoryAt l = true) :
    fs'.isDirectoryAt l = true := by
  obtain ⟨mode, atNode⟩ := isDirectoryAt_iff.mp there
  exact isDirectoryAt_iff.mpr ⟨mode, adds.kept atNode⟩

/-- Whatever is no directory was there before. -/
theorem other (adds : fs.AddsDirectories fs' fresh) {l : Location} {node : Node} (there : fs'.node? l = some node)
    (notDirectory : node.isDirectory = false) : fs.node? l = some node := by
  rcases adds.nodes l with same | ⟨_, _, directory⟩
  · rw [← same, there]
  · rw [isDirectoryAt, there] at directory
    rw [show node.isDirectory = true from directory] at notDirectory
    cases notDirectory

theorem trans (first : fs.AddsDirectories fs' fresh) (second : fs'.AddsDirectories fs'' fresh) :
    fs.AddsDirectories fs'' fresh := by
  refine ⟨second.here.trans first.here, ?_⟩
  intro l
  rcases first.nodes l with same | ⟨absent, isFresh, directory⟩
  · rcases second.nodes l with same' | ⟨absent', isFresh', directory'⟩
    · exact Or.inl (same'.trans same)
    · exact Or.inr ⟨by rw [← same, absent'], isFresh', directory'⟩
  · exact Or.inr ⟨absent, isFresh, second.directory directory⟩

theorem weaken {fresh' : Location → Prop} (adds : fs.AddsDirectories fs' fresh) (wider : ∀ l, fresh l → fresh' l) :
    fs.AddsDirectories fs' fresh' :=
  ⟨adds.here, fun l => (adds.nodes l).imp_right fun ⟨absent, isFresh, directory⟩ =>
    ⟨absent, wider l isFresh, directory⟩⟩

theorem keeps (adds : fs.AddsDirectories fs' fresh) : fs.Keeps fs' :=
  ⟨adds.here, fun _ => adds.directory, fun _ _ => adds.kept⟩

theorem plain (adds : fs.AddsDirectories fs' fresh) {p : Path} (plain : fs.Plain p) : fs'.Plain p := by
  intro l member target there
  rw [trail_congr adds.here] at member
  exact plain l member target (adds.other there rfl)

theorem put {parent : Location} {name : Bytes} (vacant : fs.node? (parent ++ [name]) = none)
    (isFresh : fresh (parent ++ [name])) (mode : Nat) :
    fs.AddsDirectories (fs.put (parent ++ [name]) (.directory mode)) fresh := by
  refine ⟨rfl, ?_⟩
  intro l
  rw [node?_put, isDirectoryAt_put]
  split
  · rename_i same
    right
    rw [same]
    exact ⟨vacant, isFresh, rfl⟩
  · exact Or.inl rfl

end AddsDirectories

/-- Every node is as it was, and there may be more. -/
structure Grows (fs fs' : FileSystem) : Prop where
  here : fs'.here = fs.here
  kept : ∀ {l node}, fs.node? l = some node → fs'.node? l = some node

namespace Grows

theorem refl (fs : FileSystem) : fs.Grows fs :=
  ⟨rfl, fun there => there⟩

theorem trans (first : fs.Grows fs') (second : fs'.Grows fs'') : fs.Grows fs'' :=
  ⟨second.here.trans first.here, fun there => second.kept (first.kept there)⟩

theorem directory (grows : fs.Grows fs') {l : Location} (there : fs.isDirectoryAt l = true) :
    fs'.isDirectoryAt l = true := by
  obtain ⟨mode, atNode⟩ := isDirectoryAt_iff.mp there
  exact isDirectoryAt_iff.mpr ⟨mode, grows.kept atNode⟩

theorem keeps (grows : fs.Grows fs') : fs.Keeps fs' :=
  ⟨grows.here, fun _ => grows.directory, fun _ _ => grows.kept⟩

theorem isSome (grows : fs.Grows fs') {l : Location} (there : (fs.node? l).isSome) : (fs'.node? l).isSome := by
  obtain ⟨node, atNode⟩ := Option.isSome_iff_exists.mp there
  rw [grows.kept atNode]
  rfl

theorem contents (grows : fs.Grows fs') {l : Location} {data : Bytes} (there : fs.contents l = .ok data) :
    fs'.contents l = .ok data := by
  unfold FileSystem.contents at there ⊢
  cases atNode : fs.node? l with
  | none => rw [atNode] at there; cases there
  | some node =>
    rw [grows.kept atNode]
    rwa [atNode] at there

theorem put {l : Location} (vacant : fs.node? l = none) (node : Node) : fs.Grows (fs.put l node) := by
  refine ⟨rfl, fun {m other} there => ?_⟩
  have differs : m ≠ l := by
    rintro rfl
    rw [vacant] at there
    cases there
  rw [node?_put, if_neg differs, there]

/-- Where nodes are added, what stood for a path stands for it still. -/
theorem stat? (grows : fs.Grows fs') {p : Path} {node : Node} (there : fs.stat? p = some node) :
    fs'.stat? p = some node := by
  obtain ⟨l, located, atNode⟩ := stat?_eq_some.mp there
  exact stat?_eq_some.mpr ⟨l, grows.keeps.locate located ((grows.kept atNode).trans atNode.symm), grows.kept atNode⟩

end Grows

theorem AddsDirectories.grows {fresh : Location → Prop} (adds : fs.AddsDirectories fs' fresh) : fs.Grows fs' :=
  ⟨adds.here, fun there => adds.kept there⟩

/-- What is found free is free, in a directory. -/
theorem Finds.vacancy (sound : fs.Sound) {purpose : Purpose} {links : Nat} {l parent : Location} {name : Bytes}
    {slashed : Bool} {steps : List Step} (found : fs.Finds purpose (.free parent name slashed) links l steps)
    (here : fs.isDirectoryAt l = true) (valid : ∀ name, .descend name ∈ steps → IsName name) :
    purpose = .openFile ∧ slashed = true ∨ fs.Vacancy parent name := by
  induction found with
  | arrives same | stops _ _ _ same => cases same
  | stays _ _ ih => exact ih here fun name member => valid name (List.mem_cons_of_mem _ member)
  | ascends _ ih =>
    exact ih (sound.directory_of_prefix here (List.dropLast_prefix _))
      fun name member => valid name (List.mem_cons_of_mem _ member)
  | enters _ there _ ih => exact ih there fun name member => valid name (List.mem_cons_of_mem _ member)
  | follows _ _ _ _ _ ih =>
    refine ih (sound.directory_of_target _ here) fun name member => ?_
    rcases List.mem_append.mp member with inTarget | behind
    · exact Path.isName_of_step inTarget
    · exact valid name (List.mem_cons_of_mem _ behind)
  | vacant tried free _ same =>
    cases same
    exact Or.inr ⟨here, valid _ List.mem_cons_self, tried.fits, free⟩
  | slashed opened _ same =>
    cases same
    exact Or.inl ⟨opened, rfl⟩

theorem Sound.find_free (sound : fs.Sound) {purpose : Purpose} {p : Path} {parent : Location} {name : Bytes}
    {slashed : Bool} (found : fs.find purpose p = .ok (.free parent name slashed)) :
    purpose = .openFile ∧ slashed = true ∨ fs.Vacancy parent name :=
  (find_ok.mp found).2.vacancy sound (sound.directory_start p) fun _ => Path.isName_of_step

end FileSystem

end Unjar
