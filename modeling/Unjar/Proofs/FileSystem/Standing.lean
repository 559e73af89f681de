import Unjar.Proofs.FileSystem.Making
import Unjar.Proofs.Path.Parent

/-!
Making a directory that is there already. Nothing changes, and the answer is read off the spelling of
the path.
-/

namespace Unjar

namespace Path

/-- The answer to an attempt to make the directory a path leads to. -/
def standing (p : Path) : Except Fault Unit :=
  if p.components = [] then .ok () else p.checked (.ok ())

/-- What is trimmed off a path does not change where it leads. -/
theorem way_trimmed (base : Path) :
    base.trimmed.isAbsolute = base.isAbsolute ∧ ∃ idle, FileSystem.Idle idle ∧ base.way = base.trimmed.way ++ idle := by
  unfold trimmed
  split
  · rename_i bare
    have empty := (lead_eq_nil_iff base).mp bare
    obtain rfl : base = ⟨[]⟩ := by cases base; exact congrArg Path.mk empty
    exact ⟨rfl, [], by simp [FileSystem.Idle], by simp⟩
  · rename_i some
    have open' : base.text ≠ [] := fun empty => some ((lead_eq_nil_iff base).mpr empty)
    have isFront := front_of_trimEnd base.lead
    have clean : ∀ segment ∈ trimEnd base.lead, slash ∉ segment :=
      fun segment member => slash_notMem_lead (isFront.subset member)
    obtain ⟨first, body, split⟩ := List.exists_cons_of_ne_nil some
    have nonempty : trimEnd base.lead ≠ [] := by rw [split]; simp [trimEnd]
    have heads : (trimEnd base.lead).head? = base.segments.head? := by
      rw [← head?_lead base open', split]
      rfl
    refine ⟨isAbsolute_ofSegments open' heads clean, ?_⟩
    have way : (ofSegments base.isAbsolute (trimEnd base.lead)).way =
        (trimEnd base.lead).filterMap Step.ofSegment? :=
      filterMap_ofSegments rfl base.isAbsolute nonempty clean
    have wayLead : base.way = base.lead.filterMap Step.ofSegment? := (filterMap_lead base _ rfl).symm
    have noise : ∀ segment ∈ body.reverse.takeWhile isNoise, isNoise segment = true :=
      fun segment member => List.mem_takeWhile_imp member
    refine ⟨((body.reverse.takeWhile isNoise).reverse).filterMap Step.ofSegment?, ?_, ?_⟩
    · intro step member
      obtain ⟨segment, inNoise, atStep⟩ := List.mem_filterMap.mp member
      have isNoise := noise segment (List.mem_reverse.mp inNoise)
      simp only [Path.isNoise, decide_eq_true_eq] at isNoise
      rcases isNoise with rfl | rfl
      · cases atStep
      · exact Or.inl (Option.some.inj atStep).symm
    · have whole : (body.reverse.dropWhile isNoise).reverse ++ (body.reverse.takeWhile isNoise).reverse = body := by
        rw [← List.reverse_append, List.takeWhile_append_dropWhile, List.reverse_reverse]
      rw [way, wayLead, split, trimEnd, ← List.filterMap_append, List.cons_append, whole]

end Path

namespace FileSystem

variable {fs fs' : FileSystem}

/-- Where a directory is reached, it is found for another purpose as well, or a link in its place. -/
theorem Finds.for_purpose {purpose : Purpose} {links : Nat} {l m : Location} {steps : List Step}
    (found : fs.Finds .use (.taken m) links l steps) (notOpened : purpose ≠ .openFile)
    (directory : fs.isDirectoryAt m = true) :
    ∃ m', fs.Finds purpose (.taken m') links l steps ∧
      (fs.isDirectoryAt m' = true ∨ ∃ target, fs.node? m' = some (.link target)) := by
  have retried : ∀ {name rest}, Tried .use name rest → Tried purpose name rest :=
    fun tried => ⟨fun both => notOpened both.1, tried.fits⟩
  induction found with
  | arrives same =>
    cases same
    exact ⟨m, .arrives rfl, Or.inl directory⟩
  | stays stays _ ih => exact ih.imp fun _ => And.imp_left (.stays stays)
  | ascends _ ih => exact ih.imp fun _ => And.imp_left .ascends
  | enters tried there _ ih => exact ih.imp fun _ => And.imp_left (.enters (retried tried) there)
  | @follows _ _ _ rest target tried there _ named _ ih =>
    by_cases followed : followsLast purpose rest = true
    · exact ih.imp fun _ => And.imp_left (.follows (retried tried) there followed named)
    · exact ⟨_, .stops (retried tried) there (Bool.eq_false_iff.mpr followed) rfl, Or.inr ⟨target, there⟩⟩
  | stops _ there stops same =>
    cases same
    rw [stops.not_directory there] at directory
    cases directory
  | vacant _ _ _ same | slashed _ _ same => cases same

theorem Leads.find_taken {p : Path} {l : Location} (leads : fs.Leads p l) (purpose : Purpose)
    (notOpened : purpose ≠ .openFile) (spelled : p.fault? = none) :
    ∃ m, fs.find purpose p = .ok (.taken m) ∧
      (fs.isDirectoryAt m = true ∨ ∃ target, fs.node? m = some (.link target)) := by
  obtain ⟨m, found, settled⟩ := leads.finds.for_purpose notOpened leads.directory
  exact ⟨m, find_ok.mpr ⟨spelled, found⟩, settled⟩

theorem Leads.makeDirectory_taken {p : Path} {l : Location} (leads : fs.Leads p l) (spelled : p.fault? = none) :
    fs.makeDirectory p = .error .alreadyExists := by
  obtain ⟨m, found, _⟩ := leads.find_taken .makeDirectory (by simp) spelled
  rw [makeDirectory, makeNode, found]
  rfl

theorem standing_of_spelled {p : Path} (spelled : p.fault? = none) : p.standing = .ok () := by
  rw [Path.standing, Path.checked_of_sound spelled, ite_self]

theorem makeDirectory_of_fault {p : Path} {fault : Fault} (spelled : p.fault? = some fault) :
    fs.makeDirectory p = .error fault ∧ fs.isDirectory p = false := by
  exact ⟨by rw [makeDirectory, makeNode, find_of_fault spelled]; rfl,
    by rw [FileSystem.isDirectory, stat?, locate_of_fault spelled]; rfl⟩

/-- A path that is refused for its spelling is not missing. -/
theorem makeDirectory_ne_notFound {p : Path} {fault : Fault} (named : p.components ≠ []) (spelled : p.fault? = some fault) :
    fs.makeDirectory p ≠ .error .notFound := by
  rw [(makeDirectory_of_fault spelled).1]
  intro missing
  rw [Except.error.inj missing] at spelled
  exact Path.fault?_ne_notFound (mt (Path.components_eq_nil_iff p).mpr named) spelled

theorem Leads.makeDirectories {p : Path} {l : Location} (leads : fs.Leads p l) :
    fs.makeDirectories p = (p.standing, fs) := by
  obtain ⟨ancestors, split⟩ := parentsFrom_eq_cons p.text.length p
  rw [FileSystem.makeDirectories, lineage, split, Path.standing]
  by_cases named : p.components = []
  · rw [makeLineage_unnamed named, if_pos named]
  · rw [if_neg named]
    cases spelled : p.fault? with
    | none =>
      have taken := leads.makeDirectory_taken spelled
      rw [makeLineage_tried named (by rw [taken]; simp), makeLast_of_error taken, if_pos (leads.isDirectory spelled),
        Path.checked_of_sound spelled]
    | some fault =>
      obtain ⟨failed, noDirectory⟩ : fs.makeDirectory p = .error fault ∧ fs.isDirectory p = false :=
        makeDirectory_of_fault spelled
      rw [makeLineage_tried named (makeDirectory_ne_notFound named spelled), makeLast_of_error failed, Path.checked_of_fault spelled]
      simp [noDirectory]

/-- A directory that is there is made without any change. -/
theorem makeDirectories_of_isDirectory {p : Path} (there : fs.isDirectory p = true) :
    fs.makeDirectories p = (.ok (), fs) := by
  obtain ⟨l, leads, spelled⟩ := leads_of_isDirectory there
  rw [leads.makeDirectories, standing_of_spelled spelled]

/-- A path whose directories were made is led to, also when it is spelled as nothing at all. -/
theorem Sound.leads_of_made (sound : fs.Sound) {p : Path} (made : fs.makeDirectories p = (.ok (), fs')) :
    ∃ l, fs'.Leads p l := by
  by_cases named : p.components = []
  · have sound' := sound.of_makeLineage (lineage p)
    rw [← FileSystem.makeDirectories, made] at sound'
    obtain rfl : p = ⟨[]⟩ := by
      have empty := (Path.components_eq_nil_iff p).mp named
      cases p
      exact congrArg Path.mk empty
    exact ⟨fs'.here, rfl, sound'.here⟩
  · obtain ⟨l, leads, _⟩ := leads_of_isDirectory (sound.isDirectory_of_makeDirectories made named)
    exact ⟨l, leads⟩

/-- Without a link in the way it is led to the location it stands for. -/
theorem Sound.leads_of_makeDirectories (sound : fs.Sound) {p : Path} (plain : fs.Plain p)
    (made : fs.makeDirectories p = (.ok (), fs')) : fs'.Leads p (fs.place p) ∧ p.standing = .ok () := by
  obtain ⟨sound', adds⟩ := sound.makeDirectories plain
  rw [made] at sound' adds
  have place := place_congr adds.here p
  by_cases named : p.components = []
  · have empty := (Path.components_eq_nil_iff p).mp named
    obtain rfl : p = ⟨[]⟩ := by cases p; exact congrArg Path.mk empty
    rw [← place]
    exact ⟨⟨rfl, sound'.here⟩, rfl⟩
  · rw [← place]
    obtain ⟨leads, spelled⟩ := (adds.plain plain).leads (sound.isDirectory_of_makeDirectories made named)
    exact ⟨leads, standing_of_spelled spelled⟩

theorem Leads.trimmed {base : Path} {l : Location} (leads : fs.Leads base l) : fs.Leads base.trimmed l := by
  obtain ⟨anchored, idle, stays, way⟩ := base.way_trimmed
  obtain ⟨found, directory⟩ := leads_iff.mp leads
  rw [way] at found
  rw [leads_iff, start, anchored]
  exact ⟨found.drop_idle stays, directory⟩

end FileSystem

end Unjar
