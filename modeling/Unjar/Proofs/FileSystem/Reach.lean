import Unjar.Proofs.FileSystem.Finds

/-!
Where paths lead. A path that leads to a directory can be cut there: what is looked up behind it is
looked up from that directory. Below a directory without links a look-up is a walk along the names.
-/

namespace Unjar

namespace FileSystem

variable {fs fs' : FileSystem}

/-- What every file system keeps to: a node has one place, its name fits, and it lies in a directory. -/
structure Sound (fs : FileSystem) : Prop where
  distinct : (fs.nodes.map Prod.fst).Nodup
  root : fs.isDirectoryAt [] = true
  here : fs.isDirectoryAt fs.here = true
  parent : ∀ l name, (fs.node? (l ++ [name])).isSome → fs.isDirectoryAt l = true
  names : ∀ l, (fs.node? l).isSome → AllNames l ∧ ∀ name ∈ l, name.length ≤ nameMax

theorem Sound.above (sound : fs.Sound) {l : Location} {names : List Bytes} (there : (fs.node? (l ++ names)).isSome)
    (down : names ≠ []) : fs.isDirectoryAt l = true := by
  induction names using List.reverseRecOn with
  | nil => exact absurd rfl down
  | append_singleton names name ih =>
    rw [← List.append_assoc] at there
    have directory := sound.parent _ _ there
    by_cases last : names = []
    · simpa [last] using directory
    · exact ih (isSome_of_isDirectoryAt directory) last

/-- Nothing lies below what is no directory. -/
theorem Sound.below_none (sound : fs.Sound) {l : Location} {names : List Bytes}
    (other : fs.isDirectoryAt l = false) (down : names ≠ []) : fs.node? (l ++ names) = none := by
  by_contra there
  have directory := sound.above (Option.isSome_iff_ne_none.mpr there) down
  rw [other] at directory
  cases directory

/-- A path that leads to a directory, links followed. The spelling may still be refused when it is
looked up on its own. -/
structure Leads (fs : FileSystem) (p : Path) (l : Location) : Prop where
  walked : fs.followLinks .use linksMax (fs.start p) p.way = .ok (.taken l)
  directory : fs.isDirectoryAt l = true

theorem leads_iff {p : Path} {l : Location} :
    fs.Leads p l ↔ fs.Finds .use (.taken l) linksMax (fs.start p) p.way ∧ fs.isDirectoryAt l = true :=
  ⟨fun leads => ⟨followLinks_ok.mp leads.walked, leads.directory⟩,
    fun both => ⟨followLinks_ok.mpr both.1, both.2⟩⟩

theorem Leads.unique {p : Path} {l m : Location} (leads : fs.Leads p l) (leads' : fs.Leads p m) : l = m :=
  Spot.taken.inj (Except.ok.inj (leads.walked.symm.trans leads'.walked))

/-- Steps behind which every link is followed. -/
def Passes (purpose : Purpose) (rest : List Step) : Prop :=
  ∀ tail, followsLast purpose (tail ++ rest) = true ∧ ¬ (purpose = .openFile ∧ tail ++ rest = [.slashEnd])

theorem passes_use (rest : List Step) : Passes .use rest :=
  fun tail => ⟨followsLast_use (tail ++ rest), by simp⟩

theorem passes_names (purpose : Purpose) {names : List Bytes} (down : names ≠ []) :
    Passes purpose (names.map .descend) := by
  obtain ⟨front, last, rfl⟩ := (List.eq_nil_or_concat' names).resolve_left down
  intro tail
  have last_step : (tail ++ (front ++ [last]).map Step.descend).getLast? = some (.descend last) := by simp
  have notNil : tail ++ (front ++ [last]).map Step.descend ≠ [] := by simp
  have notSlash : tail ++ (front ++ [last]).map Step.descend ≠ [.slashEnd] := by
    intro same
    rw [same] at last_step
    cases last_step
  refine ⟨?_, fun both => notSlash both.2⟩
  unfold followsLast
  split
  all_goals first | rfl | contradiction

theorem Passes.tried {purpose : Purpose} {name : Bytes} {tail rest : List Step} (passes : Passes purpose rest)
    (tried : Tried .use name tail) : Tried purpose name (tail ++ rest) :=
  ⟨(passes tail).2, tried.fits⟩

/-- What is looked up behind a directory that is reached is looked up from there. -/
theorem followLinks_append {purpose : Purpose} {links : Nat} {l m : Location} {steps rest : List Step}
    (passes : Passes purpose rest) (directory : fs.isDirectoryAt m = true)
    (walked : fs.followLinks .use links l steps = .ok (.taken m)) :
    ∃ left, fs.followLinks purpose links l (steps ++ rest) = fs.followLinks purpose left m rest := by
  rw [followLinks_ok] at walked
  induction walked with
  | arrives same =>
    cases same
    exact ⟨_, rfl⟩
  | stays stays _ ih =>
    rw [List.cons_append, followLinks_stays stays]
    exact ih
  | ascends _ ih =>
    rw [List.cons_append, followLinks_ascends]
    exact ih
  | enters tried there _ ih =>
    rw [List.cons_append, followLinks_enters (passes.tried tried) there]
    exact ih
  | follows tried there _ named _ ih =>
    rw [List.cons_append, followLinks_follows (passes.tried tried) there (passes _).1 named, ← List.append_assoc]
    exact ih
  | stops _ there stops same =>
    -- a directory is reached, and this is none
    cases same
    rw [stops.not_directory there] at directory
    cases directory
  | vacant _ _ _ same | slashed _ _ same => cases same

/-- What is found under names behind some steps is found under them behind the node that the steps lead to. -/
theorem Finds.cut {purpose : Purpose} {spot : Spot} {links : Nat} {l : Location} {steps : List Step}
    {names : List Bytes} (down : names ≠ [])
    (found : fs.Finds purpose spot links l (steps ++ names.map .descend)) :
    ∃ left m, fs.Finds .use (.taken m) links l steps ∧ fs.Finds purpose spot left m (names.map .descend) := by
  cases steps with
  | nil => exact ⟨links, l, .arrives rfl, found⟩
  | cons step tail =>
    have long : ¬ (tail ++ names.map .descend = [] ∨ tail ++ names.map .descend = [.slashEnd]) := by
      obtain ⟨front, last, rfl⟩ := (List.eq_nil_or_concat' names).resolve_left down
      rw [List.map_append, ← List.append_assoc, List.append_eq_singleton_iff]
      simp
    rw [List.cons_append] at found
    cases found with
    | stays stays found =>
      obtain ⟨left, m, before, behind⟩ := found.cut down
      exact ⟨left, m, .stays stays before, behind⟩
    | ascends found =>
      obtain ⟨left, m, before, behind⟩ := found.cut down
      exact ⟨left, m, .ascends before, behind⟩
    | enters tried there found =>
      obtain ⟨left, m, before, behind⟩ := found.cut down
      exact ⟨left, m, .enters (.use tried.fits) there before, behind⟩
    | follows tried there _ named found =>
      rw [← List.append_assoc] at found
      obtain ⟨left, m, before, behind⟩ := found.cut down
      exact ⟨left, m, .follows (.use tried.fits) there (followsLast_use tail) named before, behind⟩
    | stops _ _ stops _ => exact absurd stops.short long
    | @vacant _ _ _ slashed _ _ _ last _ =>
      cases slashed with
      | false => exact absurd (Or.inl last) long
      | true => exact absurd (Or.inr last) long
    | slashed _ last _ => exact absurd (Or.inr last) long
termination_by (links, steps.length)

end FileSystem

end Unjar
