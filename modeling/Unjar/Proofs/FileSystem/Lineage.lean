import Unjar.FileSystem.Operations

/-!
How the directories of a lineage are made. The first one is made at once, or after those above it when
something above it is missing.
-/

namespace Unjar.FileSystem

variable {fs fs' : FileSystem} {p : Path} {ancestors : List Path}

theorem parentsFrom_cases (fuel : Nat) (p : Path) :
    parentsFrom fuel p = [p] ∨
      ∃ less q, fuel = less + 1 ∧ p.parent = some q ∧ parentsFrom fuel p = p :: parentsFrom less q := by
  cases fuel with
  | zero => exact Or.inl rfl
  | succ less =>
    rw [parentsFrom]
    cases above : p.parent with
    | none => exact Or.inl rfl
    | some q => exact Or.inr ⟨less, q, rfl, rfl, rfl⟩

theorem parentsFrom_eq_cons (fuel : Nat) (p : Path) : ∃ ancestors, parentsFrom fuel p = p :: ancestors := by
  rcases parentsFrom_cases fuel p with alone | ⟨less, q, _, _, split⟩
  · exact ⟨[], alone⟩
  · exact ⟨_, split⟩

/-- Makes the last directory of a path, if it is not there. -/
def makeLast (fs : FileSystem) (p : Path) : Except Fault Unit × FileSystem :=
  match fs.makeDirectory p with
  | .ok made => (.ok (), made)
  | .error fault => (if fs.isDirectory p then .ok () else .error fault, fs)

theorem makeLast_of_made (made : fs.makeDirectory p = .ok fs') : fs.makeLast p = (.ok (), fs') := by
  rw [makeLast, made]

theorem makeLast_of_error {fault : Fault} (failed : fs.makeDirectory p = .error fault) :
    fs.makeLast p = (if fs.isDirectory p then .ok () else .error fault, fs) := by
  rw [makeLast, failed]

theorem makeLast_ok (done : fs.makeLast p = (.ok (), fs')) :
    fs.makeDirectory p = .ok fs' ∨ (∃ fault, fs.makeDirectory p = .error fault) ∧ fs.isDirectory p = true ∧ fs' = fs := by
  cases tried : fs.makeDirectory p with
  | ok made =>
    rw [makeLast_of_made tried] at done
    cases done
    exact Or.inl rfl
  | error fault =>
    rw [makeLast_of_error tried, Prod.mk.injEq] at done
    obtain ⟨there, same⟩ := done
    split at there
    · exact Or.inr ⟨⟨fault, rfl⟩, by assumption, same.symm⟩
    · cases there

theorem makeLineage_unnamed (unnamed : p.components = []) : makeLineage (p :: ancestors) fs = (.ok (), fs) := by
  rw [makeLineage, if_pos unnamed]

/-- Where nothing above it is missing, those above it do not matter. -/
theorem makeLineage_tried (named : p.components ≠ []) (tried : fs.makeDirectory p ≠ .error .notFound) :
    makeLineage (p :: ancestors) fs = fs.makeLast p := by
  rw [makeLineage, if_neg named, makeLast]
  cases first : fs.makeDirectory p with
  | ok made => rfl
  | error fault => cases fault <;> first | rfl | exact absurd first tried

/-- With all above it made, the path itself is tried once more. -/
theorem makeLineage_missing (named : p.components ≠ []) (missing : fs.makeDirectory p = .error .notFound) :
    makeLineage (p :: ancestors) fs = match makeLineage ancestors fs with
      | (.error fault, partly) => (.error fault, partly)
      | (.ok (), prepared) => prepared.makeLast p := by
  rw [makeLineage, if_neg named, missing]
  rcases makeLineage ancestors fs with ⟨result, prepared⟩
  cases result <;> rfl

theorem makeLineage_ok (named : p.components ≠ []) :
    makeLineage (p :: ancestors) fs = (.ok (), fs') ↔
      fs.makeDirectory p ≠ .error .notFound ∧ fs.makeLast p = (.ok (), fs') ∨
        fs.makeDirectory p = .error .notFound ∧ ∃ prepared, makeLineage ancestors fs = (.ok (), prepared) ∧
          prepared.makeLast p = (.ok (), fs') := by
  by_cases missing : fs.makeDirectory p = .error .notFound
  · rw [makeLineage_missing named missing]
    rcases makeLineage ancestors fs with ⟨result, prepared⟩
    cases result <;> simp [missing]
  · rw [makeLineage_tried named missing]
    simp [missing]

/-- What holds at first, and still does whenever one more directory is made, holds of what making a
lineage leaves behind. -/
theorem makeLineage_induction {P : FileSystem → Prop} {paths : List Path}
    (step : ∀ p ∈ paths, ∀ before made, P before → before.makeDirectory p = .ok made → P made)
    (start : P fs) : P (makeLineage paths fs).2 := by
  have last : ∀ p ∈ paths, ∀ before, P before → P (before.makeLast p).2 := by
    intro p member before holds
    cases made : before.makeDirectory p with
    | ok result =>
      rw [makeLast_of_made made]
      exact step p member before result holds made
    | error fault =>
      rw [makeLast_of_error made]
      exact holds
  induction paths with
  | nil => exact start
  | cons p ancestors ih =>
    have prepared := ih (fun q member => step q (List.mem_cons_of_mem _ member))
      fun q member => last q (List.mem_cons_of_mem _ member)
    by_cases named : p.components = []
    · rw [makeLineage_unnamed named]
      exact start
    by_cases missing : fs.makeDirectory p = .error .notFound
    · rw [makeLineage_missing named missing]
      rcases above : makeLineage ancestors fs with ⟨result, partly⟩
      rw [above] at prepared
      cases result with
      | error fault => exact prepared
      | ok _ => exact last p List.mem_cons_self partly prepared
    · rw [makeLineage_tried named missing]
      exact last p List.mem_cons_self fs start

end Unjar.FileSystem
