import Unjar.Proofs.Extract.Steps
import Unjar.Proofs.FileSystem.Standing

/-!
Unpacking an archive twice. What is unpacked depends on the archive and on what lies below the
destination, and nothing else is changed.
-/

namespace Unjar

namespace Extract

open FileSystem

section Mirrored

variable {base : Path} {l jar : Location} {origin origin' : World} {forgiven : ExtractError → Prop}
  {names : List Bytes}

/-- Worlds in which the same was unpacked so far. -/
structure Paired (base : Path) (l : Location) (origin origin' w w' : World) : Prop where
  files : Twins base l origin.files origin'.files w.files w'.files
  calls : w.calls = origin.calls
  calls' : w'.calls = origin'.calls

theorem mirror_makeDirectories (valid : AllNames names) (down : names ≠ []) (wrap : Fault → ExtractError) :
    Task.Mirror forgiven Eq (Paired base l origin origin')
      ((Task.attempt fun fs => fs.makeDirectories (base.descendant names)).withError wrap)
      ((Task.attempt fun fs => fs.makeDirectories (base.descendant names)).withError wrap) := by
  refine Task.Mirror.wrapped (Task.Mirror.attempt ?_)
  intro w w' paired
  obtain ⟨result, twins⟩ := paired.files.makeDirectories valid down
  exact ⟨result.symm, twins, paired.calls, paired.calls'⟩

/-- An operation that comes to the same in both worlds, or is refused for the same reason. -/
theorem mirror_change {operation : FileSystem → Except Fault FileSystem} (wrap : Fault → ExtractError)
    (agrees : ∀ fs fs', Twins base l origin.files origin'.files fs fs' → match operation fs, operation fs' with
      | .ok after, .ok after' => Twins base l origin.files origin'.files after after'
      | .error fault, .error fault' => fault = fault'
      | _, _ => False) :
    Task.Mirror forgiven Eq (Paired base l origin origin')
      (Task.change fun fs => (operation fs).mapError wrap) (Task.change fun fs => (operation fs).mapError wrap) := by
  refine Task.Mirror.change ?_
  intro w w' paired
  have changed := agrees _ _ paired.files
  revert changed
  cases operation w.files with
  | ok fs =>
    cases operation w'.files with
    | ok fs' => exact fun twins => ⟨twins, paired.calls, paired.calls'⟩
    | error fault => exact False.elim
  | error fault =>
    cases operation w'.files with
    | ok fs' => exact False.elim
    | error fault' => exact congrArg _

theorem mirror_applyMode (valid : AllNames names) (down : names ≠ []) (mode : Option Nat) (owner : Nat) :
    Task.Mirror forgiven Eq (Paired base l origin origin')
      (applyMode (base.descendant names) mode owner) (applyMode (base.descendant names) mode owner) := by
  cases mode with
  | none => exact Task.Mirror.pure rfl
  | some mode => exact mirror_change _ fun _ _ twins => twins.changeMode valid down (permissions mode owner)

theorem mirror_makeDirectory (valid : AllNames names) (down : names ≠ []) (mode : Option Nat) :
    Task.Mirror forgiven Eq (Paired base l origin origin')
      (makeDirectory (base.descendant names) mode) (makeDirectory (base.descendant names) mode) :=
  (mirror_makeDirectories valid down _).bind fun _ _ _ => mirror_applyMode valid down mode directoryOwner

/-- The directory that an entry is put into. -/
theorem mirror_enclosing (valid : AllNames names) :
    Task.Mirror forgiven Eq (Paired base l origin origin')
      (makeDirectory (base.enclosing names) none) (makeDirectory (base.enclosing names) none) := by
  unfold Path.enclosing
  split
  · refine Task.Mirror.bind (V := Eq) ?_ (fun _ _ _ => Task.Mirror.pure rfl)
    refine Task.Mirror.wrapped (Task.Mirror.attempt ?_)
    intro w w' paired
    rw [paired.files.first.leads.trimmed.makeDirectories, paired.files.second.leads.trimmed.makeDirectories]
    exact ⟨rfl, paired⟩
  · rename_i deep
    exact mirror_makeDirectory valid.dropLast deep none

theorem mirror_makeFile (valid : AllNames names) (down : names ≠ []) (mode : Option Nat) :
    Task.Mirror forgiven (fun m m' => m = l ++ names ∧ m' = l ++ names) (Paired base l origin origin')
      (makeFile (base.descendant names) mode) (makeFile (base.descendant names) mode) := by
  refine Task.Mirror.bind (V := fun m m' => m = l ++ names ∧ m' = l ++ names) ?_ ?_
  · intro w w' paired
    have opened := paired.files.openToWrite valid down
    rw [Task.attempt_run, Task.attempt_run]
    revert opened
    cases w.files.openToWrite (base.descendant names) with
    | ok result =>
      cases w'.files.openToWrite (base.descendant names) with
      | ok result' => exact fun ⟨place, place', twins⟩ => .ok ⟨place, place'⟩ ⟨twins, paired.calls, paired.calls'⟩
      | error fault => exact False.elim
    | error fault =>
      cases w'.files.openToWrite (base.descendant names) with
      | ok result' => exact False.elim
      | error fault' =>
        rintro rfl
        exact .error paired
  · intro m m' places
    exact (mirror_applyMode valid down mode fileOwner).bind fun _ _ _ => Task.Mirror.pure places

variable {dest : Path} {records : List Archive.Record}

/-- The archive is not changed by what is unpacked beside it. -/
theorem Paired.contents {w w' : World} (paired : Paired base l origin origin' w w') (apart : ¬ Below l jar)
    (sameJar : origin'.files.node? jar = origin.files.node? jar) :
    w.files.contents jar = w'.files.contents jar := by
  rw [FileSystem.contents, FileSystem.contents, paired.files.first.outside jar apart,
    paired.files.second.outside jar apart, sameJar]

theorem mirror_entry (apart : ¬ Below l jar) (sameJar : origin'.files.node? jar = origin.files.node? jar)
    (confined : Confined dest records) {r : Archive.Record} (member : r ∈ records) (index : Nat) :
    Task.Mirror forgiven Eq (Paired dest.clean l origin origin') (entry jar dest index r) (entry jar dest index r) := by
  unfold entry
  refine Task.Mirror.bind (V := Eq) ?_ ?_
  · refine Task.Mirror.query ?_
    intro w w' paired
    rw [paired.contents apart sameJar]
  · rintro start _ rfl
    cases accepted : dest.resolveInside r.name with
    | error resolved => exact Task.Mirror.throw _
    | ok path =>
      obtain ⟨names, down, valid, rfl⟩ := confined.path member accepted
      simp only
      split
      · exact mirror_makeDirectory valid down r.mode
      · rw [Path.parent_eq_enclosing dest.clean valid down]
        refine (mirror_enclosing valid).bind ?_
        intro _ _ _
        refine (mirror_makeFile valid down r.mode).bind ?_
        rintro _ _ ⟨rfl, rfl⟩
        refine Task.Mirror.bind (V := Eq) ?_ ?_
        · refine Task.Mirror.query ?_
          intro w w' paired
          rw [paired.contents apart sameJar]
        · rintro image _ rfl
          rcases r.content image start with ⟨data, fault⟩
          refine Task.Mirror.bind (V := Eq) (mirror_change _ fun _ _ twins => twins.write down data) ?_
          intro _ _ _
          cases fault with
          | some fault => exact Task.Mirror.throw _
          | none => exact fun _ _ paired => .ok rfl ⟨paired.files, paired.calls, paired.calls'⟩

theorem mirror_entriesFrom (apart : ¬ Below l jar) (sameJar : origin'.files.node? jar = origin.files.node? jar)
    (confined : Confined dest records) (index : Nat) :
    Task.Mirror forgiven Eq (Paired dest.clean l origin origin')
      (entriesFrom jar dest index records) (entriesFrom jar dest index records) := by
  induction records generalizing index with
  | nil => exact Task.Mirror.pure rfl
  | cons r rest ih =>
    have later : Confined dest rest := fun other member => confined other (List.mem_cons_of_mem _ member)
    exact (mirror_entry apart sameJar confined List.mem_cons_self index).bind fun _ _ _ => ih later (index + 1)

end Mirrored

/-- Unpacked again where the destination is as it was, an archive leaves the same there. -/
theorem extract_again {archive dest : Path} {l : Location} {w w' w₁ : World} {count : Nat}
    (confined : ∀ jar records, openArchive archive w.files = .ok (jar, records) → Confined dest records)
    (within : Within dest.clean l w.files w.files) (within' : Within dest.clean l w'.files w'.files)
    (same : SameBelow l w.files w'.files) (empty : ∀ names, names ≠ [] → w.files.node? (l ++ names) = none)
    (there : w.files.isDirectory dest = true) (there' : w'.files.isDirectory dest = true)
    (grows : w.files.Grows w'.files) (ran : extract archive dest w = .ok count w₁) :
    ∃ w₁', extract archive dest w' = .ok count w₁' ∧ Paired dest.clean l w w' w₁ w₁' := by
  obtain ⟨jar, records, ready, opened, made, unpacked, rfl⟩ := extract_ok ran
  rw [makeDirectories_of_isDirectory there] at made
  cases made
  have opened' := openArchive_grows within.sound grows opened
  obtain ⟨node, atJar⟩ := node_of_openArchive opened
  have apart : ¬ Below l jar := by
    rintro ⟨names, down, rfl⟩
    rw [empty names down] at atJar
    cases atJar
  have sameJar : w'.files.node? jar = w.files.node? jar := by rw [grows.kept atJar, atJar]
  have mirror := @mirror_entriesFrom l jar w w' (fun _ => False) dest records apart sameJar (confined _ _ opened) 0
    w w' ⟨⟨within, within', same⟩, rfl, rfl⟩
  rw [show ({ w with files := w.files } : World) = w from rfl] at unpacked
  rw [unpacked] at mirror
  cases ended : entriesFrom jar dest 0 records w' with
  | ok _ w₁' =>
    rw [ended] at mirror
    rcases mirror with ⟨_, paired⟩ | _ | _ | _
    exact ⟨w₁', extract_of_entries opened' (makeDirectories_of_isDirectory there') ended, paired⟩
  | error e w₁' =>
    rw [ended] at mirror
    rcases mirror with _ | _ | _ | impossible
    exact impossible.elim

end Extract

end Unjar
