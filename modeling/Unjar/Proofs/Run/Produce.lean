import Unjar.Proofs.FileSystem.Creation
import Unjar.Proofs.FileSystem.Enclosing
import Unjar.Proofs.Task
import Unjar.Run

/-!
Making one output. It is skipped, decompiled or copied, and what each of these does to the files and to the calls
is told by its cases; so is what is left when it fails.
-/

namespace Unjar

/-- A decompiler that answers and does nothing else: the files and the calls are as they were. -/
def Decompiler.Quiet (d : Decompiler) : Prop :=
  ∀ file name w, match d file name w with
    | .ok _ w' | .error _ w' => w'.files = w.files ∧ w'.calls = w.calls

theorem Decompiler.Quiet.ok {d : Decompiler} (quiet : d.Quiet) {file : Path} {name data : Bytes} {w w' : World}
    (answered : d file name w = .ok data w') : w'.files = w.files ∧ w'.calls = w.calls := by
  have left := quiet file name w
  rwa [answered] at left

theorem Decompiler.Quiet.error {d : Decompiler} (quiet : d.Quiet) {file : Path} {name : Bytes} {e : ToolError}
    {w w' : World} (failed : d file name w = .error e w') : w'.files = w.files ∧ w'.calls = w.calls := by
  have left := quiet file name w
  rwa [failed] at left

theorem Decompiler.quiet_ofAnswers (answer : Path → Bytes → Except ToolError Bytes) : (ofAnswers answer).Quiet := by
  intro file name w
  rw [ofAnswers, Task.query_run]
  cases answer file name <;> exact ⟨rfl, rfl⟩

namespace Run

open FileSystem ClassFile

variable {d : Decompiler} {file source target out : Path} {name : Bytes} {produced : Produced} {w w' : World}

/-- A question that is answered is kept, and nothing else is changed. -/
theorem ask_ok (quiet : d.Quiet) {file : Path} {name data : Bytes} (ran : d.ask file name w = .ok data w') :
    ∃ asked, d file name asked = .ok data w' ∧ asked.files = w.files ∧ asked.calls = w.calls ++ [(file, name)] ∧
      w'.files = w.files ∧ w'.calls = w.calls ++ [(file, name)] := by
  obtain ⟨_, asked, recorded, answered⟩ := Task.bind_ok ran
  cases recorded
  obtain ⟨sameFiles, sameCalls⟩ := quiet.ok answered
  exact ⟨_, answered, rfl, rfl, sameFiles, sameCalls⟩

/-- Copying to where nothing is. The file that is made for the copy takes what was read. -/
theorem copyFile_run (absent : w.files.has target = false) :
    copyFile source target w = match w.files.openToRead source with
      | .error fault => .error fault w
      | .ok input => match w.files.openToWrite target with
        | .error fault => .error fault w
        | .ok (output, opened) => match opened.contents input with
          | .error fault => .error fault { w with files := opened }
          | .ok data => .ok () { w with files := opened.fill output data } := by
  unfold copyFile
  cases isInput : w.files.openToRead source with
  | error fault => exact Task.bind_of_error _ (Task.query_error.mpr ⟨isInput, rfl⟩)
  | ok input =>
    rw [Task.bind_of_ok _ (Task.query_ok.mpr ⟨isInput, rfl⟩)]
    cases opening : w.files.openToWrite target with
    | error fault => exact Task.bind_of_error _ (Task.attempt_error.mpr ⟨by rw [opening], by rw [opening]⟩)
    | ok pair =>
      rw [Task.bind_of_ok _ (Task.attempt_ok.mpr ⟨by rw [opening], rfl⟩)]
      simp only [opening]
      cases content : pair.2.contents input with
      | error fault => exact Task.bind_of_error _ (Task.query_error.mpr ⟨content, rfl⟩)
      | ok data =>
        rw [Task.bind_of_ok _ (Task.query_ok.mpr ⟨content, rfl⟩)]
        exact Task.change_ok.mpr ⟨_, write_of_absent absent opening data, rfl⟩

/-- What is copied when copying a file succeeds: what the source holds when the target is emptied. -/
theorem copyFile_ok (absent : w.files.has target = false) : copyFile source target w = .ok () w' ↔
    ∃ input output opened data, w.files.openToRead source = .ok input ∧
      w.files.openToWrite target = .ok (output, opened) ∧ opened.contents input = .ok data ∧
      w' = { w with files := opened.fill output data } := by
  rw [copyFile_run absent]
  constructor
  · intro ran
    split at ran
    · cases ran
    split at ran
    · cases ran
    split at ran
    · cases ran
    · rename_i isInput _ _ _ opening _ _ content
      cases ran
      exact ⟨_, _, _, _, isInput, opening, content, rfl⟩
  · rintro ⟨input, output, opened, data, isInput, opening, content, rfl⟩
    simp only [isInput, opening, content]

/-- A copy that fails has opened the target at most, and then the source could not be read. -/
theorem copyFile_error (absent : w.files.has target = false) {cause : Fault}
    (failed : copyFile source target w = .error cause w') :
    w'.calls = w.calls ∧ (w'.files = w.files ∨ ∃ input m, w.files.openToRead source = .ok input ∧
      w.files.openToWrite target = .ok (m, w'.files) ∧ w'.files.contents input = .error cause) := by
  rw [copyFile_run absent] at failed
  split at failed
  · cases failed
    exact ⟨rfl, Or.inl rfl⟩
  split at failed
  · cases failed
    exact ⟨rfl, Or.inl rfl⟩
  split at failed
  · rename_i isInput _ _ _ opening _ _ unread
    cases failed
    exact ⟨rfl, Or.inr ⟨_, _, isInput, opening, unread⟩⟩
  · cases failed

/-- What was done for an output when it was made. -/
inductive Produces (d : Decompiler) (file : Path) (name : Bytes) (out : Path) (w : World) : Produced → World → Prop
  | skipped : w.files.has out = true →
      Produces d file name out w .skipped { w with events := w.events ++ [.outputExists out] }
  | decompiled {source : Bytes} {asked : World} {files : FileSystem} : w.files.has out = false →
      out.extension = some sourceExtension → d.ask file name w = .ok source asked →
      asked.files.writeFile out source = .ok files →
      Produces d file name out w .decompiled
        { asked with files, events := asked.events ++ [.decompiled name out] }
  | copied {made : World} : w.files.has out = false → out.extension ≠ some sourceExtension →
      copyFile file out w = .ok () made →
      Produces d file name out w .copied { made with events := made.events ++ [.copied out] }

theorem produces_iff : produce d file name out w = .ok produced w' ↔ Produces d file name out w produced w' := by
  unfold produce
  rw [Task.bind_of_ok _ (Task.files_run w)]
  constructor
  · intro ran
    split at ran
    · rename_i there
      cases ran
      exact .skipped there
    rename_i absent
    have absent := Bool.eq_false_iff.mpr absent
    split at ran
    · rename_i isSource
      obtain ⟨source, asked, answered, ran⟩ := Task.bind_ok ran
      obtain ⟨_, written, changes, ran⟩ := Task.bind_ok ran
      obtain ⟨files, wrote, rfl⟩ := Task.change_ok.mp changes
      cases ran
      cases done : asked.files.writeFile out source with
      | error fault => rw [done] at wrote; cases wrote
      | ok files' =>
        rw [done] at wrote
        cases wrote
        exact @Produces.decompiled d file name out w source asked _ absent isSource (Task.withError_ok.mp answered) done
    · rename_i isOther
      obtain ⟨_, made, copied, ran⟩ := Task.bind_ok ran
      cases ran
      exact .copied absent isOther (Task.withError_ok.mp copied)
  · intro produces
    cases produces with
    | skipped there => rw [if_pos there]; rfl
    | decompiled absent isSource answered wrote =>
      rw [if_neg (by simp [absent]), if_pos isSource, Task.bind_of_ok _ (Task.withError_ok.mpr answered),
        Task.bind_of_ok _ (Task.change_ok.mpr ⟨_, by rw [wrote]; rfl, rfl⟩)]
      rfl
    | copied absent isOther copied =>
      rw [if_neg (by simp [absent]), if_neg isOther, Task.bind_of_ok _ (Task.withError_ok.mpr copied)]
      rfl

/-- An output that is not made was not there, and either asking for it, or writing or copying it failed. -/
theorem produce_failed {cause : ProduceError}
    (failed : produce d file name target w = .error cause w') : w.files.has target = false ∧
    ((target.extension = some sourceExtension ∧
        ((∃ tool, cause = .decompile file tool ∧ d.ask file name w = .error tool w') ∨
          ∃ fault data, cause = .write target fault ∧ d.ask file name w = .ok data w')) ∨
      target.extension ≠ some sourceExtension ∧
        ∃ fault, cause = .copy file target fault ∧ copyFile file target w = .error fault w') := by
  unfold produce at failed
  rw [Task.bind_of_ok _ (Task.files_run w)] at failed
  split at failed
  · cases failed
  rename_i absent
  refine ⟨Bool.eq_false_iff.mpr absent, ?_⟩
  split at failed
  · rename_i isSource
    refine Or.inl ⟨isSource, ?_⟩
    rcases Task.bind_error failed with failed | ⟨data, w₁, asked, failed⟩
    · obtain ⟨tool, refused, rfl⟩ := Task.withError_error.mp failed
      exact Or.inl ⟨tool, rfl, refused⟩
    · have answered := Task.withError_ok.mp asked
      rcases Task.bind_error failed with failed | ⟨_, w₂, _, told⟩
      · rw [Task.change_run] at failed
        cases writing : w₁.files.writeFile target data with
        | error fault => rw [writing] at failed; cases failed; exact Or.inr ⟨fault, data, rfl, answered⟩
        | ok changed => rw [writing] at failed; cases failed
      · cases told
  · rename_i notSource
    refine Or.inr ⟨notSource, ?_⟩
    rcases Task.bind_error failed with failed | ⟨_, w₁, _, told⟩
    · obtain ⟨fault, refused, rfl⟩ := Task.withError_error.mp failed
      exact ⟨fault, rfl, refused⟩
    · cases told

/-- What is left where an output is not made and the decompiler does nothing else than answer. -/
theorem produce_error {cause : ProduceError} (quiet : d.Quiet)
    (failed : produce d file name target w = .error cause w') :
    (∃ tool, cause = .decompile file tool ∧ w'.files = w.files ∧ w'.calls = w.calls ++ [(file, name)]) ∨
      (∃ fault, cause = .write target fault ∧ w'.files = w.files ∧ w'.calls = w.calls ++ [(file, name)]) ∨
      ∃ fault, cause = .copy file target fault ∧ w'.calls = w.calls ∧
        (w'.files = w.files ∨ ∃ m, w.files.openToWrite target = .ok (m, w'.files)) := by
  obtain ⟨absent, ⟨_, ⟨tool, rfl, refused⟩ | ⟨fault, data, rfl, answered⟩⟩ | ⟨_, fault, rfl, refused⟩⟩ :=
    produce_failed failed
  · obtain ⟨sameFiles, sameCalls⟩ := quiet.error refused
    exact Or.inl ⟨tool, rfl, sameFiles, sameCalls⟩
  · obtain ⟨_, _, _, _, sameFiles, sameCalls⟩ := ask_ok quiet answered
    exact Or.inr (Or.inl ⟨fault, rfl, sameFiles, sameCalls⟩)
  · obtain ⟨sameCalls, change⟩ := copyFile_error absent refused
    exact Or.inr (Or.inr ⟨fault, rfl, sameCalls, change.imp_right fun ⟨_, m, _, opened, _⟩ => ⟨m, opened⟩⟩)

end Run

end Unjar
