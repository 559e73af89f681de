import Unjar.Proofs.Extract.Repetition
import Unjar.Proofs.FileSystem.Enclosing
import Unjar.Proofs.Run.Visit

/-!
The stages of a run: the archive is unpacked, the output root is made, and the staged tree is walked.
-/

namespace Unjar

namespace Run

open FileSystem

variable {plan : Plan} {d : Decompiler} {staging : Path} {w w₁ : World} {ready : FileSystem} {entries : Nat}

/-- What a run tells at its end. -/
def finish : EStateM.Result RunError World Summary → EStateM.Result RunError World Summary
  | .ok summary w => .ok summary { w with events := w.events ++ [.done summary] }
  | .error e w => .error e w

theorem finish_error {result : EStateM.Result RunError World Summary} {e : RunError}
    {w' : World} (failed : finish result = .error e w') : result = .error e w' := by
  cases result with
  | ok summary v => cases failed
  | error e' v => exact failed

/-- What a run does when the archive is unpacked: it makes the output root, whether it was there or not,
and walks. -/
def afterExtraction (plan : Plan) (d : Decompiler) (staging : Path) (entries : Nat) (w : World) :
    EStateM.Result RunError World Summary :=
  match w.files.makeDirectories plan.out with
  | (.ok (), ready) => finish (Walk.fold (visit plan d staging) staging {}
      { w with
        files := ready
        events := w.events ++ [.unzipped entries staging] ++ [.outputDirectory plan.out] ++ [.extractingClasses] })
  | (.error fault, left) => .error (.map (.makeDirectory plan.out fault))
      { w with files := left, events := w.events ++ [.unzipped entries staging] }

theorem runIn_run (plan : Plan) (d : Decompiler) (staging : Path) (w : World) :
    runIn plan d staging w = match extract plan.jar staging w with
      | .ok entries w₁ => afterExtraction plan d staging entries w₁
      | .error e w₁ => .error (.extract e) w₁ := by
  unfold runIn
  cases extracted : extract plan.jar staging w with
  | error e w₁ =>
    simp only [bind, EStateM.bind, Task.withError, EStateM.adaptExcept, extracted]
  | ok entries w₁ =>
    rw [Task.bind_of_ok _ (Task.withError_ok.mpr extracted), Task.bind_of_ok _ (Task.tell_run _ w₁),
      Task.bind_of_ok _ (Task.files_run _)]
    simp only [afterExtraction]
    have walked : ∀ v, (Walk.fold (visit plan d staging) staging {} >>= fun summary =>
        (Task.tell (.done summary) >>= fun _ => pure summary : Task RunError Summary)) v =
          finish (Walk.fold (visit plan d staging) staging {} v) := by
      intro v
      simp only [bind, EStateM.bind]
      cases Walk.fold (visit plan d staging) staging {} v <;> rfl
    by_cases there : w₁.files.isDirectory plan.out = true
    · rw [makeDirectories_of_isDirectory there, if_pos there]
      exact walked _
    · rw [if_neg there]
      simp only [bind, EStateM.bind, Task.withError, EStateM.adaptExcept, ensureDirectory_run]
      rcases w₁.files.makeDirectories plan.out with ⟨result, left⟩
      cases result with
      | error fault => rfl
      | ok _ => exact walked _

/-- A run whose first stages go well is a walk. -/
theorem runIn_eq_fold (extracted : extract plan.jar staging w = .ok entries w₁)
    (made : w₁.files.makeDirectories plan.out = (.ok (), ready)) :
    ∃ events, ∀ d, runIn plan d staging w = finish (Walk.fold (visit plan d staging) staging {}
      { w₁ with files := ready, events }) := by
  refine ⟨w₁.events ++ [.unzipped entries staging] ++ [.outputDirectory plan.out] ++ [.extractingClasses], fun d => ?_⟩
  rw [runIn_run, extracted]
  simp only [afterExtraction, made]

/-- A run that gets as far as the walk: it ends well, or at an output. -/
def Walked : EStateM.Result RunError World Summary → Prop
  | .ok _ _ => True
  | .error (.produce _) _ => True
  | .error _ _ => False

theorem stages_of_walked (walked : Walked (runIn plan d staging w)) :
    ∃ entries w₁ ready, extract plan.jar staging w = .ok entries w₁ ∧
      w₁.files.makeDirectories plan.out = (.ok (), ready) := by
  rw [runIn_run] at walked
  cases extracted : extract plan.jar staging w with
  | error e w₁ =>
    rw [extracted] at walked
    cases walked
  | ok entries w₁ =>
    simp only [extracted, afterExtraction] at walked
    rcases made : w₁.files.makeDirectories plan.out with ⟨result, ready⟩
    cases result with
    | ok _ => exact ⟨entries, w₁, ready, rfl, made⟩
    | error fault =>
      rw [made] at walked
      cases walked

end Run

end Unjar
