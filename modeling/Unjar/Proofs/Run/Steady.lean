import Unjar.Proofs.Extract.Frame
import Unjar.Proofs.Run.Stages

/-!
What is kept by everything a run does but asking the decompiler. Whether a run keeps it as well is a matter of the
questions alone: which files it asks about, by which names, and what the decompiler does then.
-/

namespace Unjar

namespace Run

open FileSystem ClassFile

/-- A property of worlds that is kept where directories and files are made and no question is asked. -/
structure Steady (P : World → Prop) : Prop where
  sound : ∀ {w}, P w → w.files.Sound
  step : ∀ {w w'}, P w → w.files.Evolves w'.files → w'.calls = w.calls → P w'

namespace Steady

variable {ε : Type} {plan : Plan} {d : Decompiler} {staging file out : Path} {name : Bytes} {P : World → Prop}
  {F : ToolError → Prop} {w : World}

theorem told (steady : Steady P) (here : P w) (events : List Event) : P { w with events } :=
  steady.step here (.refl (steady.sound here)) rfl

theorem tell {E : ε → World → Prop} (steady : Steady P) (here : P w) (event : Event) :
    Task.Ends (Task.tell event) w (fun _ => P) E :=
  steady.told here (w.events ++ [event])

theorem ensureDirectory (steady : Steady P) (here : P w) (directory : Path) :
    Task.Ends (Unjar.ensureDirectory directory) w (fun _ => P) fun _ => P := by
  have made : P { w with files := (w.files.makeDirectories directory).2 } :=
    steady.step here (.makeDirectories (steady.sound here) directory) rfl
  exact Task.Ends.withError (Task.Ends.attempt (fun _ _ => made) fun _ _ => made)

theorem prepareOutput (steady : Steady P) (here : P w) (file staging out : Path) :
    Task.Ends (Unjar.prepareOutput file staging out) w (fun _ => P) fun _ => P := by
  unfold Unjar.prepareOutput
  cases outputPath file staging out with
  | none => exact .throw here
  | some target =>
    simp only
    cases target.parent with
    | none => exact .pure here
    | some directory =>
      refine Task.Ends.bind (Q := fun _ => P) here fun fs w₁ here₁ => ?_
      split
      · exact .pure here₁
      · exact (steady.tell here₁ _).bind fun _ w₂ here₂ =>
          (steady.ensureDirectory here₂ directory).bind fun _ _ here₃ => .pure here₃

theorem copyFile (steady : Steady P) (here : P w) (source target : Path) :
    Task.Ends (Unjar.copyFile source target) w (fun _ => P) fun _ => P := by
  refine Task.Ends.bind (Q := fun _ => P) (.query (fun _ _ => here) fun _ _ => here) ?_
  intro input w₁ here₁
  refine Task.Ends.bind (Q := fun _ => P) (.attempt ?_ ?_) ?_
  · intro m done
    cases opening : w₁.files.openToWrite target with
    | error fault => rw [opening] at done; cases done
    | ok pair => exact steady.step here₁ (.openToWrite (steady.sound here₁) opening) rfl
  · intro fault failed
    cases opening : w₁.files.openToWrite target with
    | error fault => exact here₁
    | ok pair => rw [opening] at failed; cases failed
  · intro output w₂ here₂
    refine Task.Ends.bind (Q := fun _ => P) (.query (fun _ _ => here₂) fun _ _ => here₂) ?_
    intro data w₃ here₃
    refine .change (fun _ wrote => ?_) fun _ _ => here₃
    rw [write_ok wrote]
    exact steady.step here₃ (.fill (steady.sound here₃) output data) rfl

theorem className (steady : Steady P) (here : P w) (naming : ClassFile.Naming) (staging file out : Path) :
    Task.Ends (Run.className naming staging file out) w
      (fun name w' => name = toldName naming staging file ∧ P w') fun _ _ => False := by
  obtain ⟨events, ran⟩ := className_run naming staging file out w
  rw [Task.Ends, ran]
  exact ⟨rfl, steady.told here events⟩

/-- Making an output keeps what the question about it keeps. -/
theorem produce (steady : Steady P) (here : P w) (out : Path)
    (asks : ∀ v, P v → Task.Ends (d.ask file name) v (fun _ => P) fun cause v' => P v' ∧ F cause) :
    Task.Ends (Unjar.produce d file name out) w (fun _ => P)
      fun e w' => P w' ∧ ∀ source cause, e = .decompile source cause → source = file ∧ F cause := by
  refine Task.Ends.bind (Q := fun _ => P) here fun fs w₁ here₁ => ?_
  split
  · exact (steady.tell here₁ _).bind fun _ _ here₂ => .pure here₂
  split
  · refine Task.Ends.bind (Q := fun _ => P) (.withError ((asks w₁ here₁).mono ?_ ?_)) ?_
    · exact fun _ _ here₂ => here₂
    · rintro cause w₂ ⟨here₂, heard⟩
      refine ⟨here₂, fun _ _ same => ?_⟩
      cases same
      exact ⟨rfl, heard⟩
    · intro data w₂ here₂
      refine Task.Ends.bind (Q := fun _ => P) (.change (fun changed done => ?_) fun e failed => ?_) ?_
      · cases writing : w₂.files.writeFile out data with
        | error fault => rw [writing] at done; cases done
        | ok files =>
          rw [writing] at done
          cases done
          obtain ⟨m, opened, opening, rfl⟩ := writeFile_ok writing
          have evolves := Evolves.openToWrite (steady.sound here₂) opening
          exact steady.step here₂ (evolves.trans (.fill evolves.sound m data)) rfl
      · refine ⟨here₂, fun _ _ same => ?_⟩
        cases writing : w₂.files.writeFile out data with
        | error fault => rw [writing] at failed; cases failed; cases same
        | ok files => rw [writing] at failed; cases failed
      · exact fun _ w₃ here₃ => (steady.tell here₃ _).bind fun _ _ here₄ => .pure here₄
  · refine Task.Ends.bind (Q := fun _ => P) (.withError ((steady.copyFile here₁ file out).mono ?_ ?_)) ?_
    · exact fun _ _ here₂ => here₂
    · intro fault w₂ here₂
      exact ⟨here₂, by rintro _ _ ⟨⟩⟩
    · exact fun _ w₂ here₂ => (steady.tell here₂ _).bind fun _ _ here₃ => .pure here₃

variable {G : Path → ToolError → Prop}

theorem visit (steady : Steady P) (here : P w) (soFar : Summary) {item : Walk.Item}
    (asks : ∀ file, item = .ok file → ∀ v, P v → Task.Ends (d.ask file (toldName plan.naming staging file)) v
      (fun _ => P) fun cause v' => P v' ∧ G file cause) :
    Task.Ends (Run.visit plan d staging soFar item) w (fun _ => P)
      fun e w' => P w' ∧ ∀ file cause, e = .produce (.decompile file cause) → G file cause := by
  cases item with
  | error cause => exact .throw ⟨here, by rintro _ _ ⟨⟩⟩
  | ok file =>
    rw [visit_file]
    refine Task.Ends.bind (Q := fun _ => P)
      (.withError ((steady.prepareOutput here file staging plan.out).mono ?_ ?_)) ?_
    · exact fun _ _ here₁ => here₁
    · exact fun _ _ here₁ => ⟨here₁, by rintro _ _ ⟨⟩⟩
    · intro out w₁ here₁
      refine Task.Ends.bind ((steady.className here₁ plan.naming staging file out).mono (fun _ _ named => named)
        fun _ _ => False.elim) ?_
      rintro _ w₂ ⟨rfl, here₂⟩
      refine Task.Ends.bind (Q := fun _ => P) (.withError ((steady.produce here₂ out (asks file rfl)).mono ?_ ?_)) ?_
      · exact fun _ _ here₃ => here₃
      · rintro e w₃ ⟨here₃, heard⟩
        refine ⟨here₃, fun source cause same => ?_⟩
        obtain ⟨rfl, answered⟩ := heard source cause (RunError.produce.inj same)
        exact answered
      · exact fun _ _ here₃ => .pure here₃

/-- A run keeps what its questions keep. They are about files below the staging directory. -/
theorem runIn (steady : Steady P) (here : P w)
    (asks : ∀ names, names ≠ [] → AllNames names → ∀ v, P v → Task.Ends
      (d.ask (staging.descendant names) (toldName plan.naming staging (staging.descendant names))) v
      (fun _ => P) fun cause v' => P v' ∧ G (staging.descendant names) cause) :
    Task.Ends (Unjar.runIn plan d staging) w (fun _ => P)
      fun e w' => P w' ∧ ∀ file cause, e = .produce (.decompile file cause) → G file cause := by
  have unpacks := Extract.extract_evolves plan.jar staging (steady.sound here)
  rw [Task.Ends, runIn_run]
  cases extracted : extract plan.jar staging w with
  | error cause w₁ =>
    have unpacked := unpacks.of_error extracted
    exact ⟨steady.step here unpacked.files unpacked.calls, by rintro _ _ ⟨⟩⟩
  | ok entries w₁ =>
    have unpacked := unpacks.of_ok extracted
    have here₁ := steady.step here unpacked.files unpacked.calls
    have made := Evolves.makeDirectories (steady.sound here₁) plan.out
    simp only [afterExtraction]
    rcases ended : w₁.files.makeDirectories plan.out with ⟨result, ready⟩
    rw [ended] at made
    cases result with
    | error cause =>
      have left : P { w₁ with files := ready, events := w₁.events ++ [.unzipped entries staging] } :=
        steady.step here₁ made rfl
      exact ⟨left, by rintro _ _ ⟨⟩⟩
    | ok _ =>
      generalize w₁.events ++ [.unzipped entries staging] ++ [.outputDirectory plan.out] ++ [.extractingClasses] = events
      have here₂ : P { w₁ with files := ready, events } := steady.step here₁ made rfl
      have each : ∀ soFar item v, Walk.Proper staging item → P v → Task.Ends (Run.visit plan d staging soFar item) v
          (fun _ => P) fun e w' => P w' ∧ ∀ file cause, e = .produce (.decompile file cause) → G file cause := by
        intro soFar item v proper there
        refine steady.visit there soFar fun file isFile => ?_
        obtain ⟨names, down, valid, rfl⟩ := proper file isFile
        exact asks names down valid
      have walked := Walk.ends_fold (fun _ => steady.sound) each {} here₂
      simp only
      cases ran : Walk.fold (Run.visit plan d staging) staging {} { w₁ with files := ready, events } with
      | ok summary v => exact steady.told (walked.of_ok ran) _
      | error e v => exact walked.of_error ran

end Steady

end Run

end Unjar
