import Unjar.Proofs.Run.Steady

/-!
What every run keeps, wherever links lead it and whatever it is asked to do: directories and links stay, and what is
new is a file or a directory.
-/

namespace Unjar

/-- A decompiler that may make files and directories, and removes none. -/
def Decompiler.Tame (d : Decompiler) : Prop :=
  ∀ file name (w : World), w.files.Sound → w.files.Evolves (Task.left (d file name w)).files

theorem Decompiler.Quiet.tame {d : Decompiler} (quiet : d.Quiet) : d.Tame := by
  intro file name w sound
  have same : (Task.left (d file name w)).files = w.files := by
    cases answered : d file name w with
    | ok data w' => exact (quiet.ok answered).1
    | error cause w' => exact (quiet.error answered).1
  rw [same]
  exact .refl sound

namespace Run

open FileSystem ClassFile

/-- An error that says why the decompiler failed says what it answered. -/
def Heard (d : Decompiler) (e : RunError) : Prop :=
  ∀ file cause, e = .produce (.decompile file cause) → ∃ name asked answered, d file name asked = .error cause answered

/-- Files that came from others by a run, or a part of it. -/
def Since (origin : FileSystem) (w : World) : Prop :=
  origin.Evolves w.files

variable {d : Decompiler} {origin : FileSystem} {w : World}

theorem steady_since (origin : FileSystem) : Steady (Since origin) :=
  ⟨fun since => since.sound, fun since evolves _ => since.trans evolves⟩

theorem since_ask (tame : d.Tame) (since : Since origin w) (file : Path) (name : Bytes) :
    Task.Ends (d.ask file name) w (fun _ => Since origin)
      fun cause w' => Since origin w' ∧ ∃ name asked answered, d file name asked = .error cause answered := by
  refine Task.Ends.bind (Q := fun _ => Since origin) since fun _ w₁ since₁ => ?_
  have answers := tame file name w₁ since₁.sound
  refine .intro (fun data w₂ answered => ?_) fun cause w₂ answered => ?_
  · rw [answered] at answers
    exact since₁.trans answers
  · rw [answered] at answers
    exact ⟨since₁.trans answers, name, w₁, w₂, answered⟩

/-- Whatever a run does, directories and links stay, and there are new directories and files only. -/
theorem runIn_evolves (tame : d.Tame) (plan : Plan) (staging : Path) (sound : w.files.Sound) :
    Task.Ends (runIn plan d staging) w (fun _ => Since w.files) fun e w' => Since w.files w' ∧ Heard d e :=
  (steady_since w.files).runIn (.refl sound) fun names _ _ _ since =>
    since_ask tame since (staging.descendant names) (toldName plan.naming staging (staging.descendant names))

theorem since_runIn (tame : d.Tame) (plan : Plan) (staging : Path) (sound : w.files.Sound) :
    Since w.files (Task.left (runIn plan d staging w)) :=
  Task.Ends.left (P := Since w.files)
    ((runIn_evolves tame plan staging sound).mono (fun _ _ since => since) fun _ _ both => both.1)

end Run

end Unjar
