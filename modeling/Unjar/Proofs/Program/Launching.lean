import Unjar.Proofs.FileSystem.Evolution
import Unjar.Proofs.Program.Execution
import Unjar.Shell.Launch

/-!
Programs that are started, and what they are allowed. A program that cannot be started leaves everything as it was, and
what one that ran leaves behind is in the files alone. What it makes or writes by a path goes through a check, which
refuses it, or lets the operation of the file system do what it does.

Nothing is claimed here of what a script makes of these operations.
-/

namespace Unjar.Shell

/-- What may come of a program that is launched in a world. -/
inductive Launched (w : World) : EStateM.Result Unfinished World Finished → Prop
  | unstarted (cause : Fault) : Launched w (.error (.notStarted cause) w)
  | interrupted (files : FileSystem) : files.here = w.files.here →
      Launched w (.error .interrupted { w with files })
  | finished (f : Finished) (files : FileSystem) : files.here = w.files.here → Launched w (.ok f { w with files })

theorem launched (program : Path) (arguments : List Bytes) (w : World) : Launched w (launch program arguments w) := by
  unfold launch
  split
  · exact .unstarted .nulInArgument
  · beta_reduce
    rw [Task.bind_of_ok _ (show (get : Task Unfinished World) w = .ok w w from rfl)]
    cases load w.files w.searchPath program (program.text :: arguments) with
    | error cause => exact .unstarted cause
    | ok found =>
      cases found with
      | plainFile file => exact .unstarted .notExecutable
      | image image =>
        cases ended : runToEnd image (.start w) with
        | ok status m =>
          simp only [ended]
          exact .finished _ _ rfl
        | error stop m =>
          simp only [ended]
          cases stop with
          | interruptStarter => exact .interrupted _ rfl
          | _ => exact .finished _ _ rfl

namespace Launched

variable {w : World} {result : EStateM.Result Unfinished World Finished}

theorem kept (launched : Launched w result) :
    (Task.left result).events = w.events ∧ (Task.left result).calls = w.calls ∧
      (Task.left result).files.here = w.files.here := by
  cases launched with
  | unstarted cause => exact ⟨rfl, rfl, rfl⟩
  | interrupted files here | finished f files here => exact ⟨rfl, rfl, here⟩

end Launched

/-- A tool that is launched tells of itself once, and leaves the record of the questions to those who ask. -/
theorem decompiler_keeps (tool : Tool) (file : Path) (name : Bytes) (w : World) :
    (Task.left (tool.decompiler launch file name w)).events = w.events ++ [.invokingDecompiler file name] ∧
      (Task.left (tool.decompiler launch file name w)).calls = w.calls := by
  rw [tool.left_decompiler]
  have kept := (launched tool.java (tool.arguments file name)
    { w with events := w.events ++ [.invokingDecompiler file name] }).kept
  exact ⟨kept.1, kept.2.1⟩

/-- A tool that cannot be started changes nothing but what it tells of itself. -/
theorem decompiler_unstarted {tool : Tool} {file : Path} {name : Bytes} {w w' : World} {java : Path} {cause : Fault}
    (failed : tool.decompiler launch file name w = .error (.spawn java cause) w') :
    java = tool.java ∧ w' = { w with events := w.events ++ [.invokingDecompiler file name] } := by
  have came := launched tool.java (tool.arguments file name) { w with events := w.events ++ [.invokingDecompiler file name] }
  rw [tool.decompiler_run] at failed
  split at failed
  · split at failed <;> cases failed
  · rename_i atLaunch
    rw [atLaunch] at came
    cases failed
    cases came
    exact ⟨rfl, rfl⟩
  · cases failed

namespace Permission

open FileSystem

variable {fs after : FileSystem} {p : Path}

/-- What is guarded comes to what it guards, or is refused: no check changes the outcome. -/
theorem guarded_ok {α : Type} {purpose : Purpose} {may : Spot → Bool} {operation : Except Fault α} {a : α} :
    guarded fs purpose may p operation = .ok a ↔
      (∃ spot, fs.findAdmitted purpose p = .ok spot ∧ may spot = true) ∧ operation = .ok a := by
  unfold guarded
  cases fs.findAdmitted purpose p with
  | error fault => simp [bind, Except.bind]
  | ok spot => by_cases allowed : may spot = true <;> simp [bind, Except.bind, allowed, throw, throwThe, MonadExceptOf.throw]

theorem evolves_toWrite (sound : fs.Sound) {mask : Nat} {empties : Bool} {l : Location}
    (opened : toWrite fs mask empties p = .ok (l, after)) : fs.Evolves after :=
  .openFile sound (guarded_ok.mp opened).2

theorem evolves_write (sound : fs.Sound) {mask : Nat} {data : Bytes} (written : write fs mask p data = .ok after) :
    fs.Evolves after := by
  unfold write at written
  cases opening : toWrite fs mask true p with
  | error fault => rw [opening] at written; cases written
  | ok opened =>
    rw [opening] at written
    have evolves := evolves_toWrite sound opening
    rw [write_ok written]
    exact evolves.trans (.fill evolves.sound _ _)

theorem evolves_make (sound : fs.Sound) {node : Location → Node}
    (kind : ∀ parent, (node parent).isDirectory = true ∨ (node parent).isFile = true)
    (made : make fs p node = .ok after) : fs.Evolves after :=
  .makeNode sound kind (guarded_ok.mp made).2

theorem evolves_makeDirectory (sound : fs.Sound) {mask : Nat} (made : makeDirectory fs mask p = .ok after) :
    fs.Evolves after :=
  evolves_make sound (fun _ => Or.inl rfl) made

end Permission

end Unjar.Shell
