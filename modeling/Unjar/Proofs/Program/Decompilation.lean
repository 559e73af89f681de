import Unjar.Program.SingleClass
import Unjar.Proofs.CommandLine.Refusal
import Unjar.Proofs.FileSystem.Writing
import Unjar.Proofs.Program.Execution

/-!
The program for one class file does all or nothing. It launches the decompiler once and then shows or writes what it
answered, or it fails, shows nothing and leaves every file as it was. What is shown is shown in full, and a file that
could be opened has room for the answer.
-/

namespace Unjar

/-- The world in which a decompiler is launched: the question is kept and told, and nothing else has changed. -/
def World.asking (w : World) (file : Path) (name : Bytes) : World :=
  { w with events := w.events ++ [.invokingDecompiler file name], calls := w.calls ++ [(file, name)] }

namespace Tool

variable {launch : Launcher} {tool : Tool} {file : Path} {name : Bytes} {w : World}

theorem ask_run : (tool.decompiler launch).ask file name w =
    tool.decompiler launch file name { w with calls := w.calls ++ [(file, name)] } := rfl

/-- A tool that answers has launched its program once, and what that wrote is the answer. -/
theorem ask_ok {source : Bytes} {left : World} (answered : (tool.decompiler launch).ask file name w = .ok source left) :
    ∃ finished, launch tool.java (tool.arguments file name) (w.asking file name) = .ok finished left ∧
      finished.status = 0 ∧ finished.output = source := by
  rw [ask_run, decompiler_run] at answered
  split at answered
  · rename_i finished _ launched
    split at answered
    · rename_i well
      cases answered
      exact ⟨finished, launched, well, rfl⟩
    · cases answered
  · cases answered
  · cases answered

end Tool

namespace Program

namespace SingleClass

open CommandLine FileSystem

/-- What is done with the answer of the decompiler. -/
def deliver (a : ClassFileArguments) (stem source : Bytes) : Task Failure Bytes := do
  if outOf a stem = standardOutput then return source
  else
    let before ← Task.files
    Task.change fun fs => (fs.writeFile ⟨outOf a stem⟩ source).mapError (.write ⟨outOf a stem⟩)
    return if shows before ⟨outOf a stem⟩ then source else []

/-- What is done about a class file whose name tells what to call the class. -/
def decompile (launch : Launcher) (a : ClassFileArguments) (stem : Bytes) : Task Failure Bytes := do
  let tool ← (Tool.locate a.decompiler).withError .tool
  let source ← ((tool.decompiler launch).ask ⟨a.classFile⟩ (a.className.getD stem)).withError .tool
  deliver a stem source

/-- What comes of launching the decompiler that a command line asks for, once and with the files as they were. -/
structure Launches (launch : Launcher) (a : ClassFileArguments) (stem : Bytes) (w : World)
    (result : EStateM.Result Unfinished World Finished) : Prop where
  named : (Path.mk a.classFile).stem = some stem
  jar : w.files.isFile a.decompiler = true
  launched : ∃ java, Tool.java? w.files w.searchPath = some java ∧
    launch java [ascii "-jar", a.decompiler.text, a.classFile, a.className.getD stem]
      (w.asking ⟨a.classFile⟩ (a.className.getD stem)) = result

/-- The decompiler has ended well and left the files as they were. -/
structure Launched (launch : Launcher) (a : ClassFileArguments) (stem : Bytes) (w : World) (finished : Finished)
    (left : World) : Prop extends Launches launch a stem w (.ok finished left) where
  status : finished.status = 0
  files : left.files = w.files

/-- Where the answer goes if it is not asked for on the standard output. -/
def outPath (a : ClassFileArguments) (stem : Bytes) : Path :=
  ⟨a.out.getD (stem ++ ascii ".java")⟩

/-- Why a class file cannot be decompiled as a command line asks for it. -/
inductive Unable (launch : Launcher) (a : ClassFileArguments) (w : World) : Prop
  | unnamed : (Path.mk a.classFile).stem = none → Unable launch a w
  | jarMissing : w.files.isFile a.decompiler = false → Unable launch a w
  | javaMissing : Tool.java? w.files w.searchPath = none → Unable launch a w
  | notStarted {stem : Bytes} {unfinished : Unfinished} {left : World} :
      Launches launch a stem w (.error unfinished left) → Unable launch a w
  | exit {stem : Bytes} {finished : Finished} {left : World} :
      Launches launch a stem w (.ok finished left) → finished.status ≠ 0 → Unable launch a w
  | unwritable {stem : Bytes} {finished : Finished} {left : World} {cause : Fault} :
      Launched launch a stem w finished left → a.out ≠ some (ascii "-") →
      w.files.writeFile (outPath a stem) finished.output = .error cause → Unable launch a w

/-- How the program ends, and what it leaves. `leadsOut` tells of a path whether what is written to it is shown, and
`becomes` what becomes of the node that is written to. -/
inductive Ended (leadsOut : FileSystem → Path → Prop) (becomes : Bytes → Option Node → Option Node → Prop)
    (launch : Launcher) (commandLine : List Bytes) (w : World) (ending : Ending) (after : World) : Prop
  | shown {a : ClassFileArguments} {stem : Bytes} {finished : Finished} :
      ClassFileArguments.parse commandLine = .ok a → Launched launch a stem w finished after →
      a.out = some (ascii "-") ∨ leadsOut w.files (outPath a stem) → ending.status = 0 →
      ending.output = finished.output → Ended leadsOut becomes launch commandLine w ending after
  | written {a : ClassFileArguments} {stem : Bytes} {finished : Finished} {left : World} :
      ClassFileArguments.parse commandLine = .ok a → Launched launch a stem w finished left →
      a.out ≠ some (ascii "-") → ¬ leadsOut w.files (outPath a stem) → ending.status = 0 → ending.output = [] →
      after = { left with files := after.files } →
      ChangedAt (outPath a stem) (becomes finished.output) w.files after.files →
      Ended leadsOut becomes launch commandLine w ending after
  | refused {refusal : Refusal} : ClassFileArguments.parse commandLine = .error refusal → ending.status = 2 →
      ending.output = [] → after.files = w.files → Ended leadsOut becomes launch commandLine w ending after
  | unable {a : ClassFileArguments} : ClassFileArguments.parse commandLine = .ok a → Unable launch a w →
      ending.status = 1 → ending.output = [] → after.files = w.files →
      Ended leadsOut becomes launch commandLine w ending after

section Ending

variable {leadsOut : FileSystem → Path → Prop} {becomes : Bytes → Option Node → Option Node → Prop}
  {launch : Launcher} {commandLine : List Bytes} {w left : World}

theorem execute_ok {output : Bytes} (worked : work launch commandLine w = .ok output left) :
    execute launch commandLine w = ({ status := 0, output }, left) := by
  rw [execute, perform, worked]

theorem execute_error {failure : Failure} (worked : work launch commandLine w = .error failure left) :
    execute launch commandLine w = (manual.endingOf failure, left) := by
  rw [execute, perform, worked]

end Ending

/-! A class file that is decompiled next to it, by a tool that ends well. -/

namespace Sample

def launch : Launcher :=
  .ofAnswers fun _ arguments => .ok { status := 0, output := arguments.getLast?.getD [], errors := [] }

def commandLine : List Bytes :=
  [ascii "unjar", ascii "Foo.class"]

/-- What is there in the place of the output is given. -/
def world (there : Node) : World :=
  { files :=
    { nodes := [([], .directory 0o755), ([ascii "Foo.class"], .file 0o644 []), ([ascii "Foo.java"], there),
        ([ascii "cfr.jar"], .file 0o644 []), ([ascii "java"], .file 0o755 [])]
      here := [] }
    searchPath := [⟨ascii "/"⟩] }

def old : Node :=
  .file 0o644 (ascii "old")

end Sample

/-- What has no room for the answer keeps the program from ending well. -/
example : (execute Sample.launch Sample.commandLine (Sample.world (.device .full))).1.status = 1 := by decide +kernel

/-- Where no output is named and the program ends well, it shows nothing and writes the file that bears the name of
the class, unless a path can lead to what it shows. -/
theorem Ended.place {becomes : Bytes → Option Node → Option Node → Prop} {launch : Launcher} {commandLine : List Bytes}
    {w after : World} {ending : Ending} (ended : Ended (fun _ _ => False) becomes launch commandLine w ending after)
    {a : ClassFileArguments} (read : ClassFileArguments.parse commandLine = .ok a) (unnamed : a.out = none)
    {stem : Bytes} (named : (Path.mk a.classFile).stem = some stem) (well : ending.status = 0) :
    ending.output = [] ∧ ∀ l, after.files.locate .use ⟨stem ++ ascii ".java"⟩ = .ok l →
      ∃ data, becomes data (w.files.node? l) (after.files.node? l) := by
  cases ended with
  | shown read' _ shows _ _ =>
    obtain rfl := Except.ok.inj (read.symm.trans read')
    rw [unnamed] at shows
    cases shows with
    | inl asked => cases asked
    | inr leadsOut => exact leadsOut.elim
  | written read' launched _ _ _ nothing _ changed =>
    obtain rfl := Except.ok.inj (read.symm.trans read')
    obtain rfl := Option.some.inj (named.symm.trans launched.named)
    refine ⟨nothing, fun l located => ?_⟩
    obtain ⟨m, leads, became, _⟩ := changed.place
    rw [outPath, unnamed] at leads
    obtain rfl := Except.ok.inj (located.symm.trans leads)
    exact ⟨_, became⟩
  | refused _ status _ _ | unable _ _ status _ _ => omega

end SingleClass

end Program

end Unjar
