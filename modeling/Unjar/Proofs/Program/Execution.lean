import Unjar.Program.WholeArchive
import Unjar.Proofs.Run.Staging

/-!
The program as a whole: with what status it ends, and what it has done to the files then. Nothing is changed before
the command line is read, the tool is found and the plan is made; and the staging directory is gone in the end.
-/

namespace Unjar

/-- A launcher whose programs may make files and directories, and remove none. -/
def Launcher.Tame (launch : Launcher) : Prop :=
  ∀ program arguments (w : World), w.files.Sound → w.files.Evolves (Task.left (launch program arguments w)).files

/-- A launcher whose programs do not interrupt the one that started them. -/
def Launcher.Uninterrupted (launch : Launcher) : Prop :=
  ∀ program arguments w w', launch program arguments w ≠ .error .interrupted w'

section Answering

variable {answer : Path → List Bytes → Except Unfinished Finished}

theorem Launcher.left_ofAnswers (program : Path) (arguments : List Bytes) (w : World) :
    Task.left (ofAnswers answer program arguments w) = w := by
  rw [ofAnswers, Task.query_run]
  cases answer program arguments <;> rfl

theorem Launcher.tame_ofAnswers : (ofAnswers answer).Tame := by
  intro program arguments w sound
  rw [left_ofAnswers]
  exact .refl sound

theorem Launcher.uninterrupted_ofAnswers
    (never : ∀ program arguments, answer program arguments ≠ .error .interrupted) :
    (ofAnswers answer).Uninterrupted := by
  intro program arguments w w' interrupted
  obtain ⟨answered, _⟩ := Task.query_error.mp interrupted
  exact never program arguments answered

end Answering

namespace Tool

variable {launch : Launcher}

/-- What a tool does is done by the program that it launches. -/
theorem decompiler_run (tool : Tool) (launch : Launcher) (file : Path) (name : Bytes) (w : World) :
    tool.decompiler launch file name w =
      match launch tool.java (tool.arguments file name)
        { w with events := w.events ++ [.invokingDecompiler file name] } with
      | .ok finished left =>
        if finished.status = 0 then .ok finished.output left
        else .error (.exit file finished.status finished.errors) left
      | .error (.notStarted cause) left => .error (.spawn tool.java cause) left
      | .error .interrupted left => .error .interrupted left := by
  unfold decompiler
  rw [Task.bind_of_ok _ (Task.tell_run _ w)]
  split
  · rename_i finished left launched
    rw [Task.bind_of_ok _ (Task.withError_ok.mpr launched)]
    split <;> rfl
  · rename_i cause left launched
    exact Task.bind_of_error _ (Task.withError_error.mpr ⟨_, launched, rfl⟩)
  · rename_i left launched
    exact Task.bind_of_error _ (Task.withError_error.mpr ⟨_, launched, rfl⟩)

theorem left_decompiler (tool : Tool) (launch : Launcher) (file : Path) (name : Bytes) (w : World) :
    Task.left (tool.decompiler launch file name w) =
      Task.left (launch tool.java (tool.arguments file name)
        { w with events := w.events ++ [.invokingDecompiler file name] }) := by
  rw [decompiler_run]
  split
  · rename_i launched
    rw [launched]
    split <;> rfl
  · rename_i launched
    rw [launched]
    rfl
  · rename_i launched
    rw [launched]
    rfl

theorem tame_decompiler (tool : Tool) (tame : launch.Tame) : (tool.decompiler launch).Tame := by
  intro file name w sound
  rw [left_decompiler]
  exact tame tool.java (tool.arguments file name) { w with events := w.events ++ [.invokingDecompiler file name] } sound

theorem uninterrupted_decompiler (tool : Tool) (uninterrupted : launch.Uninterrupted) (file : Path) (name : Bytes)
    (w : World) :
    Task.Ends (tool.decompiler launch file name) w (fun _ _ => True) fun cause _ => cause ≠ .interrupted := by
  refine .intro (fun _ _ _ => trivial) fun cause w' failed => ?_
  rw [decompiler_run] at failed
  split at failed
  · split at failed <;> cases failed
    simp
  · cases failed
    simp
  · rename_i launched
    exact absurd launched (uninterrupted _ _ _ _)

theorem locate_run (jar : Path) (w : World) : locate jar w =
    if w.files.isFile jar then
      match java? w.files w.searchPath with
      | some java => .ok { java, jar } w
      | none => .error .javaNotFound w
    else .error (.jarMissing jar) w := by
  have first : locate jar w = (do
      if ¬ w.files.isFile jar then throw (.jarMissing jar)
      match java? w.files w.searchPath with
      | some java => return { java, jar }
      | none => throw .javaNotFound : Task ToolError Tool) w := rfl
  rw [first]
  by_cases there : w.files.isFile jar = true
  · simp only [there, not_true_eq_false, if_false, if_true]
    cases java? w.files w.searchPath <;> rfl
  · simp only [there]
    rfl

end Tool

namespace Plan

theorem make_cases (fs : FileSystem) (jar out : Path) :
    make fs jar out = .ok ⟨jar, out, .perFile⟩ ∧ fs.isFile jar = true ∨
      ∃ cause, make fs jar out = .error cause ∧ fs.isFile jar = false := by
  unfold make
  by_cases there : fs.has jar = true
  · by_cases isFile : fs.isFile jar = true
    · simp [there, isFile]
    · simp [there, isFile]
  · have absent : fs.isFile jar = false := by
      rw [FileSystem.has, Bool.not_eq_true, Option.isSome_eq_false_iff, Option.isNone_iff_eq_none] at there
      rw [FileSystem.isFile, there]
      rfl
    simp [there, absent]

/-- The naming that a command line asks for: a class name is of use only if it is to be reused. -/
inductive Asked (className : Option Bytes) (reuse : Bool) : ClassFile.Naming → Prop
  | perFile : reuse = false → Asked className reuse .perFile
  | fixed {name : Bytes} : reuse = true → className = some name → Asked className reuse (.fixed name)

theorem namingOf_cases (className : Option Bytes) (reuse : Bool) (w : World) :
    (∃ naming events, namingOf className reuse w = .ok naming { w with events } ∧ Asked className reuse naming) ∨
      namingOf className reuse w = .error .reuseWithoutClass w ∧ reuse = true ∧ className = none := by
  cases className with
  | none =>
    cases reuse with
    | true => exact Or.inr ⟨rfl, rfl, rfl⟩
    | false => exact Or.inl ⟨.perFile, w.events, rfl, .perFile rfl⟩
  | some name =>
    cases reuse with
    | true => exact Or.inl ⟨.fixed name, w.events, rfl, .fixed rfl rfl⟩
    | false => exact Or.inl ⟨.perFile, w.events ++ [.ignoringClassName name], rfl, .perFile rfl⟩

/-- What a plan is made of, if it is made. The files are left as they are. -/
theorem ofArguments_cases (a : CommandLine.Arguments) (w : World) :
    (∃ naming events, ofArguments a w = .ok ⟨a.jar, a.out, naming⟩ { w with events } ∧
      Asked a.className a.reuseClassName naming ∧ w.files.isFile a.jar = true) ∨
    ∃ cause events, ofArguments a w = .error cause { w with events } ∧
      (w.files.isFile a.jar = false ∨ a.reuseClassName = true ∧ a.className = none) := by
  unfold ofArguments
  rcases namingOf_cases a.className a.reuseClassName w with
    ⟨naming, events, named, asked⟩ | ⟨unnamed, contradictory⟩
  · rw [Task.bind_of_ok _ named]
    rcases make_cases w.files a.jar a.out with ⟨made, isFile⟩ | ⟨cause, unmade, absent⟩
    · refine Or.inl ⟨naming, events, ?_, asked, isFile⟩
      rw [Task.bind_of_ok _ (Task.query_ok.mpr ⟨made, rfl⟩)]
      rfl
    · exact Or.inr ⟨cause, events, Task.bind_of_error _ (Task.query_error.mpr ⟨unmade, rfl⟩), Or.inl absent⟩
  · exact Or.inr ⟨_, w.events, Task.bind_of_error _ unnamed, Or.inr contradictory⟩

end Plan

namespace Program

theorem status_endingOf (manual : Manual) (failure : Failure) : (manual.endingOf failure).status = failure.status := by
  unfold Manual.endingOf
  split <;> rfl

/-- A tool and a plan that a program has been told, and that can be used. -/
structure Ready (w : World) (a : CommandLine.Arguments) (tool : Tool) (plan : Plan) : Prop where
  decompiler : tool.jar = a.decompiler ∧ w.files.isFile a.decompiler = true
  java : Tool.java? w.files w.searchPath = some tool.java
  archive : plan.jar = a.jar ∧ w.files.isFile a.jar = true
  out : plan.out = a.out
  naming : Plan.Asked a.className a.reuseClassName plan.naming

/-- Something that a program was told is missing, or contradicts itself. -/
def Unready (w : World) (a : CommandLine.Arguments) : Prop :=
  w.files.isFile a.decompiler = false ∨ Tool.java? w.files w.searchPath = none ∨ w.files.isFile a.jar = false ∨
    a.reuseClassName = true ∧ a.className = none

/-- A program that is ready misses nothing. -/
theorem Ready.not_unready {w : World} {a : CommandLine.Arguments} {tool : Tool} {plan : Plan}
    (ready : Ready w a tool plan) : ¬ Unready w a := by
  rintro (noTool | noJava | noArchive | ⟨reuse, unnamed⟩)
  · simp [ready.decompiler.2] at noTool
  · simp [ready.java] at noJava
  · simp [ready.archive.2] at noArchive
  · have asked := ready.naming
    generalize plan.naming = naming at asked
    cases asked with
    | perFile once => simp [reuse] at once
    | fixed _ named => simp [unnamed] at named

namespace WholeArchive

/-- What the program has done when it ends. -/
inductive Executed (launch : Launcher) (commandLine : List Bytes) (w : World) : Ending → World → Prop
  | refused {refusal : CommandLine.Refusal} {ending : Ending} : arguments commandLine = .error refusal →
      ending.status = (if refusal = .help ∨ refusal = .version then 0 else 2) →
      Executed launch commandLine w ending w
  | unready {a : CommandLine.Arguments} {ending : Ending} {events : List Event} : arguments commandLine = .ok a →
      Unready w a → ending.status = 1 → Executed launch commandLine w ending { w with events }
  | unhoused {a : CommandLine.Arguments} {tool : Tool} {plan : Plan} {cause : Fault} {ending : Ending}
      {events : List Event} : arguments commandLine = .ok a → Ready w a tool plan →
      w.files.makeDirectory (Run.nextStaging w) = .error cause → ending.status = 1 →
      Executed launch commandLine w ending { w with events }
  | ran {a : CommandLine.Arguments} {tool : Tool} {plan : Plan} {events : List Event} {l : Location} {start : World}
      {ending : Ending} {outer : EStateM.Result RunError World Summary} :
      arguments commandLine = .ok a → Ready w a tool plan →
      Run.Lodged { w with events } (Run.nextStaging w) l start →
      Run.Cleared l (runIn plan (tool.decompiler launch) (Run.nextStaging w) start) outer →
      (ending.status = match Task.outcome (runIn plan (tool.decompiler launch) (Run.nextStaging w) start) with
        | .ok _ => 0
        | .error _ => 1) →
      Executed launch commandLine w ending (Task.left outer)

/-- A program that is refused or misses something changes no file. -/
theorem Executed.unchanged {launch : Launcher} {commandLine : List Bytes} {w after : World} {ending : Ending}
    (executed : Executed launch commandLine w ending after)
    (never : ∀ a, arguments commandLine = .ok a → Unready w a) : after.files = w.files := by
  cases executed with
  | refused | unready => rfl
  | unhoused read ready _ _ | ran read ready _ _ _ => exact absurd (never _ read) ready.not_unready

section Executing

variable {launch : Launcher} {commandLine : List Bytes} {a : CommandLine.Arguments} {w : World}

/-- Nothing is changed before a program is ready. -/
theorem prepare_cases (read : arguments commandLine = .ok a) :
    (∃ tool plan events, prepare commandLine w = .ok (tool, plan) { w with events } ∧ Ready w a tool plan) ∨
    ∃ failure events, prepare commandLine w = .error failure { w with events } ∧ failure.status = 1 ∧ Unready w a := by
  have begun : reading (arguments commandLine) w = .ok a w := by rw [read]; rfl
  have located := Tool.locate_run a.decompiler w
  unfold prepare
  rw [Task.bind_of_ok _ begun]
  split at located
  · rename_i there
    cases found : Tool.java? w.files w.searchPath with
    | none =>
      rw [found] at located
      exact Or.inr ⟨.tool .javaNotFound, w.events,
        Task.bind_of_error _ (Task.withError_error.mpr ⟨_, located, rfl⟩), rfl, Or.inr (Or.inl found)⟩
    | some java =>
      rw [found] at located
      rw [Task.bind_of_ok _ (Task.withError_ok.mpr located), Task.bind_of_ok _ (Task.tell_run _ w)]
      rcases Plan.ofArguments_cases a { w with events := w.events ++ [.javaFound java] } with
        ⟨naming, events, planned, asked, isFile⟩ | ⟨cause, events, unplanned, missing⟩
      · refine Or.inl ⟨⟨java, a.decompiler⟩, ⟨a.jar, a.out, naming⟩, events, ?_,
          ⟨rfl, there⟩, found, ⟨rfl, isFile⟩, rfl, asked⟩
        rw [Task.bind_of_ok _ (Task.withError_ok.mpr planned)]
        rfl
      · exact Or.inr ⟨.plan cause, events, Task.bind_of_error _ (Task.withError_error.mpr ⟨_, unplanned, rfl⟩), rfl,
          Or.inr (Or.inr missing)⟩
  · rename_i absent
    exact Or.inr ⟨.tool (.jarMissing a.decompiler), w.events,
      Task.bind_of_error _ (Task.withError_error.mpr ⟨_, located, rfl⟩), rfl, Or.inl (by simpa using absent)⟩

theorem prepare_refused {refusal : CommandLine.Refusal} (read : arguments commandLine = .error refusal) :
    prepare commandLine w = .error (.refused refusal) w := by
  unfold prepare reading
  rw [read]
  rfl

theorem work_of_prepared {w₁ : World} {tool : Tool} {plan : Plan}
    (prepared : prepare commandLine w = .ok (tool, plan) w₁) :
    work launch commandLine w = (run plan (tool.decompiler launch)).withError .run w₁ := by
  unfold work
  rw [Task.bind_of_ok _ prepared]

/-- A program ends well just if its work does. -/
theorem execute_ok {summary : Summary} {w' : World} (worked : work launch commandLine w = .ok summary w') :
    execute launch commandLine w = ({ status := 0 }, w') := by
  unfold execute perform
  rw [Task.bind_of_ok _ worked]
  rfl

theorem execute_error {failure : Failure} {w' : World} (failed : work launch commandLine w = .error failure w') :
    execute launch commandLine w = (manual.endingOf failure, w') := by
  unfold execute perform
  rw [Task.bind_of_error _ failed]

/-- A run that fails where no program interrupts is a failure like any other. -/
theorem status_run (uninterrupted : launch.Uninterrupted) {tool : Tool} {e : RunError}
    (heard : Run.Heard (tool.decompiler launch) e) : (Failure.run e).status = 1 := by
  cases e with
  | staging cause | extract cause | walk cause | map cause => rfl
  | produce cause =>
    cases cause with
    | write out fault | copy source target fault => rfl
    | decompile file cause =>
      obtain ⟨name, asked, answered, failed⟩ := heard file cause rfl
      have other := (tool.uninterrupted_decompiler uninterrupted file name asked).of_error failed
      cases cause with
      | interrupted => exact absurd rfl other
      | javaNotFound | jarMissing jar | spawn java fault | exit classFile status stderr => rfl

/-- A program that is ready and has its staging directory ends as the run in it does. -/
theorem executed_of_made (tame : launch.Tame) (uninterrupted : launch.Uninterrupted) (sound : w.files.Sound)
    {tool : Tool} {plan : Plan} {events : List Event} {files : FileSystem} (read : arguments commandLine = .ok a)
    (ready : Ready w a tool plan) (made : w.files.makeDirectory (Run.nextStaging w) = .ok files)
    (worked : work launch commandLine w = (run plan (tool.decompiler launch)).withError .run { w with events }) :
    Executed launch commandLine w (execute launch commandLine w).1 (execute launch commandLine w).2 := by
  have tameTool := tool.tame_decompiler tame
  obtain ⟨l, lodged, cleared⟩ : ∃ l, Run.Lodged { w with events } (Run.nextStaging w) l { w with events, files } ∧
      Run.Cleared l (runIn plan (tool.decompiler launch) (Run.nextStaging w) { w with events, files })
        (run plan (tool.decompiler launch) { w with events }) :=
    Run.run_of_made (w := { w with events }) tameTool sound made
  have heard := Run.runIn_evolves (w := { w with events, files }) tameTool plan (Run.nextStaging w)
    (FileSystem.Evolves.makeDirectory sound made).sound
  cases ended : run plan (tool.decompiler launch) { w with events } with
  | ok summary v =>
    rw [ended] at cleared
    rw [execute_ok (worked.trans (Task.withError_ok.mpr ended))]
    exact .ran read ready lodged cleared (by rw [← cleared.outcome]; rfl)
  | error e v =>
    rw [ended] at cleared
    rw [execute_error (worked.trans (Task.withError_error.mpr ⟨e, ended, rfl⟩))]
    refine .ran read ready lodged cleared ?_
    have failed := Task.error_of_outcome cleared.outcome.symm
    rw [← cleared.outcome, status_endingOf]
    exact status_run uninterrupted (heard.of_error failed).2

/-- However the program ends, its status tells how, and the files are as they were, or as the run has left them
without its staging directory. -/
theorem execute_executed (tame : launch.Tame) (uninterrupted : launch.Uninterrupted) (sound : w.files.Sound) :
    Executed launch commandLine w (execute launch commandLine w).1 (execute launch commandLine w).2 := by
  cases read : arguments commandLine with
  | error refusal =>
    rw [execute_error (Task.bind_of_error _ (prepare_refused read))]
    refine .refused read ?_
    rw [status_endingOf]
    cases refusal <;> rfl
  | ok a =>
    rcases prepare_cases (w := w) read with
      ⟨tool, plan, events, prepared, ready⟩ | ⟨failure, events, failed, status, unready⟩
    · have worked : work launch commandLine w = (run plan (tool.decompiler launch)).withError .run { w with events } :=
        work_of_prepared prepared
      cases made : w.files.makeDirectory (Run.nextStaging w) with
      | ok files => exact executed_of_made tame uninterrupted sound read ready made worked
      | error cause =>
        have unhoused : run plan (tool.decompiler launch) { w with events } =
            .error (.staging cause) { w with events } := Run.run_of_refused made
        rw [execute_error (worked.trans (Task.withError_error.mpr ⟨_, unhoused, rfl⟩))]
        exact .unhoused read ready made (status_endingOf _ _)
    · rw [execute_error (Task.bind_of_error _ failed)]
      exact .unready read unready ((status_endingOf _ _).trans status)

end Executing

/-! An archive that is decompiled by a tool that answers with the name it is told. -/

namespace Sample

def launch : Launcher :=
  .ofAnswers fun _ arguments => .ok { status := 0, output := arguments.getLast?.getD [], errors := [] }

def commandLine : List Bytes :=
  [ascii "unjar", ascii "--jar", ascii "j", ascii "--out", ascii "o"]

def world : World :=
  { files :=
    { nodes := [([], .directory 0o755), ([ascii "j"], .file 0o644 Run.Sample.jar), ([ascii "t"], .directory 0o1777),
        ([ascii "cfr.jar"], .file 0o644 []), ([ascii "java"], .file 0o755 [])]
      here := [] }
    searchPath := [⟨ascii "/"⟩]
    temporary := ⟨ascii "t"⟩ }

end Sample

theorem executed_sample : Sample.launch.Tame ∧ Sample.launch.Uninterrupted ∧ Sample.world.files.Sound ∧
    (execute Sample.launch Sample.commandLine Sample.world).1.status = 0 ∧
    (execute Sample.launch Sample.commandLine Sample.world).2.files.data? [ascii "o", ascii "A.java"] =
      some (ascii "A") ∧
    (execute Sample.launch Sample.commandLine Sample.world).2.files.data? [ascii "o", ascii "c.txt"] = some (ascii "c") ∧
    Executed Sample.launch Sample.commandLine Sample.world (execute Sample.launch Sample.commandLine Sample.world).1
      (execute Sample.launch Sample.commandLine Sample.world).2 := by
  have tame : Sample.launch.Tame := Launcher.tame_ofAnswers
  have uninterrupted : Sample.launch.Uninterrupted := Launcher.uninterrupted_ofAnswers (by simp)
  have sound : Sample.world.files.Sound := .of_nodes (by decide +kernel) (by decide) (by decide) (by decide)
  exact ⟨tame, uninterrupted, sound, by decide +kernel, by decide +kernel, by decide +kernel,
    execute_executed tame uninterrupted sound⟩

end WholeArchive

end Program

end Unjar
