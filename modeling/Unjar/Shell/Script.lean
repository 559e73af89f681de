import Unjar.Shell.Machine.Clock
import Unjar.Shell.Reader.Command
import Unjar.Shell.Signal

/-!
Running the text of a script, what is done when a signal comes, and what is done at the end.
-/

namespace Unjar.Shell

/-- What was read between two states of a source. -/
def textBetween (before after : Source) : Text :=
  (before.rest.take (before.rest.length - after.rest.length)).filterMap fun symbol => match symbol with
    | .char c => some c
    | .aliasEnd .. => none

section Scripts

-- Runs a command; what it yields may be tested, so that a failure is no reason to stop.
variable (runCommand : (tested : Bool) → Command → Eval Unit)

/-- Runs what is left of a script, line by line, and tells whether there was anything to run. The lines of
a file are shown if that is asked for. -/
def runSource (isFile tested : Bool) : Nat → Bool → Source → Eval Bool
  | 0, _, _ => throw .exhausted
  | fuel + 1, hasRun, source => do
    let p ← getProcess
    let source := { source with aliases := p.aliases, nextDocument := p.nextDocument, documents := [] }
    let result := Reader.line source
    let rest := match result with
      | .ok _ rest | .error _ rest => rest
    if isFile ∧ p.has 'v' then say 2 (textBetween source rest)
    match result with
    | .error refusal _ =>
      modifyProcess fun p => { p with line := refusal.line }
      failWith refusal.message
    | .ok none _ => return hasRun
    | .ok (some command) rest =>
      modifyProcess fun p => { p with
        documents := rest.documents ++ p.documents, nextDocument := rest.nextDocument, readLine := rest.line }
      match command with
      | .nothing => runSource isFile tested fuel hasRun rest
      | command =>
        runCommand tested command
        runSource isFile tested fuel true rest

/-- Runs a text as a script. One in which there is nothing to run succeeds. -/
def runText (isFile tested : Bool) (text : Text) : Eval Unit := do
  let readLine := (← getProcess).readLine
  unless ← runSource runCommand isFile tested (text.length + 2) false (.ofText text) do setStatus 0
  modifyProcess fun p => { p with readLine }

/-- Does what is to be done about a signal. The status stays as it is. -/
def heedSignal (signal : Nat) : Eval Unit := do
  let p ← getProcess
  match p.traps.lookup signal with
  | none => unless Signal.isHarmless signal do throw (.killed signal)
  | some [] => return
  | some action =>
    modifyProcess fun p => { p with finalStatus := some p.status }
    runText runCommand false false action
    modifyProcess fun after => { after with status := p.status, finalStatus := p.finalStatus }

/-- Does what is to be done about the signals that came. -/
def heedSignals : Eval Unit := do
  let m ← get
  let isOwn (entry : Nat × Nat) : Bool := entry.1 = m.process.number
  if m.system.sent.any isOwn then
    modifySystem fun s => { s with sent := s.sent.filter fun entry => ¬ isOwn entry }
    for (_, signal) in m.system.sent.filter isOwn do heedSignal runCommand signal

/-- Does what is to be done at the end of a shell that ends with a status. -/
def sayFarewell (status : Nat) : Eval Nat := fun m =>
  match m.process.traps.lookup Signal.atEnd with
  | none | some [] => .ok status m
  | some action =>
    let traps := m.process.traps.filter (·.1 ≠ Signal.atEnd)
    match runText runCommand false false action
        { m with process := { m.process with traps, status, finalStatus := some status } } with
    | .ok _ after => .ok status after
    | .error stop after =>
      match stop with
      | .exit status | .failed status => .ok status after
      | .giveBack _ | .leaveLoop _ | .nextRound _ => .ok status after
      | stop => .error stop after

/-- Lets a shell run to its end, and yields its status. -/
def toTheEnd (act : Eval Unit) : Eval Nat := fun m =>
  match act m with
  | .ok _ after => sayFarewell runCommand after.process.status after
  | .error stop after =>
    match stop with
    | .exit status | .failed status | .giveBack status => sayFarewell runCommand status after
    | .leaveLoop _ | .nextRound _ => sayFarewell runCommand after.process.status after
    | stop => .error stop after

end Scripts

end Unjar.Shell
