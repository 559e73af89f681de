import Unjar.Shell.Dispatch

/-!
Running commands.
-/

namespace Unjar.Shell

/-- How a round of a loop ended. -/
inductive Round where
  | done
  /-- The next round was asked for. -/
  | again
  | left

section Interpretation

-- Runs a command; what it yields may be tested, so that a failure is no reason to stop.
variable (runCommand : (tested : Bool) → Command → Eval Unit)

/-- Writes text to what was open under a number. -/
def sayThrough (id? : Option Nat) (text : Text) : Eval Unit := do
  if let some id := id? then
    let before := (← getProcess).descriptors
    modifyProcess (·.connect 2 id)
    say 2 text
    modifyProcess fun p => { p with descriptors := before }

/-- Shows the words of a command before it is run, if that is asked for. -/
def trace (errors : Option Nat) (words : List Text) : Eval Unit := do
  let p ← getProcess
  if p.has 'x' ∧ ¬ p.tracing then
    modifyProcess fun p => { p with tracing := true }
    let front ← match Reader.asDocument (.ofText (p.value "PS4")) with
      | .ok word _ => textOf (substitution runCommand) .document word
      | .error _ _ => pure (p.value "PS4")
    modifyProcess fun p => { p with tracing := false }
    sayThrough errors (front ++ List.intercalate [' '] words ++ ['\n'])

/-- Assigns values, and yields the assignments as they would be written with these values. -/
def assignAll (isLocal exports : Bool) (assignments : List (Text × Word)) : Eval (List Text) :=
  assignments.mapM fun (name, word) => do
    let value ← textOf (substitution runCommand) .assigned word
    if isLocal then makeLocal name (some value) else assign name value
    if isLocal ∨ exports then changeVariable name fun v => { v with exported := true }
    return name ++ '=' :: value

def runSimple (tested : Bool) (line : Nat) (assignments words : List Word) (redirections : List Redirection) :
    Eval Unit := do
  elapse commandTime
  let isReplaceable := (← getProcess).isReplaceable
  modifyProcess fun p => { p with line, substituted := 0, isReplaceable := false }
  let fields ← commandFields runCommand [] words
  let p ← getProcess
  let i := invocation p fields
  let errors := p.descriptors.lookup 2
  let isExec : Bool := match i.action with
    | .builtin name => name = "exec".toList
    | _ => false
  let isLocal : Bool := fields ≠ [] ∧ ¬ i.isSpecial
  let act : Eval Unit := do
    let assigned ← assignAll runCommand isLocal (isExec && i.words.length > 1) (assignments.filterMap assignment?)
    trace runCommand errors (assigned ++ fields)
    perform runCommand tested isReplaceable i
  let refused : Eval Unit := do
    setStatus 2
    if i.isSpecial then throw (.failed 2)
  let whole : Eval Unit := do
    if isExec then
      let prepared ← redirections.mapM (Redirection.prepare runCommand)
      if ← succeeds (for r in prepared do Prepared.apply runCommand r) then act else refused
    else redirecting runCommand redirections act refused
  if isLocal then inScope whole else whole

/-- Does something inside a loop. -/
def inLoop (act : Eval Unit) : Eval Round := fun m =>
  let outside (after : Machine) : Machine :=
    { after with process := { after.process with loops := m.process.loops } }
  match act { m with process := { m.process with loops := m.process.loops + 1 } } with
  | .ok _ after => .ok .done (outside after)
  | .error (.nextRound loops) after =>
    if loops ≤ 1 then .ok .again (outside after) else .error (.nextRound (loops - 1)) (outside after)
  | .error (.leaveLoop loops) after =>
    if loops ≤ 1 then .ok .left (outside after) else .error (.leaveLoop (loops - 1)) (outside after)
  | .error stop after => .error stop (outside after)

/-- So many rounds are run at most. -/
def roundsMax : Nat := 1000000

/-- Runs rounds of a loop. The status is that of the last body. -/
def rounds (whileFailing : Bool) (condition body : Eval Unit) : Nat → Nat → Eval Unit
  | 0, _ => throw .exhausted
  | fuel + 1, status => do
    match ← inLoop condition with
    | .left => setStatus status
    | .again => rounds whileFailing condition body fuel status
    | .done =>
      if ((← getProcess).status = 0) = whileFailing then setStatus status
      else match ← inLoop body with
        | .left => return
        | _ => rounds whileFailing condition body fuel (← getProcess).status

def eachItem (name : Text) (body : Eval Unit) : List Text → Eval Unit
  | [] => return
  | item :: rest => do
    assign name item
    match ← inLoop body with
    | .left => return
    | _ => eachItem name body rest

/-- The first choice with a pattern that accepts a text. -/
def chosenArm (subject : Text) : List Arm → Eval (Option Command)
  | [] => return none
  | .mk patterns body :: rest => do
    if ← accepts patterns then return some body else chosenArm subject rest
where
  accepts : List Word → Eval Bool
    | [] => return false
    | pattern :: patterns => do
      if (← patternOfWord (substitution runCommand) pattern).accepts subject then return true else accepts patterns

end Interpretation

/-- Stops the shell if a failure ends it and nothing looks at the status. -/
def checkStatus (tested : Bool) : Eval Unit := do
  let p ← getProcess
  if ¬ tested ∧ p.has 'e' ∧ p.status ≠ 0 then throw (.exit p.status)

def setLine (line : Nat) : Eval Unit := modifyProcess fun p => { p with line }

/-- Runs a command. The fuel bounds the depth of commands. -/
def run : Nat → Bool → Command → Eval Unit
  | 0, _, _ => throw .exhausted
  | fuel + 1, tested, command => do
    heedSignals (run fuel)
    if (← getProcess).has 'n' then return
    match command with
    | .nothing => return
    | .simple line assignments words redirections => do
      runSimple (run fuel) tested line assignments words redirections
      heedSignals (run fuel)
      checkStatus tested
    | .define line name body =>
      modifyProcess fun p =>
        { p with functions := (name, ⟨line, body⟩) :: p.functions.filter (·.1 ≠ name), status := 0 }
    | .sequence first second => do
      run fuel tested first
      run fuel tested second
    | .background inner => startJob inner
    | .andThen first second => do
      run fuel true first
      if (← getProcess).status = 0 then run fuel tested second
    | .orElse first second => do
      run fuel true first
      if (← getProcess).status ≠ 0 then run fuel tested second
    | .negate inner => do
      run fuel true inner
      modifyProcess fun p => { p with status := if p.status = 0 then 1 else 0 }
    | .pipeline stages => do
      runPipeline (run fuel) tested stages
      heedSignals (run fuel)
      checkStatus tested
    | .branch condition positive negative => do
      run fuel true condition
      if (← getProcess).status = 0 then run fuel tested positive
      else match negative with
        | .nothing => setStatus 0
        | negative => run fuel tested negative
    | .loop whileFailing condition body =>
      rounds whileFailing (run fuel true condition) (run fuel tested body) roundsMax 0
    | .forEach line name items body => do
      setLine line
      let fields ← match items with
        | some words => fieldsOfAll (substitution (run fuel)) words
        | none => do pure (← getProcess).arguments
      if fields = [] then setStatus 0 else eachItem name (run fuel tested body) fields
    | .choose line subject arms => do
      setLine line
      let subject ← textOf (substitution (run fuel)) .text subject
      match ← chosenArm (run fuel) subject arms with
      | some .nothing | none => setStatus 0
      | some body => run fuel tested body
    | .redirected line inner redirections => do
      setLine line
      redirecting (run fuel) redirections (run fuel tested inner) (setStatus 2)
    | .subshell line inner redirections => do
      setLine line
      let prepared ← redirections.mapM (Redirection.prepare (run fuel))
      asChild (run fuel) id do
        for r in prepared do Prepared.apply (run fuel) r
        run fuel tested inner
      heedSignals (run fuel)
      checkStatus tested

end Unjar.Shell
