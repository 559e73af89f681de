import Unjar.CommandLine.Legacy

/-!
A command line is read from left to right against a grammar of switches and positional arguments.
A value is settled only when the next argument arrives or the line ends, so a fault in a value is
found after a fault in the spelling of the argument behind it.
-/

namespace Unjar.CommandLine

inductive ValueKind where
  | path
  | text

inductive Action where
  | raise
  | set (kind : ValueKind)
  | showHelp
  | showVersion

structure Switch where
  name : Bytes
  letter : Option UInt8 := none
  action : Action

structure Grammar where
  switches : List Switch
  positionals : List Bytes

/-- Why a command line gives no arguments: a mistake in it, or a text asked for instead. -/
inductive Refusal where
  | unknownArgument
  | invalidValue
  | invalidUtf8
  | tooManyValues
  | conflict
  | missing
  | help
  | version
  deriving DecidableEq

/-- The values given so far, by name, the latest first. A raised switch has the empty value. -/
abbrev Values := List (Bytes × Bytes)

def Values.has (values : Values) (name : Bytes) : Bool :=
  values.any (·.1 == name)

def Values.get? (values : Values) (name : Bytes) : Option Bytes :=
  values.lookup name

/-- An argument whose value is not settled yet: still awaited, or waiting to be checked. -/
structure Unsettled where
  name : Bytes
  kind : ValueKind
  value : Option Bytes

structure Reading where
  values : Values := []
  unsettled : Option Unsettled := none
  positionals : List Bytes
  terminated : Bool := false

namespace Reading

def record (r : Reading) (name value : Bytes) : Except Refusal Reading :=
  if r.values.has name then .error .conflict
  else .ok { r with values := (name, value) :: r.values }

def recordValue (r : Reading) (name : Bytes) (kind : ValueKind) (value : Bytes) : Except Refusal Reading := do
  let r' ← r.record name value
  match kind with
  | .path => if value = [] then .error .invalidValue else .ok r'
  | .text => if Utf8.valid value then .ok r' else .error .invalidUtf8

def settle (r : Reading) : Except Refusal Reading :=
  match r.unsettled with
  | none => .ok r
  | some u =>
    match u.value with
    | none => .error .invalidValue
    | some value => { r with unsettled := none }.recordValue u.name u.kind value

def awaitsValue (r : Reading) : Bool :=
  match r.unsettled with
  | some u => u.value.isNone
  | none => false

/-- Acts on a switch, with the value that was attached to it, if any. -/
def apply (r : Reading) (s : Switch) (attached : Option Bytes) : Except Refusal Reading :=
  match s.action, attached with
  | .set kind, some value => do (← r.settle).recordValue s.name kind value
  | .set kind, none => do return { ← r.settle with unsettled := some ⟨s.name, kind, none⟩ }
  | .raise, _ => do (← r.settle).record s.name []
  | .showHelp, _ => do let _ ← r.settle; .error .help
  | .showVersion, _ => do let _ ← r.settle; .error .version

def takesValue (s : Switch) : Bool :=
  match s.action with
  | .set _ => true
  | _ => false

def long (g : Grammar) (r : Reading) (option : Bytes) : Except Refusal Reading :=
  let name := option.takeWhile (· ≠ equals)
  let attached := match option.dropWhile (· ≠ equals) with
    | [] => none
    | _ :: value => some value
  match g.switches.find? (·.name == name) with
  | none => .error .unknownArgument
  | some s =>
    if attached.isSome ∧ ¬ takesValue s then .error .tooManyValues else r.apply s attached

/-- Letters stand together; one that takes a value takes the rest of them, after an optional `=`. -/
def letters (g : Grammar) (r : Reading) : Bytes → Except Refusal Reading
  | [] => .ok r
  | letter :: rest =>
    match g.switches.find? (·.letter == some letter) with
    | none => .error .unknownArgument
    | some s =>
      if takesValue s then
        match rest with
        | [] => r.apply s none
        | first :: more => r.apply s (some (if first = equals then more else rest))
      else do letters g (← r.apply s none) rest

def positional (r : Reading) (argument : Bytes) : Except Refusal Reading :=
  match r.positionals with
  | [] => .error .unknownArgument
  | name :: later => do
    return { ← r.settle with unsettled := some ⟨name, .text, some argument⟩, positionals := later }

def value (r : Reading) (argument : Bytes) : Except Refusal Reading :=
  match r.unsettled with
  | some ⟨name, kind, none⟩ => .ok { r with unsettled := some ⟨name, kind, some argument⟩ }
  | _ => r.positional argument

def step (g : Grammar) (r : Reading) (argument : Bytes) : Except Refusal Reading :=
  if r.terminated then r.positional argument
  else if argument = terminator then .ok { r with terminated := true }
  else match argument with
    | 0x2D :: 0x2D :: option => r.long g option
    | 0x2D :: letter :: more => r.letters g (letter :: more)
    | _ => r.value argument

end Reading

def Grammar.read (g : Grammar) (arguments : List Bytes) : Except Refusal Values := do
  let r ← arguments.foldlM (Reading.step g) { positionals := g.positionals }
  return (← r.settle).values

end Unjar.CommandLine
