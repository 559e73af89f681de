import Unjar.Shell.Machine.Channels

namespace Unjar.Shell

/-- What separates fields if nothing else is said. -/
def defaultSeparators : Text := [' ', '\t', '\n']

/-- The directories in which programs are looked for if nothing else is said. -/
def defaultSearchPath : Text :=
  "/usr/local/sbin:/usr/local/bin:/usr/sbin:/usr/bin:/sbin:/bin".toList

/-- Names are kept in a table of so many places, and are shown in its order. -/
def tablePlaces : Nat := 39

def tablePlace (name : Text) : Nat :=
  ((name.headD ' ').toNat * 16 + name.foldl (fun soFar c => soFar + c.toNat) 0) % tablePlaces

def inTableOrder {α : Type} (entries : List (Text × α)) : List (Text × α) :=
  (List.range tablePlaces).flatMap fun place => entries.filter fun entry => tablePlace entry.1 = place

namespace Process

def value? (p : Process) (name : Text) : Option Text :=
  (p.bindings.lookup name).bind (·.value)

def value (p : Process) (name : String) : Text := (p.value? name.toList).getD []

def separators (p : Process) : Text := (p.value? "IFS".toList).getD defaultSeparators

/-- Sets a variable, in its place if it is there. -/
def put (p : Process) (name : Text) (v : Variable) : Process :=
  { p with bindings :=
      if (p.bindings.lookup name).isSome then
        p.bindings.map fun entry => if entry.1 = name then (name, v) else entry
      else (name, v) :: p.bindings }

def take (p : Process) (name : Text) : Process :=
  { p with bindings := p.bindings.filter (·.1 ≠ name) }

/-- A name under which a scope keeps the options. -/
def optionsName : Text := ['-']

/-- A variable, or the options, as a scope keeps them. -/
def kept (p : Process) (name : Text) : Option Variable :=
  if name = optionsName then some { value := some p.options } else p.bindings.lookup name

/-- Puts a variable back as it was. -/
def putBack (p : Process) (name : Text) : Option Variable → Process
  | some v => if name = optionsName then { p with options := v.value.getD [] } else p.put name v
  | none => p.take name

/-- The variables that programs are given. -/
def environment (p : Process) : List (Text × Text) :=
  inTableOrder (p.bindings.reverse.filterMap fun (name, v) =>
    if v.exported then v.value.map fun value => (name, value) else none)

def searchPath (p : Process) : List Path := searchPathOfText (toOctets (p.value "PATH"))

/-- The letters of the options in the order in which they are shown. -/
def optionLetters : Text := "pubaCEVvxsnmiIfe".toList

def shownOptions (p : Process) : Text := optionLetters.filter p.options.contains

end Process

def isReadOnly (name : Text) : Eval Bool := do
  return ((← getProcess).bindings.lookup name).any (·.readOnly)

/-- The place from which options are read again when their index is set. -/
def optionPlaceOf (value : Text) : OptionPlace :=
  { index := max 1 ((wholeNumber? value).getD 1).toNat }

/-- Gives a variable a value. -/
def assign (name value : Text) : Eval Unit := do
  if ← isReadOnly name then failWith s!"{shown name}: is read only"
  modifyProcess fun p =>
    let old := (p.bindings.lookup name).getD { value := none }
    let assigned := p.put name { old with value := some value, exported := old.exported || p.has 'a' }
    if name = "OPTIND".toList then { assigned with optionPlace := optionPlaceOf value } else assigned

def setVariable (name : String) (value : Text) : Eval Unit := assign name.toList value

/-- Marks a variable, which need not have a value. -/
def changeVariable (name : Text) (change : Variable → Variable) : Eval Unit :=
  modifyProcess fun p => p.put name (change ((p.bindings.lookup name).getD { value := none }))

def unsetVariable (name : Text) : Eval Unit := do
  if ← isReadOnly name then failWith s!"{shown name}: is read only"
  modifyProcess (·.take name)

/-- Lets the innermost scope put a variable back at its end. -/
def keepInScope (name : Text) : Eval Unit :=
  modifyProcess fun p =>
    match p.scopes with
    | [] => p
    | scope :: outer => { p with scopes := ((name, p.kept name) :: scope) :: outer }

/-- Makes a variable one of the innermost scope, with a new value or the one it has. -/
def makeLocal (name : Text) (value : Option Text) : Eval Unit := do
  keepInScope name
  match value with
  | some value => assign name value
  | none =>
    if ((← getProcess).kept name).isNone then changeVariable name id

/-- Does something in a scope of its own. It is not left where the shell ends. -/
def inScope {α : Type} (act : Eval α) : Eval α := fun m =>
  let outer := m.process.scopes
  let leave (after : Machine) : Machine :=
    let scope := after.process.scopes.headD []
    let process := scope.foldl (fun p (name, v) => p.putBack name v) after.process
    { after with process := { process with scopes := outer } }
  match act { m with process := { m.process with scopes := [] :: outer } } with
  | .ok value after => .ok value (leave after)
  | .error (.exit status) after => .error (.exit status) after
  | .error stop after => .error stop (leave after)

end Unjar.Shell
