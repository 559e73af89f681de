import Unjar.Shell.Signal

/-!
What the commands of the shell have in common. Each is given its arguments and leaves a status.
-/

namespace Unjar.Shell

abbrev Builtin := List Text → Eval Unit

/-- The options in front of arguments: letters, the ones before a colon with an argument of their own. -/
def optionsFrom (allowed : Text) : Nat → List (Char × Text) → List Text → Eval (List (Char × Text) × List Text)
  | 0, found, arguments => return (found, arguments)
  | fuel + 1, found, arguments => do
    match arguments with
    | ['-', '-'] :: rest => return (found, rest)
    | ('-' :: c :: letters) :: rest =>
      match allowed.dropWhile (· ≠ c) with
      | _ :: ':' :: _ =>
        match letters, rest with
        | [], [] => failWith s!"No arg for -{c} option"
        | [], argument :: rest => optionsFrom allowed fuel (found ++ [(c, argument)]) rest
        | argument, rest => optionsFrom allowed fuel (found ++ [(c, argument)]) rest
      | _ :: _ =>
        let rest := if letters = [] then rest else ('-' :: letters) :: rest
        optionsFrom allowed fuel (found ++ [(c, [])]) rest
      | [] => failWith s!"Illegal option -{c}"
    | _ => return (found, arguments)

def options (allowed : String) (arguments : List Text) : Eval (List (Char × Text) × List Text) :=
  optionsFrom allowed.toList (arguments.foldl (fun soFar argument => soFar + argument.length) 0 + arguments.length + 1) [] arguments

/-- The largest number that an argument may be. -/
def argumentMax : Int := 2147483647

def numberOf (text : Text) : Eval Nat := do
  match wholeNumber? text with
  | some n => if 0 ≤ n ∧ n ≤ argumentMax then return n.toNat else failWith s!"Illegal number: {shown text}"
  | none => failWith s!"Illegal number: {shown text}"

/-- Text in quotes that the shell reads back. -/
def singleQuoted (text : Text) : Text :=
  quotation :: text.flatMap (fun c =>
    if c = quotation then [quotation, doubleQuotation, quotation, doubleQuotation, quotation] else [c]) ++ [quotation]

/-- The name in front of an assignment, and the value if there is one. -/
def nameAndValue (argument : Text) : Text × Option Text :=
  let name := argument.takeWhile (· ≠ '=')
  (name, if name.length = argument.length then none else some (argument.drop (name.length + 1)))

def requireName (name : Text) : Eval Unit := do
  unless isName name do failWith s!"{shown name}: bad variable name"

end Unjar.Shell
