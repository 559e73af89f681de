import Unjar.Shell.Text

/-!
What a shell script says. A word is a sequence of parts. Quotation is not a part of its own: a mark stands
where it begins and where it ends, since a word may be empty and yet be there.
-/

namespace Unjar.Shell

/-- What is done with the value of a parameter. Some edits count an empty value as none. -/
inductive Edit where
  | none
  | length
  | default (orEmpty : Bool)
  | assign (orEmpty : Bool)
  | demand (orEmpty : Bool)
  | alternative (orEmpty : Bool)
  | trimFront (longest : Bool)
  | trimBack (longest : Bool)
  /-- One that there is not; it matters only when the word is expanded. -/
  | unknown
  deriving DecidableEq

/-- How a redirection opens a file. -/
inductive Access where
  | read
  | write
  | overwrite
  | append
  | both
  deriving DecidableEq

mutual

inductive Part where
  | char (c : Char) (quoted : Bool)
  | mark
  | parameter (name : Text) (edit : Edit) (operand : List Part)
  | arithmetic (expression : List Part)
  | substitution (body : Command)

inductive Redirection where
  | file (descriptor : Nat) (access : Access) (target : List Part)
  | duplicate (descriptor : Nat) (source : List Part)
  /-- The document with this number is the input. -/
  | document (descriptor number : Nat)

/-- One choice of a selection: what it is for, and what is done. -/
inductive Arm where
  | mk (patterns : List (List Part)) (body : Command)

inductive Command where
  | nothing
  | simple (line : Nat) (assignments words : List (List Part)) (redirections : List Redirection)
  | define (line : Nat) (name : Text) (body : Command)
  | sequence (first second : Command)
  | background (command : Command)
  | andThen (first second : Command)
  | orElse (first second : Command)
  | negate (command : Command)
  | pipeline (stages : List Command)
  | branch (condition positive negative : Command)
  /-- Repeats the body as long as the condition succeeds, or fails where `whileFailing` is set. -/
  | loop (whileFailing : Bool) (condition body : Command)
  /-- Without items the arguments of the script are gone through. -/
  | forEach (line : Nat) (name : Text) (items : Option (List (List Part))) (body : Command)
  | choose (line : Nat) (subject : List Part) (arms : List Arm)
  | redirected (line : Nat) (command : Command) (redirections : List Redirection)
  | subshell (line : Nat) (command : Command) (redirections : List Redirection)

end

abbrev Word := List Part

instance : Inhabited Command := ⟨.nothing⟩

/-- The text of a word in which nothing is quoted or expanded. -/
def plain? : Word → Option Text
  | [] => some []
  | .char c false :: rest => (plain? rest).map (c :: ·)
  | _ => none

/-- The characters of a word, quoted or not. -/
def writtenText (word : Word) : Text :=
  word.filterMap fun part => match part with
    | .char c _ => some c
    | _ => none

/-- The name of the variable that a word assigns to, and the value. -/
def assignment? (word : Word) : Option (Text × Word) :=
  go [] word
where
  go (name : Text) : Word → Option (Text × Word)
    | .char c false :: rest =>
      if c = '=' then if isName name then some (name, rest) else none
      else if isNamePart c then go (name ++ [c]) rest else none
    | _ => none

end Unjar.Shell
