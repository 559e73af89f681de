import Unjar.Shell.Regex.Basic

/-!
Reading regular expressions, in the basic notation, in which most operators have a backslash, and in the
extended one, in which they have none.
-/

namespace Unjar.Shell.Regex

/-- What is still to be read, and how many groups were opened. -/
structure Reading where
  rest : Text
  groups : Nat := 0

abbrev Parse := EStateM String Reading

/-- The signs that have a meaning in one notation. -/
structure Notation where
  extended : Bool

namespace Notation

/-- Whether an operator comes next, which is then read. -/
def take? (n : Notation) (c : Char) : Parse Bool := do
  let r ← get
  match r.rest with
  | '\\' :: d :: rest =>
    if ¬ n.extended ∧ d = c then
      set { r with rest }
      return true
    else return false
  | d :: rest =>
    if n.extended ∧ d = c then
      set { r with rest }
      return true
    else return false
  | [] => return false

/-- Whether an operator comes next. -/
def isNext (n : Notation) (c : Char) : Parse Bool := do
  match (← get).rest with
  | '\\' :: d :: _ => return !n.extended && d = c
  | d :: _ => return n.extended && d = c
  | [] => return false

end Notation

def next : Parse (Option Char) := do
  let r ← get
  match r.rest with
  | [] => return none
  | c :: rest =>
    set { r with rest }
    return some c

/-- The members of a bracket expression up to its end. -/
def membersFrom : Nat → Bool → Text → Except String (List Member × Text)
  | 0, _, _ | _, _, [] => .error "Invalid regular expression"
  | fuel + 1, isFirst, c :: rest => do
    let goOn (member : Member) (rest : Text) : Except String (List Member × Text) := do
      let (members, after) ← membersFrom fuel false rest
      return (member :: members, after)
    if c = ']' ∧ ¬ isFirst then return ([], rest)
    else match if c = '[' then CharClass.atFront? rest else none with
      | some (k, rest) => goOn (.ofClass k) rest
      | none =>
        if c = '[' ∧ rest.head? = some ':' ∧ ((rest.dropWhile (· ≠ ']')).tail).contains ']' then
          throw "Invalid character class name"
        let (c, rest) := single c rest
        match rest with
        | '-' :: last :: after =>
          if last = ']' then goOn (.range c c) rest
          else
            let (last, after) := single last after
            if last < c then throw "Invalid range end"
            goOn (.range c last) after
        | rest => goOn (.range c c) rest
where
  /-- A character that may be written as an element of its own. -/
  single (c : Char) (rest : Text) : Char × Text :=
    match c, rest with
    | '[', sign :: element :: sign' :: ']' :: after =>
      if (sign = '.' ∨ sign = '=') ∧ sign = sign' then (element, after) else (c, rest)
    | c, rest => (c, rest)

def bracket : Parse Regex := do
  let r ← get
  let negated := r.rest.head? = some '^'
  let text := if negated then r.rest.tail else r.rest
  match membersFrom (text.length + 1) true text with
  | .ok (members, rest) =>
    set { r with rest }
    return .oneOf negated members
  | .error message => throw message

def wordMembers : List Member := [.ofClass .alnum, .range '_' '_']

/-- What a letter behind a backslash stands for. -/
def escaped (c : Char) : Regex :=
  match c with
  | '<' => .wordEdge .first
  | '>' => .wordEdge .last
  | 'b' => .wordEdge .either
  | 'B' => .wordEdge .neither
  | 'w' => .oneOf false wordMembers
  | 'W' => .oneOf true wordMembers
  | 's' => .oneOf false [.ofClass .space]
  | 'S' => .oneOf true [.ofClass .space]
  | c => if c.isDigit ∧ c ≠ '0' then .again (valueIn 10 [c]) else .exactly c

/-- The bounds of a repetition behind its brace, if they are bounds. -/
def bounds? (n : Notation) (text : Text) : Option (Nat × Option Nat × Text) :=
  let least := text.takeWhile Char.isDigit
  let rest := text.drop least.length
  let close (least : Nat) (most : Option Nat) (rest : Text) : Option (Nat × Option Nat × Text) :=
    match n.extended, rest with
    | true, '\x7d' :: rest => some (least, most, rest)
    | false, '\\' :: '\x7d' :: rest => some (least, most, rest)
    | _, _ => none
  match rest with
  | ',' :: rest =>
    let most := rest.takeWhile Char.isDigit
    close (valueIn 10 least) (if most = [] then none else some (valueIn 10 most)) (rest.drop most.length)
  | rest => if least = [] then none else close (valueIn 10 least) (some (valueIn 10 least)) rest

/-- An atom with what says how often it is repeated. -/
def repetitions (n : Notation) : Nat → Regex → Parse Regex
  | 0, r => return r
  | fuel + 1, r => do
    let state ← get
    match state.rest with
    | '*' :: rest =>
      set { state with rest }
      repetitions n fuel (.repeated r 0 none)
    | _ =>
      if ← n.take? '+' then repetitions n fuel (.repeated r 1 none)
      else if ← n.take? '?' then repetitions n fuel (.repeated r 0 (some 1))
      else if ← n.isNext '\x7b' then
        match bounds? n (state.rest.drop (if n.extended then 1 else 2)) with
        | some (least, most, rest) =>
          set { state with rest }
          repetitions n fuel (.repeated r least most)
        | none => if n.extended then return r else throw "Unmatched \\\x7b"
      else return r

/-- Whether a branch ends here. -/
def endsBranch (n : Notation) (depth : Nat) : Parse Bool := do
  if (← get).rest = [] then return true
  else if ← n.isNext '|' then return true
  else return (← n.isNext ')') && (depth > 0 || !n.extended)

mutual

def choices (n : Notation) : Nat → Nat → Parse Regex
  | 0, _ => throw "Regular expression too big"
  | fuel + 1, depth => do
    let first ← branch n fuel depth true .nothing
    if ← n.take? '|' then return .either first (← choices n fuel depth) else return first

def branch (n : Notation) : Nat → Nat → Bool → Regex → Parse Regex
  | 0, _, _, _ => throw "Regular expression too big"
  | fuel + 1, depth, isFirst, soFar => do
    if ← endsBranch n depth then return soFar
    else
      let add (r : Regex) : Parse Regex := branch n fuel depth false (.followed soFar r)
      let state ← get
      match state.rest with
      | '^' :: rest =>
        if n.extended ∨ isFirst then
          set { state with rest }
          branch n fuel depth (!n.extended) (.followed soFar .lineStart)
        else
          set { state with rest }
          add (← repetitions n fuel (.exactly '^'))
      | '$' :: rest => do
        set { state with rest }
        let isLast := rest = [] || (← n.isNext '|') || (← n.isNext ')')
        if n.extended ∨ isLast then add .lineEnd else add (← repetitions n fuel (.exactly '$'))
      | '*' :: rest =>
        set { state with rest }
        add (← repetitions n fuel (.exactly '*'))
      | _ => add (← repetitions n fuel (← atom n fuel depth))

def atom (n : Notation) : Nat → Nat → Parse Regex
  | 0, _ => throw "Regular expression too big"
  | fuel + 1, depth => do
    if ← n.take? '(' then
      let number := (← get).groups + 1
      modify fun r => { r with groups := number }
      let inner ← choices n fuel (depth + 1)
      if ← n.take? ')' then return .group number inner else throw "Unmatched ( or \\("
    else match ← next with
      | none => throw "Invalid preceding regular expression"
      | some '.' => return .any
      | some '[' => bracket
      | some '\\' =>
        match ← next with
        | none => throw "Trailing backslash"
        | some c =>
          match escaped c with
          | .again number =>
            if (← get).groups < number then throw "Invalid back reference" else return .again number
          | r => return r
      | some c => return .exactly c

end

/-- A regular expression as it is written, or what is wrong with it. -/
def ofText (extended : Bool) (text : Text) : Except String Regex :=
  let n : Notation := { extended }
  let whole : Parse Regex := do
    let r ← choices n (4 * text.length + 8) 0
    if (← get).rest ≠ [] then throw "Unmatched ) or \\)"
    return r
  match whole { rest := text } with
  | .ok r _ => .ok r
  | .error message _ => .error message

/-- A text that stands for itself. -/
def ofFixed (text : Text) : Regex := text.foldr (fun c r => .followed (.exactly c) r) .nothing

end Unjar.Shell.Regex
