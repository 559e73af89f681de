import Unjar.Shell.Starting.Basic
import Unjar.Shell.Utility.Making

/-!
The program that makes arguments for another one of what it reads.
-/

namespace Unjar.Shell

def gatheringGrammar : Grammar where
  letters := "n:I:0rd:L:tP:a:s:xpi"
  names := [("max-args", 'n'), ("replace", 'i'), ("null", '0'), ("no-run-if-empty", 'r'), ("delimiter", 'd'),
    ("max-lines", 'L'), ("verbose", 't'), ("max-procs", 'P'), ("arg-file", 'a'), ("max-chars", 's')]
  attached := "i"
  inOrder := true

/-- The words of each line. Quotes and backslashes keep blanks from ending a word; a line end does not end
the words of a line behind a blank. -/
def quotedWords : Nat → Option Text → List Text → Text → Except String (List (List Text))
  | 0, _, line, _ => .ok [line.reverse]
  | fuel + 1, word, line, text =>
    let done (word : Option Text) : List Text := match word with
      | some word => word.reverse :: line
      | none => line
    match text with
    | [] => .ok (if done word = [] then [] else [(done word).reverse])
    | '\n' :: rest => do
      let more ← quotedWords fuel none [] rest
      return if done word = [] then more else (done word).reverse :: more
    | '\\' :: c :: rest => quotedWords fuel (some (c :: word.getD [])) line rest
    | c :: rest =>
      if isBlank c then quotedWords fuel none (done word) rest
      else if c = quotation ∨ c = doubleQuotation then
        let inner := rest.takeWhile (· ≠ c)
        if inner.contains '\n' ∨ inner.length = rest.length then
          let kind := if c = quotation then "single" else "double"
          .error (s!"unmatched {kind} quote; by default quotes are special to xargs unless you use the -0 option")
        else quotedWords fuel (some (inner.reverse ++ word.getD [])) line (rest.drop (inner.length + 1))
      else quotedWords fuel (some (c :: word.getD [])) line rest

/-- A text with another one wherever a sign stands. -/
def withReplaced (sign value : Text) : Nat → Text → Text
  | 0, text => text
  | fuel + 1, text =>
    if sign ≠ [] ∧ sign.isPrefixOf text then value ++ withReplaced sign value fuel (text.drop sign.length)
    else match text with
      | [] => []
      | c :: rest => c :: withReplaced sign value fuel rest

def inChunks {α : Type} (size : Nat) : Nat → List α → List (List α)
  | 0, _ | _, [] => []
  | fuel + 1, items => items.take size :: inChunks size fuel (items.drop size)

/-- The items of an input, those of one line together. -/
def gatheredItems (self : Text) (g : Given) (byLines : Bool) (data : Bytes) : Eval (List (List Text)) := do
  let text := ofOctets data
  let separator := if g.has "0" then some '\x00' else (g.argument? 'd').map fun sign =>
    match sign with
    | ['\\', 'n'] => '\n'
    | ['\\', 't'] => '\t'
    | ['\\', '0'] => '\x00'
    | c :: _ => c
    | [] => '\x00'
  match separator with
  | some separator =>
    let items := text.splitOn separator
    return (if items.getLast? = some [] then items.dropLast else items).map fun item => [item]
  | none =>
    if byLines then
      let lines := (linesOf text).map fun line => line.dropWhile isBlank
      match (lines.filter (· ≠ [])).mapM fun line => quotedWords (line.length + 1) none [] (line.filter fun c => ¬ isBlank c) with
      | .error message => giveUp self 1 message
      | .ok _ =>
        return (lines.filter (· ≠ [])).map fun line => [line.filter fun c => c ≠ quotation ∧ c ≠ doubleQuotation ∧ c ≠ '\\']
    else match quotedWords (text.length + 1) none [] text with
      | .error message => giveUp self 1 message
      | .ok lines => return lines

def gatherArguments (s : Starting) : Utility := fun self arguments => do
  let g ← gatheringGrammar.read self arguments
  let data ← match ← (match g.argument? 'a' with
    | some name => contentAt name
    | none => readAll 0) with
    | .ok data => pure data
    | .error fault =>
      let name := (g.argument? 'a').getD []
      giveUp self 1 s!"Cannot open input file {quoted name}: {fault.reason}"
  let sign? := match g.argument? 'I', g.argument? 'i' with
    | some sign, _ => some sign
    | none, some [] => some ['\x7b', '\x7d']
    | none, sign? => sign?
  let items ← gatheredItems self g sign?.isSome data
  let words := if g.operands = [] then ["echo".toList] else g.operands
  let size (letter : Char) : Option Nat := (g.argument? letter).map (valueIn 10)
  let groups : List (List Text) :=
    match sign?, size 'n', size 'L' with
    | some _, _, _ => items
    | none, some n, _ => inChunks (max n 1) (items.flatten.length + 1) items.flatten
    | none, none, some n => (inChunks (max n 1) (items.length + 1) items).map List.flatten
    | none, none, none => [items.flatten]
  let groups := groups.filter fun group => group ≠ [] ∨ ¬ (g.has "r" ∨ sign?.isSome)
  let groups := if groups = [] ∧ sign? = none ∧ ¬ g.has "r" then [[]] else groups
  let mut status := 0
  for group in groups do
    let command := match sign? with
      | some sign => words.map fun word => withReplaced sign (group.headD []) (word.length + 1) word
      | none => words ++ group
    if g.has "t" then say 2 (List.intercalate [' '] command ++ ['\n'])
    let result ← s.statusOf self command shown
    if result = 126 ∨ result = 127 then throw (.exit result)
    if result = 255 then giveUp self 124 s!"{shown (command.headD [])}: exited with status 255; aborting"
    if result ≠ 0 then status := 123
  setStatus status

end Unjar.Shell
