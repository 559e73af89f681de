import Unjar.Shell.Machine.Variables

/-!
Signals have numbers and names. Zero is none, and stands for the end of the shell where actions are set.
-/

namespace Unjar.Shell.Signal

/-- The names of the signals in their order. Some have none but their number. -/
def names : List String :=
  ["EXIT", "HUP", "INT", "QUIT", "ILL", "TRAP", "ABRT", "BUS", "FPE", "KILL", "USR1", "SEGV", "USR2", "PIPE", "ALRM",
    "TERM", "16", "CHLD", "CONT", "STOP", "TSTP", "TTIN", "TTOU", "URG", "XCPU", "XFSZ", "VTALRM", "PROF",
    "WINCH", "IO", "PWR", "SYS", "32", "33", "RTMIN"] ++
  (List.range 15).map (fun n => s!"RTMIN+{n + 1}") ++ (List.range 14).map (fun n => s!"RTMAX-{14 - n}") ++ ["RTMAX"]

def atEnd : Nat := 0

def interrupt : Nat := 2

def quit : Nat := 3

def terminate : Nat := 15

def name (signal : Nat) : String := (names[signal]?).getD ""

def ofNumber? (text : Text) : Option Nat :=
  if text ≠ [] ∧ text.all Char.isDigit ∧ valueIn 10 text < names.length then some (valueIn 10 text) else none

/-- The signal that a number or a name stands for, from a first one on. -/
def ofText? (first : Nat) (text : Text) : Option Nat :=
  match ofNumber? text with
  | some n => some n
  | none =>
    let upper := text.map Char.toUpper
    (List.range names.length).find? fun n => first ≤ n ∧ (name n).toList = upper

/-- The signals that one who does not care about them does not notice. -/
def isHarmless (signal : Nat) : Bool := ["CHLD", "CONT", "URG", "WINCH"].contains (name signal)

/-- What is told of somebody who was stopped by a signal. -/
def description (signal : Nat) : String :=
  match name signal with
  | "HUP" => "Hangup"
  | "QUIT" => "Quit"
  | "ILL" => "Illegal instruction"
  | "TRAP" => "Trace/breakpoint trap"
  | "ABRT" => "Aborted"
  | "BUS" => "Bus error"
  | "FPE" => "Floating point exception"
  | "KILL" => "Killed"
  | "USR1" => "User defined signal 1"
  | "SEGV" => "Segmentation fault"
  | "USR2" => "User defined signal 2"
  | "ALRM" => "Alarm clock"
  | "TERM" => "Terminated"
  | _ => ""

/-- The status of somebody who was stopped by a signal. -/
def status (signal : Nat) : Nat := 128 + signal

end Unjar.Shell.Signal
