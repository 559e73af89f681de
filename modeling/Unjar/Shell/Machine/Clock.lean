import Unjar.Shell.Machine.State

/-!
Time. Only what waits takes long; everything else takes so little that it merely comes in order.
-/

namespace Unjar.Shell

/-- How long a command of the shell takes, in microseconds. -/
def commandTime : Nat := 10

/-- How long it takes to start a program. -/
def programTime : Nat := 1000

/-- Lets time pass. A signal that was to be sent in the meantime is sent. -/
def elapse (duration : Nat) : Eval Unit :=
  modifySystem fun s =>
    let clock := s.clock + duration
    match s.deadline with
    | some (time, number, signal) =>
      if time ≤ clock then { s with clock, deadline := none, sent := s.sent ++ [(number, signal)] }
      else { s with clock }
    | none => { s with clock }

end Unjar.Shell
