import Unjar.Shell.Utility.Telling

/-!
How programs start other programs.
-/

namespace Unjar.Shell

/-- How a program starts others. -/
structure Starting where
  /-- Runs a program in the place of this one, or tells why that cannot be. -/
  replace : (words : List Text) → Eval Fault
  /-- Does something in a process of its own, and waits for its end. -/
  child : Eval Unit → Eval Unit

/-- The status of one who cannot start a program. -/
def startingStatus (fault : Fault) : Nat := if fault = .notFound ∨ fault = .notADirectory then 127 else 126

namespace Starting

/-- Runs a program in the place of one that complains if that cannot be. -/
def replaceOr (s : Starting) (self : Text) (words : List Text) (named : Text → String := quoted) : Eval Unit := do
  let fault ← s.replace words
  giveUp self (startingStatus fault) s!"{named (words.headD [])}: {fault.reason}"

end Starting

namespace Starting

/-- Runs a program and gives its status. -/
def statusOf (s : Starting) (self : Text) (words : List Text) (named : Text → String := quoted) : Eval Nat := do
  s.child (s.replaceOr self words named)
  return (← getProcess).status

end Starting

end Unjar.Shell
