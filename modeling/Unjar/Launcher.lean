import Unjar.World

namespace Unjar

/-- What a program that came to its end wrote, and its status. -/
structure Finished where
  status : Nat
  output : Bytes
  errors : Bytes
  deriving DecidableEq

inductive Unfinished where
  | notStarted (cause : Fault)
  /-- The program sent an interrupt to the one that started it. -/
  | interrupted
  deriving DecidableEq

/-- What starts a program with arguments and waits for its end. -/
abbrev Launcher := Path → List Bytes → Task Unfinished Finished

/-- A launcher whose programs do nothing but answer. -/
def Launcher.ofAnswers (answer : Path → List Bytes → Except Unfinished Finished) : Launcher :=
  fun program arguments => Task.query fun _ => answer program arguments

end Unjar
