import Unjar.Run
import Unjar.Tool

namespace Unjar.Program

/-- Why a program does not do its work to the end. -/
inductive Failure where
  | refused (refusal : CommandLine.Refusal)
  | noClassName
  | tool (cause : ToolError)
  | plan (cause : PlanError)
  | run (cause : RunError)
  | write (out : Path) (cause : Fault)
  deriving DecidableEq

namespace Failure

/-- A text that was asked for is no failure, a mistake in the command line is one of its own kind,
and so is an interrupt. -/
def status : Failure → Nat
  | refused .help | refused .version => 0
  | refused _ => 2
  | tool .interrupted | run (.produce (.decompile _ .interrupted)) => 130
  | _ => 1

def refusalMessage : CommandLine.Refusal → String
  | .unknownArgument => "unexpected argument"
  | .invalidValue => "a value is missing"
  | .invalidUtf8 => "invalid UTF-8 in an argument"
  | .tooManyValues => "unexpected value for a switch"
  | .conflict => "an argument is given twice"
  | .missing => "a required argument is missing"
  | .help | .version => ""

def message : Failure → String
  | refused refusal => refusalMessage refusal
  | noClassName => "could not determine a class name, please specify one"
  | tool cause => cause.message
  | plan cause => cause.message
  | run cause => cause.message
  | write out cause => s!"unable to write output to '{out.display}': {cause.message}"

end Failure

/-- What a program tells of itself when asked. -/
structure Manual where
  usage : String
  version : String

/-- What a program shows when it ends. -/
structure Ending where
  status : Nat
  output : Bytes := []
  complaint : String := ""
  deriving DecidableEq

def Manual.endingOf (manual : Manual) : Failure → Ending
  | .refused .help => { status := 0, output := ascii manual.usage }
  | .refused .version => { status := 0, output := ascii manual.version }
  | failure => { status := failure.status, complaint := failure.message }

/-- Does the work of a program to its end. -/
def perform (manual : Manual) (work : Task Failure Bytes) (world : World) : Ending × World :=
  match work world with
  | .ok output after => ({ status := 0, output }, after)
  | .error failure after => (manual.endingOf failure, after)

/-- Reads a command line, or refuses it. -/
def reading {α : Type} (result : Except CommandLine.Refusal α) : Task Failure α :=
  match result with
  | .ok arguments => return arguments
  | .error refusal => throw (.refused refusal)

end Unjar.Program
