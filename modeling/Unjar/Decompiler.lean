import Unjar.Text.Blank
import Unjar.World

namespace Unjar

inductive ToolError where
  | javaNotFound
  | jarMissing (jar : Path)
  | spawn (java : Path) (cause : Fault)
  | exit (classFile : Path) (status : Nat) (stderr : Bytes)
  /-- The whole run was told to stop while the decompiler worked. -/
  | interrupted
  deriving DecidableEq

/-- What a tool wrote to tell of its failure, without the blanks around it. -/
def ToolError.told (stderr : Bytes) : String :=
  String.ofList (Blank.trim (Utf8.chars stderr))

def ToolError.message : ToolError → String
  | javaNotFound => "no java executable found on PATH, please install java"
  | jarMissing jar => s!"decompiler jar '{jar.display}' not found"
  | spawn java cause => s!"failed to start '{java.display}': {cause.message}"
  | exit classFile status stderr =>
    s!"decompiler exited with exit status: {status} for '{classFile.display}': {told stderr}"
  | interrupted => "interrupted"

def ToolError.causes : ToolError → List String
  | javaNotFound => ["cannot find binary path"]
  | spawn _ cause => [cause.message]
  | _ => []

/-- What turns a class file into source text, told the name of the class. -/
abbrev Decompiler := Path → Bytes → Task ToolError Bytes

/-- A decompiler that has an answer to every question and does nothing else. -/
def Decompiler.ofAnswers (answer : Path → Bytes → Except ToolError Bytes) : Decompiler :=
  fun file name => Task.query fun _ => answer file name

/-- Asks a decompiler, and keeps the question. -/
def Decompiler.ask (d : Decompiler) (file : Path) (name : Bytes) : Task ToolError Bytes := do
  Task.recordCall file name
  d file name

end Unjar
