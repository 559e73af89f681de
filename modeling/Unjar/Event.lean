import Unjar.Path

namespace Unjar

/-- How many files a run decompiled, copied and left alone. -/
structure Summary where
  decompiled : Nat := 0
  copied : Nat := 0
  skipped : Nat := 0
  deriving DecidableEq

/-- What is told while a run goes on. -/
inductive Event where
  | extracted (path : Path)
  | unzipped (entries : Nat) (staging : Path)
  | outputDirectory (out : Path)
  | extractingClasses
  | creatingDirectory (directory : Path)
  | notAClassFile (file : Path) (name : Bytes)
  | invokingDecompiler (file : Path) (name : Bytes)
  | outputExists (out : Path)
  | decompiled (name : Bytes) (out : Path)
  | copied (out : Path)
  | done (summary : Summary)
  | ignoringClassName (name : Bytes)
  | javaFound (java : Path)
  deriving DecidableEq

inductive Level where
  | debug
  | info
  | warning
  deriving DecidableEq

namespace Event

def level : Event → Level
  | unzipped .. | outputDirectory .. | extractingClasses | done .. | javaFound .. => .info
  | notAClassFile .. | ignoringClassName .. => .warning
  | _ => .debug

def message : Event → String
  | extracted path => s!"extracted path={path.display}"
  | unzipped entries staging => s!"unzipped {entries} entries to {staging.display}"
  | outputDirectory out => s!"output directory: {out.display}"
  | extractingClasses => "extracting classes..."
  | creatingDirectory directory => s!"creating output directory dir={directory.display}"
  | notAClassFile file name =>
    s!"'{file.display}' is not a class file, decompiling it as '{Utf8.display name}'"
  | invokingDecompiler file name =>
    s!"invoking decompiler class_file={file.display} class_name={Utf8.display name}"
  | outputExists out => s!"output exists, skipping out={out.display}"
  | decompiled name out => s!"decompiled class_name={Utf8.display name} out={out.display}"
  | copied out => s!"copied out={out.display}"
  | done summary =>
    s!"done decompiled={summary.decompiled} copied={summary.copied} skipped={summary.skipped}"
  | ignoringClassName name =>
    s!"ignoring class name '{Utf8.display name}', each class file is decompiled under its own name (see --reuse-class-name)"
  | javaFound java => s!"java found in path: {java.display}"

end Event

def Level.label : Level → String
  | .debug => "DEBUG"
  | .info => "INFO"
  | .warning => "WARN"

/-- The line an event is told in. -/
def Event.line (event : Event) : String :=
  event.level.label ++ " " ++ event.message

end Unjar
