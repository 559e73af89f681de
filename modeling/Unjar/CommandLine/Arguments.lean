import Unjar.CommandLine.Grammar
import Unjar.Path

namespace Unjar.CommandLine

/-- What a command line says about decompiling a whole archive. -/
structure Arguments where
  className : Option Bytes
  jar : Path
  out : Path
  decompiler : Path
  reuseClassName : Bool
  verbose : Bool
  deriving DecidableEq

def Arguments.grammar : Grammar where
  switches := [
    { name := ascii "jar", action := .set .path },
    { name := ascii "out", action := .set .path },
    { name := ascii "cfr", action := .set .path },
    { name := ascii "reuse-class-name", action := .raise },
    { name := ascii "verbose", letter := some 0x76, action := .raise },
    { name := ascii "help", letter := some 0x68, action := .showHelp },
    { name := ascii "version", letter := some 0x56, action := .showVersion }]
  positionals := [ascii "CLASS"]

/-- An archive is always needed, and reusing a class name needs the name. -/
def Arguments.ofValues (values : Values) : Except Refusal Arguments :=
  let className := values.get? (ascii "CLASS")
  let reuseClassName := values.has (ascii "reuse-class-name")
  match values.get? (ascii "jar") with
  | none => .error .missing
  | some jar =>
    if reuseClassName ∧ className.isNone then .error .missing
    else .ok {
      className
      jar := ⟨jar⟩
      out := ⟨(values.get? (ascii "out")).getD (ascii "src")⟩
      decompiler := ⟨(values.get? (ascii "cfr")).getD (ascii "cfr.jar")⟩
      reuseClassName
      verbose := values.has (ascii "verbose") }

/-- Reads a command line whose first argument is the name of the program. -/
def Arguments.parse (commandLine : List Bytes) : Except Refusal Arguments := do
  Arguments.ofValues (← Arguments.grammar.read commandLine.tail)

/-- What a command line says about decompiling one class file. -/
structure ClassFileArguments where
  classFile : Bytes
  className : Option Bytes
  out : Option Bytes
  decompiler : Path

def ClassFileArguments.grammar : Grammar where
  switches := [
    { name := ascii "out", letter := some 0x6F, action := .set .text },
    { name := ascii "cfr", action := .set .text },
    { name := ascii "help", letter := some 0x68, action := .showHelp }]
  positionals := [ascii "CLASS_FILE", ascii "CLASS"]

def ClassFileArguments.parse (commandLine : List Bytes) : Except Refusal ClassFileArguments := do
  let values ← ClassFileArguments.grammar.read commandLine.tail
  match values.get? (ascii "CLASS_FILE") with
  | none => .error .missing
  | some classFile =>
    return {
      classFile
      className := values.get? (ascii "CLASS")
      out := values.get? (ascii "out")
      decompiler := ⟨(values.get? (ascii "cfr")).getD (ascii "cfr.jar")⟩ }

end Unjar.CommandLine
