import Unjar.Shell.Utility.Copying
import Unjar.Shell.Utility.Showing

/-!
Programs that give files a size, or copy a part of them.
-/

namespace Unjar.Shell

def sizeGrammar : Grammar where
  letters := "cor:s:"
  names := [("no-create", 'c'), ("reference", 'r'), ("size", 's')]

/-- A size as it is written, in relation to what the size was. -/
def newSize? (text : Text) (size : Nat) : Option Nat :=
  let up (n : Nat) : Nat := if n = 0 then size else (size + n - 1) / n * n
  match text with
  | '+' :: rest => (multiplied? rest).map (size + ·)
  | '-' :: rest => (multiplied? rest).map (size - ·)
  | '<' :: rest => (multiplied? rest).map (min size)
  | '>' :: rest => (multiplied? rest).map (max size)
  | '/' :: rest => (multiplied? rest).map fun n => if n = 0 then size else size / n * n
  | '%' :: rest => (multiplied? rest).map up
  | rest => multiplied? rest

def resizeFiles : Utility := fun self arguments => do
  let g ← sizeGrammar.read self arguments
  let reference ← match g.argument? 'r' with
    | none => pure none
    | some name =>
      match ← contentAt name with
      | .ok data => pure (some data.length)
      | .error fault => giveUp self 1 s!"cannot stat {quoted name}: {fault.reason}"
  if (g.argument? 's').isNone ∧ reference.isNone then
    misused self 1 "you must specify either '\x2d-size' or '\x2d-reference'"
  if g.operands = [] then misused self 1 "missing file operand"
  for name in g.operands do
    let fs ← getFiles
    if g.has "c" ∧ ¬ fs.has (pathOf name) then continue
    match Permission.toWrite fs (← getProcess).mask false (pathOf name) with
    | .error fault => fails self s!"cannot open {quoted name} for writing: {fault.reason}"
    | .ok (l, after) =>
      let data := (after.contents l).toOption.getD []
      let size? := match g.argument? 's' with
        | some text => newSize? text (reference.getD data.length)
        | none => reference
      match size? with
      | none =>
        let text := (g.argument? 's').getD []
        giveUp self 1 s!"Invalid number: {quoted text}"
      | some size => setFiles (after.fill l (data.take size ++ List.replicate (size - data.length) 0))

/-- What is said to `dd` under a name, the last of several. -/
def wordFor (words : List Text) (name : String) : Option Text :=
  let front := (name ++ "=").toList
  (words.filter front.isPrefixOf).getLast?.map (·.drop front.length)

def copyBlocks : Utility := fun self arguments => do
  setStatus 0
  let known := ["if", "of", "bs", "ibs", "obs", "count", "skip", "seek", "iseek", "oseek", "conv", "status", "iflag", "oflag", "cbs"]
  for word in arguments do
    unless known.any fun name => (name ++ "=").toList.isPrefixOf word do
      misused self 1 s!"unrecognized operand {quoted word}"
  let amount (name : String) (default : Nat) : Eval Nat := do
    match wordFor arguments name with
    | none => return default
    | some text =>
      match multiplied? text with
      | some n => return n
      | none => giveUp self 1 s!"invalid number: {quoted text}"
  let size ← amount "bs" 512
  let sizeIn := max (← amount "ibs" size) 1
  let sizeOut := max (← amount "obs" size) 1
  let skipped := (← amount "skip" (← amount "iseek" 0)) * sizeIn
  let sought := (← amount "seek" (← amount "oseek" 0)) * sizeOut
  let conversions := ((wordFor arguments "conv").getD []).splitOn ','
  let limit ← match wordFor arguments "count" with
    | none => pure none
    | some _ => do pure (some ((← amount "count" 0) * sizeIn))
  let data ← match wordFor arguments "if" with
    | none => do
      let peeked := (← peekAll 0 ((limit.getD endless) + skipped)).toOption.getD []
      let wanted := match limit with
        | some limit => peeked.take (skipped + limit)
        | none => peeked
      skip 0 wanted.length limit.isNone
      pure wanted
    | some name =>
      match ← openPath .read name with
      | .ok file => pure (((← getSystem).content file ((limit.getD endless) + skipped)).toOption.getD [])
      | .error fault => giveUp self 1 s!"failed to open {quoted name}: {fault.reason}"
  let data := data.drop skipped
  let data := match limit with
    | some limit => data.take limit
    | none => data
  let whole := (data.length / sizeIn, if data.length % sizeIn = 0 then 0 else 1)
  let changed := if conversions.contains "ucase".toList then toOctets ((ofOctets data).map Char.toUpper)
    else if conversions.contains "lcase".toList then toOctets ((ofOctets data).map Char.toLower) else data
  match wordFor arguments "of" with
  | none => emit self changed
  | some name =>
    let keeps := conversions.contains "notrunc".toList
    match ← openPath (if keeps ∨ sought ≠ 0 then .both else .write) name with
    | .error fault => giveUp self 1 s!"failed to open {quoted name}: {fault.reason}"
    | .ok file =>
      match file.channel with
      | .file l =>
        let fs ← getFiles
        let before := (fs.contents l).toOption.getD []
        let base := if keeps then before else before.take sought
        setFiles (fs.fill l (System.overwritten base sought changed))
      | .full => giveUp self 1 s!"error writing {quoted name}: {Fault.reason .noSpace}"
      | _ => pure ()
  unless wordFor arguments "status" = some "none".toList do
    let records := s!"{whole.1}+{whole.2} records"
    say 2 (s!"{records} in\n{records} out\n").toList
    unless wordFor arguments "status" = some "noxfer".toList do
      let unit := if data.length = 1 then "byte" else "bytes"
      say 2 (s!"{data.length} {unit} copied, 0.0001 s, 0.0 kB/s\n").toList

def unlinkFile : Utility := fun self arguments => do
  let g ← ({ letters := "" } : Grammar).read self arguments
  match g.operands with
  | [name] =>
    let fs ← getFiles
    match fs.locateAdmitted .inspect (pathOf name) with
    | .error fault => cannot self "cannot unlink" name fault
    | .ok l =>
      if fs.isDirectoryAt l then cannot self "cannot unlink" name .isADirectory
      else if Permission.mayRemove fs l then takeAway l
      else cannot self "cannot unlink" name .permissionDenied
  | [] => missingOperand self
  | _ :: other :: _ => misused self 1 s!"extra operand {quoted other}"

def linkFile : Utility := fun self arguments => do
  let g ← ({ letters := "" } : Grammar).read self arguments
  match g.operands with
  | [source, target] =>
    let fs ← getFiles
    let node := (fs.locateAdmitted .inspect (pathOf source)).bind fun l => (fs.node? l).elim (.error .notFound) .ok
    let made := node.bind fun node => Permission.make fs (pathOf target) fun _ => node
    match made with
    | .ok files => setFiles files
    | .error fault => fails self s!"cannot create link {quoted target} to {quoted source}: {fault.reason}"
  | [] => missingOperand self
  | [name] => misused self 1 s!"missing operand after {quoted name}"
  | _ :: _ :: other :: _ => misused self 1 s!"extra operand {quoted other}"

end Unjar.Shell
