import Unjar.Extract
import Unjar.Plan
import Unjar.Produce
import Unjar.Walk

namespace Unjar

inductive RunError where
  | staging (cause : Fault)
  | extract (cause : ExtractError)
  | walk (cause : WalkError)
  | map (cause : MapError)
  | produce (cause : ProduceError)
  deriving DecidableEq

def RunError.causes : RunError → List String
  | staging cause => [cause.message]
  | extract cause => cause.causes
  | walk cause => cause.causes
  | map cause => cause.causes
  | produce cause => cause.causes

def RunError.message : RunError → String
  | staging cause => s!"unable to create staging directory: {cause.message}"
  | extract cause => cause.message
  | walk cause => cause.message
  | map cause => cause.message
  | produce cause => cause.message

namespace Run

/-- The name for a file that has no class name of its own. It matters only where the output is a
source file. -/
def fallbackName (file out : Path) : Task RunError Bytes := do
  let name := Utf8.lossy (file.stem.getD [])
  if out.extension = some ClassFile.sourceExtension then Task.tell (.notAClassFile file name)
  return name

def className (naming : ClassFile.Naming) (staging file out : Path) : Task RunError Bytes :=
  match naming.className ((file.stripPrefix? staging).getD file) with
  | some name => return name
  | none => fallbackName file out

/-- All that is done for one file of the walk. -/
def visit (plan : Plan) (d : Decompiler) (staging : Path) (soFar : Summary) (item : Walk.Item) :
    Task RunError Summary := do
  match item with
  | .error e => throw (.walk e)
  | .ok file =>
    let out ← (prepareOutput file staging plan.out).withError .map
    let name ← className plan.naming staging file out
    return soFar.record (← (produce d file name out).withError .produce)

end Run

/-- Unpacks the archive into the staging directory and makes the source tree from what lies there.
The first error ends the run; what was made until then stays. -/
def runIn (plan : Plan) (d : Decompiler) (staging : Path) : Task RunError Summary := do
  let entries ← (extract plan.jar staging).withError .extract
  Task.tell (.unzipped entries staging)
  unless (← Task.files).isDirectory plan.out do
    (ensureDirectory plan.out).withError .map
  Task.tell (.outputDirectory plan.out)
  Task.tell .extractingClasses
  let summary ← Walk.fold (Run.visit plan d staging) staging {}
  Task.tell (.done summary)
  return summary

/-- A directory for one run, named so that nothing has its name yet. -/
def stagingName (count : Nat) : Bytes :=
  ascii "cfr" ++ ascii (toString (100000 + count))

/-- The first staging name that is free in the directory for temporary files. -/
def freshStaging (fs : FileSystem) (temporary : Path) : Nat → Nat → Path
  | 0, count => temporary.child (stagingName count)
  | tries + 1, count =>
    let p := temporary.child (stagingName count)
    match fs.locate .inspect p with
    | .ok _ => freshStaging fs temporary tries (count + 1)
    | .error _ => p

def makeStaging : Task RunError Path := do
  let world ← get
  let staging := freshStaging world.files world.temporary world.files.nodes.length 0
  Task.change fun fs => (fs.makeDirectory staging).mapError .staging
  return staging

/-- A staging directory that is gone already needs no removal. -/
def removeStaging {ε : Type} (staging : Path) : Task ε Unit := do
  match (← Task.files).removeTree staging with
  | .ok removed => Task.setFiles removed
  | .error _ => return

/-- Does a task, and then another one whatever came of the first. -/
def Task.followedBy {ε α : Type} (task : Task ε α) (after : Task ε Unit) : Task ε α := fun world =>
  match task world with
  | .ok value world => match after world with
    | .ok _ world => .ok value world
    | .error e world => .error e world
  | .error e world => match after world with
    | .ok _ world => .error e world
    | .error _ world => .error e world

/-- A run in a staging directory of its own, which is gone afterwards. -/
def run (plan : Plan) (d : Decompiler) : Task RunError Summary := do
  let staging ← makeStaging
  (runIn plan d staging).followedBy (removeStaging staging)

end Unjar
