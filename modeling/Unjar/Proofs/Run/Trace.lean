import Unjar.Proofs.Extract.Frame
import Unjar.Proofs.Run.Turn
import Unjar.Proofs.Run.Workplace

/-!
The calls of a run. Each file that is met has its turn, until one of them ends with an error; whether there is a
call at a turn is read off the file and off the output tree as it is then.
-/

namespace Unjar

namespace Run

open FileSystem ClassFile

/-- A file at its turn: the world before its visit, and how the visit ended. -/
structure Turn where
  file : Path
  before : World
  ended : EStateM.Result RunError World Summary

namespace Turn

/-- Whether the decompiler makes the output of the file. -/
def wanted (t : Turn) : Bool :=
  t.file.extension = some classExtension ∨ t.file.extension = some sourceExtension

/-- Whether the output was there. -/
def done (plan : Plan) (staging : Path) (t : Turn) : Bool :=
  (outputPath t.file staging plan.out).any t.before.files.has

/-- Whether the directory of the output could not be made. -/
def unplaced (t : Turn) : Bool :=
  match t.ended with
  | .error (.map (.makeDirectory _ _)) _ => true
  | _ => false

def asks (plan : Plan) (staging : Path) (t : Turn) : Bool :=
  t.wanted && !t.done plan staging && !t.unplaced

def call (plan : Plan) (staging : Path) (t : Turn) : Path × Bytes :=
  (t.file, toldName plan.naming staging t.file)

end Turn

/-- The turns of what is met, up to the first that ends with an error. -/
def turns (plan : Plan) (d : Decompiler) (staging : Path) : Summary → List Walk.Item → World → List Turn
  | _, [], _ => []
  | _, .error _ :: _, _ => []
  | soFar, .ok file :: rest, w =>
    let ended := visit plan d staging soFar (.ok file) w
    ⟨file, w, ended⟩ ::
      match ended with
      | .ok after w' => turns plan d staging after rest w'
      | .error _ _ => []

/-- The turns of a run whose archive is unpacked. -/
def course (plan : Plan) (d : Decompiler) (staging : Path) (entries : Nat) (w₁ : World) : List Turn :=
  match w₁.files.makeDirectories plan.out with
  | (.error _, _) => []
  | (.ok (), ready) => turns plan d staging {} (Walk.items ready pathMax staging)
      { w₁ with
        files := ready
        events := w₁.events ++ [.unzipped entries staging] ++ [.outputDirectory plan.out] ++ [.extractingClasses] }

variable {plan : Plan} {d : Decompiler} {staging : Path} {s o : Location} {origin : FileSystem} {w : World}

/-- What the turns tell about the calls that were made from one world to another. -/
structure Followed (plan : Plan) (staging : Path) (s o : Location) (origin : FileSystem) (items : List Walk.Item)
    (ts : List Turn) (w w' : World) : Prop where
  running : Running staging plan.out s o origin w'.files
  order : ts.map Turn.file <+: Walk.files items
  calls : w'.calls = w.calls ++ (ts.filter (Turn.asks plan staging)).map (Turn.call plan staging)

theorem Followed.nil {items : List Walk.Item} (running : Running staging plan.out s o origin w.files) :
    Followed plan staging s o origin items [] w w :=
  ⟨running, List.nil_prefix, (List.append_nil _).symm⟩

theorem Followed.cons {t : Turn} {ts : List Turn} {items : List Walk.Item} {w₁ w' : World}
    (tried : Tried staging plan.out s o origin (if t.asks plan staging then [t.call plan staging] else []) w w₁)
    (later : Followed plan staging s o origin items ts w₁ w') :
    Followed plan staging s o origin (.ok t.file :: items) (t :: ts) w w' := by
  refine ⟨later.running, List.cons_prefix_cons.mpr ⟨rfl, later.order⟩, ?_⟩
  rw [later.calls, tried.calls, List.append_assoc, List.filter_cons]
  split <;> rfl

/-- What the turns tell about the counts of a run. -/
structure Tallied (plan : Plan) (staging : Path) (ts : List Turn) (soFar after : Summary) : Prop where
  decompiled : after.decompiled = soFar.decompiled + (ts.filter (Turn.asks plan staging)).length
  skipped : after.skipped = soFar.skipped + (ts.filter (Turn.done plan staging)).length
  total : after.decompiled + after.copied + after.skipped =
    soFar.decompiled + soFar.copied + soFar.skipped + ts.length

theorem Tallied.cons {t : Turn} {ts : List Turn} {soFar after : Summary} (placed : t.unplaced = false)
    (later : Tallied plan staging ts (soFar.record (fate (t.done plan staging) t.wanted)) after) :
    Tallied plan staging (t :: ts) soFar after := by
  obtain ⟨decompiled, skipped, total⟩ := later
  have asked : t.asks plan staging = (t.wanted && !t.done plan staging) := by
    rw [Turn.asks, placed, Bool.not_false, Bool.and_true]
  rw [fate] at decompiled skipped total
  refine ⟨?_, ?_, ?_⟩ <;>
    cases isDone : t.done plan staging <;> cases isWanted : t.wanted <;>
      simp only [isDone, isWanted, asked, Summary.record, List.filter_cons, List.length_cons, if_true, if_false,
        Bool.false_eq_true, Bool.not_true, Bool.not_false, Bool.and_true, Bool.and_false] at decompiled skipped total ⊢ <;>
      omega

/-- The sample archive, unpacked. -/
def Sample.unpacked : World :=
  Task.left (extract Sample.plan.jar Sample.staging Sample.world)

example : ((course Sample.plan Sample.failing Sample.staging 3 Sample.unpacked).filter
    (Turn.asks Sample.plan Sample.staging)).map (Turn.call Sample.plan Sample.staging) =
      [(⟨ascii "s/A.class"⟩, ascii "A"), (⟨ascii "s/B.class"⟩, ascii "B")] := by decide +kernel

end Run

end Unjar
