import Unjar.Proofs.Run.Visit

/-!
Visits to outputs whose directory is there already. An output that is there is left alone, and one that
was taken away is made anew.
-/

namespace Unjar.Run

open FileSystem ClassFile

variable {plan : Plan} {d : Decompiler} {staging : Path} {s o : Location} {origin : FileSystem} {names : List Bytes}
  {w : World}

/-- A file whose output could be made: its directory is there and its path fits. -/
structure Ready (plan : Plan) (o : Location) (names : List Bytes) (fs : FileSystem) : Prop where
  directory : fs.isDirectoryAt (o ++ (productNames names).dropLast) = true
  standing : (plan.out.enclosing (productNames names)).standing = .ok ()
  fits : Fits plan.out (productNames names)

theorem Ready.grow {fs fs' : FileSystem} (ready : Ready plan o names fs) (grows : fs.Grows fs') :
    Ready plan o names fs' :=
  ⟨grows.directory ready.directory, ready.standing, ready.fits⟩

/-- What was visited can be made again. -/
theorem Visited.ready {w' : World} {produced : Produced} (visited : Visited d plan staging s o names w w' produced)
    (working : Working staging plan.out s o origin w.files) (valid : AllNames names) :
    Ready plan o names w'.files := by
  obtain ⟨ready, made, _, isMade⟩ := visited.made
  obtain ⟨_, _, directory, standing⟩ := working.within.prepare (allNames_productNames valid) made
  exact ⟨isMade.grows.1.directory directory, standing, visited.fits⟩

theorem visit_of_ready (d : Decompiler) (working : Working staging plan.out s o origin w.files) (valid : AllNames names)
    (down : names ≠ []) (ready : Ready plan o names w.files) (soFar : Summary) :
    ∃ events, visit plan d staging soFar (.ok (staging.descendant names)) w =
      make plan d staging soFar (staging.descendant names) (plan.out.descendant (productNames names))
        { w with events } := by
  have remade := working.within.leads.makeDirectories_enclosing working.tree.sound (allNames_productNames valid)
    ready.directory
  obtain ⟨events, visits⟩ := visit_run plan staging d valid down soFar w
  rw [remade, ready.standing] at visits
  exact ⟨events, visits⟩

/-- What a visit leaves behind, as far as anything later depends on it. -/
def Leaves (result : EStateM.Result RunError World Summary) (soFar : Summary) (files : FileSystem)
    (calls : List (Path × Bytes)) : Prop :=
  ∃ w', result = .ok soFar w' ∧ w'.files = files ∧ w'.calls = calls

theorem leaves_of_produce {file target : Path} {produced : Produced} {w' : World} {soFar : Summary} {files : FileSystem}
    {calls : List (Path × Bytes)} (ran : produce d file (toldName plan.naming staging file) target w = .ok produced w')
    (sameFiles : w'.files = files) (sameCalls : w'.calls = calls) :
    Leaves (make plan d staging soFar file target w) (soFar.record produced) files calls := by
  rw [make, Task.bind_of_ok _ (Task.withError_ok.mpr ran)]
  exact ⟨w', rfl, sameFiles, sameCalls⟩

theorem visit_skips (working : Working staging plan.out s o origin w.files) (valid : AllNames names)
    (down : names ≠ []) (ready : Ready plan o names w.files)
    (there : (w.files.node? (o ++ productNames names)).isSome) (soFar : Summary) :
    Leaves (visit plan d staging soFar (.ok (staging.descendant names)) w) (soFar.record .skipped) w.files
      w.calls := by
  obtain ⟨events, visits⟩ := visit_of_ready d working valid down ready soFar
  have has := (working.within.leads.has_iff working.tree.sound working.within.free (allNames_productNames valid)
    (productNames_ne_nil down)).mpr ⟨ready.fits.spelled, there⟩
  have ran : produce d (staging.descendant names) (toldName plan.naming staging (staging.descendant names))
      (plan.out.descendant (productNames names)) { w with events } =
      .ok .skipped { w with events := events ++ [.outputExists (plan.out.descendant (productNames names))] } :=
    produces_iff.mpr (.skipped has)
  rw [visits]
  exact leaves_of_produce ran rfl rfl

/-- The target of an output that is missing can be opened, and becomes a new file. -/
theorem Ready.opens (ready : Ready plan o names w.files) (working : Working staging plan.out s o origin w.files)
    (valid : AllNames names) (down : names ≠ []) (vacant : w.files.node? (o ++ productNames names) = none) :
    w.files.openToWrite (plan.out.descendant (productNames names)) =
      .ok (o ++ productNames names, w.files.put (o ++ productNames names) (.file fileMode [])) ∧
    w.files.has (plan.out.descendant (productNames names)) = false := by
  have leads := working.within.leads
  have free := working.within.free
  have validOut := allNames_productNames valid
  have downOut := productNames_ne_nil down
  refine ⟨leads.openToWrite_new working.tree.sound free validOut downOut ready.fits.spelled ready.fits.short
    ready.directory vacant, ?_⟩
  rw [Bool.eq_false_iff, Ne, leads.has_iff working.tree.sound free validOut downOut, vacant]
  simp

theorem visit_decompiles (working : Working staging plan.out s o origin w.files) (valid : AllNames names)
    (down : names ≠ []) (ready : Ready plan o names w.files)
    (vacant : w.files.node? (o ++ productNames names) = none)
    (isSource : (plan.out.descendant (productNames names)).extension = some sourceExtension) {data : Bytes}
    (answers : ∀ v : World, v.files = w.files →
      ∃ v', d (question plan staging names).1 (question plan staging names).2 v = .ok data v' ∧
        v'.files = v.files ∧ v'.calls = v.calls) (soFar : Summary) :
    Leaves (visit plan d staging soFar (.ok (staging.descendant names)) w) (soFar.record .decompiled)
      (w.files.put (o ++ productNames names) (.file fileMode data)) (w.calls ++ [question plan staging names]) := by
  obtain ⟨events, visits⟩ := visit_of_ready d working valid down ready soFar
  obtain ⟨opens, missing⟩ := ready.opens working valid down vacant
  obtain ⟨v', answered, sameFiles, sameCalls⟩ :=
    answers { w with events, calls := w.calls ++ [question plan staging names] } rfl
  have written : v'.files.writeFile (plan.out.descendant (productNames names)) data =
      .ok (w.files.put (o ++ productNames names) (.file fileMode data)) := by
    rw [sameFiles, ← fill_new]
    simp only [FileSystem.writeFile, opens]
    exact write_put _ _ _ _ _
  have asked : (d.ask (staging.descendant names) (toldName plan.naming staging (staging.descendant names)))
      { w with events } = .ok data v' := answered
  have ran : produce d (staging.descendant names) (toldName plan.naming staging (staging.descendant names))
      (plan.out.descendant (productNames names)) { w with events } = .ok .decompiled
        { v' with
          files := w.files.put (o ++ productNames names) (.file fileMode data)
          events := v'.events ++ [.decompiled (toldName plan.naming staging (staging.descendant names))
            (plan.out.descendant (productNames names))] } :=
    produces_iff.mpr (.decompiled missing isSource asked written)
  rw [visits]
  exact leaves_of_produce ran rfl sameCalls

theorem visit_copies (working : Working staging plan.out s o origin w.files) (apart : Apart s o)
    (valid : AllNames names) (down : names ≠ []) (ready : Ready plan o names w.files)
    (vacant : w.files.node? (o ++ productNames names) = none)
    (isOther : ¬ (plan.out.descendant (productNames names)).extension = some sourceExtension) {data : Bytes}
    (opened : w.files.openToRead (staging.descendant names) = .ok (s ++ names))
    (content : w.files.contents (s ++ names) = .ok data) (soFar : Summary) :
    Leaves (visit plan d staging soFar (.ok (staging.descendant names)) w) (soFar.record .copied)
      (w.files.put (o ++ productNames names) (.file fileMode data)) w.calls := by
  obtain ⟨events, visits⟩ := visit_of_ready d working valid down ready soFar
  obtain ⟨opens, missing⟩ := ready.opens working valid down vacant
  have unchanged : (w.files.put (o ++ productNames names) (.file fileMode [])).contents (s ++ names) = .ok data := by
    rw [FileSystem.contents, node?_put, if_neg (apart.ne _ _)]
    exact content
  have copied : copyFile (staging.descendant names) (plan.out.descendant (productNames names)) { w with events } =
      .ok () { w with files := w.files.put (o ++ productNames names) (.file fileMode data), events } :=
    (copyFile_ok (w := { w with events }) missing).mpr ⟨_, _, _, data, opened, opens, unchanged, by rw [fill_new]⟩
  have ran : produce d (staging.descendant names) (toldName plan.naming staging (staging.descendant names))
      (plan.out.descendant (productNames names)) { w with events } = .ok .copied
        { w with
          files := w.files.put (o ++ productNames names) (.file fileMode data)
          events := events ++ [.copied (plan.out.descendant (productNames names))] } := by
    rw [produces_iff]
    exact @Produces.copied d _ _ _ { w with events } _ missing isOther copied
  rw [visits]
  exact leaves_of_produce ran rfl rfl

end Unjar.Run
