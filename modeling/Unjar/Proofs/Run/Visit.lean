import Unjar.Proofs.ClassFile.Product
import Unjar.Proofs.Run.Produce
import Unjar.Proofs.Walk

/-!
One visit of a run. The staged tree stays as it is, and of the output a visit makes directories and one
file at most, where there was none.
-/

namespace Unjar

/-- Neither location lies in the other. -/
def Apart (s o : Location) : Prop :=
  ¬ s <+: o ∧ ¬ o <+: s

theorem Apart.ne {s o : Location} (apart : Apart s o) (names more : List Bytes) : s ++ names ≠ o ++ more := by
  intro same
  rcases List.prefix_or_prefix_of_prefix (List.prefix_append s names) (same ▸ List.prefix_append o more) with
    inside | inside
  · exact apart.1 inside
  · exact apart.2 inside

namespace Run

open FileSystem ClassFile

variable {plan : Plan} {d : Decompiler} {staging out : Path} {s o : Location} {origin fs prepared : FileSystem}
  {names : List Bytes} {w w' : World}

/-- A file system in the course of the visits. -/
structure Working (staging out : Path) (s o : Location) (origin fs : FileSystem) : Prop where
  tree : Tree staging s fs
  within : Within out o origin fs
  grown : origin.Grows fs

theorem Working.start (tree : Tree staging s fs) (leads : fs.Leads out o) (free : fs.LinkFree o) :
    Working staging out s o fs fs :=
  ⟨tree, .start tree.sound free leads, .refl fs⟩

theorem Working.grow (working : Working staging out s o origin fs) (apart : Apart s o) {fs' : FileSystem}
    (within : Within out o origin fs') (grows : fs.Grows fs') : Working staging out s o origin fs' := by
  refine ⟨⟨within.sound, working.tree.leads.mono grows.keeps, ?_⟩, within, working.grown.trans grows⟩
  have outside : ∀ more, ¬ Below o (s ++ more) := by
    rintro more ⟨back, _, place⟩
    exact apart.ne more back place
  intro more target
  rw [within.outside _ (outside more), ← working.within.outside _ (outside more)]
  exact working.tree.free more target

theorem Working.sameBelow (working : Working staging out s o origin fs) (apart : Apart s o) :
    SameBelow s origin fs := by
  intro more
  refine working.within.outside _ ?_
  rintro ⟨back, _, place⟩
  exact apart.ne more back place

theorem Working.prepare (working : Working staging out s o origin fs) (apart : Apart s o) (valid : AllNames names)
    (made : fs.makeDirectories (out.enclosing names) = (.ok (), prepared)) :
    Working staging out s o origin prepared := by
  obtain ⟨within, adds, _⟩ := working.within.prepare valid made
  exact working.grow apart within adds.grows

/-- The name a decompiler is told for a staged file. -/
def toldName (naming : ClassFile.Naming) (staging file : Path) : Bytes :=
  (naming.className ((file.stripPrefix? staging).getD file)).getD (Utf8.lossy (file.stem.getD []))

/-- Files whose output is source text: the decompiler is asked for it. -/
def IsSource (plan : Plan) (names : List Bytes) : Prop :=
  (plan.out.descendant (productNames names)).extension = some sourceExtension

instance (plan : Plan) (names : List Bytes) : Decidable (IsSource plan names) :=
  inferInstanceAs (Decidable (_ = _))

/-- What the decompiler is asked about a staged file. -/
def question (plan : Plan) (staging : Path) (names : List Bytes) : Path × Bytes :=
  (staging.descendant names, toldName plan.naming staging (staging.descendant names))

theorem className_run (naming : ClassFile.Naming) (staging file out : Path) (w : World) :
    ∃ events, className naming staging file out w = .ok (toldName naming staging file) { w with events } := by
  unfold className toldName
  cases naming.className ((file.stripPrefix? staging).getD file) with
  | some name => exact ⟨w.events, rfl⟩
  | none =>
    unfold fallbackName
    by_cases source : out.extension = some ClassFile.sourceExtension
    · exact ⟨w.events ++ [.notAClassFile file (Utf8.lossy (file.stem.getD []))], by simp only [source, if_true]; rfl⟩
    · exact ⟨w.events, by simp only [source, if_false]; rfl⟩

theorem ensureDirectory_run (directory : Path) (w : World) :
    ensureDirectory directory w = match w.files.makeDirectories directory with
      | (.ok (), ready) => .ok () { w with files := ready }
      | (.error fault, left) => .error (.makeDirectory directory fault) { w with files := left } := by
  unfold ensureDirectory Task.withError EStateM.adaptExcept
  rw [Task.attempt_run]
  rcases w.files.makeDirectories directory with ⟨result, left⟩
  cases result <;> rfl

/-- The output of a file: the directory it is put into is made, whether it was there or not. -/
theorem prepareOutput_placed {file target directory : Path} (placed : outputPath file staging out = some target)
    (above : target.parent = some directory) (w : World) :
    ∃ events, prepareOutput file staging out w =
      match w.files.makeDirectories directory with
      | (.ok (), prepared) => .ok target { w with files := prepared, events }
      | (.error fault, left) => .error (.makeDirectory directory fault) { w with files := left, events } := by
  unfold prepareOutput
  simp only [placed, above]
  rw [Task.bind_of_ok _ (Task.files_run w)]
  by_cases there : w.files.isDirectory directory = true
  · refine ⟨w.events, ?_⟩
    rw [makeDirectories_of_isDirectory there, if_pos there]
    rfl
  · refine ⟨w.events ++ [.creatingDirectory directory], ?_⟩
    rw [if_neg there, Task.bind_of_ok _ (Task.tell_run _ w)]
    simp only [bind, EStateM.bind, ensureDirectory_run]
    rcases w.files.makeDirectories directory with ⟨result, left⟩
    cases result <;> rfl

theorem prepareOutput_run (staging out : Path) (valid : AllNames names) (down : names ≠ []) (w : World) :
    ∃ events, prepareOutput (staging.descendant names) staging out w =
      match w.files.makeDirectories (out.enclosing (productNames names)) with
      | (.ok (), prepared) => .ok (out.descendant (productNames names)) { w with files := prepared, events }
      | (.error fault, left) =>
        .error (.makeDirectory (out.enclosing (productNames names)) fault) { w with files := left, events } :=
  prepareOutput_placed (outputPath_descendant staging out valid down)
    (Path.parent_eq_enclosing out (allNames_productNames valid) (productNames_ne_nil down)) w

/-- The rest of a visit, when the directory for the output is there. -/
def make (plan : Plan) (d : Decompiler) (staging : Path) (soFar : Summary) (file target : Path) :
    Task RunError Summary :=
  (produce d file (toldName plan.naming staging file) target).withError .produce >>= fun produced =>
    pure (soFar.record produced)

theorem visit_file (soFar : Summary) (file : Path) : visit plan d staging soFar (.ok file) = (do
    let out ← (prepareOutput file staging plan.out).withError .map
    let name ← className plan.naming staging file out
    return soFar.record (← (produce d file name out).withError .produce)) := rfl

/-- A visit makes the directory for the output, and then the output. -/
theorem visit_run (plan : Plan) (staging : Path) (d : Decompiler) (valid : AllNames names) (down : names ≠ [])
    (soFar : Summary) (w : World) :
    ∃ events, visit plan d staging soFar (.ok (staging.descendant names)) w =
      match w.files.makeDirectories (plan.out.enclosing (productNames names)) with
      | (.ok (), prepared) => make plan d staging soFar (staging.descendant names)
          (plan.out.descendant (productNames names)) { w with files := prepared, events }
      | (.error fault, left) => .error (.map (.makeDirectory (plan.out.enclosing (productNames names)) fault))
          { w with files := left, events } := by
  obtain ⟨events, prepares⟩ := prepareOutput_run staging plan.out valid down w
  rcases made : w.files.makeDirectories (plan.out.enclosing (productNames names)) with ⟨result, left⟩
  rw [made] at prepares
  rw [visit_file]
  cases result with
  | error fault =>
    refine ⟨events, ?_⟩
    simp only [bind, EStateM.bind, Task.withError, EStateM.adaptExcept, prepares]
  | ok _ =>
    obtain ⟨events', names'⟩ := className_run plan.naming staging (staging.descendant names)
      (plan.out.descendant (productNames names)) { w with files := left, events }
    refine ⟨events', ?_⟩
    rw [Task.bind_of_ok _ (Task.withError_ok.mpr prepares), Task.bind_of_ok _ names']
    rfl

/-- What making one output comes to when it succeeds. -/
inductive Made (d : Decompiler) (file : Path) (name : Bytes) (source target : Location) (isSource : Prop)
    (w w' : World) :
    Produced → Prop
  | skipped : (w.files.node? target).isSome → w'.files = w.files → w'.calls = w.calls →
      Made d file name source target isSource w w' .skipped
  | decompiled (data : Bytes) (asked answered : World) : isSource → w.files.node? target = none →
      d file name asked = .ok data answered → asked.files = w.files → asked.calls = w.calls ++ [(file, name)] →
      w'.files = w.files.put target (.file fileMode data) → w'.calls = w.calls ++ [(file, name)] →
      Made d file name source target isSource w w' .decompiled
  | copied (data : Bytes) : ¬ isSource → w.files.node? target = none → w.files.openToRead file = .ok source →
      w.files.contents source = .ok data →
      w'.files = w.files.put target (.file fileMode data) → w'.calls = w.calls →
      Made d file name source target isSource w w' .copied

/-- A target that can be spelled, and whose last name is not too long. -/
structure Fits (out : Path) (names : List Bytes) : Prop where
  spelled : (out.descendant names).fault? = none
  short : ∀ name ∈ names.getLast?, name.length ≤ nameMax

theorem produce_ok (working : Working staging out s o origin w.files) (apart : Apart s o) (quiet : d.Quiet)
    {sourceNames : List Bytes} (validSource : AllNames sourceNames) (downSource : sourceNames ≠ [])
    (valid : AllNames names) (down : names ≠ []) {name : Bytes} {produced : Produced}
    (ran : produce d (staging.descendant sourceNames) name (out.descendant names) w = .ok produced w') :
    Fits out names ∧ Made d (staging.descendant sourceNames) name (s ++ sourceNames) (o ++ names)
      ((out.descendant names).extension = some sourceExtension) w w' produced := by
  have leads := working.within.leads
  have free := working.within.free
  -- what is opened where nothing was found is a new file, and its path can be spelled
  have opens : ∀ {m opened}, w.files.has (out.descendant names) = false →
      w.files.openToWrite (out.descendant names) = .ok (m, opened) →
      w.files.node? (o ++ names) = none ∧ m = o ++ names ∧ opened = w.files.put (o ++ names) (.file fileMode []) ∧
        Fits out names := by
    intro m opened absent opening
    obtain ⟨_, vacant, _⟩ := working.within.openToWrite_absent valid down absent opening
    obtain ⟨place, put, spelled, short, _⟩ := leads.openToWrite_vacant free valid down vacant opening
    exact ⟨vacant, place, put, spelled, short⟩
  cases produces_iff.mp ran with
  | skipped there =>
    obtain ⟨spelled, some⟩ := (leads.has_iff working.tree.sound free valid down).mp there
    refine ⟨⟨spelled, ?_⟩, .skipped some rfl rfl⟩
    intro last isLast
    exact (working.tree.sound.names _ some).2 last (List.mem_append_right _ (List.mem_of_getLast? isLast))
  | decompiled absent isSource answered wrote =>
    obtain ⟨asked, answered, askedFiles, askedCalls, sameFiles, sameCalls⟩ := ask_ok quiet answered
    rw [sameFiles] at wrote
    obtain ⟨m, opened, opening, rfl⟩ := writeFile_ok wrote
    obtain ⟨vacant, rfl, rfl, fits⟩ := opens absent opening
    exact ⟨fits, .decompiled _ asked _ isSource vacant answered askedFiles askedCalls (fill_new _ _ _) sameCalls⟩
  | copied absent isOther copied =>
    obtain ⟨input, m, opened, data, found, opening, content, rfl⟩ := (copyFile_ok absent).mp copied
    obtain ⟨rfl, _, _⟩ := working.tree.leads.locate_ok working.tree.free validSource downSource
      (openToRead_ok.mp found).1
    obtain ⟨vacant, rfl, rfl, fits⟩ := opens absent opening
    rw [FileSystem.contents, node?_put, if_neg (apart.ne _ _)] at content
    exact ⟨fits, .copied data isOther vacant found content (fill_new _ _ _) rfl⟩

theorem Made.grows {file : Path} {name : Bytes} {source target : Location} {isSource : Prop} {produced : Produced}
    (made : Made d file name source target isSource w w' produced) :
    w.files.Grows w'.files ∧ (w'.files.node? target).isSome := by
  cases made with
  | skipped there same _ =>
    rw [same]
    exact ⟨.refl _, there⟩
  | decompiled data asked answered _ vacant _ _ _ files _ | copied data _ vacant _ _ files _ =>
    rw [files]
    exact ⟨.put vacant _, by rw [node?_put, if_pos rfl]; rfl⟩

/-- A visit that goes well makes the directory for the output, and then the output. -/
theorem visit_cases (valid : AllNames names) (down : names ≠ []) {soFar after : Summary}
    (ran : visit plan d staging soFar (.ok (staging.descendant names)) w = .ok after w') :
    ∃ prepared events produced, w.files.makeDirectories (plan.out.enclosing (productNames names)) = (.ok (), prepared) ∧
      produce d (staging.descendant names) (toldName plan.naming staging (staging.descendant names))
        (plan.out.descendant (productNames names)) { w with files := prepared, events } = .ok produced w' ∧
      after = soFar.record produced := by
  obtain ⟨events, visits⟩ := visit_run plan staging d valid down soFar w
  rw [ran] at visits
  rcases made : w.files.makeDirectories (plan.out.enclosing (productNames names)) with ⟨result, prepared⟩
  rw [made] at visits
  cases result with
  | error fault => cases visits
  | ok _ =>
    obtain ⟨produced, w₁, done, ended⟩ := Task.bind_ok visits.symm
    cases ended
    exact ⟨prepared, events, produced, rfl, Task.withError_ok.mp done, rfl⟩

/-- What a visit that succeeds has done: the directory for the output is there, and the output was made
in it, unless there was something in its place. -/
structure Visited (d : Decompiler) (plan : Plan) (staging : Path) (s o : Location) (names : List Bytes) (w w' : World)
    (produced : Produced) : Prop where
  fits : Fits plan.out (productNames names)
  made : ∃ ready : World, w.files.makeDirectories (plan.out.enclosing (productNames names)) = (.ok (), ready.files) ∧
    ready.calls = w.calls ∧ Made d (staging.descendant names)
      (toldName plan.naming staging (staging.descendant names)) (s ++ names) (o ++ productNames names)
      ((plan.out.descendant (productNames names)).extension = some sourceExtension) ready w' produced

theorem visit_ok (working : Working staging plan.out s o origin w.files) (apart : Apart s o) (quiet : d.Quiet)
    (valid : AllNames names) (down : names ≠ []) {soFar after : Summary}
    (ran : visit plan d staging soFar (.ok (staging.descendant names)) w = .ok after w') :
    ∃ produced, after = soFar.record produced ∧ Visited d plan staging s o names w w' produced := by
  obtain ⟨left, events, produced, made, done, rfl⟩ := visit_cases valid down ran
  have validOut := allNames_productNames valid
  have downOut := productNames_ne_nil down
  have prepared : Working staging plan.out s o origin ({ w with files := left, events } : World).files :=
    working.prepare apart validOut made
  obtain ⟨fits, isMade⟩ := produce_ok prepared apart quiet valid down validOut downOut done
  exact ⟨produced, rfl, fits, { w with files := left, events }, made, rfl, isMade⟩

theorem Visited.grows {produced : Produced} (visited : Visited d plan staging s o names w w' produced)
    (working : Working staging plan.out s o origin w.files) (valid : AllNames names) :
    w.files.Grows w'.files ∧ (w'.files.node? (o ++ productNames names)).isSome := by
  obtain ⟨ready, made, _, isMade⟩ := visited.made
  obtain ⟨_, adds, _⟩ := working.within.prepare (allNames_productNames valid) made
  obtain ⟨grows, there⟩ := isMade.grows
  exact ⟨adds.grows.trans grows, there⟩

theorem Visited.working {produced : Produced} (visited : Visited d plan staging s o names w w' produced)
    (working : Working staging plan.out s o origin w.files) (apart : Apart s o) (valid : AllNames names)
    (down : names ≠ []) : Working staging plan.out s o origin w'.files := by
  have validOut := allNames_productNames valid
  have downOut := productNames_ne_nil down
  obtain ⟨ready, made, _, isMade⟩ := visited.made
  obtain ⟨_, _, directory, _⟩ := working.within.prepare validOut made
  have prepared := working.prepare apart validOut made
  refine prepared.grow apart ?_ isMade.grows.1
  cases isMade with
  | skipped _ same _ =>
    rw [same]
    exact prepared.within
  | decompiled data asked answered _ vacant _ _ _ files _ | copied data _ vacant _ _ files _ =>
    rw [files]
    exact prepared.within.put_vacant validOut downOut visited.fits.short directory vacant _ _

/-- A call that fails ends a visit with the directory made, and nothing in the place of the output. -/
theorem visit_interrupted (quiet : d.Quiet) (valid : AllNames names) (down : names ≠ []) {soFar : Summary}
    {file : Path} {cause : ToolError}
    (ran : visit plan d staging soFar (.ok (staging.descendant names)) w =
      .error (.produce (.decompile file cause)) w') :
    w.files.makeDirectories (plan.out.enclosing (productNames names)) = (.ok (), w'.files) ∧
      file = staging.descendant names ∧ w'.calls = w.calls ++ [(file, toldName plan.naming staging file)] := by
  obtain ⟨events, visits⟩ := visit_run plan staging d valid down soFar w
  rw [ran] at visits
  rcases made : w.files.makeDirectories (plan.out.enclosing (productNames names)) with ⟨result, left⟩
  rw [made] at visits
  cases result with
  | error fault => cases visits
  | ok _ =>
    rcases Task.bind_error visits.symm with failed | ⟨produced, w₂, _, ended⟩
    · obtain ⟨e, refused, same⟩ := Task.withError_error.mp failed
      cases same
      rcases produce_error quiet refused with ⟨tool, same, sameFiles, sameCalls⟩ | ⟨_, other, _⟩ | ⟨_, other, _⟩
      · cases same
        exact ⟨by rw [sameFiles], rfl, sameCalls⟩
      · cases other
      · cases other
    · cases ended

end Run

end Unjar
