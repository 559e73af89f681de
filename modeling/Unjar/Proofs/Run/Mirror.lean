import Unjar.Proofs.FileSystem.Alike
import Unjar.Proofs.Run.Visit

/-!
Visits in worlds with the same nodes. With decompilers that give the same answers they end alike, as
long as no call fails.
-/

namespace Unjar

/-- A decompiler whose answers depend on the file, the name it is told and the staged tree alone. It may
fail at any call. -/
structure Decompiler.Faithful (d : Decompiler) (s : Location)
    (answer : Path → Bytes → (List Bytes → Option Node) → Bytes) : Prop where
  quiet : d.Quiet
  answers : ∀ {file name w data w'}, d file name w = .ok data w' →
    data = answer file name fun names => w.files.node? (s ++ names)

theorem Decompiler.faithful_ofAnswers {ask : Path → Bytes → Except ToolError Bytes} {s : Location}
    {answer : Path → Bytes → Bytes} (agree : ∀ file name data, ask file name = .ok data → data = answer file name) :
    (ofAnswers ask).Faithful s fun file name _ => answer file name := by
  refine ⟨quiet_ofAnswers ask, fun {file name w data w'} answered => ?_⟩
  obtain ⟨given, _⟩ := Task.query_ok.mp answered
  exact agree file name data given

namespace Run

open FileSystem ClassFile

variable {plan : Plan} {d d' : Decompiler} {staging : Path} {s : Location} {calls calls' : List (Path × Bytes)}
  {answer : Path → Bytes → (List Bytes → Option Node) → Bytes}

/-- The end of a run in which a call failed. -/
def Interruption (e : RunError) : Prop :=
  ∃ file cause, e = .produce (.decompile file cause)

/-- Worlds with the same nodes, in which the same calls were made since two moments. -/
def Similar (calls calls' : List (Path × Bytes)) (w w' : World) : Prop :=
  w.files.Alike w'.files ∧ ∃ since, w.calls = calls ++ since ∧ w'.calls = calls' ++ since

theorem mirror_attempt {ε α : Type} {forgiven : ε → Prop} {operation : FileSystem → Except ε α × FileSystem}
    (same : ∀ {fs fs' : FileSystem}, fs.Alike fs' → (operation fs').1 = (operation fs).1 ∧
      (operation fs).2.Alike (operation fs').2) :
    Task.Mirror forgiven Eq (Similar calls calls') (Task.attempt operation) (Task.attempt operation) := by
  refine Task.Mirror.attempt ?_
  rintro w w' ⟨alike, since⟩
  obtain ⟨result, left⟩ := same alike
  exact ⟨result.symm, left, since⟩

theorem mirror_query {ε α : Type} {forgiven : ε → Prop} {ask : FileSystem → Except ε α}
    (same : ∀ {fs fs' : FileSystem}, fs.Alike fs' → ask fs' = ask fs) :
    Task.Mirror forgiven Eq (Similar calls calls') (Task.query ask) (Task.query ask) :=
  Task.Mirror.query fun _ _ similar => (same similar.1).symm

theorem mirror_tell {ε : Type} {forgiven : ε → Prop} (event : Event) :
    Task.Mirror forgiven Eq (Similar calls calls') (Task.tell event) (Task.tell event) :=
  Task.Mirror.tell event event fun _ _ similar => similar

/-- Looking at the file system and going on accordingly. -/
theorem mirror_files {ε α β : Type} {forgiven : ε → Prop} {V : α → β → Prop} {next : FileSystem → Task ε α}
    {next' : FileSystem → Task ε β}
    (same : ∀ {fs fs' : FileSystem}, fs.Alike fs' →
      Task.Mirror forgiven V (Similar calls calls') (next fs) (next' fs')) :
    Task.Mirror forgiven V (Similar calls calls') (Task.files >>= next) (Task.files >>= next') :=
  fun w w' similar => same similar.1 w w' similar

theorem mirror_change {ε : Type} {forgiven : ε → Prop} {operation : FileSystem → Except ε FileSystem}
    (same : ∀ {fs fs' : FileSystem}, fs.Alike fs' → AlikeOutcomes (operation fs) (operation fs')) :
    Task.Mirror forgiven Eq (Similar calls calls') (Task.change operation) (Task.change operation) := by
  refine Task.Mirror.change ?_
  rintro w w' ⟨alike, since⟩
  have outcomes := same alike
  revert outcomes
  cases operation w.files with
  | error e =>
    cases operation w'.files with
    | error e' => exact fun outcomes => outcomes
    | ok changed' => exact False.elim
  | ok changed =>
    cases operation w'.files with
    | error e' => exact False.elim
    | ok changed' => exact fun left => ⟨left, since⟩

theorem mirror_prepareOutput {forgiven : MapError → Prop} (file out : Path) :
    Task.Mirror forgiven Eq (Similar calls calls') (prepareOutput file staging out) (prepareOutput file staging out) := by
  unfold prepareOutput
  cases outputPath file staging out with
  | none => exact Task.Mirror.throw _
  | some target =>
    simp only
    cases target.parent with
    | none => exact Task.Mirror.pure rfl
    | some directory =>
      refine mirror_files ?_
      intro fs fs' alike
      rw [alike.isDirectory]
      split
      · exact Task.Mirror.pure rfl
      · refine (mirror_tell _).bind fun _ _ _ => ?_
        refine Task.Mirror.bind (Task.Mirror.wrapped (mirror_attempt fun alike => alike.makeDirectories directory)) ?_
        exact fun _ _ _ => Task.Mirror.pure rfl

theorem mirror_className {forgiven : RunError → Prop} (naming : Naming) (file out : Path) :
    Task.Mirror forgiven Eq (Similar calls calls') (className naming staging file out)
      (className naming staging file out) := by
  unfold className
  cases naming.className ((file.stripPrefix? staging).getD file) with
  | some name => exact Task.Mirror.pure rfl
  | none =>
    unfold fallbackName
    simp only
    split
    · exact (mirror_tell _).bind fun _ _ _ => Task.Mirror.pure rfl
    · exact Task.Mirror.pure rfl

theorem mirror_ask (faithful : d.Faithful s answer) (faithful' : d'.Faithful s answer) (file : Path) (name : Bytes) :
    Task.Mirror (fun _ => True) Eq (Similar calls calls') (d.ask file name) (d'.ask file name) := by
  rintro w w' ⟨alike, since, atCalls, atCalls'⟩
  have run : ∀ (d : Decompiler) (w : World),
      d.ask file name w = d file name { w with calls := w.calls ++ [(file, name)] } :=
    fun _ _ => rfl
  rw [run, run]
  cases asked : d file name { w with calls := w.calls ++ [(file, name)] } with
  | error e v => exact .left trivial
  | ok data v =>
    cases asked' : d' file name { w' with calls := w'.calls ++ [(file, name)] } with
    | error e v' => exact .right trivial
    | ok data' v' =>
      obtain ⟨files, told⟩ := faithful.quiet.ok asked
      obtain ⟨files', told'⟩ := faithful'.quiet.ok asked'
      have answers := faithful.answers asked
      have answers' := faithful'.answers asked'
      simp only [alike.nodes] at answers'
      refine .ok (answers.trans answers'.symm) ⟨?_, since ++ [(file, name)], ?_, ?_⟩
      · rw [files, files']
        exact alike
      · rw [told, ← List.append_assoc, ← atCalls]
      · rw [told', ← List.append_assoc, ← atCalls']

theorem mirror_copyFile {forgiven : Fault → Prop} (source target : Path) :
    Task.Mirror forgiven Eq (Similar calls calls') (copyFile source target) (copyFile source target) := by
  unfold copyFile
  refine Task.Mirror.bind (mirror_query fun alike => alike.openToRead source) ?_
  rintro input _ rfl
  refine Task.Mirror.bind (V := Eq) (mirror_attempt ?_) ?_
  · intro fs fs' alike
    obtain ⟨left, place⟩ := alike.openToWrite target
    revert left place
    cases fs.openToWrite target with
    | error fault =>
      cases fs'.openToWrite target with
      | error fault' =>
        rintro rfl _
        exact ⟨rfl, alike⟩
      | ok pair' => exact fun left => False.elim left
    | ok pair =>
      cases fs'.openToWrite target with
      | error fault' => exact fun left => False.elim left
      | ok pair' =>
        intro left place
        exact ⟨congrArg Except.ok (Except.ok.inj place), left⟩
  · rintro output _ rfl
    refine Task.Mirror.bind (mirror_query fun alike => alike.contents input) ?_
    rintro data _ rfl
    exact mirror_change fun alike => alike.write output data

theorem mirror_produce (faithful : d.Faithful s answer) (faithful' : d'.Faithful s answer) (file out : Path)
    (name : Bytes) : Task.Mirror (fun e => ∃ cause, e = .decompile file cause) Eq (Similar calls calls')
      (produce d file name out) (produce d' file name out) := by
  unfold produce
  refine mirror_files ?_
  intro fs fs' alike
  rw [alike.has]
  split
  · exact (mirror_tell _).bind fun _ _ _ => Task.Mirror.pure rfl
  · split
    · refine ((mirror_ask faithful faithful' file name).withError fun cause _ => ⟨cause, rfl⟩).bind ?_
      rintro data _ rfl
      refine (mirror_change fun alike => (alike.writeFile out data).mapError _).bind fun _ _ _ => ?_
      exact (mirror_tell _).bind fun _ _ _ => Task.Mirror.pure rfl
    · refine Task.Mirror.bind (Task.Mirror.wrapped (mirror_copyFile file out)) fun _ _ _ => ?_
      exact (mirror_tell _).bind fun _ _ _ => Task.Mirror.pure rfl

/-- Making an output and recording it, under any name that the decompiler is told. -/
theorem mirror_recorded (faithful : d.Faithful s answer) (faithful' : d'.Faithful s answer) (file target : Path)
    (name : Bytes) (soFar soFar' : Summary) : Task.Mirror Interruption (fun _ _ => True) (Similar calls calls')
      ((produce d file name target).withError .produce >>= fun produced => pure (soFar.record produced))
      ((produce d' file name target).withError .produce >>= fun produced => pure (soFar'.record produced)) := by
  refine ((mirror_produce faithful faithful' file target name).withError ?_).bind ?_
  · rintro e ⟨cause, rfl⟩
    exact ⟨file, cause, rfl⟩
  · exact fun _ _ _ => Task.Mirror.pure trivial

theorem mirror_make (faithful : d.Faithful s answer) (faithful' : d'.Faithful s answer) (file target : Path)
    (soFar soFar' : Summary) : Task.Mirror Interruption (fun _ _ => True) (Similar calls calls')
      (make plan d staging soFar file target) (make plan d' staging soFar' file target) :=
  mirror_recorded faithful faithful' file target _ soFar soFar'

theorem mirror_visit (faithful : d.Faithful s answer) (faithful' : d'.Faithful s answer) (item : Walk.Item)
    (soFar soFar' : Summary) : Task.Mirror Interruption (fun _ _ => True) (Similar calls calls')
      (visit plan d staging soFar item) (visit plan d' staging soFar' item) := by
  cases item with
  | error e => exact Task.Mirror.throw _
  | ok file =>
    unfold visit
    refine Task.Mirror.bind (Task.Mirror.wrapped (mirror_prepareOutput file plan.out)) ?_
    rintro target _ rfl
    refine Task.Mirror.bind (mirror_className plan.naming file target) ?_
    rintro name _ rfl
    exact mirror_recorded faithful faithful' file target name soFar soFar'

theorem mirror_visits (faithful : d.Faithful s answer) (faithful' : d'.Faithful s answer) (items : List Walk.Item)
    (soFar soFar' : Summary) : Task.Mirror Interruption (fun _ _ => True) (Similar calls calls')
      (items.foldlM (visit plan d staging) soFar) (items.foldlM (visit plan d' staging) soFar') :=
  Task.Mirror.foldlM (fun item _ a b _ => mirror_visit faithful faithful' item a b) soFar soFar' trivial

end Run

end Unjar
