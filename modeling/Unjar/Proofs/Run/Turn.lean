import Unjar.Proofs.Run.Visit
import Unjar.Proofs.Walk.Order

/-!
A visit, however it ends. The staged tree may hold links and the output may be missing or there: a visit adds to
the output tree alone, and it asks the decompiler at most once.
-/

namespace Unjar

namespace Run

open FileSystem ClassFile

variable {plan : Plan} {d : Decompiler} {staging out : Path} {s o : Location} {origin fs fs' : FileSystem}
  {names : List Bytes} {w : World}

/-- A file system in the course of the visits, whatever is staged. -/
structure Running (staging out : Path) (s o : Location) (origin fs : FileSystem) : Prop where
  staged : fs.Leads staging s
  within : Within out o origin fs
  grown : origin.Grows fs

namespace Running

theorem start (sound : fs.Sound) (staged : fs.Leads staging s) (leads : fs.Leads out o) (free : fs.LinkFree o) :
    Running staging out s o fs fs :=
  ⟨staged, .start sound free leads, .refl fs⟩

theorem grow (running : Running staging out s o origin fs) (within : Within out o origin fs')
    (grows : fs.Grows fs') : Running staging out s o origin fs' :=
  ⟨running.staged.mono grows.keeps, within, running.grown.trans grows⟩

theorem of_working (working : Working staging out s o origin fs) : Running staging out s o origin fs :=
  ⟨working.tree.leads, working.within, working.grown⟩

theorem rooted (running : Running staging out s o origin fs) : Rooted staging s fs :=
  ⟨running.within.sound, running.staged⟩

theorem sameBelow (running : Running staging out s o origin fs) (apart : Apart s o) : SameBelow s origin fs := by
  intro more
  refine running.within.outside _ ?_
  rintro ⟨back, _, place⟩
  exact apart.ne more back place

theorem prepare (running : Running staging out s o origin fs) (valid : AllNames names) :
    Running staging out s o origin (fs.makeDirectories (out.enclosing names)).2 :=
  running.grow (running.within.makeEnclosing_adds valid).2 (running.within.sound.makeDirectories_grow _).grows

/-- A file that is opened for writing where nothing was found, and then written to. -/
theorem write (running : Running staging out s o origin fs) (valid : AllNames names) (down : names ≠ [])
    (absent : fs.has (out.descendant names) = false) {m : Location} {opened : FileSystem}
    (done : fs.openToWrite (out.descendant names) = .ok (m, opened)) :
    Running staging out s o origin opened ∧ ∀ data, Running staging out s o origin (opened.fill m data) := by
  obtain ⟨rfl, vacant, rfl, within⟩ := running.within.openToWrite_absent valid down absent done
  refine ⟨running.grow (within []) (.put vacant _), fun data => ?_⟩
  rw [fill_new]
  exact running.grow (within data) (.put vacant _)

end Running

/-- What becomes of a staged file, by whether its output is there and whether that is source text. -/
def fate (there source : Bool) : Produced :=
  if there then .skipped else if source then .decompiled else .copied

/-- The calls that a staged file leads to. -/
def callsFor (there source : Bool) (file : Path) (name : Bytes) : List (Path × Bytes) :=
  if fate there source = .decompiled then [(file, name)] else []

/-- What making an output has done when it ends, well or with an error. -/
structure Tried (staging out : Path) (s o : Location) (origin : FileSystem) (called : List (Path × Bytes))
    (w w' : World) : Prop where
  running : Running staging out s o origin w'.files
  calls : w'.calls = w.calls ++ called

theorem ends_copyFile (running : Running staging out s o origin w.files) (valid : AllNames names) (down : names ≠ [])
    (absent : w.files.has (out.descendant names) = false) (file : Path) :
    Task.Ends (copyFile file (out.descendant names)) w (fun _ => Tried staging out s o origin [] w)
      fun _ => Tried staging out s o origin [] w := by
  refine Task.Ends.intro (fun _ w' ran => ?_) fun cause w' failed => ?_
  · obtain ⟨_, m, opened, data, _, opening, _, rfl⟩ := (copyFile_ok absent).mp ran
    exact ⟨(running.write valid down absent opening).2 data, (List.append_nil _).symm⟩
  · obtain ⟨sameCalls, change⟩ := copyFile_error absent failed
    refine ⟨?_, by rw [sameCalls, List.append_nil]⟩
    rcases change with same | ⟨_, m, _, opening, _⟩
    · rwa [same]
    · exact (running.write valid down absent opening).1

theorem ends_produce (running : Running staging out s o origin w.files) (quiet : d.Quiet) (valid : AllNames names)
    (down : names ≠ []) (file : Path) (name : Bytes) :
    let there := w.files.has (out.descendant names)
    let source := decide ((out.descendant names).extension = some sourceExtension)
    Task.Ends (produce d file name (out.descendant names)) w
      (fun produced w' => produced = fate there source ∧
        Tried staging out s o origin (callsFor there source file name) w w')
      fun _ w' => there = false ∧ Tried staging out s o origin (callsFor there source file name) w w' := by
  intro there source
  have decompiles : w.files.has (out.descendant names) = false →
      (out.descendant names).extension = some sourceExtension → fate there source = .decompiled := by
    intro absent isSource
    simp [fate, there, absent, source, isSource]
  have copies : w.files.has (out.descendant names) = false →
      (out.descendant names).extension ≠ some sourceExtension → fate there source = .copied := by
    intro absent isOther
    simp [fate, there, absent, source, isOther]
  refine Task.Ends.intro (fun produced w' ran => ?_) fun cause w' failed => ?_
  · cases produces_iff.mp ran with
    | skipped present =>
      have fated : fate there source = .skipped := if_pos present
      rw [callsFor, fated]
      exact ⟨rfl, running, (List.append_nil _).symm⟩
    | decompiled absent isSource answered wrote =>
      obtain ⟨_, _, _, _, files, calls⟩ := ask_ok quiet answered
      rw [files] at wrote
      obtain ⟨m, opened, opening, rfl⟩ := writeFile_ok wrote
      rw [callsFor, decompiles absent isSource]
      exact ⟨rfl, (running.write valid down absent opening).2 _, calls⟩
    | copied absent isOther copied =>
      have tried := (ends_copyFile running valid down absent file).of_ok copied
      rw [callsFor, copies absent isOther]
      exact ⟨rfl, tried.running, tried.calls⟩
  · obtain ⟨absent, ⟨isSource, asked⟩ | ⟨isOther, fault, rfl, refused⟩⟩ := produce_failed failed
    · -- the call comes first, and leaves the files as they are
      have same : w'.files = w.files ∧ w'.calls = w.calls ++ [(file, name)] := by
        rcases asked with ⟨tool, _, refused⟩ | ⟨fault, data, _, answered⟩
        · exact quiet.error refused
        · obtain ⟨_, _, _, _, files, calls⟩ := ask_ok quiet answered
          exact ⟨files, calls⟩
      rw [callsFor, decompiles absent isSource]
      exact ⟨absent, by rw [same.1]; exact running, same.2⟩
    · have tried := (ends_copyFile running valid down absent file).of_error refused
      rw [callsFor, copies absent isOther]
      exact ⟨absent, tried.running, tried.calls⟩

/-- Making the directory for an output puts nothing in its place. -/
theorem has_prepared (running : Running staging out s o origin fs) (valid : AllNames names) (down : names ≠ [])
    {prepared : FileSystem} (made : fs.makeDirectories (out.enclosing names) = (.ok (), prepared)) :
    prepared.has (out.descendant names) = fs.has (out.descendant names) := by
  obtain ⟨within, adds, _⟩ := running.within.prepare valid made
  rw [Bool.eq_iff_iff, within.leads.has_iff within.sound within.free valid down,
    running.within.leads.has_iff running.within.sound running.within.free valid down, adds.place down]

/-- How the visit of a staged file ends. It may fail for the directory of the output, and then no call is made;
after that the calls are the same whether it ends well or not. -/
theorem ends_visit (running : Running staging plan.out s o origin w.files) (quiet : d.Quiet) (valid : AllNames names)
    (down : names ≠ []) (soFar : Summary) :
    let file := staging.descendant names
    let there := w.files.has (plan.out.descendant (productNames names))
    let source := decide (IsSource plan names)
    let called := callsFor there source file (toldName plan.naming staging file)
    Task.Ends (visit plan d staging soFar (.ok file)) w
      (fun after w' => after = soFar.record (fate there source) ∧ Tried staging plan.out s o origin called w w')
      fun e w' =>
        (∃ directory cause, e = .map (.makeDirectory directory cause)) ∧ Tried staging plan.out s o origin [] w w' ∨
        (∃ cause, e = .produce cause) ∧ there = false ∧ Tried staging plan.out s o origin called w w' := by
  intro file there source called
  have validOut := allNames_productNames valid
  have downOut := productNames_ne_nil down
  have prepared := running.prepare validOut
  obtain ⟨events, visits⟩ := visit_run plan staging d valid down soFar w
  unfold Task.Ends
  rw [visits]
  rcases made : w.files.makeDirectories (plan.out.enclosing (productNames names)) with ⟨result, left⟩
  rw [made] at prepared
  cases result with
  | error fault => exact Or.inl ⟨⟨_, _, rfl⟩, prepared, (List.append_nil _).symm⟩
  | ok _ =>
    have same := has_prepared running validOut downOut made
    have produced := ends_produce (w := { w with files := left, events }) prepared quiet validOut downOut file
      (toldName plan.naming staging file)
    simp only [same] at produced
    refine Task.Ends.bind (Task.Ends.withError (produced.mono (fun _ _ both => both) ?_)) ?_
    · rintro e w' ⟨absent, tried⟩
      exact Or.inr ⟨⟨_, rfl⟩, absent, tried.running, tried.calls⟩
    · rintro made w' ⟨rfl, tried⟩
      exact ⟨rfl, tried.running, tried.calls⟩

/-- The visits of staged files add to the output tree, however they end. -/
theorem ends_visits {items : List Walk.Item} (proper : ∀ item ∈ items, Walk.Proper staging item) (quiet : d.Quiet)
    (running : Running staging plan.out s o origin w.files) (soFar : Summary) :
    Task.Ends (items.foldlM (visit plan d staging) soFar) w
      (fun _ v => Running staging plan.out s o origin v.files)
      fun _ v => Running staging plan.out s o origin v.files := by
  refine Task.Ends.foldlM (P := fun v => Running staging plan.out s o origin v.files) ?_ running
  intro item member soFar v keeps
  cases item with
  | error cause => exact keeps
  | ok file =>
    obtain ⟨names, down, valid, rfl⟩ := proper _ member file rfl
    refine (ends_visit keeps quiet valid down soFar).mono (fun _ _ both => both.2.running) ?_
    rintro e v' (⟨_, tried⟩ | ⟨_, _, tried⟩) <;> exact tried.running

/-- The walk of a run goes through the files there are at its start. -/
theorem fold_eq_foldlM (running : Running staging plan.out s o w.files w.files) (quiet : d.Quiet) (apart : Apart s o) :
    Walk.fold (visit plan d staging) staging {} w =
      (Walk.items w.files pathMax staging).foldlM (visit plan d staging) {} w := by
  rw [Walk.fold_of_leads running.staged]
  refine (Walk.below_eq_foldlM running.rooted (fun v => Running staging plan.out s o w.files v.files) ?_ ?_
    allNames_nil running.rooted.top running).1
  · exact fun v keeps => ⟨keeps.rooted, keeps.grown, keeps.sameBelow apart⟩
  · intro soFar item v after v' proper keeps ran
    cases item with
    | error e => cases ran
    | ok file =>
      obtain ⟨names, down, valid, rfl⟩ := proper file rfl
      exact ((ends_visit keeps quiet valid down soFar).of_ok ran).2.running

end Run

end Unjar
