import Unjar.Proofs.Extract.Frame
import Unjar.Proofs.FileSystem.Toward
import Unjar.Proofs.Run.Turn
import Unjar.Proofs.Run.Workplace

/-!
Runs that fail. The files are visited one after the other: when one of them cannot be handled, the output tree is as
the files before it left it, up to what was begun for this one, and nothing was done for a later one.

There is room on the disk: the source text of a class file is never written in part, and a copy that fails has failed
before it wrote anything.
-/

namespace Unjar

namespace Run

open FileSystem ClassFile

/-- The world in which the walk of a run begins, when the archive is unpacked and the output root is made. -/
def atWalk (plan : Plan) (staging : Path) (entries : Nat) (ready : FileSystem) (w : World) : World :=
  { w with
    files := ready
    events := w.events ++ [.unzipped entries staging] ++ [.outputDirectory plan.out] ++ [.extractingClasses] }

/-- The directories that a location is in. -/
def Above (m l : Location) : Prop :=
  l <+: m ∧ l ≠ m

/-- What is left of the visit of a file whose output was not there and was not made. Only a copy that fails may leave
something in the place of the output. -/
inductive Unproduced (plan : Plan) (staging file target : Path) (before : World) : RunError → World → Prop
  | directory {parent : Path} {cause : Fault} {after : World} : target.parent = some parent →
      before.files.AddsDirectories after.files (Above (before.files.place target)) → after.calls = before.calls →
      Unproduced plan staging file target before (.map (.makeDirectory parent cause)) after
  | decompile {cause : ToolError} {after : World} :
      before.files.AddsDirectories after.files (Above (before.files.place target)) →
      after.calls = before.calls ++ [(file, toldName plan.naming staging file)] →
      Unproduced plan staging file target before (.produce (.decompile file cause)) after
  | write {cause : Fault} {after : World} :
      before.files.AddsDirectories after.files (Above (before.files.place target)) →
      after.calls = before.calls ++ [(file, toldName plan.naming staging file)] →
      Unproduced plan staging file target before (.produce (.write target cause)) after
  | copy {cause : Fault} {after : World} :
      before.files.Toward after.files (before.files.place target) → after.calls = before.calls →
      Unproduced plan staging file target before (.produce (.copy file target cause)) after

/-- A walk that fails at a file that it meets: those before it were visited, what is left is what they left and what
was begun for this one, and it would be the same with other files behind. -/
structure StoppedAt (plan : Plan) (d : Decompiler) (staging : Path) (front : List Walk.Item) (file : Path)
    (back : List Walk.Item) (u : World) (e : RunError) (w' : World) : Prop where
  met : (walk staging : Task RunError (List Walk.Item)) u = .ok (front ++ .ok file :: back) u
  visited : ∃ soFar before target, front.foldlM (visit plan d staging) {} u = .ok soFar before ∧
    outputPath file staging plan.out = some target ∧ Unproduced plan staging file target before e w'
  others : ∀ others, (front ++ Except.ok file :: others).foldlM (visit plan d staging) {} u = .error e w'

/-- How a run fails: while the archive is unpacked, or the output root is made, or at a file, or at a directory that
cannot be read, when the files before it were visited. -/
inductive Stopped (plan : Plan) (d : Decompiler) (staging : Path) (w : World) : RunError → World → Prop
  | unpacking {cause : ExtractError} {w' : World} : extract plan.jar staging w = .error cause w' →
      Stopped plan d staging w (.extract cause) w'
  | outputRoot {entries : Nat} {cause : Fault} {w₁ w' : World} : extract plan.jar staging w = .ok entries w₁ →
      w₁.files.makeDirectories plan.out = (.error cause, w'.files) → w'.calls = w.calls →
      Stopped plan d staging w (.map (.makeDirectory plan.out cause)) w'
  | atFile {entries : Nat} {w₁ w' : World} {ready : FileSystem} {front back : List Walk.Item} {file : Path}
      {e : RunError} : extract plan.jar staging w = .ok entries w₁ →
      w₁.files.makeDirectories plan.out = (.ok (), ready) →
      StoppedAt plan d staging front file back (atWalk plan staging entries ready w₁) e w' →
      Stopped plan d staging w e w'
  | atDirectory {entries : Nat} {w₁ w' : World} {ready : FileSystem} {front back : List Walk.Item} {cause : WalkError}
      {soFar : Summary} : extract plan.jar staging w = .ok entries w₁ →
      w₁.files.makeDirectories plan.out = (.ok (), ready) →
      (walk staging : Task RunError (List Walk.Item)) (atWalk plan staging entries ready w₁) =
        .ok (front ++ .error cause :: back) (atWalk plan staging entries ready w₁) →
      front.foldlM (visit plan d staging) {} (atWalk plan staging entries ready w₁) = .ok soFar w' →
      Stopped plan d staging w (.walk cause) w'

section Stopping

variable {plan : Plan} {d : Decompiler} {staging : Path} {s o : Location} {origin : FileSystem} {names : List Bytes}
  {w w' : World} {e : RunError}

theorem above_of_passed (down : names ≠ []) {m : Location} (passed : Passed o names.dropLast m) :
    Above (o ++ names) m := by
  refine ⟨(prefix_of_passed passed).trans ((List.prefix_append_right_inj o).mpr (List.dropLast_prefix names)), ?_⟩
  rintro rfl
  exact not_passed_dropLast down passed

/-- What is left of a visit that fails. -/
theorem unproduced_of_visit (running : Running staging plan.out s (origin.place plan.out) origin w.files)
    (quiet : d.Quiet) (valid : AllNames names) (down : names ≠ []) {soFar : Summary}
    (failed : visit plan d staging soFar (.ok (staging.descendant names)) w = .error e w') :
    Unproduced plan staging (staging.descendant names) (plan.out.descendant (productNames names)) w e w' := by
  have validOut := allNames_productNames valid
  have downOut := productNames_ne_nil down
  have place : w.files.place (plan.out.descendant (productNames names)) =
      origin.place plan.out ++ productNames names := by
    rw [place_descendant _ _ validOut, place_congr running.within.here]
  obtain ⟨events, visits⟩ := visit_run plan staging d valid down soFar w
  obtain ⟨adds, within⟩ := running.within.makeEnclosing_adds validOut
  rw [failed] at visits
  rcases made : w.files.makeDirectories (plan.out.enclosing (productNames names)) with ⟨result, left⟩
  rw [made] at visits adds within
  have above := adds.weaken fun _ => above_of_passed downOut
  rw [← place] at above
  cases result with
  | error fault =>
    cases visits
    exact .directory (Path.parent_eq_enclosing _ validOut downOut) above rfl
  | ok _ =>
    rcases Task.bind_error visits.symm with unmade | ⟨produced, w₁, _, ended⟩
    · obtain ⟨cause, refused, rfl⟩ := Task.withError_error.mp unmade
      rcases produce_error quiet refused with
        ⟨tool, rfl, same, calls⟩ | ⟨fault, rfl, same, calls⟩ | ⟨fault, rfl, calls, change⟩
      · exact .decompile (by rw [same]; exact above) calls
      · exact .write (by rw [same]; exact above) calls
      · refine .copy (.trans (.of_adds above fun _ isAbove => isAbove.1) ?_) calls
        rcases change with same | ⟨m, opened⟩
        · rw [same]
          exact .refl _ _
        · obtain ⟨rfl, _⟩ := within.openToWrite validOut downOut opened
          rw [place]
          exact .openToWrite opened
    · cases ended

/-- When the output root is made, the walk of a run can begin. -/
theorem running_of_made {w₁ : World} {ready : FileSystem} (evolves : w.files.Evolves w₁.files)
    (staged : w₁.files.Leads staging s) (out_plain : w.files.Plain plan.out)
    (out_free : w.files.LinkFree (w.files.place plan.out))
    (made : w₁.files.makeDirectories plan.out = (.ok (), ready)) :
    Running staging plan.out s (ready.place plan.out) ready ready ∧
      ready.place plan.out = w.files.place plan.out := by
  have plain₁ := evolves.plain out_plain
  obtain ⟨soundReady, adds⟩ := evolves.sound.makeDirectories plain₁
  rw [made] at soundReady adds
  have here := place_congr adds.here plan.out
  have place := here.trans (place_congr evolves.keeps.here plan.out)
  have leads := (evolves.sound.leads_of_makeDirectories plain₁ made).1
  rw [← here] at leads
  have free := (evolves.linkFree out_free).of_adds adds
  rw [← place] at free
  exact ⟨.start soundReady (staged.mono adds.keeps) leads free, place⟩

/-- Where the walk of a run stopped that failed. -/
theorem stopped_of_fold {u : World} (running : Running staging plan.out s (u.files.place plan.out) u.files u.files)
    (quiet : d.Quiet) (apart : Apart s (u.files.place plan.out))
    (failed : Walk.fold (visit plan d staging) staging {} u = .error e w') :
    (∃ front file back, StoppedAt plan d staging front file back u e w') ∨
      ∃ front cause back soFar, e = .walk cause ∧
        (walk staging : Task RunError (List Walk.Item)) u = .ok (front ++ .error cause :: back) u ∧
        front.foldlM (visit plan d staging) {} u = .ok soFar w' := by
  rw [fold_eq_foldlM running quiet apart] at failed
  obtain ⟨front, item, back, soFar, before, split, visited, stopped⟩ := Task.foldlM_error failed
  have met := Walk.walk_eq_items (ε := RunError) running.rooted
  have proper : ∀ other ∈ Walk.items u.files pathMax staging, Walk.Proper staging other :=
    fun _ => Walk.proper_of_mem running.rooted
  rw [split] at met proper
  cases item with
  | error cause =>
    cases stopped
    exact Or.inr ⟨front, cause, back, soFar, rfl, met, visited⟩
  | ok file =>
    obtain ⟨names, down, valid, rfl⟩ := proper (.ok file) (by simp) file rfl
    have kept := (ends_visits (fun other member => proper other (List.mem_append_left _ member)) quiet running
      {}).of_ok visited
    refine Or.inl ⟨front, _, back, met, ⟨soFar, before, _, visited, outputPath_descendant staging plan.out valid down,
      unproduced_of_visit kept quiet valid down stopped⟩, fun others => ?_⟩
    rw [List.foldlM_append, Task.bind_of_ok _ visited, List.foldlM_cons, Task.bind_of_error _ stopped]

/-- A run that fails has done all for the files before the one it failed at, has begun with that file at most, and
has done nothing for the files behind. -/
theorem run_stops (quiet : d.Quiet) (sound : w.files.Sound) (staging_plain : w.files.Plain staging)
    (out_plain : w.files.Plain plan.out) (out_free : w.files.LinkFree (w.files.place plan.out))
    (apart : Apart (w.files.place staging) (w.files.place plan.out))
    (failed : runIn plan d staging w = .error e w') : Stopped plan d staging w e w' := by
  rw [runIn_run] at failed
  cases extracted : extract plan.jar staging w with
  | error cause w₁ =>
    rw [extracted] at failed
    cases failed
    exact .unpacking extracted
  | ok entries w₁ =>
    obtain ⟨evolves, calls, s, staged⟩ := Extract.leads_of_extract sound extracted
    simp only [extracted, afterExtraction] at failed
    rcases made : w₁.files.makeDirectories plan.out with ⟨result, ready⟩
    rw [made] at failed
    cases result with
    | error cause =>
      cases failed
      exact .outputRoot extracted made calls
    | ok _ =>
      obtain rfl : s = w.files.place staging := by
        rw [(evolves.plain staging_plain).place staged, place_congr evolves.keeps.here]
      obtain ⟨running, outPlace⟩ := running_of_made evolves staged out_plain out_free made
      rw [← outPlace] at apart
      rcases stopped_of_fold (u := atWalk plan staging entries ready w₁) running quiet apart (finish_error failed) with
        ⟨front, file, back, stopped⟩ | ⟨front, cause, back, soFar, rfl, met, visited⟩
      · exact .atFile extracted made stopped
      · exact .atDirectory extracted made met visited

end Stopping

theorem run_stops_sample : Sample.failing.Quiet ∧ Sample.world.files.Sound ∧ Sample.world.files.Plain Sample.staging ∧
    Sample.world.files.Plain Sample.plan.out ∧
    Sample.world.files.LinkFree (Sample.world.files.place Sample.plan.out) ∧
    Apart (Sample.world.files.place Sample.staging) (Sample.world.files.place Sample.plan.out) ∧
    ∃ after, runIn Sample.plan Sample.failing Sample.staging Sample.world =
        .error (.produce (.decompile ⟨ascii "s/B.class"⟩ .interrupted)) after ∧
      Stopped Sample.plan Sample.failing Sample.staging Sample.world
        (.produce (.decompile ⟨ascii "s/B.class"⟩ .interrupted)) after := by
  have quiet : Sample.failing.Quiet := Decompiler.quiet_ofAnswers _
  have unlinked : Sample.world.files.Unlinked := by decide
  have apart : Apart (Sample.world.files.place Sample.staging) (Sample.world.files.place Sample.plan.out) :=
    ⟨by decide, by decide⟩
  have failed : runIn Sample.plan Sample.failing Sample.staging Sample.world =
      .error (.produce (.decompile ⟨ascii "s/B.class"⟩ .interrupted)) _ := Task.error_of_outcome (by decide +kernel)
  exact ⟨quiet, Sample.sound, unlinked.plain _, unlinked.plain _, unlinked.linkFree _, apart, _, failed,
    run_stops quiet Sample.sound (unlinked.plain _) (unlinked.plain _) (unlinked.linkFree _) apart failed⟩

end Run

end Unjar
