import Unjar.Proofs.Run.Naming
import Unjar.Proofs.Run.Tour

/-!
The spelling of the staging directory. A walk joins names to the path as it is spelled, and the same path is taken off
again component by component. What is left is the names that were joined, whatever the path itself holds.
-/

namespace Unjar

namespace Run

open FileSystem ClassFile

variable {plan : Plan} {d : Decompiler} {staging file : Path} {names : List Bytes} {soFar after : Summary}
  {item : Walk.Item} {e : RunError} {u v w w' unpacked : World}

/-- A file that is told apart from the directory it was found in: its path relative to that is one or more names, and it
has an output, below whatever root. -/
structure Staged (staging file : Path) : Prop where
  relative : ∃ relative, file.stripPrefix? staging = some relative ∧ relative.components ≠ [] ∧
    ∀ component ∈ relative.components, ∃ name, component = .name name
  mapped : ∀ out w source base w', prepareOutput file staging out w ≠ .error (.outsideStaging source base) w'

/-- The error of a file that is not told apart from the staging directory. -/
def Outside (e : RunError) : Prop :=
  ∃ file staging, e = .map (.outsideStaging file staging)

theorem staged_descendant (staging : Path) (valid : AllNames names) (down : names ≠ []) :
    Staged staging (staging.descendant names) := by
  refine ⟨⟨_, Path.stripPrefix?_descendant staging valid down, ?_⟩, fun out w source base w' ended => ?_⟩
  · have spelled : ((Path.mk []).descendant names).components = names.map .name := Path.components_descendant _ valid
    rw [spelled]
    refine ⟨by simpa using down, fun component member => ?_⟩
    obtain ⟨name, _, rfl⟩ := List.mem_map.mp member
    exact ⟨name, rfl⟩
  · obtain ⟨events, prepares⟩ := prepareOutput_run staging out valid down w
    rw [ended] at prepares
    rcases made : w.files.makeDirectories (out.enclosing (productNames names)) with ⟨result, left⟩
    rw [made] at prepares
    cases result <;> cases prepares

theorem staged_of_proper (proper : Walk.Proper staging (.ok file)) : Staged staging file := by
  obtain ⟨names, down, valid, rfl⟩ := proper file rfl
  exact staged_descendant staging valid down

theorem visit_inside (proper : Walk.Proper staging item) (ran : visit plan d staging soFar item w = .error e w') :
    ¬ Outside e := by
  rintro ⟨source, base, rfl⟩
  cases item with
  | error cause => cases ran
  | ok file =>
    obtain ⟨names, down, valid, rfl⟩ := proper file rfl
    rcases Task.bind_error ran with unprepared | ⟨out, w₁, _, named⟩
    · obtain ⟨_, refused, same⟩ := Task.withError_error.mp unprepared
      cases same
      exact (staged_descendant staging valid down).mapped _ _ _ _ _ refused
    · rcases Task.bind_error named with unnamed | ⟨name, w₂, _, made⟩
      · obtain ⟨events, named'⟩ := className_run plan.naming staging (staging.descendant names) out w₁
        rw [named'] at unnamed
        cases unnamed
      · rcases Task.bind_error made with failed | ⟨_, _, _, ended⟩
        · obtain ⟨_, _, same⟩ := Task.withError_error.mp failed
          cases same
        · cases ended

theorem steady_sound : Steady fun w => w.files.Sound :=
  ⟨id, fun _ evolves _ => evolves.sound⟩

/-- What a visit leaves can be walked on, and no visit fails for want of a relative path. -/
theorem visit_walkable (plan : Plan) (staging : Path) (orderly : d.Orderly) (soFar : Summary) (item : Walk.Item)
    (w : World) (proper : Walk.Proper staging item) (sound : w.files.Sound) :
    Task.Ends (visit plan d staging soFar item) w (fun _ w' => w'.files.Sound) fun e _ => ¬ Outside e := by
  have asks : ∀ file, item = .ok file → ∀ v : World, v.files.Sound →
      Task.Ends (d.ask file (toldName plan.naming staging file)) v (fun _ v' => v'.files.Sound)
        fun _ v' => v'.files.Sound ∧ True := by
    intro file _ v there
    have left : (Task.left (d.ask file (toldName plan.naming staging file) v)).files.Sound :=
      (orderly file _ { v with calls := v.calls ++ [(file, toldName plan.naming staging file)] } there).1
    refine .intro (fun _ _ ran => ?_) fun _ _ ran => ⟨?_, trivial⟩ <;> rwa [ran] at left
  exact .intro (fun _ _ ran => (steady_sound.visit (G := fun _ _ => True) sound soFar asks).of_ok ran) fun _ _ ran =>
    visit_inside proper ran

/-- A run does not end with a file that is not told apart from the staging directory. -/
theorem runIn_inside (orderly : d.Orderly) (sound : w.files.Sound) (ran : runIn plan d staging w = .error e w') :
    ¬ Outside e := by
  rcases stopped : extract plan.jar staging w with ⟨entries, w₁⟩ | ⟨cause, w₁⟩
  · have unpacked := (Extract.extract_evolves plan.jar staging sound).of_ok stopped
    have made := (Evolves.makeDirectories unpacked.files.sound plan.out).sound
    rw [runIn_run, stopped] at ran
    simp only [afterExtraction] at ran
    rcases ended : w₁.files.makeDirectories plan.out with ⟨result, ready⟩
    rw [ended] at ran made
    cases result with
    | error fault =>
      cases ran
      rintro ⟨_, _, ⟨⟩⟩
    | ok _ =>
      have walked : ∀ v : World, v.files.Sound → Task.Ends (Walk.fold (visit plan d staging) staging {}) v
          (fun _ v' => v'.files.Sound) fun e _ => ¬ Outside e :=
        fun _ => Walk.ends_fold (P := fun w => w.files.Sound) (fun _ there => there)
          (visit_walkable plan staging orderly) {}
      exact (walked _ made).of_error (finish_error ran)
  · rw [runIn_run, stopped] at ran
    cases ran
    rintro ⟨_, _, ⟨⟩⟩

/-- However the path of the staging directory is spelled, and whatever lies in it: what a walk tells is relative to it by
names, no run ends with a file that is not, and a run that comes to its walk is the row of the visits of such files, also
where the files it makes come to be visited. -/
theorem runIn_spelled (sound : w.files.Sound) (orderly : d.Orderly) (plan : Plan) (staging : Path) :
    (∃ items, (walk staging : Task RunError _) w = .ok items w ∧ ∀ file, .ok file ∈ items → Staged staging file) ∧
    (∀ file base w', runIn plan d staging w ≠ .error (.map (.outsideStaging file base)) w') ∧
    ∀ unpacked u, AtWalk plan staging w unpacked u →
      runIn plan d staging w =
        finish ((Walk.met (visit plan d staging) pathMax staging {} u).foldlM (visit plan d staging) {} u) ∧
      ∀ file, .ok file ∈ Walk.met (visit plan d staging) pathMax staging {} u → Staged staging file := by
  refine ⟨?_, fun file base w' ran => runIn_inside orderly sound ran ⟨file, base, rfl⟩, fun unpacked u atWalk => ?_⟩
  · obtain ⟨items, walked, proper⟩ := Walk.walk_proper sound staging
    exact ⟨items, walked, fun file member => staged_of_proper (proper _ member)⟩
  · obtain ⟨s, rooted⟩ := atWalk.rooted sound
    have proper : ∀ item ∈ Walk.met (visit plan d staging) pathMax (staging.descendant []) {} u,
        Walk.Proper staging item :=
      Walk.proper_of_met (P := fun w => w.files.Sound) (fun _ there => there) (visit_walkable plan staging orderly)
        allNames_nil rooted.sound
    refine ⟨?_, fun file member => staged_of_proper (proper _ member)⟩
    rw [atWalk.runs, Walk.fold_of_leads rooted.leads, Walk.below_eq_met]

/-- A staging directory that is reached over a link, and a spelling that goes astray and back again. -/
def Sample.detour : World :=
  { files :=
    { nodes := [([], .directory 0o755), ([ascii "j"], .file 0o644 (Archive.stored [(ascii "d/X.class", ascii "x")])),
        ([ascii "s"], .directory 0o755), ([ascii "s", ascii "a.txt"], .file 0o644 []), ([ascii "k"], .link ⟨ascii "s"⟩)]
      here := [] } }

def Sample.roundabout : Path := ⟨ascii ".//k/..//./k/d/../"⟩

theorem spelled_sample : Sample.detour.files.Sound ∧ Sample.answering.Orderly ∧
    (∃ items, (walk Sample.roundabout : Task RunError _) Sample.detour = .ok items Sample.detour ∧
      ∀ file, .ok file ∈ items → Staged Sample.roundabout file) ∧
    (∀ file base w', runIn Sample.plan Sample.answering Sample.roundabout Sample.detour ≠
      .error (.map (.outsideStaging file base)) w') ∧
    ∃ unpacked u, AtWalk Sample.plan Sample.roundabout Sample.detour unpacked u ∧
      runIn Sample.plan Sample.answering Sample.roundabout Sample.detour =
        finish ((Walk.met (visit Sample.plan Sample.answering Sample.roundabout) pathMax Sample.roundabout {} u).foldlM
          (visit Sample.plan Sample.answering Sample.roundabout) {} u) ∧
      ∀ file, .ok file ∈ Walk.met (visit Sample.plan Sample.answering Sample.roundabout) pathMax Sample.roundabout {} u →
        Staged Sample.roundabout file := by
  have sound : Sample.detour.files.Sound := .of_nodes (by decide +kernel) (by decide) (by decide) (by decide)
  have orderly : Sample.answering.Orderly := (Decompiler.quiet_ofAnswers _).orderly
  have ran : runIn Sample.plan Sample.answering Sample.roundabout Sample.detour = .ok { decompiled := 1, copied := 1 } _ :=
    Task.ok_of_outcome (by decide +kernel)
  obtain ⟨unpacked, u, atWalk⟩ := atWalk_of_ok ran
  obtain ⟨walked, inside, visits⟩ := runIn_spelled sound orderly Sample.plan Sample.roundabout
  exact ⟨sound, orderly, walked, inside, unpacked, u, atWalk, visits unpacked u atWalk⟩

example : (Path.mk (ascii ".//k/..//./k/d/../d/X.class")).stripPrefix? Sample.roundabout = some ⟨ascii "d/X.class"⟩ := by
  decide

end Run

end Unjar
