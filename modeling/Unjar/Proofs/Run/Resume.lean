import Unjar.Proofs.Run.Mirror
import Unjar.Proofs.Run.Revisit
import Unjar.Proofs.Run.Workplace

/-!
A run that is done again after a failure. What the first run made is left alone, and the rest is made as
a run without the failure makes it.
-/

namespace Unjar

namespace FileSystem

variable {fs : FileSystem} {l : Location}

theorem Sound.emptied (sound : fs.Sound) (away : ¬ Below l fs.here) : (fs.emptied l).Sound := by
  have kept : ∀ {m}, ¬ Below l m → (fs.emptied l).isDirectoryAt m = fs.isDirectoryAt m := by
    intro m elsewhere
    rw [isDirectoryAt, isDirectoryAt, (node?_emptied fs l m).2 elsewhere]
  have there : ∀ {m}, ((fs.emptied l).node? m).isSome → ¬ Below l m ∧ (fs.node? m).isSome := by
    intro m some
    have elsewhere : ¬ Below l m := by
      intro inside
      rw [(node?_emptied fs l m).1 inside] at some
      cases some
    rw [(node?_emptied fs l m).2 elsewhere] at some
    exact ⟨elsewhere, some⟩
  refine ⟨(List.filter_sublist.map _).nodup sound.distinct, ?_, ?_, ?_, ?_⟩
  · rw [kept]
    · exact sound.root
    · rintro ⟨names, down, same⟩
      exact down (List.append_eq_nil_iff.mp same.symm).2
  · rw [show (fs.emptied l).here = fs.here from rfl, kept away]
    exact sound.here
  · intro m name some
    obtain ⟨elsewhere, before⟩ := there some
    rw [kept]
    · exact sound.parent m name before
    · rintro ⟨names, down, rfl⟩
      exact elsewhere ⟨names ++ [name], by simp, List.append_assoc _ _ _⟩
  · exact fun m some => sound.names m (there some).2

end FileSystem

namespace Run

open FileSystem ClassFile

variable {plan : Plan} {d : Decompiler} {staging : Path} {s o : Location} {origin : FileSystem} {w w' : World}
  {items : List Walk.Item} {soFar after : Summary}

/-- A file whose output is there. -/
def Settled (plan : Plan) (staging : Path) (o : Location) (fs : FileSystem) (item : Walk.Item) : Prop :=
  ∃ names, names ≠ [] ∧ AllNames names ∧ item = .ok (staging.descendant names) ∧ Ready plan o names fs ∧
    (fs.node? (o ++ productNames names)).isSome

/-- Visits that all succeed leave every output in its place. -/
theorem visits_ok (working : Working staging plan.out s o origin w.files) (apart : Apart s o) (quiet : d.Quiet)
    (proper : ∀ item ∈ items, Walk.Proper staging item)
    (ran : items.foldlM (visit plan d staging) soFar w = .ok after w') :
    Working staging plan.out s o origin w'.files ∧ w.files.Grows w'.files ∧
      ∀ item ∈ items, Settled plan staging o w'.files item := by
  induction items generalizing soFar w with
  | nil =>
    cases ran
    exact ⟨working, .refl _, fun item member => absurd member List.not_mem_nil⟩
  | cons item rest ih =>
    rw [List.foldlM_cons] at ran
    obtain ⟨b, v, first, others⟩ := Task.bind_ok ran
    cases item with
    | error e => cases first
    | ok file =>
      obtain ⟨names, down, valid, rfl⟩ := proper _ List.mem_cons_self file rfl
      obtain ⟨produced, _, visited⟩ := visit_ok working apart quiet valid down first
      obtain ⟨grows, there⟩ := visited.grows working valid
      obtain ⟨working', growsRest, settled⟩ := ih (visited.working working apart valid down)
        (fun other member => proper other (List.mem_cons_of_mem _ member)) others
      refine ⟨working', grows.trans growsRest, ?_⟩
      intro other member
      rcases List.mem_cons.mp member with rfl | later
      · exact ⟨names, down, valid, rfl, (visited.ready working valid).grow growsRest, growsRest.isSome there⟩
      · exact settled other later

/-- Files whose outputs are there are passed over. -/
theorem visits_skip (d : Decompiler) (soFar : Summary) (working : Working staging plan.out s o origin w.files)
    (settled : ∀ item ∈ items, Settled plan staging o w.files item) :
    ∃ b v, items.foldlM (visit plan d staging) soFar w = .ok b v ∧ v.files = w.files ∧ v.calls = w.calls := by
  induction items generalizing soFar w with
  | nil => exact ⟨soFar, w, rfl, rfl, rfl⟩
  | cons item rest ih =>
    obtain ⟨names, down, valid, rfl, ready, there⟩ := settled item List.mem_cons_self
    obtain ⟨v, first, files, calls⟩ := visit_skips (d := d) working valid down ready there soFar
    obtain ⟨b, v', later, files', calls'⟩ := @ih v (soFar.record .skipped) (by rw [files]; exact working) (by
      rw [files]
      exact fun other member => settled other (List.mem_cons_of_mem _ member))
    refine ⟨b, v', ?_, files'.trans files, calls'.trans calls⟩
    rw [List.foldlM_cons, Task.bind_of_ok _ first]
    exact later

theorem Settled.grow {fs fs' : FileSystem} {item : Walk.Item} (settled : Settled plan staging o fs item)
    (grows : fs.Grows fs') : Settled plan staging o fs' item := by
  obtain ⟨names, down, valid, same, ready, there⟩ := settled
  exact ⟨names, down, valid, same, ready.grow grows, grows.isSome there⟩

theorem Settled.alike {fs fs' : FileSystem} {item : Walk.Item} (settled : Settled plan staging o fs item)
    (alike : fs.Alike fs') : Settled plan staging o fs' item := by
  obtain ⟨names, down, valid, same, ready, there⟩ := settled
  refine ⟨names, down, valid, same, ⟨?_, ready.standing, ready.fits⟩, ?_⟩
  · rw [alike.isDirectoryAt]
    exact ready.directory
  · rw [alike.nodes]
    exact there

/-- A run can be done again where all that it started with is left, and no link has come to it. -/
theorem Leftover.of_emptied {left : FileSystem} (sound : left.Sound) (here : left.here = origin.here)
    (kept : ∀ m node, origin.node? m = some node → left.node? m = some node)
    (links : ∀ m target, ¬ Below s m → left.node? m = some (.link target) → origin.node? m = some (.link target))
    (away : ¬ Below s origin.here) : Leftover s origin (left.emptied s) := by
  refine ⟨sound.emptied (by rwa [here]), here, fun m => (node?_emptied left s m).1, ?_, ?_⟩
  · intro m node elsewhere there
    rw [(node?_emptied left s m).2 elsewhere]
    exact kept m node there
  · intro m target there
    have elsewhere : ¬ Below s m := by
      intro inside
      rw [(node?_emptied left s m).1 inside] at there
      cases there
    rw [(node?_emptied left s m).2 elsewhere] at there
    exact links m target elsewhere there

/-- What a run leaves, its staging directory emptied, is what it can be done again on. -/
theorem Working.leftover {left : FileSystem} (working : Working staging plan.out s o origin left)
    (away : ¬ Below s origin.here) : Leftover s origin (left.emptied s) := by
  refine .of_emptied working.tree.sound working.within.here (fun m node there => working.grown.kept there) ?_ away
  intro m target elsewhere there
  rw [← working.within.outside, there]
  rintro ⟨names, _, rfl⟩
  exact working.within.free names target there

/-- The directory of a run does not lie below its staging directory, which was empty. -/
theorem Start.away {u : World} (start : Start plan staging s o w u) (place : Workplace plan staging w.files) :
    ¬ Below (w.files.place staging) u.files.here := by
  rintro ⟨more, deep, inside⟩
  obtain ⟨mode, atHere⟩ := isDirectoryAt_iff.mp place.sound.here
  rw [← start.grown.here, inside, place.staging_empty more deep] at atHere
  cases atHere

/-- Emptied and unpacked again, the staging directory is as the first run had it, and the rest as it was
left. -/
theorem Working.alike_restored {left restored : FileSystem} {w₂ : World}
    (working : Working staging plan.out s o origin left) (apart : Apart s o) (emptied : w₂.files = left.emptied s)
    (here : restored.here = w₂.files.here) (sameBelow : SameBelow s origin restored)
    (outside : ∀ m, ¬ Below s m → restored.node? m = w₂.files.node? m) : left.Alike restored := by
  refine ⟨here.trans (by rw [emptied]; rfl), fun m => ?_⟩
  by_cases inside : Below s m
  · obtain ⟨names, _, rfl⟩ := inside
    rw [sameBelow names, working.sameBelow apart names]
  · rw [outside m inside, emptied, (node?_emptied left s m).2 inside]

/-- Runs that end alike: both well, or both with the same error. -/
def EndAlike (R : World → World → Prop) : EStateM.Result RunError World Summary →
    EStateM.Result RunError World Summary → Prop
  | .ok _ w, .ok _ w' => R w w'
  | .error e w, .error e' w' => e = e' ∧ R w w'
  | _, _ => False

/-- A run in which a call failed. -/
def Interrupted (result : EStateM.Result RunError World Summary) : Prop :=
  ∃ e w, result = .error e w ∧ Interruption e

theorem endAlike_finish {calls calls' : List (Path × Bytes)} {result result' : EStateM.Result RunError World Summary}
    (mirrored : Task.Mirrored Interruption (fun _ _ => True) (Similar calls calls') result result')
    (unbroken : ¬ Interrupted (finish result)) (unbroken' : ¬ Interrupted (finish result')) :
    EndAlike (Similar calls calls') (finish result) (finish result') := by
  cases mirrored with
  | ok _ similar => exact similar
  | error similar => exact ⟨rfl, similar⟩
  | left broken => exact absurd ⟨_, _, rfl, broken⟩ unbroken
  | right broken => exact absurd ⟨_, _, rfl, broken⟩ unbroken'

/-- Visits from the one on that was interrupted: where its directory is there already and where it is yet
to be made, they end alike. -/
theorem mirrored_rest {d d' : Decompiler} {answer : Path → Bytes → (List Bytes → Option Node) → Bytes}
    {names : List Bytes} {v v' : World} {prepared : FileSystem} (rest : List Walk.Item) (soFar soFar' : Summary)
    (faithful : d.Faithful s answer) (faithful' : d'.Faithful s answer)
    {before : FileSystem} (working : Working staging plan.out s o origin before) (apart : Apart s o)
    (valid : AllNames names) (down : names ≠ [])
    (made : before.makeDirectories (plan.out.enclosing (productNames names)) = (.ok (), prepared))
    (alike : prepared.Alike v.files) (alike' : before.Alike v'.files) :
    Task.Mirrored Interruption (fun _ _ => True) (Similar v.calls v'.calls)
      ((.ok (staging.descendant names) :: rest).foldlM (visit plan d staging) soFar v)
      ((.ok (staging.descendant names) :: rest).foldlM (visit plan d' staging) soFar' v') := by
  have validOut := allNames_productNames valid
  obtain ⟨_, _, directory, standing⟩ := working.within.prepare validOut made
  have working' := working.prepare apart validOut made
  have remade := working'.within.leads.makeDirectories_enclosing working'.tree.sound validOut directory
  rw [standing] at remade
  obtain ⟨done, left⟩ := alike.makeDirectories (plan.out.enclosing (productNames names))
  obtain ⟨done', left'⟩ := alike'.makeDirectories (plan.out.enclosing (productNames names))
  rw [remade] at done left
  rw [made] at done' left'
  obtain ⟨events, visits⟩ := visit_run plan staging d valid down soFar v
  obtain ⟨events', visits'⟩ := visit_run plan staging d' valid down soFar' v'
  rcases again : v.files.makeDirectories (plan.out.enclosing (productNames names)) with ⟨result, ready₂⟩
  rcases again' : v'.files.makeDirectories (plan.out.enclosing (productNames names)) with ⟨result', ready₃⟩
  rw [again] at done left visits
  rw [again'] at done' left' visits'
  obtain rfl : result = .ok () := done
  obtain rfl : result' = .ok () := done'
  simp only [List.foldlM_cons]
  refine Task.Mirror.bind_at (V := fun _ _ => True) ?_ fun a b _ => mirror_visits faithful faithful' rest a b
  rw [visits, visits']
  exact mirror_make faithful faithful' _ _ _ _ _ _ ⟨left.symm.trans left', [], by simp, by simp⟩

/-- Where visits were interrupted: those before went well, and of the last one the directory for its output
is there. -/
theorem visits_interrupted {file : Path} {cause : ToolError} (quiet : d.Quiet)
    (proper : ∀ item ∈ items, Walk.Proper staging item)
    (failed : items.foldlM (visit plan d staging) soFar w = .error (.produce (.decompile file cause)) w') :
    ∃ front names back b v, items = front ++ .ok (staging.descendant names) :: back ∧ names ≠ [] ∧ AllNames names ∧
      file = staging.descendant names ∧ front.foldlM (visit plan d staging) soFar w = .ok b v ∧
      v.files.makeDirectories (plan.out.enclosing (productNames names)) = (.ok (), w'.files) ∧
      w'.calls = v.calls ++ [(file, toldName plan.naming staging file)] := by
  obtain ⟨front, item, back, b, v, rfl, passed, stopped⟩ := Task.foldlM_error failed
  cases item with
  | error e => cases stopped
  | ok path =>
    obtain ⟨names, down, valid, rfl⟩ := proper (.ok path) (by simp) path rfl
    obtain ⟨made, rfl, calls⟩ := visit_interrupted quiet valid down stopped
    exact ⟨front, names, back, b, v, rfl, down, valid, rfl, passed, made, calls⟩

/-- A run that failed at a call is done again, its staging directory emptied, as if it had not failed. It
ends as a run without the failure ends and leaves the same nodes; and the calls of the first run that were
answered, with those of the second behind them, are the calls of that run. -/
theorem resumed_as_uninterrupted {d₁ d₂ d₃ : Decompiler} {w₁ w₂ : World} {file : Path} {cause : ToolError}
    {answer : Path → Bytes → (List Bytes → Option Node) → Bytes} (place : Workplace plan staging w.files)
    (faithful₁ : d₁.Faithful (w.files.place staging) answer) (faithful₂ : d₂.Faithful (w.files.place staging) answer)
    (faithful₃ : d₃.Faithful (w.files.place staging) answer)
    (interrupted : runIn plan d₁ staging w = .error (.produce (.decompile file cause)) w₁)
    (emptied : w₂.files = w₁.files.emptied (w.files.place staging))
    (unbroken₂ : ¬ Interrupted (runIn plan d₂ staging w₂)) (unbroken₃ : ¬ Interrupted (runIn plan d₃ staging w)) :
    ∃ answered, w₁.calls = w.calls ++ answered ++ [(file, toldName plan.naming staging file)] ∧
      EndAlike (Similar w₂.calls (w.calls ++ answered)) (runIn plan d₂ staging w₂) (runIn plan d₃ staging w) := by
  obtain ⟨v₀, ready, begun⟩ := place.begun (by rw [interrupted]; trivial)
  obtain ⟨u, rfl, start⟩ := place.start begun
  -- the first run: the files before the one whose call failed were visited, and their outputs are there
  have failed := finish_error ((start.run d₁ faithful₁.quiet).symm.trans interrupted)
  obtain ⟨front, names, back, b, v₁, split, down, valid, same, passed, made, calls₁⟩ :=
    visits_interrupted faithful₁.quiet (fun item member => Walk.proper_of_mem start.working.tree.rooted member) failed
  have properFront : ∀ item ∈ front, Walk.Proper staging item := fun item member =>
    Walk.proper_of_mem start.working.tree.rooted (by rw [split]; exact List.mem_append_left _ member)
  obtain ⟨working₁, _, settled⟩ := visits_ok start.working place.apart faithful₁.quiet properFront passed
  have validOut := allNames_productNames valid
  have working₁' := working₁.prepare place.apart validOut made
  have prepares := (working₁.within.prepare validOut made).2.1.grows
  -- the second run comes to its walk with what the first one left, and passes those outputs over
  have leftover := working₁'.leftover (start.away place)
  rw [← emptied] at leftover
  obtain ⟨u₂, start₂, sameItems, sameBelow, _, outside⟩ := place.start_again begun leftover
  have alike₂ := working₁'.alike_restored place.apart emptied start₂.grown.here sameBelow outside
  obtain ⟨b₂, v₂, skipped, files₂, calls₂⟩ := visits_skip d₂ {} start₂.working
    fun item member => ((settled item member).grow prepares).alike alike₂
  have second := start₂.run d₂ faithful₂.quiet
  rw [sameItems, split, List.foldlM_append, Task.bind_of_ok _ skipped] at second
  -- the whole run visits the files in front as the first one did
  have whole := start.run d₃ faithful₃.quiet
  rw [split, List.foldlM_append] at whole
  have mirror : Task.Mirrored Interruption (fun _ _ => True) (Similar w.calls w.calls)
      (front.foldlM (visit plan d₁ staging) {} u) (front.foldlM (visit plan d₃ staging) {} u) :=
    mirror_visits faithful₁ faithful₃ front {} {} u u
      ⟨.refl _, [], by simpa using start.calls, by simpa using start.calls⟩
  rw [passed] at mirror
  cases passed₃ : front.foldlM (visit plan d₃ staging) {} u with
  | error e v₃ =>
    rw [passed₃] at mirror
    simp only [bind, EStateM.bind, passed₃] at whole
    rcases mirror with _ | _ | _ | broken
    exact absurd ⟨e, v₃, whole, broken⟩ unbroken₃
  | ok b₃ v₃ =>
    rw [passed₃] at mirror
    rcases mirror with ⟨_, alike₃, answered, calls₁', calls₃⟩ | _ | _ | _
    rw [Task.bind_of_ok _ passed₃] at whole
    -- from here on both do the same
    have rest := mirrored_rest back b₂ b₃ faithful₂ faithful₃ working₁ place.apart valid down made
      (by rw [files₂]; exact alike₂) alike₃
    rw [calls₂, start₂.calls, calls₃] at rest
    refine ⟨answered, by rw [calls₁, calls₁'], ?_⟩
    rw [second] at unbroken₂
    rw [whole] at unbroken₃
    rw [second, whole]
    exact endAlike_finish rest unbroken₂ unbroken₃

/-- What a run left that failed at the second of two classes, and the same with the staging directory
emptied. -/
def Sample.stopped : World :=
  Task.left (runIn Sample.plan Sample.failing Sample.staging Sample.world)

def Sample.cleared : World :=
  { Sample.stopped with files := Sample.stopped.files.emptied (Sample.world.files.place Sample.staging) }

theorem Sample.outcome_stopped : Task.outcome (runIn Sample.plan failing Sample.staging world) =
    .error (.produce (.decompile ⟨ascii "s/B.class"⟩ .interrupted)) := by
  decide +kernel

theorem Sample.outcome_cleared : Task.outcome (runIn Sample.plan answering Sample.staging cleared) =
    .ok { decompiled := 1, copied := 1, skipped := 1 } := by
  decide +kernel

theorem Sample.outcome_answering : Task.outcome (runIn Sample.plan answering Sample.staging world) =
    .ok { decompiled := 2, copied := 1, skipped := 0 } := by
  decide +kernel

theorem not_interrupted {result : EStateM.Result RunError World Summary} {summary : Summary}
    (told : Task.outcome result = .ok summary) : ¬ Interrupted result := by
  rintro ⟨e, v, rfl, _⟩
  cases told

theorem resumed_sample : ∃ answered,
    Sample.stopped.calls = Sample.world.calls ++ answered ++ [(⟨ascii "s/B.class"⟩, ascii "B")] ∧
      EndAlike (Similar Sample.cleared.calls (Sample.world.calls ++ answered))
        (runIn Sample.plan Sample.answering Sample.staging Sample.cleared)
        (runIn Sample.plan Sample.answering Sample.staging Sample.world) := by
  have faithful : Sample.answering.Faithful (Sample.world.files.place Sample.staging) fun _ name _ => name :=
    Decompiler.faithful_ofAnswers fun _ _ _ given => (Except.ok.inj given).symm
  have faithful₁ : Sample.failing.Faithful (Sample.world.files.place Sample.staging) fun _ name _ => name := by
    refine Decompiler.faithful_ofAnswers fun _ name data given => ?_
    split at given
    · cases given
    · exact (Except.ok.inj given).symm
  exact resumed_as_uninterrupted Sample.workplace faithful₁ faithful faithful
    (Task.error_of_outcome Sample.outcome_stopped) rfl (not_interrupted Sample.outcome_cleared)
    (not_interrupted Sample.outcome_answering)

end Run

end Unjar
