import Unjar.Proofs.Run.Resume

/-!
A run that is done again after outputs of it were removed. It makes those again, as they were, and leaves
the rest alone.
-/

namespace Unjar

/-- A decompiler whose answers and failures depend on the file, the name it is told and the staged tree
alone. -/
structure Decompiler.Deterministic (d : Decompiler) (s : Location)
    (answer : Path → Bytes → (List Bytes → Option Node) → Except ToolError Bytes) : Prop where
  quiet : d.Quiet
  answers : ∀ {file name w data w'}, d file name w = .ok data w' →
    answer file name (fun names => w.files.node? (s ++ names)) = .ok data
  fails : ∀ {file name w e w'}, d file name w = .error e w' →
    answer file name (fun names => w.files.node? (s ++ names)) = .error e

/-- The same staged tree gives the same answer. -/
theorem Decompiler.Deterministic.again {d : Decompiler} {s : Location}
    {answer : Path → Bytes → (List Bytes → Option Node) → Except ToolError Bytes} {w w' v : World}
    (deterministic : d.Deterministic s answer) {file : Path} {name data : Bytes}
    (answered : d file name w = .ok data w') (same : FileSystem.SameBelow s w.files v.files) :
    ∃ v', d file name v = .ok data v' ∧ v'.files = v.files ∧ v'.calls = v.calls := by
  have answers := deterministic.answers answered
  have tree : (fun names => v.files.node? (s ++ names)) = fun names => w.files.node? (s ++ names) := funext same
  cases asked : d file name v with
  | ok data' v' =>
    have answers' := deterministic.answers asked
    rw [tree, answers] at answers'
    obtain ⟨files, calls⟩ := deterministic.quiet.ok asked
    exact ⟨v', by rw [Except.ok.inj answers'], files, calls⟩
  | error e v' =>
    have fails := deterministic.fails asked
    rw [tree, answers] at fails
    cases fails

theorem Decompiler.deterministic_ofAnswers (ask : Path → Bytes → Except ToolError Bytes) (s : Location) :
    (ofAnswers ask).Deterministic s fun file name _ => ask file name := by
  refine ⟨quiet_ofAnswers ask, fun {file name w data w'} answered => (Task.query_ok.mp answered).1, ?_⟩
  intro file name w e w' failed
  rw [ofAnswers, Task.query_run] at failed
  cases given : ask file name with
  | ok data => rw [given] at failed; cases failed
  | error e' => rw [given] at failed; cases failed; rfl

namespace FileSystem

variable {fs : FileSystem}

/-- What is left when some files were removed. -/
def without (fs : FileSystem) (removed : List Location) : FileSystem :=
  { fs with nodes := fs.nodes.filter fun (at', _) => at' ∉ removed }

theorem node?_without (fs : FileSystem) (removed : List Location) (m : Location) :
    (fs.without removed).node? m = if m ∈ removed then none else fs.node? m := by
  have others := lookup_filter_location fs.nodes (fun k => decide (k ∉ removed)) m
  simp only [decide_eq_true_eq] at others
  rw [without, node?, others]
  by_cases member : m ∈ removed
  · rw [if_neg (not_not.mpr member), if_pos member]
  · rw [if_pos member, if_neg member, node?]

theorem Sound.without (sound : fs.Sound) {removed : List Location}
    (files : ∀ l ∈ removed, fs.isDirectoryAt l = false) : (fs.without removed).Sound := by
  have directory : ∀ {m}, fs.isDirectoryAt m = true → (fs.without removed).isDirectoryAt m = true := by
    intro m there
    have stays : m ∉ removed := by
      intro member
      rw [files m member] at there
      cases there
    rw [isDirectoryAt, node?_without, if_neg stays, ← isDirectoryAt, there]
  have before : ∀ {m}, ((fs.without removed).node? m).isSome → (fs.node? m).isSome := by
    intro m some
    rw [node?_without] at some
    split at some
    · cases some
    · exact some
  exact ⟨(List.filter_sublist.map _).nodup sound.distinct, directory sound.root, directory sound.here,
    fun m name some => directory (sound.parent m name (before some)), fun m some => sound.names m (before some)⟩

end FileSystem

namespace Run

open FileSystem ClassFile

variable {plan : Plan} {d : Decompiler} {staging : Path} {s o : Location} {origin origin' : FileSystem}
  {w w' v : World} {names : List Bytes} {answer : Path → Bytes → (List Bytes → Option Node) → Except ToolError Bytes}

def madeAs (plan : Plan) (names : List Bytes) : Produced :=
  if IsSource plan names then .decompiled else .copied

def questions (plan : Plan) (staging : Path) (names : List Bytes) : List (Path × Bytes) :=
  if IsSource plan names then [question plan staging names] else []

/-- Making the directory for an output leaves its place free. -/
theorem vacant_of_prepare {fs prepared : FileSystem} (working : Working staging plan.out s o origin fs)
    (valid : AllNames names) (down : names ≠ []) (vacant : fs.node? (o ++ productNames names) = none)
    (made : fs.makeDirectories (plan.out.enclosing (productNames names)) = (.ok (), prepared)) :
    prepared.node? (o ++ productNames names) = none := by
  obtain ⟨_, adds, _⟩ := working.within.prepare (allNames_productNames valid) made
  rw [adds.place (productNames_ne_nil down), vacant]

/-- An output that a visit has made is made again, as it was, where it is missing. -/
theorem Visited.remade {produced : Produced} (visited : Visited d plan staging s o names w w' produced)
    (working : Working staging plan.out s o origin w.files) (apart : Apart s o)
    (deterministic : d.Deterministic s answer) (valid : AllNames names) (down : names ≠ [])
    (vacant : w.files.node? (o ++ productNames names) = none) :
    ∃ data, w'.files.node? (o ++ productNames names) = some (.file fileMode data) ∧
      ∀ (v : World) (origin' : FileSystem) (soFar : Summary), Working staging plan.out s o origin' v.files →
        Ready plan o names v.files → v.files.node? (o ++ productNames names) = none → SameBelow s w.files v.files →
        v.files.wayAdmits staging = w.files.wayAdmits staging →
        Leaves (visit plan d staging soFar (.ok (staging.descendant names)) v) (soFar.record (madeAs plan names))
          (v.files.put (o ++ productNames names) (.file fileMode data)) (v.calls ++ questions plan staging names) := by
  obtain ⟨ready, made, _, isMade⟩ := visited.made
  have still := vacant_of_prepare working valid down vacant made
  have working' := working.prepare apart (allNames_productNames valid) made
  have unchanged : SameBelow s w.files ready.files := fun more =>
    (working'.sameBelow apart more).trans (working.sameBelow apart more).symm
  have admits : ready.files.wayAdmits staging = w.files.wayAdmits staging := by
    obtain ⟨_, adds, _⟩ := working.within.prepare (allNames_productNames valid) made
    exact working.tree.leads.wayAdmits_grows working.tree.sound adds.grows
  cases isMade with
  | skipped there _ _ => rw [still] at there; cases there
  | decompiled data asked answered isSource _ answers files _ after _ =>
    refine ⟨data, by rw [after, node?_put, if_pos rfl], fun v origin' soFar working₂ ready₂ missing same _ => ?_⟩
    have source : IsSource plan names := isSource
    rw [madeAs, questions, if_pos source, if_pos source]
    refine visit_decompiles working₂ valid down ready₂ missing isSource (fun v' atV => ?_) soFar
    refine deterministic.again answers fun more => ?_
    rw [atV, same, files, unchanged]
  | copied data isOther _ opened content after _ =>
    refine ⟨data, by rw [after, node?_put, if_pos rfl], fun v origin' soFar working₂ ready₂ missing same way => ?_⟩
    have other : ¬ IsSource plan names := isOther
    rw [madeAs, questions, if_neg other, if_neg other, List.append_nil]
    have staged : SameBelow s ready.files v.files := fun more => (same more).trans (unchanged more).symm
    refine visit_copies working₂ apart valid down ready₂ missing isOther ?_ ?_ soFar
    · exact working'.tree.leads.openToRead_congr working'.tree.sound working'.tree.free working₂.tree.leads
        working₂.tree.sound staged (way.trans admits.symm) valid down opened
    · rwa [FileSystem.contents, staged names, ← FileSystem.contents]

/-- Files that a run made below the output root and that were removed since: `before` and `after` are what
that run found and left, and `left` is what is there now. -/
structure Removed (o : Location) (removed : List Location) (before after left : FileSystem) : Prop where
  nodup : removed.Nodup
  created : ∀ l ∈ removed, Below o l ∧ before.node? l = none ∧ ∃ mode data, after.node? l = some (.file mode data)
  gone : ∀ l ∈ removed, left.node? l = none
  kept : ∀ l, l ∉ removed → left.node? l = after.node? l
  here : left.here = after.here

/-- What a run has done that made removed files again, and nothing else: `again` are the staged files it
made them from. -/
structure Repaired (plan : Plan) (staging : Path) (o : Location) (removed : List Location) (items : List Walk.Item)
    (again : List (List Bytes)) (soFar after : Summary) (v v' : World) : Prop where
  order : (again.map fun names => Except.ok (staging.descendant names)).Sublist items
  targets : (again.map fun names => o ++ productNames names).Perm removed
  calls : v'.calls = v.calls ++ (again.filter (IsSource plan ·)).map (question plan staging)
  decompiled : after.decompiled = soFar.decompiled + (again.filter (IsSource plan ·)).length
  copied : after.copied = soFar.copied + (again.filter (¬ IsSource plan ·)).length
  skipped : after.skipped + again.length = soFar.skipped + items.length

/-- Where a file was made, no directory was made before it. -/
theorem vacant_of_file {next after : FileSystem} {l : Location} {mode : Nat} {data : Bytes}
    (grows : next.Grows after) (there : after.node? l = some (.file mode data))
    (fresh : next.node? l = none ∨ ∃ mode, next.node? l = some (.directory mode)) : next.node? l = none := by
  rcases fresh with absent | ⟨mode', directory⟩
  · exact absent
  · have kept := grows.kept directory
    rw [there] at kept
    cases kept

theorem Removed.restore {removed : List Location} {before next after left : FileSystem} {l : Location} {node : Node}
    (gone : Removed o removed before after left) (grows : next.Grows after) (there : after.node? l = some node)
    (fresh : ∀ m ∈ removed, m ≠ l → before.node? m = none →
      next.node? m = none ∨ ∃ mode, next.node? m = some (.directory mode)) :
    Removed o (removed.erase l) next after (left.put l node) := by
  refine ⟨gone.nodup.erase l, ?_, ?_, ?_, gone.here⟩
  · intro m inRest
    obtain ⟨differs, inRemoved⟩ := gone.nodup.mem_erase_iff.mp inRest
    obtain ⟨below, vacant, mode, data, file⟩ := gone.created m inRemoved
    exact ⟨below, vacant_of_file grows file (fresh m inRemoved differs vacant), mode, data, file⟩
  · intro m inRest
    obtain ⟨differs, inRemoved⟩ := gone.nodup.mem_erase_iff.mp inRest
    rw [node?_put, if_neg differs, gone.gone m inRemoved]
  · intro m notInRest
    rw [node?_put]
    split
    · rename_i same
      rw [same, there]
    · rename_i differs
      exact gone.kept m fun inRemoved => notInRest (gone.nodup.mem_erase_iff.mpr ⟨differs, inRemoved⟩)

theorem Removed.step {removed : List Location} {before next after left : FileSystem}
    (gone : Removed o removed before after left) (grows : next.Grows after)
    (fresh : ∀ l ∈ removed, before.node? l = none →
      next.node? l = none ∨ ∃ mode, next.node? l = some (.directory mode)) :
    Removed o removed next after left := by
  refine ⟨gone.nodup, ?_, gone.gone, gone.kept, gone.here⟩
  intro l member
  obtain ⟨below, vacant, mode, data, file⟩ := gone.created l member
  exact ⟨below, vacant_of_file grows file (fresh l member vacant), mode, data, file⟩

/-- A removed file was no directory, so no visit misses the one for its output. -/
theorem Removed.ready {removed : List Location} {before after left : FileSystem}
    (gone : Removed o removed before after left) (made : Ready plan o names after) : Ready plan o names left := by
  refine ⟨?_, made.standing, made.fits⟩
  have directory := made.directory
  rw [isDirectoryAt] at directory ⊢
  rw [gone.kept, directory]
  intro member
  obtain ⟨_, _, mode, data, file⟩ := gone.created _ member
  rw [file] at directory
  cases directory

/-- A visit makes one file at most, in the place of its output. -/
theorem Visited.fresh {produced : Produced} (visited : Visited d plan staging s o names w w' produced)
    (working : Working staging plan.out s o origin w.files) (valid : AllNames names) {l : Location}
    (differs : l ≠ o ++ productNames names) (vacant : w.files.node? l = none) :
    w'.files.node? l = none ∨ ∃ mode, w'.files.node? l = some (.directory mode) := by
  obtain ⟨ready, made, _, isMade⟩ := visited.made
  obtain ⟨_, adds, _⟩ := working.within.prepare (allNames_productNames valid) made
  have prepared : ready.files.node? l = none ∨ ∃ mode, ready.files.node? l = some (.directory mode) := by
    rcases adds.nodes l with same | ⟨_, _, directory⟩
    · exact Or.inl (same.trans vacant)
    · exact Or.inr (isDirectoryAt_iff.mp directory)
  cases isMade with
  | skipped _ same _ => rwa [same]
  | decompiled data asked answered _ _ _ _ _ after _ | copied data _ _ _ _ after _ =>
    rwa [after, node?_put, if_neg differs]

theorem Repaired.skip {removed : List Location} {items : List Walk.Item} {again : List (List Bytes)}
    {soFar after : Summary} {v v₁ v' : World} (file : Path)
    (rest : Repaired plan staging o removed items again (soFar.record .skipped) after v₁ v')
    (calls : v₁.calls = v.calls) :
    Repaired plan staging o removed (.ok file :: items) again soFar after v v' := by
  refine ⟨rest.order.cons _, rest.targets, by rw [rest.calls, calls], rest.decompiled, rest.copied, ?_⟩
  have skipped := rest.skipped
  simp only [Summary.record, List.length_cons] at skipped ⊢
  omega

theorem Repaired.make {removed : List Location} {items : List Walk.Item} {again : List (List Bytes)}
    {soFar after : Summary} {v v₁ v' : World} (member : o ++ productNames names ∈ removed)
    (rest : Repaired plan staging o (removed.erase (o ++ productNames names)) items again
      (soFar.record (madeAs plan names)) after v₁ v') (calls : v₁.calls = v.calls ++ questions plan staging names) :
    Repaired plan staging o removed (.ok (staging.descendant names) :: items) (names :: again) soFar after v v' := by
  obtain ⟨order, targets, later, decompiled, copied, skipped⟩ := rest
  have perm := (targets.cons (o ++ productNames names)).trans (List.perm_cons_erase member).symm
  by_cases isSource : IsSource plan names
  · rw [madeAs, if_pos isSource] at decompiled copied skipped
    rw [questions, if_pos isSource] at calls
    refine ⟨order.cons_cons _, perm, ?_, ?_, ?_, ?_⟩
    · rw [later, calls]
      simp [isSource]
    · rw [decompiled]
      simp [isSource, Summary.record]
      omega
    · rw [copied]
      simp [isSource, Summary.record]
    · simp only [Summary.record, List.length_cons] at skipped ⊢
      omega
  · rw [madeAs, if_neg isSource] at decompiled copied skipped
    rw [questions, if_neg isSource] at calls
    refine ⟨order.cons_cons _, perm, ?_, ?_, ?_, ?_⟩
    · rw [later, calls]
      simp [isSource]
    · rw [decompiled]
      simp [isSource, Summary.record]
    · rw [copied]
      simp [isSource, Summary.record]
      omega
    · simp only [Summary.record, List.length_cons] at skipped ⊢
      omega

/-- As many outputs were made as had been removed, and every other file was skipped. -/
theorem Repaired.counts {removed : List Location} {items : List Walk.Item} {again : List (List Bytes)}
    {after : Summary} {v v' : World} (repaired : Repaired plan staging o removed items again {} after v v') :
    after.decompiled + after.copied = removed.length ∧ after.skipped + removed.length = items.length := by
  have many : again.length = removed.length := by simpa using repaired.targets.length_eq
  have split : again.length = (again.filter (IsSource plan ·)).length + (again.filter (¬ IsSource plan ·)).length := by
    simpa using List.length_eq_length_filter_add (l := again) (fun names => decide (IsSource plan names))
  have decompiled := repaired.decompiled
  have copied := repaired.copied
  have skipped := repaired.skipped
  simp only [Nat.zero_add] at decompiled copied skipped
  exact ⟨by omega, by omega⟩

/-- Files that were removed after a run are made again by its visits. -/
theorem visits_repair {items : List Walk.Item} {removed : List Location} {w₁ : World} {soFar after : Summary}
    (apart : Apart s o) (deterministic : d.Deterministic s answer)
    (working : Working staging plan.out s o origin w.files) (proper : ∀ item ∈ items, Walk.Proper staging item)
    (ran : items.foldlM (visit plan d staging) soFar w = .ok after w₁)
    (working' : Working staging plan.out s o origin' v.files) (same : SameBelow s w.files v.files)
    (way : v.files.wayAdmits staging = w.files.wayAdmits staging)
    (gone : Removed o removed w.files w₁.files v.files) (soFar' : Summary) :
    ∃ again after' v', items.foldlM (visit plan d staging) soFar' v = .ok after' v' ∧ w₁.files.Alike v'.files ∧
      Repaired plan staging o removed items again soFar' after' v v' := by
  induction items generalizing soFar w removed v soFar' with
  | nil =>
    cases ran
    obtain rfl : removed = [] := by
      refine List.eq_nil_iff_forall_not_mem.mpr fun l member => ?_
      obtain ⟨_, vacant, mode, data, there⟩ := gone.created l member
      rw [vacant] at there
      cases there
    exact ⟨[], soFar', v, rfl, ⟨gone.here, fun l => gone.kept l List.not_mem_nil⟩,
      .slnil, .refl _, by simp, by simp, by simp, by simp⟩
  | cons item rest ih =>
    rw [List.foldlM_cons] at ran
    obtain ⟨b, w₂, first, others⟩ := Task.bind_ok ran
    cases item with
    | error e => cases first
    | ok file =>
      obtain ⟨names, down, valid, rfl⟩ := proper _ List.mem_cons_self file rfl
      have properRest : ∀ item ∈ rest, Walk.Proper staging item :=
        fun other member => proper other (List.mem_cons_of_mem _ member)
      obtain ⟨produced, _, visited⟩ := visit_ok working apart deterministic.quiet valid down first
      have working₂ := visited.working working apart valid down
      have there := (visited.grows working valid).2
      obtain ⟨_, grows, _⟩ := visits_ok working₂ apart deterministic.quiet properRest others
      have same₂ : SameBelow s w₂.files v.files := fun more =>
        (same more).trans ((working.sameBelow apart more).trans (working₂.sameBelow apart more).symm)
      have way₂ : v.files.wayAdmits staging = w₂.files.wayAdmits staging :=
        way.trans (working.tree.leads.wayAdmits_grows working.tree.sound (visited.grows working valid).1).symm
      have ready : Ready plan o names v.files := gone.ready ((visited.ready working valid).grow grows)
      by_cases member : o ++ productNames names ∈ removed
      · -- it was removed: the visit makes it again
        obtain ⟨data, made, remakes⟩ :=
          visited.remade working apart deterministic valid down (gone.created _ member).2.1
        obtain ⟨v₂, second, files₂, calls₂⟩ := remakes v origin' soFar' working' ready (gone.gone _ member) same way
        obtain ⟨_, _, visited'⟩ := visit_ok working' apart deterministic.quiet valid down second
        have working₂' := visited'.working working' apart valid down
        have gone₂ : Removed o (removed.erase (o ++ productNames names)) w₂.files w₁.files v₂.files := by
          rw [files₂]
          exact gone.restore grows (grows.kept made) fun l _ differs => visited.fresh working valid differs
        obtain ⟨again, after', v', ran', alike, repaired⟩ := ih working₂ properRest others working₂'
          (fun more => (working₂'.sameBelow apart more).trans
            ((working'.sameBelow apart more).symm.trans (same₂ more)))
          ((working'.tree.leads.wayAdmits_grows working'.tree.sound (visited'.grows working' valid).1).trans way₂) gone₂
          (soFar'.record (madeAs plan names))
        refine ⟨names :: again, after', v', ?_, alike, repaired.make member calls₂⟩
        rw [List.foldlM_cons, Task.bind_of_ok _ second]
        exact ran'
      · -- it is there: the visit leaves it alone
        have present : (v.files.node? (o ++ productNames names)).isSome := by
          rw [gone.kept _ member]
          exact grows.isSome there
        obtain ⟨v₂, second, files₂, calls₂⟩ := visit_skips (d := d) working' valid down ready present soFar'
        have gone₂ : Removed o removed w₂.files w₁.files v₂.files := by
          rw [files₂]
          refine gone.step grows fun l inRemoved vacant => visited.fresh working valid ?_ vacant
          rintro rfl
          exact member inRemoved
        obtain ⟨again, after', v', ran', alike, repaired⟩ := ih working₂ properRest others
          (by rw [files₂]; exact working') (by rw [files₂]; exact same₂) (by rw [files₂]; exact way₂) gone₂
          (soFar'.record .skipped)
        refine ⟨again, after', v', ?_, alike, repaired.skip _ calls₂⟩
        rw [List.foldlM_cons, Task.bind_of_ok _ second]
        exact ran'

/-- Before its walk, a run makes directories only, but for what it stages. -/
theorem Workplace.fresh {w₁ : World} {ready : FileSystem} (place : Workplace plan staging w.files)
    (begun : Begun plan staging w w₁ ready) {l : Location} (elsewhere : ¬ Below (w.files.place staging) l)
    (vacant : w.files.node? l = none) : ready.node? l = none ∨ ∃ mode, ready.node? l = some (.directory mode) := by
  obtain ⟨_, adds, _⟩ := place.output begun
  rcases adds.nodes l with same | ⟨_, _, directory⟩
  · exact Or.inl (by rw [same, begun.within.outside l elsewhere, vacant])
  · exact Or.inr (isDirectoryAt_iff.mp directory)

/-- Without some of the files that a run made, and with its staging directory emptied, its output can be
made again. -/
theorem Working.leftover_without {left : FileSystem} {removed : List Location}
    (working : Working staging plan.out s o origin left) (away : ¬ Below s origin.here)
    (files : ∀ l ∈ removed, origin.node? l = none ∧ ∃ mode data, left.node? l = some (.file mode data)) :
    Leftover s origin ((left.without removed).emptied s) := by
  have noDirectories : ∀ l ∈ removed, left.isDirectoryAt l = false := by
    intro l member
    obtain ⟨_, mode, data, there⟩ := files l member
    rw [isDirectoryAt, there]
    rfl
  refine .of_emptied (working.tree.sound.without noDirectories) working.within.here ?_ ?_ away
  · intro m node there
    rw [node?_without, if_neg]
    · exact working.grown.kept there
    · intro member
      rw [(files m member).1] at there
      cases there
  · intro m target elsewhere there
    rw [node?_without] at there
    split at there
    · cases there
    · rw [← working.within.outside, there]
      rintro ⟨names, _, rfl⟩
      exact working.within.free names target there

/-- A run is done again after some of the files it made below its output root were removed and its staging
directory was emptied. It ends well with the nodes the first run left; it made the removed files again, in
the order of the walk, asked the decompiler for the source files among them only, and skipped the rest. -/
theorem repaired_exactly {w₁ w₂ : World} {summary : Summary} {removed : List Location}
    (place : Workplace plan staging w.files)
    (deterministic : d.Deterministic (w.files.place staging) answer)
    (ran : runIn plan d staging w = .ok summary w₁) (nodup : removed.Nodup)
    (created : ∀ l ∈ removed, Below (w.files.place plan.out) l ∧ w.files.node? l = none ∧
      ∃ mode data, w₁.files.node? l = some (.file mode data))
    (left : w₂.files = (w₁.files.without removed).emptied (w.files.place staging)) :
    ∃ again after w₃, runIn plan d staging w₂ = .ok after w₃ ∧ w₁.files.Alike w₃.files ∧
      ∃ items, (walk staging : Task RunError _) w₃ = .ok items w₃ ∧
        Repaired plan staging (w.files.place plan.out) removed items again {} after w₂ w₃ ∧
        after.decompiled + after.copied = removed.length ∧ after.skipped + removed.length = items.length := by
  obtain ⟨v₀, ready, begun⟩ := place.begun (by rw [ran]; trivial)
  obtain ⟨u, rfl, start⟩ := place.start begun
  have visits := (start.run d deterministic.quiet).symm.trans ran
  cases folded : (Walk.items u.files pathMax staging).foldlM (visit plan d staging) {} u with
  | error e v₁ => rw [folded] at visits; cases visits
  | ok b v₁ =>
    rw [folded] at visits
    cases visits
    have proper : ∀ item ∈ Walk.items u.files pathMax staging, Walk.Proper staging item :=
      fun item member => Walk.proper_of_mem start.working.tree.rooted member
    obtain ⟨working₁, grows₁, _⟩ := visits_ok start.working place.apart deterministic.quiet proper folded
    have elsewhere : ∀ l ∈ removed, ¬ Below (w.files.place staging) l := by
      rintro l member ⟨names, _, rfl⟩
      obtain ⟨more, _, same⟩ := (created _ member).1
      exact place.apart.ne names more same
    have vacant : ∀ l ∈ removed, u.files.node? l = none := by
      intro l member
      obtain ⟨_, absent, mode, data, there⟩ := created l member
      exact vacant_of_file grows₁ there (place.fresh begun (elsewhere l member) absent)
    have leftover := working₁.leftover_without (start.away place) fun l member =>
      ⟨vacant l member, (created l member).2.2⟩
    rw [← left] at leftover
    obtain ⟨u₂, start₂, sameItems, sameBelow, grown, outside⟩ := place.start_again begun leftover
    have gone : Removed (w.files.place plan.out) removed u.files v₁.files u₂.files := by
      refine ⟨nodup, fun l member => ⟨(created l member).1, vacant l member, (created l member).2.2⟩, ?_, ?_, ?_⟩
      · intro l member
        rw [outside l (elsewhere l member), left, (node?_emptied _ _ l).2 (elsewhere l member), node?_without,
          if_pos member]
      · intro l stays
        by_cases inside : Below (w.files.place staging) l
        · obtain ⟨names, _, rfl⟩ := inside
          rw [sameBelow names, working₁.sameBelow place.apart names]
        · rw [outside l inside, left, (node?_emptied _ _ l).2 inside, node?_without, if_neg stays]
      · rw [start₂.grown.here, left]
        rfl
    obtain ⟨again, after, v₂, folded₂, alike, repaired⟩ := visits_repair place.apart deterministic start.working proper
      folded start₂.working sameBelow
      (start.working.tree.leads.wayAdmits_grows start.working.tree.sound grown) gone {}
    obtain ⟨working₂, _⟩ := visits_ok start₂.working place.apart deterministic.quiet proper folded₂
    have done := start₂.run d deterministic.quiet
    rw [sameItems, folded₂] at done
    refine ⟨again, after, _, done, alike, Walk.items u.files pathMax staging, ?_, ?_, repaired.counts⟩
    · have unchanged : Walk.items v₂.files pathMax staging = Walk.items u₂.files pathMax staging :=
        Walk.items_congr start₂.working.tree.rooted working₂.tree.rooted working₂.grown
          (working₂.sameBelow place.apart) allNames_nil start₂.working.tree.rooted.top
      rw [← sameItems, ← unchanged]
      exact Walk.walk_eq_items (w := { v₂ with events := v₂.events ++ [.done after] }) working₂.tree.rooted
    · exact { repaired with calls := by rw [← start₂.calls]; exact repaired.calls }

/-- What a run left, and the same without one of its outputs and with the staging directory emptied. -/
def Sample.done : World :=
  Task.left (runIn Sample.plan Sample.answering Sample.staging Sample.world)

def Sample.damaged : World :=
  { Sample.done with
    files := (Sample.done.files.without [[ascii "o", ascii "A.java"]]).emptied
      (Sample.world.files.place Sample.staging) }

theorem Sample.outputs : Sample.done.files.node? [ascii "o", ascii "A.java"] = some (.file 0o644 (ascii "A")) := by
  decide +kernel

theorem repaired_sample : ∃ again after w₃,
    runIn Sample.plan Sample.answering Sample.staging Sample.damaged = .ok after w₃ ∧
      Sample.done.files.Alike w₃.files ∧ ∃ items, (walk Sample.staging : Task RunError _) w₃ = .ok items w₃ ∧
        Repaired Sample.plan Sample.staging (Sample.world.files.place Sample.plan.out)
          [[ascii "o", ascii "A.java"]] items again {} after Sample.damaged w₃ ∧
        after.decompiled + after.copied = 1 ∧ after.skipped + 1 = items.length := by
  refine repaired_exactly Sample.workplace (Decompiler.deterministic_ofAnswers _ _)
    (Task.ok_of_outcome Sample.outcome_answering) (List.nodup_singleton _) ?_ rfl
  intro l member
  obtain rfl := List.mem_singleton.mp member
  exact ⟨by decide, by decide, _, _, Sample.outputs⟩

end Run

end Unjar
