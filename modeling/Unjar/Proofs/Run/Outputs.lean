import Unjar.Proofs.Extract.Content
import Unjar.Proofs.Run.Resume
import Unjar.Proofs.Walk.Order

/-!
What a run leaves below its output root. Every file there was made for the first of the staged files that
have it as their product, and holds what that one holds or what the decompiler answered for it.
-/

namespace Unjar.Run

open FileSystem ClassFile

variable {plan : Plan} {d : Decompiler} {staging : Path} {s o : Location} {origin : FileSystem}
  {names : List Bytes} {done met : List (List Bytes)} {data : Bytes} {w w' : World}

/-- What a decompiler answered when it was asked about a staged file, one of the calls that were made. At that time the
staged files held what `source` tells of them. -/
def Answered (d : Decompiler) (plan : Plan) (staging : Path) (s : Location) (source : List Bytes → Option Bytes)
    (calls : List (Path × Bytes)) (names : List Bytes) (data : Bytes) : Prop :=
  ∃ v v' later, calls = v.calls ++ later ∧ v.calls.getLast? = some (question plan staging names) ∧
    (∀ other, other ≠ [] → AllNames other → v.files.data? (s ++ other) = source other) ∧
    d (question plan staging names).1 (question plan staging names).2 v = .ok data v'

/-- What is made from a staged file. -/
def MadeFrom (d : Decompiler) (plan : Plan) (staging : Path) (s : Location) (source : List Bytes → Option Bytes)
    (calls : List (Path × Bytes)) (names : List Bytes) (data : Bytes) : Prop :=
  if IsSource plan names then Answered d plan staging s source calls names data else source names = some data

theorem MadeFrom.later {source : List Bytes → Option Bytes} {calls more : List (Path × Bytes)}
    (made : MadeFrom d plan staging s source calls names data) :
    MadeFrom d plan staging s source (calls ++ more) names data := by
  unfold MadeFrom at made ⊢
  split
  · rename_i isSource
    rw [if_pos isSource] at made
    obtain ⟨v, v', later, rfl, asked, staged, answered⟩ := made
    exact ⟨v, v', later ++ more, List.append_assoc _ _ _, asked, staged, answered⟩
  · rename_i other
    rwa [if_neg other] at made

/-- The first of the files with the same product. -/
def First (done : List (List Bytes)) (names : List Bytes) : Prop :=
  names ∈ done ∧ ∀ other ∈ done, productNames other = productNames names → other = names ∨ names < other

/-- What is below the output root when some files were visited. -/
structure Progress (d : Decompiler) (plan : Plan) (staging : Path) (s o : Location) (origin : FileSystem)
    (done : List (List Bytes)) (w : World) : Prop where
  working : Working staging plan.out s o origin w.files
  files : ∀ product node, product ≠ [] → w.files.node? (o ++ product) = some node → node.isDirectory = false →
    ∃ names data, First done names ∧ productNames names = product ∧ node = .file fileMode data ∧
      MadeFrom d plan staging s (fun names => origin.data? (s ++ names)) w.calls names data
  directories : ∀ product, product ≠ [] → w.files.isDirectoryAt (o ++ product) = true →
    origin.isDirectoryAt (o ++ product) = true ∨ ∃ names ∈ done, product <+: (productNames names).dropLast
  outputs : ∀ names ∈ done, origin.isDirectoryAt (o ++ productNames names) = false →
    ∃ node, w.files.node? (o ++ productNames names) = some node ∧ node.isDirectory = false

/-- A directory is never made in the place of an output that was made, or is to be made now: what would lie
in it comes later. -/
theorem not_inside_product (sound : origin.Sound) {other : List Bytes} {node inner : Node}
    (there : origin.node? (s ++ names) = some node) (isFile : node.isDirectory = false)
    (innerThere : origin.node? (s ++ other) = some inner) (down : names ≠ [])
    (inside : productNames names <+: (productNames other).dropLast) : names < other := by
  rw [dropLast_productNames] at inside
  obtain ⟨more, split⟩ := inside.trans (List.dropLast_prefix other)
  have deep : more ≠ [] := by
    rintro rfl
    have shorter := inside.length_le
    have some := List.length_pos_iff.mpr (productNames_ne_nil down)
    rw [← split, List.append_nil, List.length_dropLast] at shorter
    omega
  by_cases changed : productNames names = names
  · rw [changed] at split
    have directory := sound.above (l := s ++ names) (by rw [List.append_assoc, split, innerThere]; rfl) deep
    rw [isDirectoryAt, there] at directory
    exact absurd directory (by simp [isFile])
  · rw [← split]
    exact lt_productNames_append changed more

/-- A visit makes directories for its output, and its output if nothing is in its place. -/
theorem Visited.nodes {produced : Produced} (visited : Visited d plan staging s o names w w' produced)
    (working : Working staging plan.out s o origin w.files) (apart : Apart s o) (ordinary : origin.Ordinary s)
    (visible : Walk.Visible origin staging s names) (valid : AllNames names) :
    (∃ more, w'.calls = w.calls ++ more) ∧
      ((∃ node, w'.files.node? (o ++ productNames names) = some node ∧ w.files.AddsDirectories w'.files
          (Passed o (productNames names).dropLast)) ∨
        w.files.node? (o ++ productNames names) = none ∧ ∃ ready data,
          w.files.AddsDirectories ready (Passed o (productNames names).dropLast) ∧
          w'.files = ready.put (o ++ productNames names) (.file fileMode data) ∧
          MadeFrom d plan staging s (fun names => origin.data? (s ++ names)) w'.calls names data) := by
  obtain ⟨ready, made, sameCalls, isMade⟩ := visited.made
  obtain ⟨_, adds, _⟩ := working.within.prepare (allNames_productNames valid) made
  have working' := working.prepare apart (allNames_productNames valid) made
  cases isMade with
  | skipped there same calls =>
    obtain ⟨node, atNode⟩ := Option.isSome_iff_exists.mp there
    refine ⟨⟨[], by rw [calls, sameCalls, List.append_nil]⟩, Or.inl ⟨node, by rw [same, atNode], ?_⟩⟩
    rw [same]
    exact adds
  | decompiled data asked answered isSource vacant answers files calls after madeCalls =>
    have source : IsSource plan names := isSource
    refine ⟨⟨_, by rw [madeCalls, sameCalls]⟩, Or.inr ⟨adds.absent vacant, ready.files, data, adds, after, ?_⟩⟩
    rw [MadeFrom, if_pos source]
    refine ⟨asked, answered, [], by rw [madeCalls, calls, List.append_nil], ?_, fun other _ _ => ?_, answers⟩
    · rw [calls, List.getLast?_concat]
      rfl
    · rw [files, data?, working'.sameBelow apart other, ← data?]
  | copied data isOther vacant _ content after calls =>
    have other : ¬ IsSource plan names := isOther
    refine ⟨⟨[], by rw [calls, sameCalls, List.append_nil]⟩,
      Or.inr ⟨adds.absent vacant, ready.files, data, adds, after, ?_⟩⟩
    rw [MadeFrom, if_neg other]
    refine ordinary.data?_of_contents visible.down ?_
    rw [contents, ← working'.sameBelow apart names, ← contents]
    exact content

theorem First.append (first : First done names) {other : List Bytes} (before : names < other) :
    First (done ++ [other]) names := by
  refine ⟨List.mem_append_left _ first.1, fun next member same => ?_⟩
  rcases List.mem_append.mp member with earlier | last
  · exact first.2 next earlier same
  · exact Or.inr (List.mem_singleton.mp last ▸ before)

/-- When the directory for an output is made, the files are those that were there. -/
theorem Progress.files_of_adds (progress : Progress d plan staging s o origin done w) {ready : FileSystem}
    {fresh : Location → Prop} (adds : w.files.AddsDirectories ready fresh) (sorted : ∀ other ∈ done, other < names)
    (calls : ∃ more, w'.calls = w.calls ++ more) {product : List Bytes} {node : Node} (down : product ≠ [])
    (there : ready.node? (o ++ product) = some node) (isFile : node.isDirectory = false) :
    ∃ earlier data, First (done ++ [names]) earlier ∧ productNames earlier = product ∧ node = .file fileMode data ∧
      MadeFrom d plan staging s (fun names => origin.data? (s ++ names)) w'.calls earlier data := by
  obtain ⟨earlier, data, first, same, rfl, made⟩ := progress.files product node down (adds.other there isFile) isFile
  obtain ⟨more, calls⟩ := calls
  exact ⟨earlier, data, first.append (sorted earlier first.1), same, rfl, by rw [calls]; exact made.later⟩

theorem Progress.directories_of_adds (progress : Progress d plan staging s o origin done w) {ready : FileSystem}
    (adds : w.files.AddsDirectories ready (Passed o (productNames names).dropLast)) {product : List Bytes}
    (down : product ≠ []) (directory : ready.isDirectoryAt (o ++ product) = true) :
    origin.isDirectoryAt (o ++ product) = true ∨
      ∃ other ∈ done ++ [names], product <+: (productNames other).dropLast := by
  rcases adds.nodes (o ++ product) with same | ⟨_, ⟨front, _, isFront, place⟩, _⟩
  · rw [isDirectoryAt, same, ← isDirectoryAt] at directory
    rcases progress.directories product down directory with before | ⟨other, member, inside⟩
    · exact Or.inl before
    · exact Or.inr ⟨other, List.mem_append_left _ member, inside⟩
  · obtain rfl := List.append_cancel_left place
    exact Or.inr ⟨names, by simp, isFront⟩

/-- With the directories for an output nothing makes a directory in its place. -/
theorem Progress.place_of_adds (progress : Progress d plan staging s o origin done w) (sound : origin.Sound)
    (visible : ∀ other ∈ done ++ [names], Walk.Visible origin staging s other) (sorted : ∀ other ∈ done, other < names)
    {ready : FileSystem} (adds : w.files.AddsDirectories ready (Passed o (productNames names).dropLast))
    (notDirectory : origin.isDirectoryAt (o ++ productNames names) = false) :
    ready.isDirectoryAt (o ++ productNames names) = false := by
  obtain ⟨down, ⟨node, there, isFile⟩, _⟩ := visible names (by simp)
  refine Bool.eq_false_iff.mpr fun directory => ?_
  rcases progress.directories_of_adds adds (productNames_ne_nil down) directory with before | ⟨inner, member, inside⟩
  · rw [notDirectory] at before
    cases before
  · obtain ⟨_, ⟨innerNode, innerThere, _⟩, _⟩ := visible inner member
    have before := not_inside_product sound there isFile innerThere down inside
    rcases List.mem_append.mp member with earlier | last
    · exact List.lt_asymm before (sorted inner earlier)
    · exact List.lt_irrefl _ (List.mem_singleton.mp last ▸ before)

/-- Where the place of an output is free, no file before has the same product. -/
theorem Progress.fresh (progress : Progress d plan staging s o origin done w)
    (vacant : w.files.node? (o ++ productNames names) = none) :
    ∀ other ∈ done, productNames other ≠ productNames names := by
  intro other earlier same
  cases directory : origin.isDirectoryAt (o ++ productNames other) with
  | true =>
    have still := progress.working.grown.directory directory
    rw [same, isDirectoryAt, vacant] at still
    cases still
  | false =>
    obtain ⟨node, before, _⟩ := progress.outputs other earlier directory
    rw [same, vacant] at before
    cases before

theorem Progress.step {produced : Produced} (progress : Progress d plan staging s o origin done w) (apart : Apart s o)
    (sound : origin.Sound) (ordinary : origin.Ordinary s)
    (visible : ∀ other ∈ done ++ [names], Walk.Visible origin staging s other) (sorted : ∀ other ∈ done, other < names)
    (valid : AllNames names) (visited : Visited d plan staging s o names w w' produced) :
    Progress d plan staging s o origin (done ++ [names]) w' := by
  have here := visible names (by simp)
  have working' := visited.working progress.working apart valid here.down
  obtain ⟨calls, ⟨target, atTarget, adds⟩ | ⟨vacant, ready, data, adds, after, made⟩⟩ :=
    visited.nodes progress.working apart ordinary here valid
  · -- something is in the place of the output, and it is no directory
    refine ⟨working', fun product node => progress.files_of_adds adds sorted calls,
      fun product => progress.directories_of_adds adds, fun other member notDirectory => ?_⟩
    rcases List.mem_append.mp member with earlier | last
    · obtain ⟨node, before, isFile⟩ := progress.outputs other earlier notDirectory
      exact ⟨node, adds.kept before, isFile⟩
    · obtain rfl := List.mem_singleton.mp last
      have isFile := progress.place_of_adds sound visible sorted adds notDirectory
      rw [isDirectoryAt, atTarget] at isFile
      exact ⟨target, atTarget, isFile⟩
  · -- nothing is in its place, and no file before has the same product
    have fresh := progress.fresh vacant
    refine ⟨working', fun product node down atNode isFile => ?_, fun product down directory => ?_,
      fun other member notDirectory => ?_⟩
    · rw [after, node?_put] at atNode
      split at atNode
      · rename_i same
        cases atNode
        refine ⟨names, data, ⟨by simp, fun other member alike => Or.inl ?_⟩,
          (List.append_cancel_left same).symm, rfl, made⟩
        rcases List.mem_append.mp member with earlier | last
        · exact absurd alike (fresh other earlier)
        · exact List.mem_singleton.mp last
      · exact progress.files_of_adds adds sorted calls down atNode isFile
    · rw [after, isDirectoryAt_put] at directory
      split at directory
      · cases directory
      · exact progress.directories_of_adds adds down directory
    · rw [after, node?_put]
      split
      · exact ⟨_, rfl, rfl⟩
      · rename_i differs
        rcases List.mem_append.mp member with earlier | last
        · obtain ⟨node, before, isFile⟩ := progress.outputs other earlier notDirectory
          exact ⟨node, adds.kept before, isFile⟩
        · exact absurd (by rw [List.mem_singleton.mp last]) differs

theorem Progress.start (working : Working staging plan.out s o origin w.files) (same : w.files = origin)
    (vacant : ∀ product, product ≠ [] → ∀ node, origin.node? (o ++ product) = some node → node.isDirectory = true) :
    Progress d plan staging s o origin [] w := by
  refine ⟨working, fun product node down there isFile => ?_, fun product _ directory => Or.inl (same ▸ directory),
    fun names member => absurd member List.not_mem_nil⟩
  rw [vacant product down node (same ▸ there)] at isFile
  cases isFile

theorem Progress.visits {rest : List (List Bytes)} (progress : Progress d plan staging s o origin done w)
    (apart : Apart s o) (quiet : d.Quiet) (sound : origin.Sound) (ordinary : origin.Ordinary s)
    (visible : ∀ names ∈ done ++ rest, Walk.Visible origin staging s names) (sorted : (done ++ rest).Pairwise (· < ·))
    (valid : ∀ names ∈ rest, AllNames names) {soFar after : Summary}
    (ran : (rest.map fun names => Except.ok (staging.descendant names)).foldlM (visit plan d staging) soFar w =
      .ok after w') : Progress d plan staging s o origin (done ++ rest) w' := by
  induction rest generalizing done soFar w with
  | nil =>
    cases ran
    rwa [List.append_nil]
  | cons names rest ih =>
    rw [List.map_cons, List.foldlM_cons] at ran
    obtain ⟨b, w₁, first, others⟩ := Task.bind_ok ran
    rw [List.append_cons] at visible sorted ⊢
    have before : ∀ other ∈ done, other < names := fun other member =>
      (List.pairwise_append.mp (List.pairwise_append.mp sorted).1).2.2 other member names (List.mem_singleton.mpr rfl)
    have shown : ∀ other ∈ done ++ [names], Walk.Visible origin staging s other :=
      fun other member => visible other (List.mem_append_left _ member)
    have validNames := valid names List.mem_cons_self
    obtain ⟨produced, _, visited⟩ :=
      visit_ok progress.working apart quiet validNames (shown names (by simp)).down first
    exact ih (progress.step apart sound ordinary shown before validNames visited) visible sorted
      (fun other member => valid other (List.mem_cons_of_mem _ member)) others

/-- The paths of an archive that a run makes something of: an entry that is no directory resolves to such
a path, and its last name has no `$` in it. -/
structure Kept (image : Bytes) (staging : Path) (records : List Archive.Record) (names : List Bytes) : Prop where
  down : names ≠ []
  valid : AllNames names
  held : (Extract.lastData? image staging records names).isSome
  plain : ∀ name ∈ names.getLast?, dollar ∉ name

/-- Of two paths with the same product it is the class file that the product is made of. -/
def Wins (image : Bytes) (staging : Path) (records : List Archive.Record) (names : List Bytes) : Prop :=
  Kept image staging records names ∧ ∀ other, Kept image staging records other →
    productNames other = productNames names → other ≠ names →
      (staging.descendant names).extension = some classExtension

/-- What the product of a path holds: what the decompiler answered for class files and source text, when what the
archive holds was staged, and what the last entry for the path holds otherwise. -/
def Holds (d : Decompiler) (plan : Plan) (staging : Path) (s : Location) (image : Bytes)
    (records : List Archive.Record) (calls : List (Path × Bytes)) (names : List Bytes) (data : Bytes) : Prop :=
  if (staging.descendant names).extension = some classExtension ∨
      (staging.descendant names).extension = some sourceExtension then
    Answered d plan staging s (Extract.lastData? image staging records) calls names data
  else Extract.lastData? image staging records names = some data

/-- The files below an output root after a run: one for each path that wins, but where the way to the root
itself passes. -/
structure Outputs (d : Decompiler) (plan : Plan) (staging : Path) (s o : Location) (image : Bytes)
    (records : List Archive.Record) (passed : List Location) (w : World) : Prop where
  files : ∀ product, product ≠ [] → ((w.files.data? (o ++ product)).isSome ↔
    o ++ product ∉ passed ∧ ∃ names, Wins image staging records names ∧ productNames names = product)
  contents : ∀ names, Wins image staging records names → o ++ productNames names ∉ passed →
    ∃ data, w.files.data? (o ++ productNames names) = some data ∧
      Holds d plan staging s image records w.calls names data

variable {image : Bytes} {records : List Archive.Record}

/-- A path is the first with its product just if it wins. -/
theorem first_iff_wins (kept : ∀ names, names ∈ met ↔ Kept image staging records names) :
    First met names ↔ Wins image staging records names := by
  constructor
  · rintro ⟨member, first⟩
    have keptNames := (kept names).mp member
    refine ⟨keptNames, fun other keptOther same differs => ?_⟩
    have before := (first other ((kept other).mpr keptOther) same).resolve_left differs
    rw [← productNames_ne_self_iff staging keptNames.valid keptNames.down]
    intro unchanged
    by_cases changed : productNames other = other
    · exact differs (by rw [← changed, same, unchanged])
    · have after := lt_productNames_append changed []
      rw [List.append_nil, same, unchanged] at after
      exact List.lt_asymm before after
  · rintro ⟨keptNames, wins⟩
    refine ⟨(kept names).mpr keptNames, fun other member same => ?_⟩
    by_cases alike : other = names
    · exact Or.inl alike
    · right
      have isClass := wins other ((kept other).mp member) same alike
      rw [← productNames_ne_self_iff staging keptNames.valid keptNames.down] at isClass
      have unchanged : productNames other = other := by
        by_contra changed
        exact alike (productNames_injective changed isClass same)
      have after := lt_productNames_append isClass []
      rwa [List.append_nil, ← same, unchanged] at after

theorem First.unique {other : List Bytes} (first : First done names) (first' : First done other)
    (same : productNames names = productNames other) : names = other := by
  rcases first.2 other first'.1 same.symm with alike | before
  · exact alike.symm
  · rcases first'.2 names first.1 same with alike | after
    · exact alike
    · exact absurd after (List.lt_asymm before)

theorem holds_of_madeFrom {calls : List (Path × Bytes)} {source : List Bytes → Option Bytes}
    (valid : AllNames names) (down : names ≠ [])
    (same : ∀ other, other ≠ [] → AllNames other → source other = Extract.lastData? image staging records other)
    (made : MadeFrom d plan staging s source calls names data) : Holds d plan staging s image records calls names data := by
  have isSource : IsSource plan names ↔ _ := extension_productNames plan.out staging valid down
  unfold MadeFrom at made
  unfold Holds
  split
  · rename_i isText
    rw [if_pos (isSource.mpr isText)] at made
    obtain ⟨v, v', later, split, asked, staged, answered⟩ := made
    exact ⟨v, v', later, split, asked, fun other down valid => (staged other down valid).trans (same other down valid),
      answered⟩
  · rename_i other
    rw [if_neg fun isText => other (isSource.mp isText)] at made
    rw [← same names down valid, made]

theorem outputs_of_progress {passed : List Location} (progress : Progress d plan staging s o origin met w)
    (kept : ∀ names, names ∈ met ↔ Kept image staging records names)
    (passes : ∀ l, l ∈ passed → origin.isDirectoryAt l = true)
    (fresh : ∀ product, product ≠ [] → origin.isDirectoryAt (o ++ product) = true → o ++ product ∈ passed)
    (source : ∀ names, names ≠ [] → AllNames names →
      origin.data? (s ++ names) = Extract.lastData? image staging records names) :
    Outputs d plan staging s o image records passed w := by
  have made : ∀ names, Wins image staging records names → o ++ productNames names ∉ passed →
      ∃ data, w.files.data? (o ++ productNames names) = some data ∧
        Holds d plan staging s image records w.calls names data := by
    intro names wins apart
    have first := (first_iff_wins kept).mpr wins
    have downOut := productNames_ne_nil wins.1.down
    have notDirectory := Bool.eq_false_iff.mpr fun directory => apart (fresh _ downOut directory)
    obtain ⟨node, there, isFile⟩ := progress.outputs names first.1 notDirectory
    obtain ⟨other, data, first', same, rfl, madeFrom⟩ := progress.files _ node downOut there isFile
    obtain rfl := first'.unique first same
    exact ⟨data, data?_eq_some.mpr ⟨_, there⟩,
      holds_of_madeFrom wins.1.valid wins.1.down source madeFrom⟩
  refine ⟨fun product down => ⟨fun held => ?_, ?_⟩, made⟩
  · obtain ⟨data, atProduct⟩ := Option.isSome_iff_exists.mp held
    obtain ⟨mode, there⟩ := data?_eq_some.mp atProduct
    obtain ⟨names, _, first, same, _, _⟩ := progress.files product _ down there rfl
    refine ⟨fun inWay => ?_, names, (first_iff_wins kept).mp first, same⟩
    have directory := progress.working.grown.directory (passes _ inWay)
    rw [isDirectoryAt, there] at directory
    cases directory
  · rintro ⟨apart, names, wins, rfl⟩
    obtain ⟨data, held, _⟩ := made names wins apart
    rw [held]
    rfl

theorem visible_iff_kept (sound : origin.Sound) (ordinary : origin.Ordinary s)
    (source : ∀ names, names ≠ [] → AllNames names →
      origin.data? (s ++ names) = Extract.lastData? image staging records names) (names : List Bytes) :
    Walk.Visible origin staging s names ↔ Kept image staging records names := by
  have synthetic : names ≠ [] → AllNames names →
      (isSynthetic (staging.descendant names) = false ↔ ∀ name ∈ names.getLast?, dollar ∉ name) := by
    intro down valid
    obtain ⟨front, name, rfl⟩ := (List.eq_nil_or_concat' names).resolve_left down
    rw [isSynthetic_descendant staging valid, List.getLast?_concat, Bool.eq_false_iff, Ne, List.contains_iff_mem]
    simp
  constructor
  · rintro ⟨down, ⟨node, there, isFile⟩, kept⟩
    have valid := (sound.names _ (by rw [there]; rfl)).1.right
    refine ⟨down, valid, ?_, (synthetic down valid).mp kept⟩
    have kind := (ordinary names down node there).resolve_left (by simp [isFile])
    cases node with
    | file mode data => rw [← source names down valid, data?_eq_some.mpr ⟨mode, there⟩]; rfl
    | directory mode | link target | device => cases kind
  · rintro ⟨down, valid, held, plain⟩
    rw [← source names down valid] at held
    obtain ⟨data, atNames⟩ := Option.isSome_iff_exists.mp held
    obtain ⟨mode, there⟩ := data?_eq_some.mp atNames
    exact ⟨down, ⟨_, there, rfl⟩, (synthetic down valid).mpr plain⟩

/-- A run that ends well, in a staging directory that is there. -/
theorem Workplace.outputs (place : Workplace plan staging w.files)
    (empty : ∀ product, product ≠ [] → w.files.node? (w.files.place plan.out ++ product) = none) (quiet : d.Quiet)
    {summary : Summary} (ran : runIn plan d staging w = .ok summary w') :
    ∃ jar image records, Extract.openArchive plan.jar w.files = .ok (jar, records) ∧ w.files.contents jar = .ok image ∧
      Outputs d plan staging (w.files.place staging) (w.files.place plan.out) image records
        (w.files.trail plan.out) w' := by
  obtain ⟨w₁, ready, begun⟩ := place.begun (by rw [ran]; trivial)
  obtain ⟨u, rfl, start⟩ := place.start begun
  have visits := (start.run d quiet).symm.trans ran
  cases folded : (Walk.items u.files pathMax staging).foldlM (visit plan d staging) {} u with
  | error e v => rw [folded] at visits; cases visits
  | ok b v =>
    rw [folded] at visits
    cases visits
    -- the staged tree holds what the archive says
    obtain ⟨entries, extracted⟩ := begun.extracted
    obtain ⟨jar, records, _, opened, _⟩ := Extract.extract_ok extracted
    obtain ⟨_, image, content, _⟩ := Extract.openArchive_ok.mp opened
    have unpacked := Extract.unpacked_of_extract opened content (place.confined jar records opened) place.within
      place.staging_there place.staging_empty extracted
    obtain ⟨sound, adds, leads, _, plain⟩ := place.output begun
    have same : SameData (w.files.place staging) w₁.files u.files := .of_adds adds
    have ordinary := same.ordinary unpacked.ordinary
    have source : ∀ names, names ≠ [] → AllNames names →
        u.files.data? (w.files.place staging ++ names) = Extract.lastData? image staging records names :=
      fun names down valid => (same.data _).trans (unpacked.data names down valid)
    -- below the output root there are directories on the way to it, and nothing else
    have vacant : ∀ product, product ≠ [] → w₁.files.node? (w.files.place plan.out ++ product) = none := by
      intro product down
      rw [begun.within.outside, empty product down]
      rintro ⟨names, _, inside⟩
      exact place.apart.ne names product inside.symm
    obtain ⟨working, _, settled⟩ := visits_ok start.working place.apart quiet
      (fun item member => Walk.proper_of_mem start.working.tree.rooted member) folded
    obtain ⟨met, split, sorted, valid, visible⟩ := Walk.items_eq_map start.working.tree.rooted fun item member => by
      obtain ⟨names, _, _, rfl, _⟩ := settled item member
      exact ⟨_, rfl⟩
    rw [split] at folded
    have progress := (Progress.start start.working rfl fun product down node there => ?_).visits place.apart quiet sound
      ordinary (fun names member => (visible names).mp member) sorted valid folded
    · have ended : Progress d plan staging (w.files.place staging) (w.files.place plan.out) u.files met
          { v with events := v.events ++ [.done summary] } :=
        ⟨progress.working, progress.files, progress.directories, progress.outputs⟩
      refine ⟨jar, image, records, opened, content, outputs_of_progress ended ?_ ?_ ?_ source⟩
      · exact fun names => (visible names).trans (visible_iff_kept sound ordinary source names)
      · intro l member
        rw [← trail_congr start.grown.here] at member
        exact leads.isDirectoryAt_trail sound plain l member
      · intro product down directory
        rcases adds.nodes (w.files.place plan.out ++ product) with same | ⟨_, passed, _⟩
        · rw [isDirectoryAt, same, vacant product down] at directory
          cases directory
        · exact passed
    · rcases adds.nodes (w.files.place plan.out ++ product) with same | ⟨_, _, directory⟩
      · rw [same, vacant product down] at there
        cases there
      · rw [isDirectoryAt, there] at directory
        exact directory

/-- What a run is promised about a place to work in that is new: neither the staging directory nor the output
root holds anything, if they are there at all, and neither lies in the other. The path of the staging
directory goes down only, and no link is in the way to either of them. -/
structure Site (plan : Plan) (staging : Path) (fs : FileSystem) : Prop where
  sound : fs.Sound
  staging_downward : staging.Downward
  staging_plain : fs.Plain staging
  staging_empty : ∀ names, names ≠ [] → fs.node? (fs.place staging ++ names) = none
  out_plain : fs.Plain plan.out
  out_empty : ∀ names, names ≠ [] → fs.node? (fs.place plan.out ++ names) = none
  apart : Apart (fs.place staging) (fs.place plan.out)

/-- Once its staging directory is made, a run works in a place as it is promised. -/
theorem Site.workplace {fs ready : FileSystem} (site : Site plan staging fs)
    (made : fs.makeDirectories staging = (.ok (), ready)) :
    Workplace plan staging ready ∧ fs.Grows ready ∧ ready.isDirectory staging = true ∧
      ∀ product, product ≠ [] → ready.node? (fs.place plan.out ++ product) = none := by
  obtain ⟨sound, adds⟩ := site.sound.makeDirectories site.staging_plain
  rw [made] at sound adds
  have named : staging.components ≠ [] := by
    obtain ⟨names, down, split⟩ := site.staging_downward
    rw [split]
    simp [down]
  have there := site.sound.isDirectory_of_makeDirectories made named
  have untouched : ∀ {m}, ¬ m <+: fs.place staging → ready.node? m = fs.node? m := by
    intro m elsewhere
    rcases adds.nodes m with same | ⟨_, passed, _⟩
    · exact same
    · exact absurd (prefix_place site.staging_downward passed) elsewhere
  have stagingEmpty : ∀ names, names ≠ [] → ready.node? (fs.place staging ++ names) = none := by
    intro names down
    rw [untouched, site.staging_empty names down]
    intro inside
    have shorter := inside.length_le
    rw [List.length_append] at shorter
    exact down (List.length_eq_zero_iff.mp (by omega))
  have outEmpty : ∀ names, names ≠ [] → ready.node? (fs.place plan.out ++ names) = none := by
    intro names down
    rw [untouched, site.out_empty names down]
    exact fun inside => site.apart.2 ((List.prefix_append _ _).trans inside)
  have outFree : ready.LinkFree (fs.place plan.out) := by
    intro names target there
    by_cases top : names = []
    · rw [top, List.append_nil] at there
      exact site.out_plain _ (place_mem_trail fs plan.out) target (adds.other there rfl)
    · rw [outEmpty names top] at there
      cases there
  have samePlace : ∀ p, ready.place p = fs.place p := place_congr adds.here
  refine ⟨⟨sound, adds.plain site.staging_plain, there, ?_, adds.plain site.out_plain, ?_, ?_,
    fun _ records _ => .of_guarded site.staging_downward.guarded records⟩, adds.grows, there, outEmpty⟩
  · rw [samePlace]
    exact stagingEmpty
  · rw [samePlace]
    exact outFree
  · rw [samePlace, samePlace]
    exact site.apart

/-- A run is the same where its staging directory was made before. -/
theorem runIn_of_made (sound : w.files.Sound) {ready : FileSystem} (made : w.files.makeDirectories staging = (.ok (), ready))
    (grows : w.files.Grows ready) (there : ready.isDirectory staging = true) {count : Nat} {w₁ : World}
    (extracted : extract plan.jar staging w = .ok count w₁) :
    runIn plan d staging { w with files := ready } = runIn plan d staging w := by
  obtain ⟨jar, records, ready', opened, made', ran, rfl⟩ := Extract.extract_ok extracted
  rw [made] at made'
  cases made'
  have again : extract plan.jar staging { w with files := ready } = .ok records.length w₁ :=
    Extract.extract_of_entries (Extract.openArchive_grows sound grows opened) (makeDirectories_of_isDirectory there) ran
  rw [runIn_run, runIn_run, again, extracted]

/-- A run that ends well has made of an archive just what its entries say, below an output root that
was empty. -/
theorem outputs_of_run (site : Site plan staging w.files) (quiet : d.Quiet) {summary : Summary}
    (ran : runIn plan d staging w = .ok summary w') :
    ∃ jar image records, Extract.openArchive plan.jar w.files = .ok (jar, records) ∧ w.files.contents jar = .ok image ∧
      Outputs d plan staging (w.files.place staging) (w.files.place plan.out) image records
        (w.files.trail plan.out) w' := by
  have walked : Walked (runIn plan d staging w) := by
    rw [ran]
    trivial
  obtain ⟨count, w₁, _, extracted, _⟩ := stages_of_walked walked
  obtain ⟨jar, records, ready, opened, made, _, _⟩ := Extract.extract_ok extracted
  obtain ⟨_, image, content, _⟩ := Extract.openArchive_ok.mp opened
  obtain ⟨place, grows, there, empty⟩ := site.workplace made
  rw [← runIn_of_made site.sound made grows there extracted] at ran
  have samePlace : ready.place plan.out = w.files.place plan.out := place_congr grows.here plan.out
  obtain ⟨jar', image', records', opened', content', outputs⟩ :=
    Workplace.outputs (w := { w with files := ready }) place (by rw [samePlace]; exact empty) quiet ran
  rw [show ({ w with files := ready } : World).files = ready from rfl] at opened' content' outputs
  rw [Extract.openArchive_grows site.sound grows opened] at opened'
  cases opened'
  have sameContent : ready.contents jar = w.files.contents jar := by
    obtain ⟨node, there⟩ := Extract.node_of_openArchive opened
    rw [FileSystem.contents, FileSystem.contents, grows.kept there, there]
  rw [sameContent, content] at content'
  cases content'
  rw [samePlace, place_congr grows.here staging, trail_congr grows.here] at outputs
  exact ⟨jar, image, records, opened, content, outputs⟩

theorem Sample.downward : Sample.staging.Downward :=
  ⟨[ascii "s"], by decide, by decide⟩

theorem Sample.site : Site Sample.plan Sample.staging Sample.world.files := by
  have unlinked : Sample.world.files.Unlinked := by decide
  exact ⟨Sample.sound, Sample.downward, unlinked.plain _, fun names down => empty_of_nodes (by decide) down,
    unlinked.plain _, fun names down => empty_of_nodes (by decide) down, by decide, by decide⟩

theorem outputs_sample : ∃ jar image records,
    Extract.openArchive Sample.plan.jar Sample.world.files = .ok (jar, records) ∧
      Sample.world.files.contents jar = .ok image ∧
      Outputs Sample.answering Sample.plan Sample.staging (Sample.world.files.place Sample.staging)
        (Sample.world.files.place Sample.plan.out) image records (Sample.world.files.trail Sample.plan.out)
        (Task.left (runIn Sample.plan Sample.answering Sample.staging Sample.world)) :=
  outputs_of_run Sample.site (Decompiler.quiet_ofAnswers _) (Task.ok_of_outcome Sample.outcome_answering)

end Unjar.Run
