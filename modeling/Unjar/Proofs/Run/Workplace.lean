import Unjar.Proofs.Archive.Stored
import Unjar.Proofs.FileSystem.Nodes
import Unjar.Proofs.FileSystem.Remaking
import Unjar.Proofs.Run.Stages
import Unjar.Proofs.Run.Turn

/-!
Runs in a staging directory that is empty, and runs in it again once it was emptied. Both come to the
same walk.
-/

namespace Unjar

namespace FileSystem

variable {fs fs' : FileSystem}

/-- What is left when everything below a directory was removed. -/
def emptied (fs : FileSystem) (l : Location) : FileSystem :=
  { fs with nodes := fs.nodes.filter fun (at', _) => at' = l ∨ ¬ l.isPrefixOf at' }

theorem node?_emptied (fs : FileSystem) (l m : Location) :
    (Below l m → (fs.emptied l).node? m = none) ∧ (¬ Below l m → (fs.emptied l).node? m = fs.node? m) := by
  have others := lookup_filter_location fs.nodes (fun k => decide (k = l ∨ ¬ l.isPrefixOf k)) m
  have atM : (fs.emptied l).node? m = if m = l ∨ ¬ l.isPrefixOf m then fs.node? m else none := by
    simpa only [emptied, node?, decide_eq_true_eq] using others
  rw [atM]
  constructor
  · rintro ⟨names, down, rfl⟩
    rw [if_neg]
    simp [down]
  · intro elsewhere
    rw [if_pos]
    by_cases inside : l <+: m
    · obtain ⟨names, rfl⟩ := inside
      have top : names = [] := by
        by_contra down
        exact elsewhere ⟨names, down, rfl⟩
      exact Or.inl (by rw [top, List.append_nil])
    · exact Or.inr (by rwa [List.isPrefixOf_iff_prefix])

end FileSystem

namespace Run

open FileSystem

variable {plan : Plan} {d : Decompiler} {staging : Path} {s o : Location}

/-- What a run is promised about the place it works in: an empty staging directory, and an output root
that neither lies in it nor around it. No link is in the way to either of them, nor below the output root. -/
structure Workplace (plan : Plan) (staging : Path) (fs : FileSystem) : Prop where
  sound : fs.Sound
  staging_plain : fs.Plain staging
  staging_there : fs.isDirectory staging = true
  staging_empty : ∀ names, names ≠ [] → fs.node? (fs.place staging ++ names) = none
  out_plain : fs.Plain plan.out
  out_free : fs.LinkFree (fs.place plan.out)
  apart : Apart (fs.place staging) (fs.place plan.out)
  confined : ∀ jar records, Extract.openArchive plan.jar fs = .ok (jar, records) → Extract.Confined staging records

/-- A run that has come to its walk. -/
structure Start (plan : Plan) (staging : Path) (s o : Location) (w u : World) : Prop where
  run : ∀ d : Decompiler, d.Quiet → runIn plan d staging w =
    finish ((Walk.items u.files pathMax staging).foldlM (visit plan d staging) {} u)
  calls : u.calls = w.calls
  working : Working staging plan.out s o u.files u.files
  grown : w.files.Grows u.files

/-- What lies where a run is done again: its staging directory was emptied, and all that was there before
its walk, and lies elsewhere, is there still. No link has come to it. -/
structure Leftover (s : Location) (fs left : FileSystem) : Prop where
  sound : left.Sound
  here : left.here = fs.here
  empty : ∀ m, Below s m → left.node? m = none
  kept : ∀ m node, ¬ Below s m → fs.node? m = some node → left.node? m = some node
  links : ∀ m target, left.node? m = some (.link target) → fs.node? m = some (.link target)

/-- A directory with nothing below it. -/
theorem linkFree_of_empty {fs : FileSystem} {l : Location} (directory : fs.isDirectoryAt l = true)
    (empty : ∀ names, names ≠ [] → fs.node? (l ++ names) = none) : fs.LinkFree l := by
  intro names target there
  by_cases top : names = []
  · subst top
    rw [List.append_nil] at there
    rw [isDirectoryAt, there] at directory
    cases directory
  · rw [empty names top] at there
    cases there

/-- What is unpacked grows in a directory that was empty. -/
theorem grows_of_within {base : Path} {origin fs : FileSystem} {l : Location} (within : Within base l origin fs)
    (empty : ∀ names, names ≠ [] → origin.node? (l ++ names) = none) : origin.Grows fs := by
  refine ⟨within.here, fun {m node} there => ?_⟩
  rw [within.outside, there]
  rintro ⟨names, down, rfl⟩
  rw [empty names down] at there
  cases there

/-- The staged tree and the output root that a run has made before it walks. -/
structure Begun (plan : Plan) (staging : Path) (w w₁ : World) (ready : FileSystem) : Prop where
  extracted : ∃ entries, extract plan.jar staging w = .ok entries w₁
  made : w₁.files.makeDirectories plan.out = (.ok (), ready)
  within : Within staging.clean (w.files.place staging) w.files w₁.files
  calls : w₁.calls = w.calls

variable {w w₁ : World} {ready : FileSystem}

theorem Workplace.within (place : Workplace plan staging w.files) :
    Within staging.clean (w.files.place staging) w.files w.files := by
  have directory := (place.staging_plain.leads place.staging_there).1.directory
  exact .start place.sound (linkFree_of_empty directory place.staging_empty) (place.sound.leads_clean directory)

theorem Workplace.begun (place : Workplace plan staging w.files) (walked : Walked (runIn plan d staging w)) :
    ∃ w₁ ready, Begun plan staging w w₁ ready := by
  obtain ⟨entries, w₁, ready, extracted, made⟩ := stages_of_walked walked
  obtain ⟨again, unpacked, paired⟩ := Extract.extract_again place.confined place.within place.within (fun _ => rfl)
    place.staging_empty place.staging_there place.staging_there (.refl _) extracted
  rw [extracted] at unpacked
  cases unpacked
  exact ⟨w₁, ready, ⟨entries, extracted⟩, made, paired.files.first, paired.calls⟩

/-- The output root is made beside the staged tree. -/
theorem Workplace.output (place : Workplace plan staging w.files) (begun : Begun plan staging w w₁ ready) :
    ready.Sound ∧ w₁.files.AddsDirectories ready (· ∈ w.files.trail plan.out) ∧
      ready.Leads plan.out (w.files.place plan.out) ∧ plan.out.standing = .ok () ∧ ready.Plain plan.out := by
  have plain : w₁.files.Plain plan.out := by
    intro l member target
    rw [trail_congr begun.within.here] at member
    by_cases inside : Below (w.files.place staging) l
    · obtain ⟨names, _, rfl⟩ := inside
      exact begun.within.free names target
    · rw [begun.within.outside l inside]
      exact place.out_plain l member target
  obtain ⟨sound, adds⟩ := begun.within.sound.makeDirectories plain
  obtain ⟨leads, standing⟩ := begun.within.sound.leads_of_makeDirectories plain begun.made
  rw [begun.made] at adds sound
  have readyPlain := adds.plain plain
  rw [trail_congr begun.within.here] at adds
  rw [place_eq, begun.within.here, ← place_eq] at leads
  exact ⟨sound, adds, leads, standing, readyPlain⟩

/-- What the walk of a run starts from: the staged tree and the output root can be walked and reached. -/
theorem Workplace.prepared (place : Workplace plan staging w.files) (begun : Begun plan staging w w₁ ready) :
    w.files.Grows ready ∧ Working staging plan.out (w.files.place staging) (w.files.place plan.out) ready ready := by
  have leads := (place.staging_plain.leads place.staging_there).1
  obtain ⟨sound, adds, leadsOut, _⟩ := place.output begun
  have grows : w.files.Grows ready := (grows_of_within begun.within place.staging_empty).trans adds.grows
  refine ⟨grows, .start ⟨sound, leads.mono grows.keeps, begun.within.free.of_adds adds⟩ leadsOut ?_⟩
  intro names target there
  have outside : ¬ Below (w.files.place staging) (w.files.place plan.out ++ names) := by
    rintro ⟨more, _, same⟩
    exact place.apart.ne more names same.symm
  have before := adds.other there rfl
  rw [begun.within.outside _ outside] at before
  exact place.out_free names target before

theorem Workplace.start (place : Workplace plan staging w.files) (begun : Begun plan staging w w₁ ready) :
    ∃ u : World, u.files = ready ∧ Start plan staging (w.files.place staging) (w.files.place plan.out) w u := by
  obtain ⟨grows, working⟩ := place.prepared begun
  obtain ⟨entries, extracted⟩ := begun.extracted
  obtain ⟨events, runs⟩ := runIn_eq_fold extracted begun.made
  refine ⟨{ w₁ with files := ready, events }, rfl, ?_, begun.calls, working, grows⟩
  intro d quiet
  rw [runs, fold_eq_foldlM (w := { w₁ with files := ready, events }) (.of_working working) quiet place.apart]

/-- What is there when a run that is done again comes to its walk: below the staging directory what the first
run had there, and elsewhere what was left. -/
structure Regained (s : Location) (ready left again : FileSystem) : Prop where
  sound : again.Sound
  here : again.here = ready.here
  same : SameBelow s ready again
  outside : ∀ m, ¬ Below s m → again.node? m = left.node? m

namespace Regained

variable {left again : FileSystem}

/-- All that the first run had made before its walk is there. -/
theorem grown (regained : Regained s ready left again) (leftover : Leftover s ready left) : ready.Grows again := by
  refine ⟨regained.here, fun {m node} there => ?_⟩
  by_cases inside : Below s m
  · obtain ⟨names, _, rfl⟩ := inside
    rw [regained.same names, there]
  · rw [regained.outside m inside, leftover.kept m node inside there]

theorem links (regained : Regained s ready left again) (leftover : Leftover s ready left) {m : Location} {target : Path}
    (there : again.node? m = some (.link target)) : ready.node? m = some (.link target) := by
  by_cases inside : Below s m
  · obtain ⟨names, _, rfl⟩ := inside
    rw [← regained.same names, there]
  · rw [regained.outside m inside] at there
    exact leftover.links m target there

end Regained

/-- The archive is unpacked again as it was. -/
theorem Workplace.unpack_again (place : Workplace plan staging w.files) (begun : Begun plan staging w w₁ ready)
    {w₂ : World} (left : Leftover (w.files.place staging) ready w₂.files) :
    ∃ entries w₃, extract plan.jar staging w₂ = .ok entries w₃ ∧ w₃.calls = w₂.calls ∧
      Within staging.clean (w.files.place staging) w₂.files w₃.files ∧
      SameBelow (w.files.place staging) w₁.files w₃.files ∧ w₂.files.Grows w₃.files := by
  obtain ⟨leads, spelled⟩ := place.staging_plain.leads place.staging_there
  obtain ⟨grows, _⟩ := place.prepared begun
  have elsewhere : ∀ {m node}, w.files.node? m = some node → ¬ Below (w.files.place staging) m := by
    rintro m node there ⟨names, down, rfl⟩
    rw [place.staging_empty names down] at there
    cases there
  have grows₂ : w.files.Grows w₂.files :=
    ⟨left.here.trans grows.here, fun there => left.kept _ _ (elsewhere there) (grows.kept there)⟩
  have empty₂ : ∀ names, names ≠ [] → w₂.files.node? (w.files.place staging ++ names) = none :=
    fun names down => left.empty _ ⟨names, down, rfl⟩
  have directory₂ := grows₂.directory leads.directory
  have within₂ : Within staging.clean (w.files.place staging) w₂.files w₂.files :=
    .start left.sound (linkFree_of_empty directory₂ empty₂) (place.within.leads.mono grows₂.keeps)
  have same : SameBelow (w.files.place staging) w.files w₂.files := by
    intro names
    by_cases top : names = []
    · obtain ⟨mode, atNode⟩ := isDirectoryAt_iff.mp leads.directory
      rw [top, List.append_nil, atNode, grows₂.kept atNode]
    · rw [place.staging_empty names top, empty₂ names top]
  obtain ⟨entries, extracted⟩ := begun.extracted
  obtain ⟨w₃, extracted₂, paired⟩ := Extract.extract_again place.confined place.within within₂ same place.staging_empty
    place.staging_there ((leads.mono grows₂.keeps).isDirectory spelled) grows₂ extracted
  exact ⟨entries, w₃, extracted₂, paired.calls', paired.files.second, paired.files.same,
    grows_of_within paired.files.second empty₂⟩

/-- The output root is made again, also where the way to it passes the staging directory. -/
theorem Workplace.output_again (place : Workplace plan staging w.files) (begun : Begun plan staging w w₁ ready)
    {left files : FileSystem} (leftover : Leftover (w.files.place staging) ready left)
    (within : Within staging.clean (w.files.place staging) left files)
    (same : SameBelow (w.files.place staging) w₁.files files) :
    ∃ again, files.makeDirectories plan.out = (.ok (), again) ∧
      files.AddsDirectories again (· ∈ w.files.trail plan.out) ∧ Regained (w.files.place staging) ready left again := by
  obtain ⟨sound, adds, leads, _, plain⟩ := place.output begun
  have trail : ready.trail plan.out = w.files.trail plan.out :=
    (trail_congr adds.here plan.out).trans (trail_congr begun.within.here plan.out)
  -- on the way to the output root there is what the archive put there, and what was left elsewhere
  have onTrail : ∀ l ∈ w.files.trail plan.out, ¬ Below (w.files.place staging) l → left.node? l = ready.node? l := by
    intro l member elsewhere
    rw [← trail] at member
    obtain ⟨mode, there⟩ := isDirectoryAt_iff.mp (leads.isDirectoryAt_trail sound plain l member)
    rw [there, leftover.kept l _ elsewhere there]
  have plain₁ : w₁.files.Plain plan.out := by
    intro l member target there
    exact plain l (by rwa [trail_congr adds.here]) target (adds.kept there)
  have between : Between plan.out w₁.files ready files := by
    refine ⟨within.here.trans (leftover.here.trans adds.here), fun l member => ?_⟩
    by_cases inside : Below (w.files.place staging) l
    · obtain ⟨names, _, rfl⟩ := inside
      exact Or.inl (same names)
    · rw [trail_congr begun.within.here] at member
      exact Or.inr (by rw [within.outside l inside, onTrail l member inside])
  obtain ⟨again, made, soundAgain, addsAgain, atTrail⟩ :=
    begun.within.sound.makeDirectories_again within.sound plain₁ begun.made between
  rw [trail_congr begun.within.here] at addsAgain atTrail
  refine ⟨again, made, addsAgain, soundAgain, addsAgain.here.trans (within.here.trans leftover.here), ?_, ?_⟩
  · intro names
    by_cases passed : w.files.place staging ++ names ∈ w.files.trail plan.out
    · exact atTrail _ passed
    · rw [(addsAgain.nodes _).resolve_right fun ⟨_, inTrail, _⟩ => passed inTrail, same names,
        (adds.nodes _).resolve_right fun ⟨_, inTrail, _⟩ => passed inTrail]
  · intro m elsewhere
    by_cases passed : m ∈ w.files.trail plan.out
    · rw [atTrail m passed, onTrail m passed elsewhere]
    · rw [(addsAgain.nodes m).resolve_right fun ⟨_, inTrail, _⟩ => passed inTrail, within.outside m elsewhere]

/-- A run that is done again on what it left comes to the same walk. -/
theorem Workplace.start_again (place : Workplace plan staging w.files) (begun : Begun plan staging w w₁ ready)
    {w₂ : World} (left : Leftover (w.files.place staging) ready w₂.files) :
    ∃ u₂, Start plan staging (w.files.place staging) (w.files.place plan.out) w₂ u₂ ∧
      Walk.items u₂.files pathMax staging = Walk.items ready pathMax staging ∧
      SameBelow (w.files.place staging) ready u₂.files ∧ ready.Grows u₂.files ∧
      ∀ m, ¬ Below (w.files.place staging) m → u₂.files.node? m = w₂.files.node? m := by
  obtain ⟨_, working⟩ := place.prepared begun
  obtain ⟨entries, w₃, extracted, calls, within, same, grows⟩ := place.unpack_again begun left
  obtain ⟨again, made, adds, regained⟩ := place.output_again begun left within same
  have grown := regained.grown left
  have tree : Tree staging (w.files.place staging) again :=
    ⟨regained.sound, working.tree.leads.mono grown.keeps, within.free.of_adds adds⟩
  have working' := Working.start tree (working.within.leads.mono grown.keeps)
    fun names target there => working.within.free names target (regained.links left there)
  obtain ⟨events, runs⟩ := runIn_eq_fold extracted made
  refine ⟨{ w₃ with files := again, events }, ⟨?_, calls, working', grows.trans adds.grows⟩,
    Walk.items_congr working.tree.rooted tree.rooted grown regained.same allNames_nil working.tree.rooted.top,
    regained.same, grown, regained.outside⟩
  intro d quiet
  rw [runs, fold_eq_foldlM (w := { w₃ with files := again, events }) (.of_working working') quiet place.apart]

end Run

/-! A place to work in: an archive of two classes and a text, and an empty directory to unpack it into. -/

namespace Run.Sample

def staging : Path := ⟨ascii "s"⟩

def plan : Plan := { jar := ⟨ascii "j"⟩, out := ⟨ascii "o"⟩, naming := .perFile }

def jar : Bytes :=
  Archive.stored [(ascii "A.class", ascii "a"), (ascii "B.class", ascii "b"), (ascii "c.txt", ascii "c")]

def answering : Decompiler := .ofAnswers fun _ name => .ok name

/-- A decompiler that fails for one of the classes. -/
def failing : Decompiler := .ofAnswers fun _ name => if name = ascii "B" then .error .interrupted else .ok name

def world : World :=
  { files :=
    { nodes := [([], .directory 0o755), ([ascii "j"], .file 0o644 jar), ([ascii "s"], .directory 0o755)]
      here := [] } }

theorem sound : world.files.Sound :=
  .of_nodes (by decide +kernel) (by decide) (by decide) (by decide)

theorem workplace : Workplace plan staging world.files := by
  have unlinked : world.files.Unlinked := by decide
  have guarded : staging.Guarded := by
    rw [Path.Guarded]
    decide
  exact ⟨sound, unlinked.plain _, by decide, fun names down => FileSystem.empty_of_nodes (by decide) down,
    unlinked.plain _, unlinked.linkFree _, ⟨by decide, by decide⟩, fun _ records _ => .of_guarded guarded records⟩

end Run.Sample

end Unjar
