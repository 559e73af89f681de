import Unjar.Proofs.FileSystem.Seek

/-!
The trail of a path: the locations it passes when no link is in its way, from the one it starts at to
the one it stands for. A cleaned path stands for the same location as the path itself.
-/

namespace Unjar

def Step.apply (l : Location) : Step → Location
  | .stay | .slashEnd => l
  | .ascend => l.dropLast
  | .descend name => l ++ [name]

theorem Step.apply_of_stays {step : Step} (stays : step = .stay ∨ step = .slashEnd) (l : Location) :
    step.apply l = l := by
  rcases stays with rfl | rfl <;> rfl

theorem Step.component_of_ascend {segment : Bytes} (ascends : Step.ofSegment? segment = some .ascend) :
    Component.ofSegment? segment = some .up := by
  unfold Step.ofSegment? at ascends
  unfold Component.ofSegment?
  split_ifs at ascends with empty dotted twice
  · cases ascends
  · rw [if_neg (not_or.mpr ⟨empty, dotted⟩), if_pos twice]
  · cases ascends

theorem Step.component_of_descend {segment name : Bytes} (descends : Step.ofSegment? segment = some (.descend name)) :
    Component.ofSegment? segment = some (.name name) := by
  unfold Step.ofSegment? at descends
  unfold Component.ofSegment?
  split_ifs at descends with empty dotted twice
  · cases descends
  · cases descends
  · cases descends
    rw [if_neg (not_or.mpr ⟨empty, dotted⟩), if_neg twice]

namespace FileSystem

variable {fs fs' : FileSystem}

def trailFrom : Location → List Step → List Location
  | l, [] => [l]
  | l, step :: rest => l :: trailFrom (step.apply l) rest

/-- The locations on the way of a path. -/
def trail (fs : FileSystem) (p : Path) : List Location :=
  trailFrom (fs.start p) p.way

/-- The location a path stands for. -/
def place (fs : FileSystem) (p : Path) : Location :=
  p.way.foldl Step.apply (fs.start p)

theorem start_congr (here : fs'.here = fs.here) (p : Path) : fs'.start p = fs.start p := by
  rw [start, start, here]

theorem trail_congr (here : fs'.here = fs.here) (p : Path) : fs'.trail p = fs.trail p := by
  rw [trail, trail, start_congr here]

theorem place_congr (here : fs'.here = fs.here) (p : Path) : fs'.place p = fs.place p := by
  rw [place, place, start_congr here]

/-- No link is in the way of a path. -/
def Plain (fs : FileSystem) (p : Path) : Prop :=
  ∀ l ∈ fs.trail p, ∀ target, fs.node? l ≠ some (.link target)

theorem start_mem_trailFrom (l : Location) (steps : List Step) : l ∈ trailFrom l steps := by
  cases steps <;> simp [trailFrom]

theorem foldl_mem_trailFrom (l : Location) (steps : List Step) : steps.foldl Step.apply l ∈ trailFrom l steps := by
  induction steps generalizing l with
  | nil => simp [trailFrom]
  | cons step rest ih => exact List.mem_cons_of_mem _ (ih _)

theorem place_mem_trail (fs : FileSystem) (p : Path) : fs.place p ∈ fs.trail p :=
  foldl_mem_trailFrom _ _

theorem trailFrom_prefix {front steps : List Step} (isFront : front <+: steps) (l : Location) :
    ∀ m ∈ trailFrom l front, m ∈ trailFrom l steps := by
  induction front generalizing l steps with
  | nil =>
    intro m member
    rw [trailFrom, List.mem_singleton] at member
    rw [member]
    exact start_mem_trailFrom l steps
  | cons step front ih =>
    obtain ⟨back, rfl⟩ := isFront
    intro m member
    rcases List.mem_cons.mp member with rfl | later
    · exact start_mem_trailFrom _ _
    · exact List.mem_cons_of_mem _ (ih (List.prefix_append front back) _ m later)

theorem prefix_foldl {steps : List Step} (downward : .ascend ∉ steps) (l : Location) :
    l <+: steps.foldl Step.apply l := by
  induction steps generalizing l with
  | nil => exact List.prefix_rfl
  | cons step rest ih =>
    have later := ih fun member => downward (List.mem_cons_of_mem _ member)
    cases step with
    | stay | slashEnd => exact later l
    | ascend => exact absurd List.mem_cons_self downward
    | descend name => exact (List.prefix_append l [name]).trans (later (l ++ [name]))

theorem prefix_of_mem_trailFrom {steps : List Step} (downward : .ascend ∉ steps) {l m : Location}
    (member : m ∈ trailFrom l steps) : m <+: steps.foldl Step.apply l := by
  induction steps generalizing l with
  | nil => exact List.mem_singleton.mp member ▸ List.prefix_rfl
  | cons step rest ih =>
    rcases List.mem_cons.mp member with rfl | later
    · exact prefix_foldl downward m
    · exact ih (fun inRest => downward (List.mem_cons_of_mem _ inRest)) later

/-- A path of names passes the directories above its end, and no others. -/
theorem prefix_place {p : Path} (downward : p.Downward) {l : Location} (passed : l ∈ fs.trail p) :
    l <+: fs.place p := by
  refine prefix_of_mem_trailFrom ?_ passed
  obtain ⟨names, _, split⟩ := downward
  rw [Path.components_eq_anchor_inner, List.append_cancel_left_eq] at split
  intro member
  obtain ⟨segment, inPath, ascends⟩ := List.mem_filterMap.mp member
  have up : Component.up ∈ p.inner := List.mem_filterMap.mpr ⟨segment, inPath, Step.component_of_ascend ascends⟩
  rw [split] at up
  simp at up

theorem mem_trailFrom_append {l m : Location} {front rest : List Step} :
    m ∈ trailFrom l (front ++ rest) ↔ m ∈ trailFrom l front ∨ m ∈ trailFrom (front.foldl Step.apply l) rest := by
  induction front generalizing l with
  | nil =>
    have first : m ∈ trailFrom l [] → m ∈ trailFrom l rest := by
      intro member
      rw [List.mem_singleton.mp member]
      exact start_mem_trailFrom _ _
    exact ⟨Or.inr, fun either => either.elim first id⟩
  | cons step front ih =>
    rw [List.cons_append, trailFrom, trailFrom, List.mem_cons, List.mem_cons, ih, or_assoc]
    rfl

/-- Without a name no step goes down. -/
theorem prefix_start_of_mem_trailFrom {steps : List Step} (noName : ∀ name, .descend name ∉ steps) {l m : Location}
    (member : m ∈ trailFrom l steps) : m <+: l := by
  induction steps generalizing l with
  | nil =>
    obtain rfl := List.mem_singleton.mp member
    exact List.prefix_rfl
  | cons step rest ih =>
    rcases List.mem_cons.mp member with rfl | later
    · exact List.prefix_rfl
    · have further := ih (fun name inRest => noName name (List.mem_cons_of_mem _ inRest)) later
      cases step with
      | stay | slashEnd => exact further
      | ascend => exact further.trans (List.dropLast_prefix l)
      | descend name => exact absurd List.mem_cons_self (noName name)

/-- On its way a straight path passes directories above the one it starts from, and then those above its end. -/
theorem mem_trail_of_straight {p : Path} (straight : p.Straight) {m : Location} (passed : m ∈ fs.trail p) :
    m <+: fs.start p ∨ m <+: fs.place p := by
  obtain ⟨front, back, segments, noName, noAscent⟩ := straight.segments
  have way : p.way = front.filterMap Step.ofSegment? ++ back.filterMap Step.ofSegment? := by
    rw [Path.way, segments, List.filterMap_append]
  rw [FileSystem.trail, way] at passed
  rw [place, way, List.foldl_append]
  refine (mem_trailFrom_append.mp passed).imp (prefix_start_of_mem_trailFrom ?_) (prefix_of_mem_trailFrom ?_)
  · intro name member
    obtain ⟨segment, inFront, found⟩ := List.mem_filterMap.mp member
    exact noName segment inFront name (Step.component_of_descend found)
  · intro member
    obtain ⟨segment, inBack, found⟩ := List.mem_filterMap.mp member
    exact noAscent segment inBack (Step.component_of_ascend found)

/-- Where a walk without links ends. -/
def Spot.location : Spot → Location
  | .taken l => l
  | .free parent name _ => parent ++ [name]

theorem Finds.location {purpose : Purpose} {links : Nat} {l : Location} {steps : List Step} {spot : Spot}
    (found : fs.Finds purpose spot links l steps)
    (plain : ∀ m ∈ trailFrom l steps, ∀ target, fs.node? m ≠ some (.link target)) :
    Spot.location spot = steps.foldl Step.apply l := by
  induction found with
  | arrives same => rw [same]; rfl
  | stays stays _ ih =>
    rw [trailFrom, Step.apply_of_stays stays] at plain
    rw [List.foldl_cons, Step.apply_of_stays stays]
    exact ih fun m member => plain m (List.mem_cons_of_mem _ member)
  | ascends _ ih => exact ih fun m member => plain m (List.mem_cons_of_mem _ member)
  | enters _ _ _ ih => exact ih fun m member => plain m (List.mem_cons_of_mem _ member)
  | follows _ there => exact absurd there (plain _ (List.mem_cons_of_mem _ (start_mem_trailFrom _ _)) _)
  | stops _ _ stops same => rcases stops.short with rfl | rfl <;> rw [same] <;> rfl
  | @vacant _ _ _ slashed _ _ _ last same =>
    rw [same, last]
    cases slashed <;> rfl
  | slashed _ last same => rw [same, last]; rfl

theorem Thins.foldl_apply {steps thinned : List Step} (thins : Thins steps thinned) (l : Location) :
    steps.foldl Step.apply l = thinned.foldl Step.apply l := by
  induction thins generalizing l with
  | nil => rfl
  | keep step _ ih => exact ih _
  | drop stays _ ih => rw [List.foldl_cons, Step.apply_of_stays stays, ih]

theorem Thins.mem_trailFrom {steps thinned : List Step} (thins : Thins steps thinned) {l m : Location}
    (member : m ∈ trailFrom l steps) : m ∈ trailFrom l thinned := by
  induction thins generalizing l with
  | nil => exact member
  | keep step _ ih =>
    rcases List.mem_cons.mp member with rfl | later
    · exact start_mem_trailFrom _ _
    · exact List.mem_cons_of_mem _ (ih later)
  | drop stays _ ih =>
    rw [trailFrom, Step.apply_of_stays stays] at member
    rcases List.mem_cons.mp member with rfl | later
    · exact start_mem_trailFrom _ _
    · exact ih later

theorem Plain.location {p : Path} (plain : fs.Plain p) {purpose : Purpose} {spot : Spot}
    (found : fs.find purpose p = .ok spot) : Spot.location spot = fs.place p :=
  ((find_ok.mp found).2.location fun m member => plain m ((thins_steps p).mem_trailFrom member)).trans
    ((thins_steps p).foldl_apply (fs.start p))

/-- A path leads to the place that it stands for, if no link is in its way. -/
theorem Plain.place {p : Path} (plain : fs.Plain p) {l : Location} (leads : fs.Leads p l) : l = fs.place p :=
  (leads_iff.mp leads).1.location plain

theorem Plain.leads {p : Path} (plain : fs.Plain p) (there : fs.isDirectory p = true) :
    fs.Leads p (fs.place p) ∧ p.fault? = none := by
  obtain ⟨l, leads, sound⟩ := leads_of_isDirectory there
  exact ⟨plain.place leads ▸ leads, sound⟩

end FileSystem

/-- So many directories up. -/
def ascendBy : Nat → Location → Location
  | 0, l => l
  | levels + 1, l => (ascendBy levels l).dropLast

namespace Cleaned

/-- The location of a cleaned path, seen from the current directory. -/
def locationFrom (here : Location) (c : Cleaned) : Location :=
  (match c.origin with
    | .root => []
    | .above levels => ascendBy levels here) ++ c.names

theorem locationFrom_ascend (here : Location) (c : Cleaned) :
    c.ascend.locationFrom here = (c.locationFrom here).dropLast := by
  obtain ⟨origin, names⟩ := c
  by_cases bare : names = []
  · subst bare
    cases origin with
    | root => rfl
    | above levels => simp [ascend, locationFrom, ascendBy]
  · obtain ⟨front, last, rfl⟩ := (List.eq_nil_or_concat' names).resolve_left bare
    simp [ascend, locationFrom, ← List.append_assoc]

end Cleaned

namespace FileSystem

variable {fs fs' : FileSystem}

theorem foldl_apply_segments (here : Location) (c : Cleaned) (segments : List Bytes) :
    (segments.filterMap Step.ofSegment?).foldl Step.apply (c.locationFrom here) =
      ((segments.filterMap Component.ofSegment?).foldl Cleaned.push c).locationFrom here := by
  induction segments generalizing c with
  | nil => rfl
  | cons segment rest ih =>
    by_cases blank : segment = []
    · subst blank; exact ih c
    · by_cases here' : segment = [dot]
      · subst here'; exact ih c
      · by_cases up : segment = [dot, dot]
        · subst up
          have step := ih c.ascend
          rw [Cleaned.locationFrom_ascend] at step
          exact step
        · have asStep : Step.ofSegment? segment = some (.descend segment) := by
            simp [Step.ofSegment?, blank, here', up]
          have asComponent : Component.ofSegment? segment = some (.name segment) := by
            simp [Component.ofSegment?, blank, here', up]
          rw [List.filterMap_cons_some asStep, List.filterMap_cons_some asComponent, List.foldl_cons,
            List.foldl_cons, ← ih]
          congr 1
          simp [Step.apply, Cleaned.push, Cleaned.locationFrom]

theorem place_eq (fs : FileSystem) (p : Path) : fs.place p = p.cleaned.locationFrom fs.here := by
  have origin : fs.start p = Cleaned.locationFrom fs.here ⟨p.origin, []⟩ := by
    unfold start Path.origin
    split <;> simp [Cleaned.locationFrom, ascendBy]
  rw [place, origin]
  exact foldl_apply_segments fs.here ⟨p.origin, []⟩ p.segments

/-- Every front of a directory's location is a directory. -/
theorem Sound.directory_of_prefix (sound : fs.Sound) {l m : Location} (directory : fs.isDirectoryAt m = true)
    (isFront : l <+: m) : fs.isDirectoryAt l = true := by
  obtain ⟨names, rfl⟩ := isFront
  by_cases none : names = []
  · simpa [none] using directory
  · exact sound.above (isSome_of_isDirectoryAt directory) none

/-- The target of a link starts at the root, or in the directory of the link. -/
theorem Sound.directory_of_target (sound : fs.Sound) (target : Path) {l : Location}
    (here : fs.isDirectoryAt l = true) : fs.isDirectoryAt (if target.isAbsolute then [] else l) = true := by
  split
  · exact sound.root
  · exact here

theorem Sound.directory_start (sound : fs.Sound) (p : Path) : fs.isDirectoryAt (fs.start p) = true :=
  sound.directory_of_target p sound.here

theorem Sound.fits_of_directory (sound : fs.Sound) {l : Location} {name : Bytes}
    (directory : fs.isDirectoryAt (l ++ [name]) = true) : name.length ≤ nameMax :=
  (sound.names (l ++ [name]) (isSome_of_isDirectoryAt directory)).2 name (by simp)

theorem Sound.seek_directory (sound : fs.Sound) {l : Location} {names : List Bytes}
    (directory : fs.isDirectoryAt (l ++ names) = true) : fs.seek l names = .ok (.taken (l ++ names)) := by
  induction names generalizing l with
  | nil => simp [seek]
  | cons name rest ih =>
    rw [List.append_cons] at directory
    have here := sound.directory_of_prefix directory (List.prefix_append _ rest)
    obtain ⟨mode, atNode⟩ := isDirectoryAt_iff.mp here
    rw [seek, if_neg (Nat.not_lt.mpr (sound.fits_of_directory here)), List.append_cons l name rest]
    simp only [atNode]
    exact ih directory

/-- A directory is found from the ones that it lies in, by its names. -/
theorem Sound.finds_directory (sound : fs.Sound) {purpose : Purpose} {links : Nat} {l : Location} {names : List Bytes}
    (directory : fs.isDirectoryAt (l ++ names) = true) :
    fs.Finds purpose (.taken (l ++ names)) links l (names.map .descend) := by
  induction names generalizing l with
  | nil => exact .arrives (by rw [List.append_nil])
  | cons name rest ih =>
    rw [List.append_cons] at directory ⊢
    have here := sound.directory_of_prefix directory (List.prefix_append _ rest)
    have unslashed : ¬ (purpose = .openFile ∧ rest.map Step.descend = [.slashEnd]) := by cases rest <;> simp
    exact .enters ⟨unslashed, sound.fits_of_directory here⟩ here (ih directory)

theorem followLinks_ascend (links levels : Nat) (purpose : Purpose) (l : Location) (rest : List Step) :
    fs.followLinks purpose links l (List.replicate levels .ascend ++ rest) =
      fs.followLinks purpose links (ascendBy levels l) rest := by
  induction levels generalizing rest with
  | zero => rfl
  | succ levels ih =>
    rw [List.replicate_succ', List.append_assoc, ih]
    cases links <;> rfl

/-- A cleaned path leads to its place, if there is a directory: nothing but directories lies on its way. -/
theorem Sound.leads_clean (sound : fs.Sound) {p : Path} (directory : fs.isDirectoryAt (fs.place p) = true) :
    fs.Leads p.clean (fs.place p) := by
  refine ⟨?_, directory⟩
  rw [place_eq] at directory ⊢
  rw [Path.clean_eq]
  have valid := p.names_cleaned
  generalize p.cleaned = c at directory valid ⊢
  obtain ⟨origin, names⟩ := c
  have onward : ∀ base, fs.isDirectoryAt (base ++ names) = true →
      fs.followLinks .use linksMax base (names.map .descend) = .ok (.taken (base ++ names)) := by
    intro base there
    exact followLinks_ok.mpr (sound.finds_directory there)
  rw [Cleaned.path, Path.way_descendant _ valid, start, Path.isAbsolute_descendant _ valid]
  cases origin with
  | root => exact onward [] directory
  | above levels =>
    simp only [Path.isAbsolute_above, Bool.false_eq_true, if_false, Path.way_above, followLinks_ascend]
    exact onward _ directory

end FileSystem

end Unjar
