import Unjar.Path.Clean
import Unjar.Proofs.Path.Descendant

/-!
The form of a cleaned path: it starts at the root or some levels above the current directory, and
goes down from there by names.
-/

namespace Unjar

inductive Origin where
  | root
  | above (levels : Nat)
  deriving DecidableEq

namespace Origin

def components : Origin → List Component
  | root => [.root]
  | above levels => List.replicate levels .up

def path : Origin → Path
  | root => ⟨[slash]⟩
  | above levels => ⟨Bytes.joinWith slash (List.replicate levels [dot, dot])⟩

end Origin

structure Cleaned where
  origin : Origin
  names : List Bytes
  deriving DecidableEq

namespace Cleaned

def components (c : Cleaned) : List Component :=
  c.origin.components ++ c.names.map .name

def ascend (c : Cleaned) : Cleaned :=
  if c.names ≠ [] then { c with names := c.names.dropLast }
  else match c.origin with
    | .root => c
    | .above levels => { c with origin := .above (levels + 1) }

def push (c : Cleaned) : Component → Cleaned
  | .root => ⟨.root, []⟩
  | .here => c
  | .up => c.ascend
  | .name name => { c with names := c.names ++ [name] }

def path (c : Cleaned) : Path :=
  c.origin.path.descendant c.names

theorem head?_map_name (names : List Bytes) : (names.map Component.name).head? ≠ some .up := by
  cases names <;> simp

/-- The levels upwards can be told from what follows them. -/
theorem levels_append_inj {k m : Nat} {l l' : List Component} (notUp : l.head? ≠ some .up)
    (notUp' : l'.head? ≠ some .up) (same : List.replicate k .up ++ l = List.replicate m .up ++ l') :
    k = m ∧ l = l' := by
  induction k generalizing m with
  | zero =>
    cases m with
    | zero => exact ⟨rfl, by simpa using same⟩
    | succ m =>
      rw [List.replicate_zero, List.nil_append, List.replicate_succ] at same
      exact absurd (by rw [same]; rfl) notUp
  | succ k ih =>
    cases m with
    | zero =>
      rw [List.replicate_zero, List.nil_append, List.replicate_succ] at same
      exact absurd (by rw [← same]; rfl) notUp'
    | succ m =>
      rw [List.replicate_succ, List.replicate_succ, List.cons_append, List.cons_append] at same
      obtain ⟨levels, rest⟩ := ih (List.cons.inj same).2
      exact ⟨by rw [levels], rest⟩

theorem root_ne_levels (k : Nat) (names : List Bytes) (l : List Component) :
    .root :: l ≠ List.replicate k .up ++ names.map Component.name := by
  cases k <;> cases names <;> simp [List.replicate_succ]

theorem components_injective {c d : Cleaned} (same : c.components = d.components) : c = d := by
  obtain ⟨origin, names⟩ := c
  obtain ⟨origin', names'⟩ := d
  cases origin with
  | root =>
    cases origin' with
    | root => exact congrArg (Cleaned.mk .root) (Component.map_name_injective (List.cons.inj same).2)
    | above m => exact absurd same (root_ne_levels m names' _)
  | above k =>
    cases origin' with
    | root => exact absurd same.symm (root_ne_levels k names _)
    | above m =>
      obtain ⟨levels, rest⟩ := levels_append_inj (head?_map_name names) (head?_map_name names') same
      rw [levels, show names = names' from Component.map_name_injective rest]

/-- What a cleaned path with a root or a name is the front of goes on by names. -/
theorem components_prefix {c d : Cleaned} {tail : List Component} (guarded : c.origin = .root ∨ c.names ≠ [])
    (split : d.components = c.components ++ tail) :
    ∃ names, tail = names.map .name ∧ d = ⟨c.origin, c.names ++ names⟩ := by
  obtain ⟨origin, names⟩ := c
  obtain ⟨origin', names'⟩ := d
  have goes_on : names'.map Component.name = names.map .name ++ tail →
      ∃ more, tail = more.map .name ∧ names' = names ++ more := by
    intro equal
    obtain ⟨front, more, rfl, atFront, atMore⟩ := List.map_eq_append_iff.mp equal
    exact ⟨more, atMore.symm, by rw [Component.map_name_injective atFront]⟩
  cases origin with
  | root =>
    cases origin' with
    | root =>
      obtain ⟨more, atTail, atNames⟩ := goes_on (List.cons.inj split).2
      exact ⟨more, atTail, by rw [atNames]⟩
    | above m => exact absurd split.symm (root_ne_levels m names' _)
  | above k =>
    have some : names ≠ [] := guarded.resolve_left (by simp)
    have notUp : (names.map Component.name ++ tail).head? ≠ Option.some .up := by
      cases names with
      | nil => exact absurd rfl some
      | cons => simp
    rw [components, components, List.append_assoc] at split
    cases origin' with
    | root =>
      cases k with
      | zero =>
        cases names with
        | nil => exact absurd rfl some
        | cons => simp [Origin.components] at split
      | succ k => simp [Origin.components, List.replicate_succ] at split
    | above m =>
      obtain ⟨levels, rest⟩ := levels_append_inj (head?_map_name names') notUp split
      obtain ⟨more, atTail, atNames⟩ := goes_on rest
      exact ⟨more, atTail, by rw [atNames, levels]⟩

/-- A cleaned path kept as a stack is what the stack of components does. -/
theorem pushClean_components (c : Cleaned) {component : Component} (inner : component ≠ .root) :
    Path.pushClean c.components.reverse component = (c.push component).components.reverse := by
  obtain ⟨origin, names⟩ := c
  cases component with
  | root => exact absurd rfl inner
  | here => rfl
  | name name => simp [Path.pushClean, push, components]
  | up =>
    by_cases bare : names = []
    · subst bare
      cases origin with
      | root => rfl
      | above levels =>
        cases levels with
        | zero => rfl
        | succ levels =>
          change Path.pushClean (List.replicate (levels + 1) Component.up ++ []).reverse .up =
            (List.replicate (levels + 2) Component.up ++ []).reverse
          rw [List.append_nil, List.append_nil, List.reverse_replicate, List.reverse_replicate]
          rfl
    · obtain ⟨front, last, rfl⟩ := (List.eq_nil_or_concat' names).resolve_left bare
      simp [Path.pushClean, push, ascend, components]

theorem foldl_pushClean (c : Cleaned) {components : List Component} (inner : Component.root ∉ components) :
    components.foldl Path.pushClean c.components.reverse =
      (components.foldl push c).components.reverse := by
  induction components generalizing c with
  | nil => rfl
  | cons component rest ih =>
    rw [List.mem_cons, not_or] at inner
    rw [List.foldl_cons, pushClean_components c (Ne.symm inner.1), ih _ inner.2, List.foldl_cons]

theorem foldl_push_names (c : Cleaned) (names : List Bytes) :
    (names.map Component.name).foldl push c = { c with names := c.names ++ names } := by
  induction names generalizing c with
  | nil => simp
  | cons name rest ih => rw [List.map_cons, List.foldl_cons, ih, push]; simp

theorem foldl_push_components (c : Cleaned) : c.components.foldl push ⟨.above 0, []⟩ = c := by
  have ups : ∀ k m, (List.replicate k Component.up).foldl push ⟨.above m, []⟩ = ⟨.above (m + k), []⟩ := by
    intro k
    induction k with
    | zero => intro m; rfl
    | succ k ih =>
      intro m
      rw [List.replicate_succ, List.foldl_cons, show push ⟨.above m, []⟩ .up = ⟨.above (m + 1), []⟩ from rfl, ih]
      congr 2; omega
  obtain ⟨origin, names⟩ := c
  cases origin with
  | root => exact foldl_push_names ⟨.root, []⟩ names
  | above k =>
    rw [components, List.foldl_append, Origin.components, ups, foldl_push_names]
    simp

end Cleaned

namespace Path

/-- Where a path starts before any of its segments is looked at. -/
def origin (p : Path) : Origin :=
  if p.isAbsolute then .root else .above 0

def inner (p : Path) : List Component :=
  p.segments.filterMap Component.ofSegment?

def cleaned (p : Path) : Cleaned :=
  p.inner.foldl Cleaned.push ⟨p.origin, []⟩

theorem inner_of_mem {p : Path} {component : Component} (member : component ∈ p.inner) :
    component = .up ∨ ∃ name, component = .name name ∧ IsName name := by
  obtain ⟨segment, inSegments, found⟩ := List.mem_filterMap.mp member
  cases component with
  | up => exact Or.inl rfl
  | name name =>
    obtain ⟨same, valid⟩ := isName_of_component (slash_notMem_segment inSegments) found
    exact Or.inr ⟨name, rfl, same ▸ valid⟩
  | root | here =>
    exfalso
    unfold Component.ofSegment? at found
    split at found
    · cases found
    · split at found <;> cases found

theorem root_notMem_inner (p : Path) : Component.root ∉ p.inner := by
  intro member
  rcases inner_of_mem member with up | ⟨name, same, _⟩ <;> contradiction

theorem components_eq_anchor_inner (p : Path) : p.components = p.anchor ++ p.inner := rfl

theorem cleanComponents_components (p : Path) : cleanComponents p.components = p.cleaned.components := by
  have folded : p.components.foldl pushClean [] =
      p.inner.foldl pushClean (Cleaned.components ⟨p.origin, []⟩).reverse := by
    rw [components_eq_anchor_inner, List.foldl_append]
    congr 1
    unfold anchor origin
    split
    · rfl
    · split <;> rfl
  rw [cleanComponents, folded, Cleaned.foldl_pushClean _ p.root_notMem_inner, List.reverse_reverse]
  rfl

theorem names_push {c : Cleaned} {component : Component} (valid : AllNames c.names)
    (sound : ∀ name, component = .name name → IsName name) : AllNames (c.push component).names := by
  cases component with
  | root => exact allNames_nil
  | here => exact valid
  | name name => exact valid.append (.singleton (sound name rfl))
  | up =>
    change AllNames c.ascend.names
    unfold Cleaned.ascend
    split
    · intro name member
      exact valid name (List.dropLast_subset _ member)
    · split <;> exact valid

theorem names_foldl_push {c : Cleaned} {components : List Component} (valid : AllNames c.names)
    (sound : ∀ name, Component.name name ∈ components → IsName name) :
    AllNames (components.foldl Cleaned.push c).names := by
  induction components generalizing c with
  | nil => exact valid
  | cons component rest ih =>
    refine ih (names_push valid ?_) fun name member => sound name (List.mem_cons_of_mem _ member)
    intro name same
    exact sound name (by rw [same]; exact List.mem_cons_self)

theorem isName_of_inner {p : Path} {name : Bytes} (member : Component.name name ∈ p.inner) : IsName name := by
  rcases inner_of_mem member with up | ⟨other, same, valid⟩
  · cases up
  · cases same; exact valid

theorem names_cleaned (p : Path) : AllNames p.cleaned.names :=
  names_foldl_push allNames_nil fun _ member => isName_of_inner member

/-- Nothing but names, behind a leading slash or dot. -/
def Downward (p : Path) : Prop :=
  ∃ names, names ≠ [] ∧ p.components = p.anchor ++ names.map .name

theorem lead_origin (o : Origin) : o.path.lead = match o with
    | .root => [[]]
    | .above levels => List.replicate levels [dot, dot] := by
  cases o with
  | root => decide
  | above levels =>
    by_cases none : levels = 0
    · subst none; decide
    · have clean : ∀ piece ∈ List.replicate levels [dot, dot], slash ∉ piece := by
        intro piece member
        rw [List.eq_of_mem_replicate member]
        decide
      have segments : (Origin.above levels).path.segments = List.replicate levels [dot, dot] :=
        segments_joinWith (by simpa using none) clean
      have last : (Origin.above levels).path.segments.getLast? ≠ some [] := by
        rw [segments, List.getLast?_replicate, if_neg none]
        simp
      rw [lead, if_neg last, segments]

theorem isAbsolute_above (levels : Nat) : (Origin.above levels).path.isAbsolute = false := by
  cases levels with
  | zero => rfl
  | succ levels => cases levels <;> rfl

theorem way_above (levels : Nat) : (Origin.above levels).path.way = List.replicate levels .ascend := by
  rw [way, ← filterMap_lead _ _ rfl, lead_origin]
  simp only
  induction levels with
  | zero => rfl
  | succ levels ih => rw [List.replicate_succ, List.replicate_succ, List.filterMap_cons, ih]; rfl

theorem components_origin (o : Origin) : o.path.components = o.components := by
  cases o with
  | root => decide
  | above levels =>
    have lead := lead_origin (.above levels)
    have unanchored : (Origin.above levels).path.anchor = [] := by
      cases levels with
      | zero => decide
      | succ levels =>
        have open' : (Origin.above (levels + 1)).path.text ≠ [] := by
          intro empty
          rw [(lead_eq_nil_iff _).mpr empty] at lead
          simp [List.replicate_succ] at lead
        have head : (Origin.above (levels + 1)).path.segments.head? = some [dot, dot] := by
          rw [← head?_lead _ open', lead]; rfl
        rw [anchor, isAbsolute_above, head]
        decide
    rw [components_eq_anchor_inner, unanchored, inner, ← filterMap_lead _ _ rfl, lead, List.nil_append]
    induction levels with
    | zero => rfl
    | succ levels _ => simp [Origin.components, Component.ofSegment?, dot]

theorem ofComponents_cleaned {c : Cleaned} (valid : AllNames c.names) : ofComponents c.components = c.path := by
  obtain ⟨origin, names⟩ := c
  have texts : (names.map Component.name).map Component.text = names := by
    rw [List.map_map]; exact List.map_id _
  by_cases bare : names = []
  · subst bare
    cases origin with
    | root => rfl
    | above levels =>
      cases levels with
      | zero => rfl
      | succ levels =>
        simp [Cleaned.components, Cleaned.path, Origin.components, Origin.path, ofComponents, Component.text,
          List.replicate_succ]
  · apply ext_segments
    rw [Cleaned.path, segments_descendant _ valid bare, lead_origin]
    have clean : ∀ piece ∈ names, slash ∉ piece := fun piece member => (valid piece member).2.2.2
    cases origin with
    | root =>
      have pieces := segments_joinWith bare clean
      simp only [Cleaned.components, Origin.components, List.singleton_append, ofComponents, texts, segments,
        Bytes.splitOn, if_true]
      exact congrArg ([] :: ·) pieces
    | above levels =>
      have relative : ofComponents (Cleaned.components ⟨.above levels, names⟩) =
          ⟨Bytes.joinWith slash (List.replicate levels [dot, dot] ++ names)⟩ := by
        obtain ⟨first, rest, rfl⟩ := List.exists_cons_of_ne_nil bare
        cases levels <;>
          simp [Cleaned.components, Origin.components, ofComponents, Component.text, List.replicate_succ,
            Function.comp_def]
      rw [relative]
      apply segments_joinWith (by simp [bare])
      intro piece member
      rcases List.mem_append.mp member with up | name
      · rw [List.eq_of_mem_replicate up]; decide
      · exact clean piece name

theorem clean_eq (p : Path) : p.clean = p.cleaned.path := by
  rw [clean, cleanComponents_components, ofComponents_cleaned p.names_cleaned]

theorem components_path {c : Cleaned} (valid : AllNames c.names) : c.path.components = c.components := by
  rw [Cleaned.path, components_descendant _ valid, components_origin]
  rfl

theorem components_clean (p : Path) : p.clean.components = p.cleaned.components := by
  rw [clean_eq, components_path p.names_cleaned]

theorem cleaned_eq_foldl (p : Path) : p.cleaned = p.components.foldl Cleaned.push ⟨.above 0, []⟩ := by
  rw [components_eq_anchor_inner, List.foldl_append, cleaned]
  congr 1
  unfold anchor origin
  split
  · rfl
  · split <;> rfl

/-- Names at the end, and steps of other kinds before them. -/
def Straight (p : Path) : Prop :=
  ∃ front names, names ≠ [] ∧ (∀ component ∈ front, component.isName = false) ∧
    p.components = front ++ names.map .name

theorem isName_anchor {p : Path} {component : Component} (member : component ∈ p.anchor) :
    component.isName = false := by
  unfold anchor at member
  split at member
  · rw [List.mem_singleton.mp member]
    rfl
  · split at member
    · rw [List.mem_singleton.mp member]
      rfl
    · cases member

theorem Downward.straight {p : Path} (downward : p.Downward) : p.Straight := by
  obtain ⟨names, some, split⟩ := downward
  exact ⟨p.anchor, names, some, fun _ => isName_anchor, split⟩

theorem Straight.cleaned {p : Path} (straight : p.Straight) : p.cleaned.names ≠ [] := by
  obtain ⟨front, names, some, _, split⟩ := straight
  rw [cleaned_eq_foldl, split, List.foldl_append, Cleaned.foldl_push_names]
  exact List.append_ne_nil_of_right_ne_nil _ some

theorem Downward.cleaned {p : Path} (downward : p.Downward) : p.cleaned.names ≠ [] :=
  downward.straight.cleaned

/-- Behind its anchor such a path goes up, and then down. -/
theorem Straight.inner {p : Path} (straight : p.Straight) :
    ∃ rest names, names ≠ [] ∧ (∀ component ∈ rest, component.isName = false) ∧ p.inner = rest ++ names.map .name := by
  obtain ⟨others, names, some, noName, split⟩ := straight
  rw [components_eq_anchor_inner] at split
  rcases List.append_eq_append_iff.mp split with ⟨rest, rfl, behind⟩ | ⟨rest, before, behind⟩
  · exact ⟨rest, names, some, fun component member => noName component (List.mem_append_right _ member), behind⟩
  · -- what the anchor would share with the names is nothing
    cases rest with
    | nil => exact ⟨[], names, some, by simp, behind.symm⟩
    | cons component rest =>
      have inAnchor : component ∈ p.anchor := by rw [before]; simp
      have inNames : component ∈ names.map Component.name := by rw [behind]; simp
      obtain ⟨name, _, rfl⟩ := List.mem_map.mp inNames
      cases isName_anchor inAnchor

/-- The segments of a path part where its names begin. -/
theorem Straight.segments {p : Path} (straight : p.Straight) :
    ∃ front back, p.segments = front ++ back ∧
      (∀ segment ∈ front, ∀ name, Component.ofSegment? segment ≠ some (.name name)) ∧
      ∀ segment ∈ back, Component.ofSegment? segment ≠ some .up := by
  obtain ⟨rest, names, _, noNameRest, inner⟩ := straight.inner
  obtain ⟨front, back, segments, atFront, atBack⟩ := List.filterMap_eq_append_iff.mp inner
  refine ⟨front, back, segments, fun segment member name found => ?_, fun segment member found => ?_⟩
  · cases noNameRest _ (atFront ▸ List.mem_filterMap.mpr ⟨segment, member, found⟩)
  · have inNames : Component.up ∈ names.map Component.name :=
      atBack ▸ List.mem_filterMap.mpr ⟨segment, member, found⟩
    obtain ⟨name, _, other⟩ := List.mem_map.mp inNames
    cases other

theorem cleaned_path {c : Cleaned} (valid : AllNames c.names) : c.path.cleaned = c := by
  rw [cleaned_eq_foldl, components_path valid, Cleaned.foldl_push_components]

@[simp] theorem cleaned_clean (p : Path) : p.clean.cleaned = p.cleaned := by
  rw [clean_eq, cleaned_path p.names_cleaned]

theorem cleaned_descendant (base : Path) {names : List Bytes} (valid : AllNames names) :
    (base.descendant names).cleaned = ⟨base.cleaned.origin, base.cleaned.names ++ names⟩ := by
  rw [cleaned_eq_foldl, components_descendant base valid, List.foldl_append, ← cleaned_eq_foldl,
    Cleaned.foldl_push_names]

theorem cleaned_join {base p : Path} (relative : p.isAbsolute = false) :
    (base.join p).cleaned = p.inner.foldl Cleaned.push base.cleaned := by
  rw [cleaned, inner, segments_join relative, List.filterMap_append, filterMap_lead base _ rfl,
    List.foldl_append, origin, isAbsolute_join relative]
  rfl

end Path

end Unjar
