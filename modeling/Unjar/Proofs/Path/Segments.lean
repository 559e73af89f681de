import Unjar.Path

/-!
Paths seen as their segments. Joining a relative path puts its segments behind those of the base, so
a path that goes down from a base by names is known by the base and the names.
-/

namespace Unjar

/-- What a directory can hold an entry under. -/
def IsName (name : Bytes) : Prop :=
  name ≠ [] ∧ name ≠ [dot] ∧ name ≠ [dot, dot] ∧ slash ∉ name

instance (name : Bytes) : Decidable (IsName name) :=
  inferInstanceAs (Decidable (_ ∧ _))

def AllNames (names : List Bytes) : Prop :=
  ∀ name ∈ names, IsName name

instance (names : List Bytes) : Decidable (AllNames names) :=
  inferInstanceAs (Decidable (∀ name ∈ names, IsName name))

theorem AllNames.append {front back : List Bytes} (first : AllNames front) (second : AllNames back) :
    AllNames (front ++ back) := by
  intro name member
  rcases List.mem_append.mp member with inFront | inBack
  · exact first name inFront
  · exact second name inBack

theorem AllNames.left {front back : List Bytes} (all : AllNames (front ++ back)) : AllNames front :=
  fun name member => all name (List.mem_append_left _ member)

theorem AllNames.right {front back : List Bytes} (all : AllNames (front ++ back)) : AllNames back :=
  fun name member => all name (List.mem_append_right _ member)

theorem AllNames.tail {name : Bytes} {rest : List Bytes} (all : AllNames (name :: rest)) : AllNames rest :=
  fun other member => all other (List.mem_cons_of_mem _ member)

theorem AllNames.dropLast {names : List Bytes} (all : AllNames names) : AllNames names.dropLast :=
  fun name member => all name (List.dropLast_subset names member)

theorem allNames_nil : AllNames [] := by
  intro name member
  cases member

theorem AllNames.singleton {name : Bytes} (valid : IsName name) : AllNames [name] := by
  intro other member
  rw [List.mem_singleton.mp member]
  exact valid

theorem IsName.not_noise {name : Bytes} (valid : IsName name) : Path.isNoise name = false := by
  simp [Path.isNoise, valid.1, valid.2.1]

theorem IsName.component {name : Bytes} (valid : IsName name) :
    Component.ofSegment? name = some (.name name) := by
  simp [Component.ofSegment?, valid.1, valid.2.1, valid.2.2.1]

theorem isName_of_component {segment name : Bytes} (clean : slash ∉ segment)
    (found : Component.ofSegment? segment = some (.name name)) : name = segment ∧ IsName segment := by
  unfold Component.ofSegment? at found
  split at found
  · cases found
  · rename_i some
    split at found
    · cases found
    · rename_i notUp
      rw [not_or] at some
      cases found
      exact ⟨rfl, some.1, some.2, notUp, clean⟩

namespace Bytes

theorem map_exchange_of_notMem {old new : UInt8} {bytes : Bytes} (clean : old ∉ bytes) :
    (bytes.map fun octet => if octet = old then new else octet) = bytes := by
  have same : ∀ octet ∈ bytes, (if octet = old then new else octet) = octet := by
    intro octet member
    rw [if_neg]
    rintro rfl
    exact clean member
  rw [List.map_congr_left same, List.map_id']

theorem splitOn_append_separator (separator : UInt8) (front back : Bytes) :
    splitOn separator (front ++ separator :: back) = splitOn separator front ++ splitOn separator back := by
  induction front with
  | nil => simp [splitOn]
  | cons octet front ih =>
    simp only [List.cons_append, splitOn]
    split
    · rw [ih, List.cons_append]
    · rw [ih]
      cases pieces : splitOn separator front with
      | nil => exact absurd pieces (splitOn_ne_nil _ _)
      | cons piece rest => rfl

theorem splitOn_getLast? (separator : UInt8) (bytes : Bytes) :
    (splitOn separator bytes).getLast? = some [] ↔ bytes = [] ∨ bytes.getLast? = some separator := by
  induction bytes with
  | nil => simp [splitOn]
  | cons octet rest ih =>
    have nonempty := splitOn_ne_nil separator rest
    cases rest with
    | nil => by_cases same : octet = separator <;> simp [splitOn, same]
    | cons next tail =>
      have others : (splitOn separator (next :: tail)).getLast? = some [] ↔
          (next :: tail).getLast? = some separator := by simpa using ih
      rw [List.getLast?_cons_cons]
      simp only [reduceCtorEq, false_or]
      rw [← others]
      cases pieces : splitOn separator (next :: tail) with
      | nil => exact absurd pieces nonempty
      | cons piece more =>
        rw [splitOn, pieces]
        split
        · simp
        · cases more with
          | nil =>
            -- a single piece is the whole rest, which is not empty
            have whole := joinWith_splitOn separator (next :: tail)
            rw [pieces] at whole
            simp [joinWith] at whole
            simp [whole]
          | cons => simp

theorem notMem_joinWith {separator octet : UInt8} {pieces : List Bytes} (differs : octet ≠ separator)
    (clean : ∀ piece ∈ pieces, octet ∉ piece) : octet ∉ joinWith separator pieces := by
  induction pieces with
  | nil => simp [joinWith]
  | cons piece rest ih =>
    have here := clean piece List.mem_cons_self
    have later := ih fun other member => clean other (List.mem_cons_of_mem _ member)
    by_cases last : rest = []
    · subst last
      exact here
    · rw [joinWith_cons _ _ last, List.mem_append, List.mem_cons]
      exact fun inside => inside.elim here fun more => more.elim differs later

theorem joinWith_ne_nil (separator : UInt8) {pieces : List Bytes} (some : pieces ≠ [])
    (full : ∀ piece ∈ pieces, piece ≠ []) : joinWith separator pieces ≠ [] := by
  obtain ⟨piece, rest, rfl⟩ := List.exists_cons_of_ne_nil some
  have here := full piece List.mem_cons_self
  by_cases last : rest = []
  · subst last
    exact here
  · rw [joinWith_cons _ _ last]
    simp

end Bytes

namespace Path

theorem segments_ne_nil (p : Path) : p.segments ≠ [] :=
  Bytes.splitOn_ne_nil slash p.text

theorem joinWith_segments (p : Path) : Bytes.joinWith slash p.segments = p.text :=
  Bytes.joinWith_splitOn slash p.text

theorem ext_segments {p q : Path} (same : p.segments = q.segments) : p = q := by
  have text : p.text = q.text := by rw [← joinWith_segments p, ← joinWith_segments q, same]
  cases p
  cases q
  exact congrArg Path.mk text

theorem slash_notMem_segment {p : Path} {segment : Bytes} (member : segment ∈ p.segments) : slash ∉ segment :=
  Bytes.separator_notMem_of_mem_splitOn member

theorem segments_joinWith {pieces : List Bytes} (nonempty : pieces ≠ []) (clean : ∀ piece ∈ pieces, slash ∉ piece) :
    (Path.mk (Bytes.joinWith slash pieces)).segments = pieces :=
  Bytes.splitOn_joinWith nonempty clean

/-- The segments that stay in front of whatever is joined to a path. -/
def lead (p : Path) : List Bytes :=
  if p.segments.getLast? = some [] then p.segments.dropLast else p.segments

theorem segments_eq_lead (p : Path) :
    p.segments = p.lead ∨ p.segments = p.lead ++ [[]] := by
  unfold lead
  split
  · rename_i last
    obtain ⟨front, split⟩ := List.getLast?_eq_some_iff.mp last
    right
    rw [split, List.dropLast_concat]
  · left; rfl

theorem lead_eq_nil_iff (p : Path) : p.lead = [] ↔ p.text = [] := by
  constructor
  · intro none
    rcases p.segments_eq_lead with same | same
    · exact absurd (same.trans none) p.segments_ne_nil
    · have text := p.joinWith_segments
      rw [same, none] at text
      exact text.symm
  · intro empty
    simp [lead, segments, empty, Bytes.splitOn]

theorem slash_notMem_lead {p : Path} {segment : Bytes} (member : segment ∈ p.lead) : slash ∉ segment := by
  rcases p.segments_eq_lead with same | same
  · exact slash_notMem_segment (p := p) (by rw [same]; exact member)
  · exact slash_notMem_segment (p := p) (by rw [same]; exact List.mem_append_left _ member)

theorem segments_join {base p : Path} (relative : p.isAbsolute = false) :
    (base.join p).segments = base.lead ++ p.segments := by
  have ends := Bytes.splitOn_getLast? slash base.text
  simp only [join, relative, Bool.false_eq_true, if_false]
  by_cases open' : base.text = [] ∨ base.text.getLast? = some slash
  · rw [if_pos open']
    have last : base.segments.getLast? = some [] := ends.mpr open'
    rw [lead, if_pos last]
    rcases open' with empty | slashed
    · simp [segments, empty, Bytes.splitOn]
    · obtain ⟨front, text⟩ := List.getLast?_eq_some_iff.mp slashed
      simp only [segments, text, List.append_assoc, List.singleton_append, Bytes.splitOn_append_separator,
        Bytes.splitOn, List.dropLast_concat]
  · rw [if_neg open']
    have last : base.segments.getLast? ≠ some [] := fun closed => open' (ends.mp closed)
    rw [lead, if_neg last]
    exact Bytes.splitOn_append_separator slash base.text p.text

theorem isAbsolute_join {base p : Path} (relative : p.isAbsolute = false) :
    (base.join p).isAbsolute = base.isAbsolute := by
  simp only [join, relative, Bool.false_eq_true, if_false]
  cases text : base.text with
  | nil => simpa [isAbsolute, text] using relative
  | cons octet rest => split <;> simp [isAbsolute, text]

theorem head?_lead (p : Path) (open' : p.text ≠ []) : p.lead.head? = p.segments.head? := by
  have some : p.lead ≠ [] := fun none => open' ((lead_eq_nil_iff p).mp none)
  rcases p.segments_eq_lead with same | same
  · rw [same]
  · rw [same]
    cases front : p.lead with
    | nil => exact absurd front some
    | cons => rfl

theorem filterMap_lead {α : Type} (p : Path) (f : Bytes → Option α) (blank : f [] = none) :
    p.lead.filterMap f = p.segments.filterMap f := by
  rcases p.segments_eq_lead with same | same
  · rw [same]
  · rw [same, List.filterMap_append]
    simp [blank]

theorem isAbsolute_of_anchor {p : Path} (bare : p.anchor = []) : p.isAbsolute = false := by
  rw [Bool.eq_false_iff]
  intro absolute
  rw [anchor, if_pos absolute] at bare
  cases bare

/-- Behind a base that is not empty no path starts. -/
theorem anchor_join_of_open {base p : Path} (relative : p.isAbsolute = false) (open' : base.text ≠ []) :
    (base.join p).anchor = base.anchor := by
  rw [anchor, isAbsolute_join relative, segments_join relative, anchor, ← head?_lead base open']
  cases front : base.lead with
  | nil => exact absurd ((lead_eq_nil_iff base).mp front) open'
  | cons => rfl

/-- A path that starts with a segment puts no start of its own behind the base. -/
theorem anchor_join {base p : Path} (bare : p.anchor = []) : (base.join p).anchor = base.anchor := by
  have relative := isAbsolute_of_anchor bare
  by_cases empty : base.text = []
  · have same : base.join p = p := by simp [join, relative, empty]
    have none : base.anchor = [] := by simp [anchor, isAbsolute, segments, empty, Bytes.splitOn]
    rw [same, bare, none]
  · exact anchor_join_of_open relative empty

theorem components_join {base p : Path} (bare : p.anchor = []) :
    (base.join p).components = base.components ++ p.components := by
  rw [components, anchor_join bare, segments_join (isAbsolute_of_anchor bare), List.filterMap_append,
    filterMap_lead base _ rfl, ← List.append_assoc, components, components, bare, List.nil_append]

theorem isNoise_iff (segment : Bytes) : isNoise segment = true ↔ Component.ofSegment? segment = none := by
  unfold isNoise Component.ofSegment?
  by_cases noise : segment = [] ∨ segment = [dot]
  · simp [noise]
  · simp only [noise, decide_false, Bool.false_eq_true, false_iff, if_false]
    split <;> simp

theorem components_eq_nil_iff (p : Path) : p.components = [] ↔ p.text = [] := by
  constructor
  · intro bare
    obtain ⟨noAnchor, noise⟩ := List.append_eq_nil_iff.mp bare
    cases text : p.text with
    | nil => rfl
    | cons octet rest =>
      exfalso
      unfold anchor at noAnchor
      split at noAnchor
      · cases noAnchor
      · rename_i relative
        split at noAnchor
        · cases noAnchor
        · rename_i notHere
          have differs : octet ≠ slash := by
            intro same
            exact relative (by simp [isAbsolute, text, same])
          -- the first segment starts with an octet, and is not a dot alone
          obtain ⟨first, more, split⟩ := List.exists_cons_of_ne_nil p.segments_ne_nil
          have starts : first ≠ [] := by
            rw [segments, text, Bytes.splitOn, if_neg differs] at split
            cases pieces : Bytes.splitOn slash rest with
            | nil => exact absurd pieces (Bytes.splitOn_ne_nil _ _)
            | cons piece others =>
              rw [pieces] at split
              intro empty
              rw [empty] at split
              cases split
          rw [split] at notHere noise
          have component : Component.ofSegment? first = none := by
            have all := List.filterMap_eq_nil_iff.mp noise
            exact all first List.mem_cons_self
          have noisy := (isNoise_iff first).mpr component
          simp [isNoise, starts] at noisy
          exact notHere (by rw [noisy]; rfl)
  · intro empty
    simp [components, anchor, isAbsolute, segments, empty, Bytes.splitOn, Component.ofSegment?]

end Path

end Unjar
