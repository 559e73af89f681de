import Unjar.Proofs.Path.Spelling

/-!
What a path is relative to a base. A path that was joined to the base comes back with its components, without the
noise around them.
-/

namespace Unjar.Path

theorem filterMap_dropWhile (segments : List Bytes) :
    (segments.dropWhile isNoise).filterMap Component.ofSegment? = segments.filterMap Component.ofSegment? := by
  have noisy : ∀ segment ∈ segments.takeWhile isNoise, isNoise segment = true :=
    fun segment member => List.mem_takeWhile_imp member
  conv_rhs => rw [← List.takeWhile_append_dropWhile (p := isNoise) (l := segments), List.filterMap_append,
    filterMap_noise noisy, List.nil_append]

theorem afterComponents_append (front rest : List Bytes) :
    afterComponents (front.filterMap Component.ofSegment?).length (front ++ rest) = rest.dropWhile isNoise := by
  induction front with
  | nil => simp [afterComponents]
  | cons segment front ih =>
    cases found : Component.ofSegment? segment with
    | none =>
      have noise := (isNoise_iff segment).mpr found
      rw [List.filterMap_cons_none found, List.cons_append]
      cases count : (front.filterMap Component.ofSegment?).length with
      | zero =>
        rw [count] at ih
        simpa only [afterComponents, List.dropWhile_cons, noise, if_true] using ih
      | succ count' =>
        rw [count] at ih
        simpa only [afterComponents, noise, if_true] using ih
    | some component =>
      have sound : isNoise segment = false := by
        rw [Bool.eq_false_iff]
        intro noise
        rw [(isNoise_iff segment).mp noise] at found
        cases found
      rw [List.filterMap_cons_some found, List.length_cons, List.cons_append, afterComponents,
        if_neg (by simp [sound])]
      exact ih

/-- A path of names starts with none of the components that stand at a start only. -/
theorem anchor_of_names {p : Path} {names : List Bytes} (spelled : p.components = names.map .name) : p.anchor = [] := by
  have named : ∀ component ∈ p.anchor, ∃ name, component = .name name := by
    intro component member
    have inside : component ∈ names.map .name := spelled ▸ List.mem_append_left _ member
    obtain ⟨name, _, same⟩ := List.mem_map.mp inside
    exact ⟨name, same.symm⟩
  unfold anchor at named ⊢
  split_ifs at named ⊢
  · obtain ⟨name, same⟩ := named _ List.mem_cons_self
    cases same
  · obtain ⟨name, same⟩ := named _ List.mem_cons_self
    cases same
  · rfl

/-- The first segment of a path that starts with an anchor is no component itself. -/
theorem lead_of_anchor {p : Path} (anchored : p.anchor ≠ []) :
    ∃ first rest, p.lead = first :: rest ∧ isNoise first = true ∧ p.anchor.length = 1 := by
  have open' : p.text ≠ [] := by
    intro empty
    exact anchored (by simp [anchor, isAbsolute, segments, empty, Bytes.splitOn])
  have heads := head?_lead p open'
  unfold anchor at anchored ⊢
  split
  · rename_i absolute
    obtain ⟨rest, text⟩ : ∃ rest, p.text = slash :: rest := by
      cases text : p.text with
      | nil => exact absurd text open'
      | cons octet rest => exact ⟨rest, by simpa [isAbsolute, text] using absolute⟩
    have first : p.segments.head? = some [] := by simp [segments, text, Bytes.splitOn]
    rw [first] at heads
    obtain ⟨rest, split⟩ := List.head?_eq_some_iff.mp heads
    exact ⟨[], rest, split, by simp [isNoise], rfl⟩
  · rename_i relative
    rw [if_neg relative] at anchored
    split
    · rename_i first
      rw [first] at heads
      obtain ⟨rest, split⟩ := List.head?_eq_some_iff.mp heads
      exact ⟨[dot], rest, split, by simp [isNoise], rfl⟩
    · rename_i other
      exact absurd (if_neg other) anchored

/-- Segments that are put together without the noise at their end make a path that starts with none of the components
that stand at a start only, if there is no noise at their start either. -/
theorem components_of_trimEnd {segments : List Bytes} (clean : ∀ segment ∈ segments, slash ∉ segment)
    (loud : ∀ first ∈ segments.head?, isNoise first = false) :
    (Path.mk (Bytes.joinWith slash (trimEnd segments))).anchor = [] ∧
      (Path.mk (Bytes.joinWith slash (trimEnd segments))).components = segments.filterMap Component.ofSegment? := by
  cases segments with
  | nil => exact ⟨rfl, rfl⟩
  | cons first body =>
    have loudFirst := loud first rfl
    have clean' : ∀ segment ∈ trimEnd (first :: body), slash ∉ segment :=
      fun segment member => clean segment ((front_of_trimEnd _).subset member)
    have split : (Path.mk (Bytes.joinWith slash (trimEnd (first :: body)))).segments = trimEnd (first :: body) :=
      segments_joinWith (by simp [trimEnd]) clean'
    have relative : (Path.mk (Bytes.joinWith slash (trimEnd (first :: body)))).isAbsolute = false := by
      rw [Bool.eq_false_iff]
      intro absolute
      obtain ⟨body', split'⟩ := segments_of_absolute absolute
      rw [split, trimEnd] at split'
      rw [(List.cons.inj split').1] at loudFirst
      cases loudFirst
    have anchored : (Path.mk (Bytes.joinWith slash (trimEnd (first :: body)))).anchor = [] := by
      have differs : first ≠ [dot] := by
        rintro rfl
        cases loudFirst
      rw [anchor, relative, split]
      simp [trimEnd, differs]
    exact ⟨anchored, by rw [components, anchored, split, filterMap_trimEnd, List.nil_append]⟩

theorem loud_of_dropWhile {segments : List Bytes} {first : Bytes}
    (atHead : first ∈ (segments.dropWhile isNoise).head?) : isNoise first = false := by
  have head := List.head?_dropWhile_not isNoise segments
  rw [Option.mem_def.mp atHead] at head
  simpa using head

/-- A path without the noise around its components. -/
def stripped (p : Path) : Path :=
  ⟨Bytes.joinWith slash (trimEnd (p.segments.dropWhile isNoise))⟩

theorem components_stripped {p : Path} (bare : p.anchor = []) :
    p.stripped.anchor = [] ∧ p.stripped.components = p.components := by
  have clean : ∀ segment ∈ p.segments.dropWhile isNoise, slash ∉ segment :=
    fun segment member => slash_notMem_segment (p := p) ((List.dropWhile_suffix isNoise).subset member)
  obtain ⟨anchored, inner⟩ := components_of_trimEnd clean fun _ => loud_of_dropWhile
  refine ⟨anchored, ?_⟩
  rw [stripped, inner, filterMap_dropWhile, components, bare, List.nil_append]

theorem stripPrefix?_join (base : Path) {p : Path} (bare : p.anchor = []) :
    (base.join p).stripPrefix? base = some p.stripped := by
  have relative := isAbsolute_of_anchor bare
  have starts : (base.join p).startsWith base = true := by
    rw [startsWith, components_join bare]
    exact List.isPrefixOf_iff_prefix.mpr (List.prefix_append _ _)
  rw [stripPrefix?, if_pos starts]
  split
  · rename_i noComponents
    have empty := (components_eq_nil_iff base).mp noComponents
    have same : base.join p = p := by simp [join, relative, empty]
    rw [same, relative, ofSegments, if_neg (by simp), stripped]
    by_cases blank : p.text = []
    · rw [segments, blank]; rfl
    · obtain ⟨first, body, split, named⟩ := segments_of_relative relative blank
      have differs : first ≠ [dot] := by
        rintro rfl
        simp [anchor, relative, split] at bare
      have loud : isNoise first = false := by simp [isNoise, named, differs]
      rw [split, List.dropWhile_cons_of_neg (by simp [loud])]
  · have count : base.components.length - base.anchor.length = (base.lead.filterMap Component.ofSegment?).length := by
      rw [components, List.length_append, Nat.add_sub_cancel_left, filterMap_lead base _ rfl]
    simp only [anchor_join bare, segments_join relative]
    by_cases anchored : base.anchor = []
    · rw [if_pos anchored, count, afterComponents_append, stripped]
    · obtain ⟨first, rest, split, noise, _⟩ := lead_of_anchor anchored
      rw [split, List.filterMap_cons_none ((isNoise_iff first).mp noise)] at count
      rw [if_neg anchored, split, count, List.cons_append, List.tail_cons, afterComponents_append, stripped]

/-- Nothing is stripped off names. -/
theorem stripped_descendant {names : List Bytes} (valid : AllNames names) (down : names ≠ []) :
    ((Path.mk []).descendant names).stripped = (Path.mk []).descendant names := by
  have segments : ((Path.mk []).descendant names).segments = names := segments_descendant _ valid down
  obtain ⟨name, rest, split⟩ := List.exists_cons_of_ne_nil down
  have loud := (valid name (by rw [split]; exact List.mem_cons_self)).not_noise
  have kept : names.dropWhile isNoise = names := by rw [split, List.dropWhile_cons_of_neg (by simp [loud])]
  have trimmed : trimEnd names = names := by
    obtain ⟨front, name, rfl⟩ := (List.eq_nil_or_concat' names).resolve_left down
    exact trimEnd_concat front (valid name (by simp))
  rw [stripped, segments, kept, trimmed, ← text_descendant_empty valid]

theorem stripPrefix?_descendant (base : Path) {names : List Bytes} (valid : AllNames names) (down : names ≠ []) :
    (base.descendant names).stripPrefix? base = some ((Path.mk []).descendant names) := by
  have bare : ((Path.mk []).descendant names).anchor = [] := anchor_descendant _ valid
  rw [← join_descendant_empty base valid down, stripPrefix?_join base bare, stripped_descendant valid down]

/-- The steps up of a path are its segments of two dots. -/
theorem up_mem_components {p : Path} : .up ∈ p.components ↔ [dot, dot] ∈ p.segments := by
  have unanchored : .up ∉ p.anchor := by
    unfold anchor
    split_ifs <;> simp
  rw [components, List.mem_append, or_iff_right unanchored, List.mem_filterMap]
  constructor
  · rintro ⟨segment, member, found⟩
    unfold Component.ofSegment? at found
    split_ifs at found with noise twice
    · exact twice ▸ member
    · cases found
  · exact fun member => ⟨_, member, rfl⟩

theorem mem_segments_join {base p : Path} {segment : Bytes} (member : segment ∈ (base.join p).segments) :
    segment ∈ base.segments ∨ segment ∈ p.segments := by
  by_cases absolute : p.isAbsolute = true
  · rw [join, if_pos absolute] at member
    exact Or.inr member
  · rw [segments_join (Bool.eq_false_iff.mpr absolute)] at member
    refine (List.mem_append.mp member).imp_left fun inLead => ?_
    rcases base.segments_eq_lead with same | same
    · rwa [same]
    · rw [same]
      exact List.mem_append_left _ inLead

theorem afterComponents_suffix (count : Nat) (segments : List Bytes) : afterComponents count segments <:+ segments := by
  induction segments generalizing count with
  | nil => cases count <;> simp [afterComponents]
  | cons segment rest ih =>
    cases count with
    | zero =>
      rw [afterComponents]
      exact List.dropWhile_suffix isNoise
    | succ count =>
      rw [afterComponents]
      split
      · exact (ih _).trans (List.suffix_cons _ _)
      · exact (ih _).trans (List.suffix_cons _ _)

/-- What is behind some components of a path is spelled with segments of it. -/
theorem mem_segments_of_afterComponents {p : Path} {count : Nat} {segment : Bytes}
    (member : segment ∈ afterComponents count (if p.anchor = [] then p.segments else p.segments.tail)) :
    segment ∈ p.segments := by
  have inBody := (afterComponents_suffix _ _).subset member
  split at inBody
  · exact inBody
  · exact List.mem_of_mem_tail inBody

theorem filterMap_afterComponents (count : Nat) (segments : List Bytes) :
    (afterComponents count segments).filterMap Component.ofSegment? =
      (segments.filterMap Component.ofSegment?).drop count := by
  induction segments generalizing count with
  | nil => cases count <;> simp [afterComponents]
  | cons segment rest ih =>
    cases count with
    | zero => rw [afterComponents, filterMap_dropWhile, List.drop_zero]
    | succ count =>
      rw [afterComponents]
      cases found : Component.ofSegment? segment with
      | none => rw [if_pos ((isNoise_iff segment).mpr found), ih, List.filterMap_cons_none found]
      | some component =>
        have loud : ¬ isNoise segment = true := by
          rw [isNoise_iff, found]
          simp
        rw [if_neg loud, ih, List.filterMap_cons_some found, List.drop_succ_cons]

theorem loud_of_afterComponents {count : Nat} {segments : List Bytes} {first : Bytes}
    (atHead : first ∈ (afterComponents count segments).head?) : isNoise first = false := by
  induction segments generalizing count with
  | nil => cases count <;> simp [afterComponents] at atHead
  | cons segment rest ih =>
    cases count with
    | zero =>
      rw [afterComponents] at atHead
      exact loud_of_dropWhile atHead
    | succ count =>
      rw [afterComponents] at atHead
      split at atHead <;> exact ih atHead

/-- The segments of a path behind what it starts with. -/
theorem filterMap_body (p : Path) :
    (if p.anchor = [] then p.segments else p.segments.tail).filterMap Component.ofSegment? =
      p.segments.filterMap Component.ofSegment? := by
  split
  · rfl
  · rename_i anchored
    obtain ⟨first, rest, split, noise, _⟩ := lead_of_anchor anchored
    rcases p.segments_eq_lead with same | same <;>
      rw [same, split] <;>
      simp [(isNoise_iff first).mp noise]

theorem drop_components {p : Path} {count : Nat} (anchored : p.anchor.length ≤ count) :
    p.components.drop count = (p.segments.filterMap Component.ofSegment?).drop (count - p.anchor.length) := by
  rw [components, List.drop_append, List.drop_eq_nil_of_le anchored, List.nil_append]

theorem components_ofSegments_trimEnd (p : Path) :
    (ofSegments p.isAbsolute (trimEnd p.segments)).components = p.components := by
  by_cases empty : p.text = []
  · obtain ⟨text⟩ := p
    cases empty
    rfl
  · obtain ⟨first, body, split⟩ := List.exists_cons_of_ne_nil p.segments_ne_nil
    have some : trimEnd p.segments ≠ [] := by simp [split, trimEnd]
    have heads : (trimEnd p.segments).head? = p.segments.head? := by rw [split]; rfl
    have clean : ∀ segment ∈ trimEnd p.segments, slash ∉ segment :=
      fun segment member => slash_notMem_segment (p := p) ((front_of_trimEnd _).subset member)
    rw [components, components, anchor, anchor, isAbsolute_ofSegments empty heads clean,
      head?_ofSegments _ some clean, heads, filterMap_ofSegments rfl _ some clean, filterMap_trimEnd]

/-- What is left when a base is taken off has the components behind those of the base. -/
theorem components_stripPrefix? {p base relative : Path} (stripped : p.stripPrefix? base = some relative) :
    p.components = base.components ++ relative.components := by
  unfold stripPrefix? at stripped
  split at stripped
  · rename_i starts
    have isFront : base.components <+: p.components := List.isPrefixOf_iff_prefix.mp starts
    split at stripped
    · rename_i none
      cases stripped
      rw [none, components_ofSegments_trimEnd, List.nil_append]
    · rename_i some
      cases stripped
      have clean : ∀ segment ∈ afterComponents (base.components.length - p.anchor.length)
          (if p.anchor = [] then p.segments else p.segments.tail), slash ∉ segment :=
        fun segment member => slash_notMem_segment (p := p) (mem_segments_of_afterComponents member)
      have anchored : p.anchor.length ≤ base.components.length := by
        have long := List.length_pos_iff.mpr some
        by_cases bare : p.anchor = []
        · simp [bare]
        · obtain ⟨_, _, _, _, one⟩ := lead_of_anchor bare
          omega
      rw [(components_of_trimEnd clean fun _ => loud_of_afterComponents).2, filterMap_afterComponents, filterMap_body,
        ← drop_components anchored, List.prefix_iff_eq_append.mp isFront]
  · cases stripped

/-- What is left when a base is taken off is spelled with segments of the path. -/
theorem mem_segments_stripPrefix? {p base relative : Path} (stripped : p.stripPrefix? base = some relative)
    {segment : Bytes} (member : segment ∈ relative.segments) : segment ∈ p.segments ∨ segment = [] := by
  have clean : ∀ {pieces : List Bytes}, (∀ piece ∈ pieces, piece ∈ p.segments) → ∀ piece ∈ trimEnd pieces, slash ∉ piece :=
    fun inside piece member => slash_notMem_segment (inside piece ((front_of_trimEnd _).subset member))
  unfold stripPrefix? at stripped
  split at stripped
  · split at stripped
    · cases stripped
      have some : trimEnd p.segments ≠ [] := by
        obtain ⟨first, body, split⟩ := List.exists_cons_of_ne_nil p.segments_ne_nil
        simp [split, trimEnd]
      rcases segments_ofSegments p.isAbsolute some (clean fun _ inside => inside) with same | ⟨_, root⟩
      · rw [same] at member
        exact Or.inl ((front_of_trimEnd _).subset member)
      · rw [root] at member
        exact Or.inr (by simpa using member)
    · cases stripped
      have body : ∀ piece ∈ afterComponents (base.components.length - p.anchor.length)
          (if p.anchor = [] then p.segments else p.segments.tail), piece ∈ p.segments :=
        fun _ => mem_segments_of_afterComponents
      generalize afterComponents (base.components.length - p.anchor.length)
        (if p.anchor = [] then p.segments else p.segments.tail) = rest at member body
      by_cases none : trimEnd rest = []
      · rw [none] at member
        exact Or.inr (List.mem_singleton.mp member)
      · rw [segments_joinWith none (clean body)] at member
        exact Or.inl (body segment ((front_of_trimEnd _).subset member))
  · cases stripped

end Unjar.Path
