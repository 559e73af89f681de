import Unjar.Proofs.Path.Cleaned
import Unjar.Proofs.Path.Relative

/-!
Spellings of one path. They agree in whatever is told by components: in the name and its extension, in the paths that
come of joining them to a base, and in what is left of them when a base is taken off.
-/

namespace Unjar.Path

variable {p q : Path}

/-- What stands at a start only is the anchor. -/
theorem filter_components (p : Path) :
    p.components.filter (fun component => component = .root ∨ component = .here) = p.anchor := by
  have outer : ∀ component ∈ p.anchor, decide (component = .root ∨ component = .here) = true := by
    unfold anchor
    split_ifs <;> simp
  have inner : ∀ component ∈ p.inner, ¬ decide (component = .root ∨ component = .here) = true := by
    intro component member
    rcases inner_of_mem member with rfl | ⟨name, rfl, _⟩ <;> simp
  rw [components_eq_anchor_inner, List.filter_append, List.filter_eq_self.mpr outer, List.filter_eq_nil_iff.mpr inner,
    List.append_nil]

theorem isAbsolute_iff : p.isAbsolute = true ↔ p.anchor = [.root] := by
  unfold anchor
  split_ifs <;> simp_all

/-- Joined to a base that is not empty, a relative path puts its components there, but for a dot that it starts with. -/
theorem components_join_of_open {base : Path} (relative : p.isAbsolute = false) (open' : base.text ≠ []) :
    (base.join p).components = base.components ++ p.inner := by
  rw [components, anchor_join_of_open relative open', segments_join relative, List.filterMap_append,
    filterMap_lead base _ rfl, ← List.append_assoc, components, inner]

theorem isSome_stripPrefix? (p base : Path) : (p.stripPrefix? base).isSome = p.startsWith base := by
  unfold stripPrefix?
  cases p.startsWith base with
  | false => rfl
  | true => rw [if_pos rfl]; split <;> rfl

namespace Same

theorem anchor (same : p.Same q) : p.anchor = q.anchor := by
  rw [← filter_components, ← filter_components q, same]

theorem inner (same : p.Same q) : p.inner = q.inner := by
  have whole : p.components = q.components := same
  rw [components_eq_anchor_inner, components_eq_anchor_inner, same.anchor] at whole
  exact List.append_cancel_left whole

theorem isAbsolute (same : p.Same q) : p.isAbsolute = q.isAbsolute := by
  rw [Bool.eq_iff_iff, isAbsolute_iff, isAbsolute_iff, same.anchor]

theorem fileName (same : p.Same q) : p.fileName = q.fileName := by
  rw [Path.fileName, Path.fileName, same]

theorem extension (same : p.Same q) : p.extension = q.extension := by
  rw [Path.extension, Path.extension, same.fileName]

theorem startsWith (same : p.Same q) (base : Path) : p.startsWith base = q.startsWith base := by
  rw [Path.startsWith, Path.startsWith, same]

theorem join (same : p.Same q) (base : Path) : (base.join p).Same (base.join q) := by
  cases absolute : p.isAbsolute with
  | true =>
    have absolute' := same.isAbsolute.symm.trans absolute
    rwa [Path.join, if_pos absolute, Path.join, if_pos absolute']
  | false =>
    have relative := same.isAbsolute.symm.trans absolute
    by_cases empty : base.text = []
    · simpa [Path.join, absolute, relative, empty] using same
    · rw [Same, components_join_of_open absolute empty, components_join_of_open relative empty, same.inner]

/-- A base is taken off both or neither. -/
theorem stripPrefix? (same : p.Same q) (base : Path) :
    Option.Rel Same (p.stripPrefix? base) (q.stripPrefix? base) := by
  cases left : p.stripPrefix? base with
  | none =>
    have none : q.stripPrefix? base = none := by
      rw [← Option.not_isSome_iff_eq_none, isSome_stripPrefix?, ← same.startsWith, ← isSome_stripPrefix?, left]
      simp
    rw [none]
    exact .none
  | some relative =>
    obtain ⟨relative', left'⟩ : ∃ relative', q.stripPrefix? base = some relative' := by
      rw [← Option.isSome_iff_exists, isSome_stripPrefix?, ← same.startsWith, ← isSome_stripPrefix?, left]
      rfl
    have behind : base.components ++ relative.components = base.components ++ relative'.components := by
      rw [← components_stripPrefix? left, ← components_stripPrefix? left', same]
    rw [left']
    exact .some (List.append_cancel_left behind)

end Same

end Unjar.Path
