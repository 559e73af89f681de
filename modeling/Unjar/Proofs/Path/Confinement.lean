import Unjar.Path.Inside
import Unjar.Proofs.Path.Cleaned

/-!
Which destinations keep the entries of an archive inside. The test is one of spelling: a destination
that is nothing but steps upwards, or nothing at all, is a front of the paths that lead out of it.
-/

namespace Unjar.Path

/-- A path whose cleaned form is the root or holds a name. -/
def Guarded (dest : Path) : Prop :=
  ∃ component ∈ dest.clean.components, component ≠ .up

def StrictlyInside (p dest : Path) : Prop :=
  ∃ names : List Bytes, names ≠ [] ∧ p.components = dest.clean.components ++ names.map .name

/-- Where an entry name leads from a destination, inside or not. -/
def resolved (dest : Path) (name : Bytes) : Path :=
  (dest.clean.join (ofEntryName name)).clean

theorem guarded_iff (dest : Path) :
    dest.Guarded ↔ dest.cleaned.origin = .root ∨ dest.cleaned.names ≠ [] := by
  rw [Guarded, components_clean]
  obtain ⟨origin, names⟩ := dest.cleaned
  constructor
  · rintro ⟨component, member, notUp⟩
    cases origin with
    | root => exact Or.inl rfl
    | above levels =>
      right
      rintro rfl
      rw [Cleaned.components, List.map_nil, List.append_nil] at member
      exact notUp (List.eq_of_mem_replicate member)
  · rintro (root | some)
    · cases root
      exact ⟨.root, List.mem_append_left _ (List.mem_singleton.mpr rfl), by simp⟩
    · obtain ⟨name, rest, split⟩ := List.exists_cons_of_ne_nil some
      cases split
      exact ⟨.name name, List.mem_append_right _ (List.mem_map_of_mem List.mem_cons_self), by simp⟩

theorem Downward.guarded {p : Path} (downward : p.Downward) : p.Guarded :=
  (guarded_iff p).mpr (Or.inr downward.cleaned)

theorem components_resolved (dest : Path) (name : Bytes) :
    (dest.resolved name).components = (dest.resolved name).cleaned.components := by
  rw [resolved, components_clean, cleaned_clean]

theorem components_descend (c : Cleaned) (names : List Bytes) :
    c.components ++ names.map .name = Cleaned.components ⟨c.origin, c.names ++ names⟩ := by
  rw [Cleaned.components, Cleaned.components, List.map_append, List.append_assoc]

theorem resolveInside_eq (dest : Path) (name : Bytes) :
    dest.resolveInside name =
      if (dest.resolved name).Same dest.clean ∨ ¬ (dest.resolved name).startsWith dest.clean then
        .error (dest.resolved name)
      else .ok (dest.resolved name) := rfl

/-- A guarded destination accepts just the names that lead strictly inside. -/
theorem Guarded.accepts_iff {dest : Path} (guarded : dest.Guarded) (name : Bytes) :
    ¬ ((dest.resolved name).Same dest.clean ∨ ¬ (dest.resolved name).startsWith dest.clean) ↔
      (dest.resolved name).StrictlyInside dest := by
  have shape := (guarded_iff dest).mp guarded
  rw [not_or, not_not, Same, startsWith, List.isPrefixOf_iff_prefix, StrictlyInside]
  constructor
  · rintro ⟨differs, tail, split⟩
    rw [components_resolved, components_clean] at split
    obtain ⟨names, atTail, _⟩ := Cleaned.components_prefix shape split.symm
    refine ⟨names, ?_, ?_⟩
    · rintro rfl
      apply differs
      rw [components_resolved, components_clean, ← split, atTail, List.map_nil, List.append_nil]
    · rw [components_resolved, components_clean, ← split, atTail]
  · rintro ⟨names, some, split⟩
    refine ⟨?_, ?_⟩
    · intro same
      rw [same] at split
      have bare := List.self_eq_append_right.mp split
      exact some (List.map_eq_nil_iff.mp bare)
    · rw [split]
      exact List.prefix_append _ _

/-- The name that shows that nothing guards a destination of steps upwards. -/
def wayOut : Bytes := ascii "../x"

theorem resolved_wayOut {dest : Path} (unguarded : ¬ dest.Guarded) :
    ∃ levels, dest.cleaned = ⟨.above levels, []⟩ ∧
      (dest.resolved wayOut).cleaned = ⟨.above (levels + 1), [ascii "x"]⟩ := by
  rw [guarded_iff, not_or, not_not] at unguarded
  cases atCleaned : dest.cleaned with
  | mk origin names =>
    rw [atCleaned] at unguarded
    obtain ⟨notRoot, rfl⟩ := unguarded
    cases origin with
    | root => exact absurd rfl notRoot
    | above levels =>
      refine ⟨levels, rfl, ?_⟩
      have inner : (ofEntryName wayOut).inner = [.up, .name (ascii "x")] := by decide
      rw [resolved, cleaned_clean, cleaned_join (by decide), cleaned_clean, atCleaned, inner]
      rfl

/-- The guard holds for every entry name exactly if the destination is guarded: then a name is
accepted just when it leads strictly inside, and refused with the path it leads to otherwise. -/
theorem guarded_iff_resolveInside (dest : Path) :
    dest.Guarded ↔ ∀ name,
      (dest.resolveInside name = .ok (dest.resolved name) ∧ (dest.resolved name).StrictlyInside dest) ∨
      (dest.resolveInside name = .error (dest.resolved name) ∧ ¬ (dest.resolved name).StrictlyInside dest) := by
  constructor
  · intro guarded name
    by_cases inside : (dest.resolved name).StrictlyInside dest
    · left
      exact ⟨by rw [resolveInside_eq, if_neg ((guarded.accepts_iff name).mpr inside)], inside⟩
    · right
      have refused := not_not.mp (mt (guarded.accepts_iff name).mp inside)
      exact ⟨by rw [resolveInside_eq, if_pos refused], inside⟩
  · intro sound
    by_contra unguarded
    obtain ⟨levels, atDest, atWayOut⟩ := resolved_wayOut unguarded
    have outside : ¬ (dest.resolved wayOut).StrictlyInside dest := by
      rintro ⟨names, _, split⟩
      rw [components_resolved, components_clean, atDest, atWayOut, components_descend] at split
      have origins := congrArg Cleaned.origin (Cleaned.components_injective split)
      have levels_eq := Origin.above.inj origins
      omega
    have accepted : dest.resolveInside wayOut = .ok (dest.resolved wayOut) := by
      rw [resolveInside_eq, if_neg]
      rw [not_or, not_not, Same, startsWith, List.isPrefixOf_iff_prefix, components_resolved, components_clean,
        atDest, atWayOut]
      refine ⟨?_, [.up, .name (ascii "x")], ?_⟩
      · intro same
        have names := congrArg Cleaned.names (Cleaned.components_injective same)
        cases names
      · simp [Cleaned.components, Origin.components, List.replicate_succ']
    rcases sound wayOut with ⟨_, inside⟩ | ⟨refused, _⟩
    · exact outside inside
    · rw [accepted] at refused
      cases refused

end Unjar.Path
