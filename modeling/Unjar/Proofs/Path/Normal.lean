import Unjar.Proofs.Path.Confinement

/-!
Cleaning as a normal form. A cleaned path is the root or some steps up, and names from there. The paths that look like
this are those that cleaning keeps, and it makes no difference whether a path is cleaned before another one is joined to
it.
-/

namespace Unjar.Path

/-- The root or some steps up, and names from there. -/
def Normal (p : Path) : Prop :=
  ∃ names : List Bytes, p.components = .root :: names.map .name ∨
    ∃ levels, p.components = List.replicate levels .up ++ names.map .name

theorem normal_iff {p : Path} : p.Normal ↔ ∃ c : Cleaned, p.components = c.components := by
  constructor
  · rintro ⟨names, rooted | ⟨levels, relative⟩⟩
    · exact ⟨⟨.root, names⟩, rooted⟩
    · exact ⟨⟨.above levels, names⟩, relative⟩
  · rintro ⟨⟨origin, names⟩, split⟩
    cases origin with
    | root => exact ⟨names, Or.inl split⟩
    | above levels => exact ⟨names, Or.inr ⟨levels, split⟩⟩

theorem normal_clean (p : Path) : p.clean.Normal :=
  normal_iff.mpr ⟨p.cleaned, components_clean p⟩

/-- A path stays the same when it is cleaned just if there is nothing to clean. -/
theorem same_clean_iff (p : Path) : p.clean.Same p ↔ p.Normal := by
  rw [Same, components_clean, normal_iff]
  constructor
  · exact fun same => ⟨p.cleaned, same.symm⟩
  · rintro ⟨c, split⟩
    rw [cleaned_eq_foldl, split, Cleaned.foldl_push_components]

/-- No segment of a cleaned path is a dot: those it starts with are its origin, and the others are names. -/
theorem here_notMem_segments_clean (p : Path) : [dot] ∉ p.clean.segments := by
  intro member
  have inLead : [dot] ∈ p.clean.lead := by
    rcases p.clean.segments_eq_lead with same | same
    · rwa [same] at member
    · rw [same] at member
      exact (List.mem_append.mp member).resolve_right (by decide)
  rw [clean_eq, Cleaned.path, lead_descendant _ p.names_cleaned, lead_origin] at inLead
  rcases List.mem_append.mp inLead with inOrigin | inNames
  · cases atOrigin : p.cleaned.origin with
    | root =>
      rw [atOrigin] at inOrigin
      revert inOrigin
      decide
    | above levels =>
      rw [atOrigin] at inOrigin
      exact absurd (List.eq_of_mem_replicate inOrigin) (by decide)
  · exact (p.names_cleaned _ inNames).2.1 rfl

theorem clean_clean (p : Path) : p.clean.clean = p.clean := by
  rw [clean_eq p.clean, cleaned_clean, ← clean_eq]

/-- What is joined to a path is pushed on what the path comes to, and that is what it is cleaned to. -/
theorem clean_join (p q : Path) : (p.join q).clean = (p.clean.join q).clean := by
  cases absolute : q.isAbsolute with
  | true => simp [join, absolute]
  | false => rw [clean_eq, clean_eq, cleaned_join absolute, cleaned_join absolute, cleaned_clean]

/-- A cleaned path has no `.` and is the root or some steps up, with names behind. The paths of this form are those that
stay the same, so that to clean once is enough. A path may be cleaned before another one is joined to it and the whole
is cleaned, and entries lead from a destination that is cleaned to where they lead from the destination itself. -/
theorem clean_composes (p : Path) :
    [dot] ∉ p.clean.segments ∧ p.clean.Normal ∧ (p.clean.Same p ↔ p.Normal) ∧ p.clean.clean = p.clean ∧
    (∀ q, (p.join q).clean = (p.clean.join q).clean) ∧
    ∀ name, p.clean.resolveInside name = p.resolveInside name := by
  refine ⟨here_notMem_segments_clean p, normal_clean p, same_clean_iff p, clean_clean p, clean_join p, fun name => ?_⟩
  rw [resolveInside, resolveInside, clean_clean]

example : (Path.mk (ascii "a/.././../b//c/..")).clean = ⟨ascii "../b"⟩ ∧
    (Path.mk (ascii "/../x/.")).clean = ⟨ascii "/x"⟩ := by decide

end Unjar.Path
