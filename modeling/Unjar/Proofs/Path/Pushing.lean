import Unjar.Proofs.Path.Cleaned

/-!
Cleaning on the spelling itself. The components of a path are put on a path that starts empty, and what a `..` takes back
is read off that path each time: a name at its end goes, the root stays, and otherwise the `..` is joined to it. This
comes to what the stack of components comes to.
-/

namespace Unjar.Path

/-- One component put on the path that the components before it have led to. -/
def pushed (p : Path) : Component → Path
  | .here => p
  | .up =>
    match p.components.getLast? with
    | some (.name _) => p.parent.getD p
    | some .root => p
    | _ => p.join ⟨Component.up.text⟩
  | component => p.join ⟨component.text⟩

/-- Nothing is trimmed off an origin: it ends in the root or in a `..`. -/
theorem trimmed_origin (o : Origin) : o.path.trimmed = o.path := by
  cases o with
  | root => decide
  | above levels =>
    cases levels with
    | zero => decide
    | succ levels =>
      have lead : (Origin.above (levels + 1)).path.lead = List.replicate levels [dot, dot] ++ [[dot, dot]] := by
        rw [lead_origin, ← List.replicate_succ']
      have loud : isNoise [dot, dot] = false := by decide
      rw [trimmed, lead, if_neg (by simp), isAbsolute_above, trimEnd_of_loud _ loud, ← List.replicate_succ']
      rfl

theorem join_above (levels : Nat) :
    (Origin.above levels).path.join ⟨Component.up.text⟩ = (Origin.above (levels + 1)).path := by
  have clean : ∀ piece ∈ List.replicate (levels + 1) [dot, dot], slash ∉ piece := by
    intro piece member
    rw [List.eq_of_mem_replicate member]
    decide
  apply ext_segments
  rw [segments_join rfl, lead_origin]
  exact (List.replicate_succ' ..).symm.trans (segments_joinWith (by simp) clean).symm

/-- What a `..` does to a cleaned path is read off its last component. -/
theorem pushed_up {c : Cleaned} (valid : AllNames c.names) : c.path.pushed .up = c.ascend.path := by
  have spelled := components_path valid
  obtain ⟨origin, names⟩ := c
  by_cases bare : names = []
  · subst bare
    cases origin with
    | root => decide
    | above levels =>
      have atEnd : (Cleaned.path ⟨.above levels, []⟩).components.getLast? = if levels = 0 then none else some .up := by
        rw [spelled]
        exact (congrArg List.getLast? (List.append_nil _)).trans List.getLast?_replicate
      have joined : (Cleaned.path ⟨.above levels, []⟩).pushed .up =
          (Origin.above levels).path.join ⟨Component.up.text⟩ := by
        rw [pushed, atEnd]
        split_ifs <;> rfl
      rw [joined, join_above]
      rfl
  · obtain ⟨front, last, rfl⟩ := (List.eq_nil_or_concat' names).resolve_left bare
    have atEnd : (Cleaned.path ⟨origin, front ++ [last]⟩).components.getLast? = some (.name last) := by
      rw [spelled]
      simp [Cleaned.components]
    have ascended : Cleaned.ascend ⟨origin, front ++ [last]⟩ = ⟨origin, front⟩ := by
      simp [Cleaned.ascend]
    rw [pushed, atEnd, ascended]
    simp only [Cleaned.path, parent_eq_enclosing origin.path valid bare, Option.getD_some, enclosing,
      List.dropLast_concat]
    split
    · rename_i top
      rw [top, trimmed_origin]
      rfl
    · rfl

theorem pushed_path {c : Cleaned} (valid : AllNames c.names) (component : Component) :
    c.path.pushed component = (c.push component).path := by
  cases component with
  | root => rfl
  | here => rfl
  | up => exact pushed_up valid
  | name name => exact (descendant_concat _ _ _).symm

theorem foldl_pushed {c : Cleaned} {components : List Component} (valid : AllNames c.names)
    (sound : ∀ name, Component.name name ∈ components → IsName name) :
    components.foldl pushed c.path = (components.foldl Cleaned.push c).path := by
  induction components generalizing c with
  | nil => rfl
  | cons component rest ih =>
    have kept : AllNames (c.push component).names :=
      names_push valid fun name same => sound name (by rw [same]; exact List.mem_cons_self)
    rw [List.foldl_cons, pushed_path valid, List.foldl_cons,
      ih kept fun name member => sound name (List.mem_cons_of_mem _ member)]

/-- A path is cleaned by putting its components on the empty path, one after the other. -/
theorem clean_eq_foldl (p : Path) : p.clean = p.components.foldl pushed ⟨[]⟩ := by
  have sound : ∀ name, Component.name name ∈ p.components → IsName name := by
    intro name member
    rcases List.mem_append.mp member with inAnchor | inInner
    · cases isName_anchor inAnchor
    · exact isName_of_inner inInner
  rw [clean_eq, cleaned_eq_foldl]
  exact (foldl_pushed allNames_nil sound).symm

end Unjar.Path
