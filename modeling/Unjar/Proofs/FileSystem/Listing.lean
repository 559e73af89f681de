import Mathlib.Data.List.Basic
import Mathlib.Data.List.Sort
import Unjar.Proofs.FileSystem.Access

/-!
What a directory lists: the names of its nodes, each once, in their order. The table of the file system
does not matter otherwise.
-/

namespace Unjar

namespace Bytes

variable {α : Type} (key : α → Bytes)

theorem perm_insertBy (x : α) (xs : List α) : (insertBy key x xs).Perm (x :: xs) := by
  induction xs with
  | nil => exact .refl _
  | cons y ys ih =>
    rw [insertBy]
    split
    · exact .refl _
    · exact (ih.cons y).trans (.swap x y ys)

theorem perm_sortBy (xs : List α) : (sortBy key xs).Perm xs := by
  induction xs with
  | nil => exact .refl _
  | cons x xs ih => exact (perm_insertBy key x _).trans (ih.cons x)

theorem pairwise_insertBy (x : α) {xs : List α} (sorted : xs.Pairwise fun a b => key a ≤ key b) :
    (insertBy key x xs).Pairwise fun a b => key a ≤ key b := by
  induction xs with
  | nil => simp [insertBy]
  | cons y ys ih =>
    obtain ⟨first, rest⟩ := List.pairwise_cons.mp sorted
    rw [insertBy]
    split
    · rename_i before
      refine List.pairwise_cons.mpr ⟨?_, sorted⟩
      intro z member
      rcases List.mem_cons.mp member with rfl | later
      · exact before
      · exact List.le_trans before (first z later)
    · rename_i behind
      refine List.pairwise_cons.mpr ⟨?_, ih rest⟩
      intro z member
      rcases List.mem_cons.mp ((perm_insertBy key x ys).subset member) with rfl | later
      · exact (List.le_total (key y) (key z)).resolve_right behind
      · exact first z later

theorem pairwise_sortBy (xs : List α) : (sortBy key xs).Pairwise fun a b => key a ≤ key b := by
  induction xs with
  | nil => exact .nil
  | cons x xs ih => exact pairwise_insertBy key x ih

end Bytes

namespace FileSystem

variable {fs fs' : FileSystem} {l : Location}

theorem childName?_eq_some {m : Location} {name : Bytes} : childName? l m = some name ↔ m = l ++ [name] := by
  unfold childName?
  rcases List.eq_nil_or_concat' m with rfl | ⟨front, last, rfl⟩
  · simp
  · rw [List.getLast?_concat, List.dropLast_concat]
    simp only [Option.ite_none_right_eq_some, Option.some.injEq]
    constructor
    · rintro ⟨rfl, rfl⟩
      rfl
    · intro same
      have fronts := congrArg List.dropLast same
      have lasts := congrArg List.getLast? same
      rw [List.dropLast_concat, List.dropLast_concat] at fronts
      rw [List.getLast?_concat, List.getLast?_concat] at lasts
      exact ⟨fronts, Option.some.inj lasts⟩

theorem lookup_of_mem {nodes : List (Location × Node)} (distinct : (nodes.map Prod.fst).Nodup) {node : Node} :
    nodes.lookup l = some node ↔ (l, node) ∈ nodes := by
  induction nodes with
  | nil => simp
  | cons entry rest ih =>
    obtain ⟨m, other⟩ := entry
    rw [List.map_cons, List.nodup_cons] at distinct
    rw [List.lookup_cons, List.mem_cons]
    by_cases here : l = m
    · subst here
      have absent : (l, node) ∉ rest := fun member => distinct.1 (List.mem_map.mpr ⟨_, member, rfl⟩)
      simp [absent, eq_comm]
    · have differs : (l == m) = false := by simpa using here
      rw [differs, ih distinct.2]
      simp [here]

theorem Sound.mem_entriesAt (sound : fs.Sound) {name : Bytes} {node : Node} :
    (name, node) ∈ fs.entriesAt l ↔ fs.node? (l ++ [name]) = some node := by
  rw [entriesAt, (Bytes.perm_sortBy _ _).mem_iff, List.mem_filterMap, node?, lookup_of_mem sound.distinct]
  constructor
  · rintro ⟨⟨m, other⟩, member, isChild⟩
    obtain ⟨found, atName, same⟩ := Option.map_eq_some_iff.mp isChild
    cases same
    rwa [childName?_eq_some.mp atName] at member
  · intro member
    exact ⟨_, member, Option.map_eq_some_iff.mpr ⟨name, childName?_eq_some.mpr rfl, rfl⟩⟩

/-- The names of a directory come in their order, each of them once. -/
theorem Sound.pairwise_entriesAt (sound : fs.Sound) : (fs.entriesAt l).Pairwise fun a b => a.1 < b.1 := by
  have distinct : (fs.entriesAt l).Pairwise fun a b => a.1 ≠ b.1 := by
    rw [entriesAt, (Bytes.perm_sortBy _ _).pairwise_iff fun differs => Ne.symm differs, List.pairwise_filterMap]
    refine (List.pairwise_map.mp sound.distinct).imp ?_
    rintro ⟨m, node⟩ ⟨m', node'⟩ differs a atA b atB
    obtain ⟨name, isChild, rfl⟩ := Option.map_eq_some_iff.mp atA
    obtain ⟨name', isChild', rfl⟩ := Option.map_eq_some_iff.mp atB
    rintro rfl
    exact differs ((childName?_eq_some.mp isChild).trans (childName?_eq_some.mp isChild').symm)
  have sorted : (fs.entriesAt l).Pairwise fun a b => a.1 ≤ b.1 := Bytes.pairwise_sortBy Prod.fst _
  refine (sorted.and distinct).imp ?_
  rintro a b ⟨le, ne⟩
  exact (List.le_iff_lt_or_eq.mp le).resolve_right ne

/-- What is listed before has the lesser name. -/
theorem Sound.lt_of_entriesAt (sound : fs.Sound) {before between after : List (Bytes × Node)} {entry entry' : Bytes × Node}
    (whole : fs.entriesAt l = before ++ entry :: (between ++ entry' :: after)) : entry.1 < entry'.1 := by
  have sorted := sound.pairwise_entriesAt (l := l)
  rw [whole, List.pairwise_append] at sorted
  exact List.rel_of_pairwise_cons sorted.2.1 (List.mem_append_right _ List.mem_cons_self)

/-- What a directory is said to hold lies under names, whatever the path to it is. -/
theorem Sound.isName_of_list (sound : fs.Sound) {p : Path} {entries : List (Bytes × Node)}
    (listed : fs.list p = .ok entries) {name : Bytes} {node : Node} (member : (name, node) ∈ entries) : IsName name := by
  obtain ⟨l, _, _, _, _, rfl⟩ := list_ok.mp listed
  have there := sound.mem_entriesAt.mp member
  exact (sound.names _ (by rw [there]; rfl)).1 name (by simp)

/-- The listing of a directory is read off the nodes. -/
theorem Sound.entriesAt_congr (sound : fs.Sound) (sound' : fs'.Sound)
    (same : ∀ name, fs'.node? (l ++ [name]) = fs.node? (l ++ [name])) : fs'.entriesAt l = fs.entriesAt l := by
  have nodup : ∀ {other : FileSystem}, other.Sound → (other.entriesAt l).Nodup := by
    intro other otherSound
    refine otherSound.pairwise_entriesAt.imp ?_
    rintro a b before rfl
    exact List.lt_irrefl _ before
  have perm : (fs'.entriesAt l).Perm (fs.entriesAt l) := by
    rw [List.perm_ext_iff_of_nodup (nodup sound') (nodup sound)]
    rintro ⟨name, node⟩
    rw [sound'.mem_entriesAt, sound.mem_entriesAt, same]
  refine perm.eq_of_pairwise ?_ sound'.pairwise_entriesAt sound.pairwise_entriesAt
  intro a b _ _ before behind
  exact absurd behind (List.lt_asymm before)

end FileSystem

end Unjar
