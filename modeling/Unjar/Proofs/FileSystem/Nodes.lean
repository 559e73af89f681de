import Unjar.Proofs.FileSystem.Within

/-!
What is known of a file system once its nodes were looked through.
-/

namespace Unjar.FileSystem

variable {fs : FileSystem} {l : Location}

instance (l m : Location) : Decidable (Below l m) :=
  decidable_of_iff (l <+: m ∧ m ≠ l) <| by
    constructor
    · rintro ⟨⟨names, rfl⟩, differs⟩
      refine ⟨names, ?_, rfl⟩
      rintro rfl
      exact differs (List.append_nil l)
    · rintro ⟨names, down, rfl⟩
      exact ⟨List.prefix_append _ _, by simpa using down⟩

/-- What holds of every entry holds of every node that is found. -/
theorem of_nodes {p : Location → Node → Prop} (all : ∀ entry ∈ fs.nodes, p entry.1 entry.2) {node : Node}
    (there : fs.node? l = some node) : p l node := by
  obtain ⟨front, back, split, _⟩ := List.lookup_eq_some_iff.mp there
  exact all (l, node) (by rw [split]; simp)

theorem Sound.of_nodes (distinct : (fs.nodes.map Prod.fst).Nodup) (root : fs.isDirectoryAt [] = true)
    (here : fs.isDirectoryAt fs.here = true)
    (placed : ∀ entry ∈ fs.nodes, (entry.1 = [] ∨ fs.isDirectoryAt entry.1.dropLast = true) ∧ AllNames entry.1 ∧
      ∀ name ∈ entry.1, name.length ≤ nameMax) : fs.Sound := by
  have found : ∀ {m}, (fs.node? m).isSome → (m = [] ∨ fs.isDirectoryAt m.dropLast = true) ∧ AllNames m ∧
      ∀ name ∈ m, name.length ≤ nameMax := by
    intro m some
    obtain ⟨node, there⟩ := Option.isSome_iff_exists.mp some
    exact FileSystem.of_nodes (p := fun at' _ => (at' = [] ∨ fs.isDirectoryAt at'.dropLast = true) ∧ AllNames at' ∧
      ∀ name ∈ at', name.length ≤ nameMax) placed there
  refine ⟨distinct, root, here, ?_, fun m some => (found some).2⟩
  intro m name some
  simpa using (found some).1

/-- No link is among the nodes. -/
def Unlinked (fs : FileSystem) : Prop :=
  ∀ entry ∈ fs.nodes, entry.2.isDirectory = true ∨ entry.2.isFile = true

instance (fs : FileSystem) : Decidable fs.Unlinked :=
  inferInstanceAs (Decidable (∀ entry ∈ fs.nodes, _))

theorem Unlinked.node? (unlinked : fs.Unlinked) (target : Path) : fs.node? l ≠ some (.link target) := by
  intro there
  have known := of_nodes (p := fun _ node => node.isDirectory = true ∨ node.isFile = true) unlinked there
  simp [Node.isDirectory, Node.isFile] at known

theorem Unlinked.plain (unlinked : fs.Unlinked) (p : Path) : fs.Plain p :=
  fun _ _ target => unlinked.node? target

theorem Unlinked.linkFree (unlinked : fs.Unlinked) (l : Location) : fs.LinkFree l :=
  fun _ target => unlinked.node? target

/-- Nothing is below a location that is in front of none. -/
theorem empty_of_nodes (none : ∀ entry ∈ fs.nodes, ¬ Below l entry.1) {names : List Bytes} (down : names ≠ []) :
    fs.node? (l ++ names) = .none := by
  by_contra some
  obtain ⟨node, there⟩ := Option.ne_none_iff_exists'.mp some
  exact of_nodes (p := fun at' _ => ¬ Below l at') none there ⟨names, down, rfl⟩

end Unjar.FileSystem
