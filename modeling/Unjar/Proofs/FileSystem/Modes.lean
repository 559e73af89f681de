import Unjar.Proofs.FileSystem.Data

/-!
Modes. New directories are open to their owner, and what writing takes from a file's mode is none of the bits with
which its owner reads and writes it.
-/

namespace Unjar.FileSystem

variable {fs origin : FileSystem} {base : Path} {l m : Location} {names : List Bytes} {mode : Nat}

/-- Writing takes from a mode what it takes at once. -/
@[simp]
theorem modeAfterWriting_twice (mode : Nat) : modeAfterWriting (modeAfterWriting mode) = modeAfterWriting mode := by
  unfold modeAfterWriting
  by_cases lends : mode &&& 0o010 = 0
  · have still : mode &&& 0o3777 &&& 0o010 = 0 := by
      rw [Nat.and_assoc, Nat.and_comm 0o3777, ← Nat.and_assoc, lends, Nat.zero_and]
    rw [if_pos lends, if_pos still, Nat.and_assoc, Nat.and_self]
  · have still : mode &&& 0o1777 &&& 0o010 ≠ 0 := by
      rwa [Nat.and_assoc, show 0o1777 &&& 0o010 = 0o010 by decide]
    rw [if_neg lends, if_neg still, Nat.and_assoc, Nat.and_self]

/-- Bits that no writing takes away stay. -/
theorem modeAfterWriting_keeps {owner : Nat} (spared : 0o1777 &&& owner = owner) (has : mode &&& owner = owner) :
    modeAfterWriting mode &&& owner = owner := by
  have wider : 0o3777 &&& owner = owner := by
    rw [← spared, ← Nat.and_assoc]
    rfl
  unfold modeAfterWriting
  split
  · rw [Nat.and_assoc, wider, has]
  · rw [Nat.and_assoc, spared, has]

theorem modeBelow_owner (fs : FileSystem) (parent : Location) : fs.modeBelow parent &&& 0o700 = 0o700 := by
  unfold modeBelow
  split
  · rw [Nat.and_or_distrib_right, Nat.and_assoc, show groupBit &&& 0o700 = 0 by decide, Nat.and_zero]
    decide
  · decide

theorem node?_fill {old : Bytes} (there : fs.node? l = some (.file mode old)) (data : Bytes) (m : Location) :
    (fs.fill l data).node? m =
      if m = l then some (.file (if data = [] then mode else modeAfterWriting mode) data) else fs.node? m := by
  rw [fill, there]
  exact node?_put fs l m _

/-- A directory is as it was, or it is new and open to its owner. -/
theorem makeDirectories_modes (fs : FileSystem) (p : Path) (m : Location) (mode : Nat)
    (there : (fs.makeDirectories p).2.node? m = some (.directory mode)) :
    fs.node? m = some (.directory mode) ∨ mode &&& 0o700 = 0o700 := by
  revert m mode
  refine makeLineage_induction (P := fun after => ∀ m mode, after.node? m = some (.directory mode) →
    fs.node? m = some (.directory mode) ∨ mode &&& 0o700 = 0o700) ?_ fun _ _ => Or.inl
  intro _ _ before made known made' m mode there
  obtain ⟨parent, name, _, _, rfl⟩ := makeDirectory_ok made'
  rw [node?_put] at there
  split at there
  · cases there
    exact Or.inr (modeBelow_owner before parent)
  · exact known m mode there

/-- What is opened for writing below a directory is a new file, or an old one that is emptied, where there are files
and directories only. -/
theorem Within.openToWrite_modes (within : Within base l origin fs) (ordinary : fs.Ordinary l)
    (valid : AllNames names) (down : names ≠ []) {opened : FileSystem}
    (done : fs.openToWrite (base.descendant names) = .ok (m, opened)) :
    m = l ++ names ∧ ∃ mode, opened = fs.put (l ++ names) (.file mode []) ∧
      (fs.node? (l ++ names) = none ∧ mode = fileMode ∨
        ∃ old data, fs.node? (l ++ names) = some (.file old data) ∧ mode = modeAfterWriting old) := by
  obtain ⟨_, rfl, opens⟩ := within.leads.opens_below within.free valid down done
  cases opens with
  | new split vacancy =>
    refine ⟨rfl, fileMode, rfl, Or.inl ⟨?_, rfl⟩⟩
    rw [split, ← List.append_assoc]
    exact vacancy.free
  | @old old data atNode => exact ⟨rfl, _, rfl, Or.inr ⟨old, data, atNode, rfl⟩⟩
  | device atNode =>
    have kind := ordinary names down _ atNode
    simp [Node.isDirectory, Node.isFile] at kind

end Unjar.FileSystem
