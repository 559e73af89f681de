import Unjar.Proofs.FileSystem.Enclosing

/-!
What an operation on one path may change, whether it succeeds or not: the node that the path stands for, and
directories that are made above it.
-/

namespace Unjar.FileSystem

variable {fs fs' fs'' : FileSystem} {m : Location}

/-- The second file system differs from the first one at a location, and by new directories above it. -/
structure Toward (fs fs' : FileSystem) (m : Location) : Prop where
  here : fs'.here = fs.here
  nodes : ∀ l, l ≠ m → fs'.node? l = fs.node? l ∨ fs.node? l = none ∧ l <+: m ∧ fs'.isDirectoryAt l = true

namespace Toward

theorem refl (fs : FileSystem) (m : Location) : fs.Toward fs m :=
  ⟨rfl, fun _ _ => Or.inl rfl⟩

theorem trans (first : fs.Toward fs' m) (second : fs'.Toward fs'' m) : fs.Toward fs'' m := by
  refine ⟨second.here.trans first.here, ?_⟩
  intro l elsewhere
  rcases second.nodes l elsewhere with same | ⟨absent, isFront, directory⟩
  · rw [isDirectoryAt, same]
    exact first.nodes l elsewhere
  · rcases first.nodes l elsewhere with same' | ⟨_, _, directory'⟩
    · exact Or.inr ⟨by rw [← same', absent], isFront, directory⟩
    · rw [isDirectoryAt, absent] at directory'
      cases directory'

theorem of_adds {fresh : Location → Prop} (adds : fs.AddsDirectories fs' fresh) (above : ∀ l, fresh l → l <+: m) :
    fs.Toward fs' m :=
  ⟨adds.here, fun l _ => (adds.nodes l).imp_right fun ⟨absent, isFresh, directory⟩ =>
    ⟨absent, above l isFresh, directory⟩⟩

theorem put (fs : FileSystem) (m : Location) (node : Node) : fs.Toward (fs.put m node) m := by
  refine ⟨rfl, fun l elsewhere => Or.inl ?_⟩
  rw [node?_put, if_neg elsewhere]

theorem openToWrite {p : Path} (done : fs.openToWrite p = .ok (m, fs')) : fs.Toward fs' m := by
  cases openToWrite_ok done with
  | new _ | old _ _ => exact .put _ _ _
  | device _ _ => exact .refl _ _

theorem fill (fs : FileSystem) (m : Location) (data : Bytes) : fs.Toward (fs.fill m data) m := by
  unfold FileSystem.fill
  split
  · exact .put _ _ _
  · exact .refl _ _

theorem changeMode {p : Path} {mode : Nat} (located : ∀ l, fs.locate .use p = .ok l → l = m)
    (done : fs.changeMode p mode = .ok fs') : fs.Toward fs' m := by
  obtain ⟨l, atPath, changes⟩ := changeMode_ok done
  obtain rfl := located l atPath
  cases changes with
  | file _ | directory _ => exact .put _ _ _
  | other _ => exact .refl _ _

end Toward

section Below

variable {origin : FileSystem} {base dest : Path} {l : Location} {names : List Bytes}

theorem prefix_of_passed (passed : Passed l names m) : m <+: l ++ names := by
  obtain ⟨front, _, isFront, rfl⟩ := passed
  exact (List.prefix_append_right_inj l).mpr isFront

/-- A path of names below a base stands for the location that the names lead to from the place of the base. -/
theorem place_descendant (fs : FileSystem) (base : Path) (valid : AllNames names) :
    fs.place (base.descendant names) = fs.place base ++ names := by
  rw [place_eq, place_eq, Path.cleaned_descendant base valid]
  exact (List.append_assoc _ _ _).symm

theorem place_clean (fs : FileSystem) (p : Path) : fs.place p.clean = fs.place p := by
  rw [place_eq, place_eq, Path.cleaned_clean]

end Below

end Unjar.FileSystem
