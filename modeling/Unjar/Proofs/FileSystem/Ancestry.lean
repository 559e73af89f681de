import Unjar.Proofs.FileSystem.Creation
import Unjar.Proofs.FileSystem.Front
import Unjar.Proofs.FileSystem.Remaking

/-!
Making a directory and those above it, whatever links are on the way. What is new is a directory that the path or one
of its ancestors leads to, and a directory that was made has nothing in it, so that no path below it comes to lead
anywhere.
-/

namespace Unjar.FileSystem

variable {fs fs' before made : FileSystem} {p q : Path} {name : Bytes} {fuel : Nat} {l : Location}

/-- The ancestors of a path are spelled by a front of its components. -/
theorem components_of_parentsFrom (member : q ∈ parentsFrom fuel p) : q.components <+: p.components := by
  induction fuel generalizing p with
  | zero =>
    obtain rfl := List.mem_singleton.mp member
    exact List.prefix_rfl
  | succ fuel ih =>
    rw [parentsFrom] at member
    cases above : p.parent with
    | none =>
      rw [above] at member
      obtain rfl := List.mem_singleton.mp member
      exact List.prefix_rfl
    | some parent =>
      rw [above] at member
      rcases List.mem_cons.mp member with rfl | higher
      · exact List.prefix_rfl
      · obtain ⟨last, split⟩ := Path.components_parent above
        rw [split]
        exact (ih higher).trans (List.prefix_append _ _)

theorem startsWith_of_lineage (member : q ∈ lineage p) : p.startsWith q = true :=
  List.isPrefixOf_iff_prefix.mpr (components_of_parentsFrom member)

/-- What a path of a list leads to. -/
def Located (fs : FileSystem) (paths : List Path) (l : Location) : Prop :=
  ∃ p ∈ paths, fs.locate .use p = .ok l

/-- One more directory: what was located is located still, and the new directory as well. -/
theorem Sound.makeDirectory_located (sound : before.Sound) {paths : List Path} (member : p ∈ paths)
    (done : before.makeDirectory p = .ok made) :
    before.AddsDirectories made (made.Located paths) ∧ ∀ l, before.Located paths l → made.Located paths l := by
  obtain ⟨parent, name, slashed, found, rfl⟩ := makeDirectory_ok done
  have vacancy := (sound.find_free found).resolve_left (by simp)
  refine ⟨.put vacancy.free ⟨p, member, locate_put vacancy.free ⟨Or.inl rfl, by simp⟩ found⟩ _, ?_⟩
  rintro l ⟨q, inPaths, located⟩
  have keeps := (Grows.put vacancy.free (.directory (before.modeBelow parent))).keeps
  refine ⟨q, inPaths, keeps.locate located ?_⟩
  have differs : l ≠ parent ++ [name] := by
    rintro rfl
    have there := sound.isSome_of_locate located
    rw [vacancy.free] at there
    cases there
  rw [node?_put, if_neg differs]

/-- Whatever comes of it, making a lineage adds directories only, and each is what a path of the lineage leads to. -/
theorem Sound.makeLineage_located (sound : fs.Sound) (paths : List Path) :
    fs.AddsDirectories (FileSystem.makeLineage paths fs).2 ((FileSystem.makeLineage paths fs).2.Located paths) := by
  have whole : (FileSystem.makeLineage paths fs).2.Sound ∧ fs.AddsDirectories (FileSystem.makeLineage paths fs).2
      ((FileSystem.makeLineage paths fs).2.Located paths) := by
    refine makeLineage_induction (P := fun fs' => fs'.Sound ∧ fs.AddsDirectories fs' (fs'.Located paths)) ?_
      ⟨sound, .refl fs⟩
    rintro p member before made ⟨soundBefore, adds⟩ done
    obtain ⟨addsLast, kept⟩ := soundBefore.makeDirectory_located member done
    exact ⟨soundBefore.of_makeDirectory done, (adds.weaken kept).trans addsLast⟩
  exact whole.2

/-- Making directories adds directories on the way: each new one is what a front of the path leads to. -/
theorem Sound.makeDirectories_located (sound : fs.Sound) (p : Path) :
    fs.AddsDirectories (fs.makeDirectories p).2
      fun l => ∃ front, p.startsWith front = true ∧ (fs.makeDirectories p).2.locate .use front = .ok l :=
  (sound.makeLineage_located (lineage p)).weaken fun _ ⟨front, member, located⟩ =>
    ⟨front, startsWith_of_lineage member, located⟩

/-- A path that leads to a directory with nothing in it. -/
structure Bare (fs : FileSystem) (p : Path) : Prop where
  leads : ∃ l, fs.Leads p l ∧ ∀ names, names ≠ [] → fs.node? (l ++ names) = none
  named : p.components ≠ []

/-- A directory that was just made has nothing in it. -/
theorem Sound.bare_of_makeDirectory (sound : fs.Sound) (named : p.components ≠ [])
    (done : fs.makeDirectory p = .ok made) : made.Bare p := by
  obtain ⟨m, leads, spelled⟩ := leads_of_isDirectory (isDirectory_of_makeDirectory done sound)
  obtain ⟨parent, name, slashed, found, rfl⟩ := makeDirectory_ok done
  have vacancy := (sound.find_free found).resolve_left (by simp)
  have located : (fs.put (parent ++ [name]) (.directory (fs.modeBelow parent))).locate .use p = .ok (parent ++ [name]) :=
    locate_put vacancy.free ⟨Or.inl rfl, by simp⟩ found
  obtain rfl : m = parent ++ [name] := Except.ok.inj ((leads.locate spelled).symm.trans located)
  refine ⟨⟨_, leads, fun names down => ?_⟩, named⟩
  have nothing : fs.isDirectoryAt (parent ++ [name]) = false := by rw [isDirectoryAt, vacancy.free]; rfl
  rw [node?_put, if_neg (by simpa using down)]
  exact sound.below_none nothing down

theorem has_of_isDirectory (there : fs.isDirectory p = true) : fs.has p = true := by
  obtain ⟨l, located, directory⟩ := isDirectory_iff.mp there
  exact has_iff.mpr ⟨l, located, isSome_of_isDirectoryAt directory⟩

/-- What is found is found still where nodes are added. -/
theorem Grows.has (grows : fs.Grows fs') (there : fs.has p = true) : fs'.has p = true := by
  obtain ⟨node, stands⟩ := Option.isSome_iff_exists.mp there
  rw [FileSystem.has, grows.stat? stands]
  rfl

/-- The steps that the components of a path make, without those that stay. -/
theorem thins_components (p : Path) : Thins p.way (p.components.filterMap step?) := by
  have anchored : p.anchor.filterMap step? = [] := by
    unfold Path.anchor
    split
    · rfl
    · split <;> rfl
  rw [Path.components_eq_anchor_inner, List.filterMap_append, anchored, List.nil_append]
  exact thins_way p

/-- What is looked up is reached along the components of the path. -/
theorem Finds.components (located : fs.locate .use p = .ok l) :
    fs.Finds .use (.taken l) linksMax (fs.start p) (p.components.filterMap step?) :=
  ((find_ok.mp (locate_ok.mp located)).2.thinned (thins_steps p)).thinned (thins_components p)

/-- A name is not found where there is none. -/
theorem Finds.not_vacant (vacant : fs.node? (l ++ [name]) = none) {links : Nat} {m : Location} :
    ¬ fs.Finds .use (.taken m) links l [.descend name] := by
  intro found
  cases found with
  | stays stays => simp at stays
  | enters _ there => rw [isDirectoryAt, vacant] at there; cases there
  | follows _ there | stops _ there => rw [vacant] at there; cases there
  | vacant _ _ _ same | slashed _ _ same => cases same

/-- Nothing is found under a name in an empty directory. -/
theorem Bare.absent (bare : fs.Bare q) (isParent : p.parent = some q)
    (last : p.components = q.components ++ [.name name]) : fs.has p = false := by
  obtain ⟨⟨l, leads, empty⟩, _⟩ := bare
  have anchored : fs.start p = fs.start q := by
    rw [FileSystem.start, FileSystem.start, (Path.way_parent isParent).2.2]
  refine Bool.eq_false_iff.mpr fun there => ?_
  obtain ⟨m, located, _⟩ := has_iff.mp there
  have reached := followLinks_ok.mpr (Finds.components located)
  have above := followLinks_ok.mpr ((leads_iff.mp leads).1.thinned (thins_components q))
  obtain ⟨left, same⟩ := followLinks_append (passes_use [.descend name]) leads.directory above
  rw [last, List.filterMap_append, anchored] at reached
  exact Finds.not_vacant (empty [name] (by simp)) (followLinks_ok.mp (same.symm.trans reached))

/-- A last component that is not the first one is a name, where there is no step up. -/
theorem name_of_last {last : Component} (split : p.components = q.components ++ [last]) (named : q.components ≠ [])
    (straight : .up ∉ p.components) : ∃ name, last = .name name := by
  rw [Path.components_eq_anchor_inner] at split straight
  rcases List.eq_nil_or_concat' p.inner with none | ⟨front, other, inner⟩
  · -- an anchor is one component at most
    obtain ⟨first, rest, more⟩ := List.exists_cons_of_ne_nil named
    rw [none, List.append_nil, more, Path.anchor] at split
    split_ifs at split <;> simp at split
  · rw [inner, ← List.append_assoc] at split straight
    obtain ⟨_, same⟩ := List.append_inj' split rfl
    obtain rfl := List.singleton_inj.mp same
    have member : other ∈ p.inner := by simp [inner]
    rcases Path.inner_of_mem member with rfl | ⟨name, isName, _⟩
    · simp at straight
    · exact ⟨name, isName⟩

theorem Sound.bare_of_makeLast (sound : fs.Sound) (named : p.components ≠ []) (done : fs.makeLast p = (.ok (), fs')) :
    fs' = fs ∨ fs'.Bare p := by
  rcases makeLast_ok done with new | ⟨_, _, same⟩
  · exact Or.inr (sound.bare_of_makeDirectory named new)
  · exact Or.inl same

/-- Where the directories of a path are made and some were missing, the last of them is new. -/
theorem Sound.bare_of_makeLineage (sound : fs.Sound) (straight : .up ∉ p.components)
    (done : FileSystem.makeLineage (parentsFrom fuel p) fs = (.ok (), fs')) : fs' = fs ∨ fs'.Bare p := by
  induction fuel using Nat.strong_induction_on generalizing p fs' with
  | _ fuel ih =>
    obtain ⟨ancestors, split, higher⟩ : ∃ ancestors, parentsFrom fuel p = p :: ancestors ∧ (ancestors = [] ∨
        ∃ less q, less < fuel ∧ p.parent = some q ∧ ancestors = parentsFrom less q) := by
      rcases parentsFrom_cases fuel p with alone | ⟨less, q, rfl, above, split⟩
      · exact ⟨[], alone, Or.inl rfl⟩
      · exact ⟨_, split, Or.inr ⟨less, q, Nat.lt_succ_self less, above, rfl⟩⟩
    rw [split] at done
    by_cases named : p.components = []
    · rw [makeLineage_unnamed named] at done
      cases done
      exact Or.inl rfl
    rcases (makeLineage_ok named).mp done with ⟨_, last⟩ | ⟨missing, prepared, before, last⟩
    · exact sound.bare_of_makeLast named last
    rcases higher with rfl | ⟨less, q, fewer, above, rfl⟩
    · cases before
    obtain ⟨component, spelled⟩ := Path.components_parent above
    have straight' : .up ∉ q.components := fun member => straight (spelled ▸ List.mem_append_left _ member)
    rcases ih less fewer straight' before with rfl | bare
    · rcases makeLast_ok last with new | ⟨_, _, same⟩
      · rw [missing] at new
        cases new
      · exact Or.inl same
    · have soundBefore : prepared.Sound := by
        have left := sound.of_makeLineage (parentsFrom less q)
        rwa [before] at left
      rcases makeLast_ok last with new | ⟨_, there, _⟩
      · exact Or.inr (soundBefore.bare_of_makeDirectory named new)
      · -- the directory above is new, and so nothing was there
        obtain ⟨name, rfl⟩ := name_of_last spelled bare.named straight
        have absent := bare.absent above spelled
        rw [has_of_isDirectory there] at absent
        cases absent

/-- Whether anything is found under a path does not change when the directories above it are made. -/
theorem Sound.has_of_makeDirectories (sound : fs.Sound) (straight : .up ∉ p.components) (above : p.parent = some q)
    (done : fs.makeDirectories q = (.ok (), fs')) : fs'.has p = fs.has p := by
  obtain ⟨component, spelled⟩ := Path.components_parent above
  have straight' : .up ∉ q.components := fun member => straight (spelled ▸ List.mem_append_left _ member)
  rcases sound.bare_of_makeLineage straight' done with rfl | bare
  · rfl
  · obtain ⟨name, rfl⟩ := name_of_last spelled bare.named straight
    have adds := sound.makeDirectories_grow q
    rw [done] at adds
    have absent := bare.absent above spelled
    rw [absent, eq_comm, Bool.eq_false_iff]
    intro there
    rw [adds.grows.has there] at absent
    cases absent

end Unjar.FileSystem
