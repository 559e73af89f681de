import Unjar.Proofs.FileSystem.Evolution

/-!
A directory that is made in another one, and is removed again with all that came to be below it.
-/

namespace Unjar.FileSystem

variable {fs fs' : FileSystem} {base : Path} {l m t parent : Location} {name last : Bytes} {slashed : Bool}

/-- Of a name to be made it is free itself, in the directory it is looked up from. -/
theorem Finds.free_child {links : Nat} (found : fs.Finds .makeDirectory (.free parent last slashed) links l [.descend name]) :
    l = parent ∧ last = name := by
  cases found with
  | stays stays => simp at stays
  | enters _ _ found => cases found with | arrives same => cases same
  | follows _ _ follows => cases follows
  | stops _ _ _ same => cases same
  | vacant _ _ _ same => cases same; exact ⟨rfl, rfl⟩
  | slashed opened => cases opened

/-- A directory is made in the one that its path leads through, where there is nothing. -/
theorem Sound.makeDirectory_child (sound : fs.Sound) (valid : IsName name)
    (made : fs.makeDirectory (base.child name) = .ok fs') :
    ∃ t, fs.Leads base t ∧ fs.Vacancy t name ∧ fs' = fs.put (t ++ [name]) (.directory (fs.modeBelow t)) ∧
      (base.child name).fault? = none := by
  have named : AllNames [name] := .singleton valid
  obtain ⟨parent, last, slashed, found, rfl⟩ := makeDirectory_ok made
  have vacancy := (sound.find_free found).resolve_left (by simp)
  obtain ⟨spelled, found⟩ := find_ok.mp found
  have steps : (base.child name).steps = base.way ++ [.descend name] := Path.steps_descendant base named (by simp)
  have start : fs.start (base.child name) = fs.start base := start_descendant fs base named
  rw [steps, start] at found
  obtain ⟨left, m, reached, behind⟩ := found.cut (List.cons_ne_nil name [])
  obtain ⟨rfl, rfl⟩ := behind.free_child
  exact ⟨m, leads_iff.mpr ⟨reached, vacancy.directory⟩, vacancy, rfl, spelled⟩

/-- A directory is removed from the one that its path leads through. -/
theorem Leads.removeTree_child (leads : fs.Leads base t) (sound : fs.Sound) (valid : IsName name)
    (spelled : (base.child name).fault? = none) (directory : fs.isDirectoryAt (t ++ [name]) = true) :
    fs.removeTree (base.child name) = .ok (fs.prune (t ++ [name])) := by
  have named : AllNames [name] := .singleton valid
  obtain ⟨left, walked⟩ := followLinks_append (passes_names .inspect (List.cons_ne_nil name [])) leads.directory
    leads.walked
  have reached : fs.followLinks .inspect left t [.descend name] = .ok (.taken (t ++ [name])) := by
    exact followLinks_ok.mpr (sound.finds_directory directory)
  have located : fs.locate .inspect (base.child name) = .ok (t ++ [name]) := by
    have steps : (base.child name).steps = base.way ++ [.descend name] := Path.steps_descendant base named (by simp)
    have start : fs.start (base.child name) = fs.start base := start_descendant fs base named
    rw [FileSystem.locate, find_eq, Path.checked_of_sound spelled, steps, start]
    rw [List.map_cons, List.map_nil] at walked
    rw [walked, reached]
    rfl
  obtain ⟨mode, there⟩ := isDirectoryAt_iff.mp directory
  rw [removeTree, located]
  simp only [bind, Except.bind, there]

end Unjar.FileSystem
