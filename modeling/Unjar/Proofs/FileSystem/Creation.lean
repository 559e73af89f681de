import Unjar.Proofs.FileSystem.Making

/-!
Opening a file for writing where nothing was found, wherever the links on its way lead: it makes an empty file at
a place that was free, and the path leads there from then on.
-/

namespace Unjar.FileSystem

variable {fs : FileSystem}

/-- What is found is there. -/
theorem Finds.isSome (sound : fs.Sound) {purpose : Purpose} {links : Nat} {l m : Location} {steps : List Step}
    (found : fs.Finds purpose (.taken m) links l steps) (here : fs.isDirectoryAt l = true) : (fs.node? m).isSome := by
  induction found with
  | arrives same =>
    cases same
    exact isSome_of_isDirectoryAt here
  | stays _ _ ih => exact ih here
  | ascends _ ih => exact ih (sound.directory_of_prefix here (List.dropLast_prefix _))
  | enters _ there _ ih => exact ih there
  | follows _ _ _ _ _ ih => exact ih (sound.directory_of_target _ here)
  | stops _ there _ same =>
    cases same
    rw [there]
    rfl
  | vacant _ _ _ same | slashed _ _ same => cases same

theorem Sound.isSome_of_find (sound : fs.Sound) {purpose : Purpose} {p : Path} {l : Location}
    (found : fs.find purpose p = .ok (.taken l)) : (fs.node? l).isSome :=
  (find_ok.mp found).2.isSome sound (sound.directory_start p)

theorem Sound.isSome_of_locate (sound : fs.Sound) {purpose : Purpose} {p : Path} {l : Location}
    (located : fs.locate purpose p = .ok l) : (fs.node? l).isSome :=
  sound.isSome_of_find (locate_ok.mp located)

/-- A node that is found to be opened is what the path stands for. -/
theorem Finds.of_opened {links : Nat} {l m : Location} {steps : List Step}
    (found : fs.Finds .openFile (.taken m) links l steps) : fs.Finds .use (.taken m) links l steps := by
  induction found with
  | arrives same => exact .arrives same
  | stays stays _ ih => exact .stays stays ih
  | ascends _ ih => exact .ascends ih
  | enters tried there _ ih => exact .enters (.use tried.fits) there ih
  | follows tried there _ named _ ih => exact .follows (.use tried.fits) there (followsLast_use _) named ih
  | @stops _ _ _ rest node tried there stops same =>
    have last : rest = [] := stops.short.resolve_right fun slashed => tried.unslashed ⟨rfl, slashed⟩
    subst last
    refine .stops (.use tried.fits) there ?_ same
    cases node with
    | directory mode | link target => cases stops
    | file mode data | device => exact Or.inl rfl
  | vacant _ _ _ same | slashed _ _ same => cases same

theorem find_of_opened {p : Path} {l : Location} (found : fs.find .openFile p = .ok (.taken l)) :
    fs.find .use p = .ok (.taken l) := by
  obtain ⟨spelled, found⟩ := find_ok.mp found
  exact find_ok.mpr ⟨spelled, found.of_opened⟩

theorem locate_of_opened {p : Path} {l : Location} (found : fs.find .openFile p = .ok (.taken l)) :
    fs.locate .use p = .ok l :=
  locate_ok.mpr (find_of_opened found)

theorem has_of_opened {p : Path} {l : Location} (found : fs.find .openFile p = .ok (.taken l))
    (there : (fs.node? l).isSome) : fs.has p = true :=
  has_iff.mpr ⟨l, locate_of_opened found, there⟩

/-- Where nothing was, a new file is opened, which takes what is written to it. -/
theorem write_of_absent {p : Path} (absent : fs.has p = false) {l : Location} {opened : FileSystem}
    (done : fs.openToWrite p = .ok (l, opened)) (data : Bytes) : opened.write l data = .ok (opened.fill l data) := by
  cases openToWrite_ok done with
  | new found => exact write_put _ _ _ _ _
  | old found atNode | device found atNode _ =>
    rw [has_of_opened found (by simp [atNode])] at absent
    cases absent

/-- What is opened for writing and was not there is a new file, and found under its path. -/
theorem Sound.openToWrite_absent (sound : fs.Sound) {p : Path} (absent : fs.has p = false) {l : Location}
    {opened : FileSystem} (done : fs.openToWrite p = .ok (l, opened)) :
    fs.node? l = none ∧ opened = fs.put l (.file fileMode []) ∧
      ∀ data, (fs.put l (.file fileMode data)).locate .use p = .ok l := by
  cases openToWrite_ok done with
  | new found =>
    have vacancy := (sound.find_free found).resolve_left (by simp)
    exact ⟨vacancy.free, rfl, fun data => locate_put vacancy.free ⟨Or.inr ⟨rfl, rfl⟩, fun _ => rfl⟩ found⟩
  | old found _ | device found _ _ =>
    rw [has_of_opened found (sound.isSome_of_find found)] at absent
    cases absent

end Unjar.FileSystem
