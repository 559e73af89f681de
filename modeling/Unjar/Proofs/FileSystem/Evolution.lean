import Unjar.Proofs.FileSystem.Within

/-!
What can happen to a file system at all, whatever the paths are and wherever the links on them lead:
directories and links stay, and what is new is a file or a directory.
-/

namespace Unjar.FileSystem

variable {fs fs' fs'' : FileSystem}

structure Evolves (fs fs' : FileSystem) : Prop where
  sound : fs'.Sound
  keeps : fs.Keeps fs'
  ordinary : ∀ m node, fs'.node? m = some node →
    fs.node? m = some node ∨ node.isDirectory = true ∨ node.isFile = true

namespace Evolves

theorem refl (sound : fs.Sound) : fs.Evolves fs :=
  ⟨sound, ⟨rfl, fun _ there => there, fun _ _ there => there⟩, fun _ _ there => Or.inl there⟩

theorem trans (first : fs.Evolves fs') (second : fs'.Evolves fs'') : fs.Evolves fs'' := by
  refine ⟨second.sound, ⟨second.keeps.here.trans first.keeps.here, ?_, ?_⟩, ?_⟩
  · exact fun l there => second.keeps.directories l (first.keeps.directories l there)
  · exact fun l target there => second.keeps.links l target (first.keeps.links l target there)
  · intro m node there
    rcases second.ordinary m node there with before | kind
    · exact first.ordinary m node before
    · exact Or.inr kind

/-- A link was there before. -/
theorem link (evolves : fs.Evolves fs') {l : Location} {target : Path} (there : fs'.node? l = some (.link target)) :
    fs.node? l = some (.link target) :=
  (evolves.ordinary l _ there).resolve_right (by simp [Node.isDirectory, Node.isFile])

theorem plain (evolves : fs.Evolves fs') {p : Path} (plain : fs.Plain p) : fs'.Plain p := by
  intro l passed target there
  rw [trail_congr evolves.keeps.here] at passed
  exact plain l passed target (evolves.link there)

theorem linkFree (evolves : fs.Evolves fs') {l : Location} (free : fs.LinkFree l) : fs'.LinkFree l :=
  fun names target there => free names target (evolves.link there)

theorem put {l : Location} {node : Node} (sound : (fs.put l node).Sound)
    (directories : fs.isDirectoryAt l = true → node.isDirectory = true)
    (links : ∀ target, fs.node? l ≠ some (.link target)) (kind : node.isDirectory = true ∨ node.isFile = true) :
    fs.Evolves (fs.put l node) := by
  refine ⟨sound, keeps_put directories links, ?_⟩
  intro m other there
  rw [node?_put] at there
  split at there
  · cases there
    exact Or.inr kind
  · exact Or.inl there

theorem put_new {parent : Location} {name : Bytes} {node : Node} (sound : fs.Sound)
    (vacancy : fs.Vacancy parent name) (kind : node.isDirectory = true ∨ node.isFile = true) :
    fs.Evolves (fs.put (parent ++ [name]) node) := by
  refine .put (sound.put_new vacancy node) ?_ ?_ kind
  · intro there
    rw [isDirectoryAt, vacancy.free] at there
    cases there
  · intro target there
    rw [vacancy.free] at there
    cases there

theorem put_same {l : Location} {old node : Node} (sound : fs.Sound) (there : fs.node? l = some old)
    (directory : old.isDirectory = true → node.isDirectory = true) (notLink : ∀ target, old ≠ .link target)
    (kind : node.isDirectory = true ∨ node.isFile = true) : fs.Evolves (fs.put l node) := by
  refine .put (sound.put_same there directory) ?_ ?_ kind
  · intro isDirectory
    rw [isDirectoryAt, there] at isDirectory
    exact directory isDirectory
  · intro target link
    rw [there] at link
    exact notLink target (Option.some.inj link)

theorem makeNode (sound : fs.Sound) {p : Path} {node : Location → Node}
    (kind : ∀ parent, (node parent).isDirectory = true ∨ (node parent).isFile = true)
    (made : fs.makeNode p node = .ok fs') : fs.Evolves fs' := by
  obtain ⟨parent, name, slashed, found, rfl⟩ := makeNode_ok made
  exact .put_new sound ((sound.find_free found).resolve_left (by simp)) (kind parent)

theorem makeDirectory (sound : fs.Sound) {p : Path} (made : fs.makeDirectory p = .ok fs') : fs.Evolves fs' :=
  makeNode sound (fun _ => Or.inl rfl) made

theorem makeDirectories (sound : fs.Sound) (p : Path) : fs.Evolves (fs.makeDirectories p).2 :=
  makeLineage_induction (fun _ _ _ _ before made => before.trans (.makeDirectory before.sound made)) (.refl sound)

theorem openFile (sound : fs.Sound) {newMode : Nat} {empties : Bool} {p : Path} {l : Location} {opened : FileSystem}
    (done : fs.openFile newMode empties p = .ok (l, opened)) : fs.Evolves opened := by
  cases openFile_ok done with
  | new found => exact .put_new sound ((sound.find_free found).resolve_left (by simp)) (Or.inr rfl)
  | old _ atNode => exact .put_same sound atNode (by simp [Node.isDirectory]) (by simp) (Or.inr rfl)
  | kept _ _ | device _ _ => exact .refl sound

theorem openToWrite (sound : fs.Sound) {p : Path} {l : Location} {opened : FileSystem}
    (done : fs.openToWrite p = .ok (l, opened)) : fs.Evolves opened :=
  openFile sound done

theorem fill (sound : fs.Sound) (l : Location) (data : Bytes) : fs.Evolves (fs.fill l data) := by
  unfold FileSystem.fill
  split
  · rename_i atNode
    exact .put_same sound atNode (by simp [Node.isDirectory]) (by simp) (Or.inr rfl)
  · exact .refl sound

theorem changeMode (sound : fs.Sound) {p : Path} {mode : Nat} (changed : fs.changeMode p mode = .ok fs') :
    fs.Evolves fs' := by
  obtain ⟨m, _, changes⟩ := changeMode_ok changed
  cases changes with
  | file atNode => exact .put_same sound atNode (by simp [Node.isDirectory]) (by simp) (Or.inr rfl)
  | directory atNode => exact .put_same sound atNode (fun _ => rfl) (by simp) (Or.inl rfl)
  | other _ => exact .refl sound

end Evolves

end Unjar.FileSystem
