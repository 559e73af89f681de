import Unjar.Proofs.FileSystem.Enclosing

/-!
What the files of a file system hold. Making directories and changing modes leaves it alone.
-/

namespace Unjar.FileSystem

variable {fs fs' fs'' origin : FileSystem} {base : Path} {l m : Location} {names : List Bytes}

def data? (fs : FileSystem) (m : Location) : Option Bytes :=
  match fs.node? m with
  | some (.file _ data) => some data
  | _ => none

theorem data?_eq_some {data : Bytes} : fs.data? m = some data ↔ ∃ mode, fs.node? m = some (.file mode data) := by
  unfold data?
  cases fs.node? m with
  | none => simp
  | some node => cases node <;> simp

theorem data?_congr (same : fs'.node? m = fs.node? m) : fs'.data? m = fs.data? m := by
  rw [data?, data?, same]

theorem data?_put (fs : FileSystem) (l m : Location) (mode : Nat) (data : Bytes) :
    (fs.put l (.file mode data)).data? m = if m = l then some data else fs.data? m := by
  split
  · rename_i here
    exact data?_eq_some.mpr ⟨mode, by rw [node?_put, if_pos here]⟩
  · rename_i elsewhere
    exact data?_congr (by rw [node?_put, if_neg elsewhere])

/-- There are files and directories below a location, and nothing else. -/
def Ordinary (fs : FileSystem) (l : Location) : Prop :=
  ∀ names, names ≠ [] → ∀ node, fs.node? (l ++ names) = some node → node.isDirectory = true ∨ node.isFile = true

theorem Ordinary.put (ordinary : fs.Ordinary l) {node : Node} (kind : node.isDirectory = true ∨ node.isFile = true) :
    (fs.put m node).Ordinary l := by
  intro names down other there
  rw [node?_put] at there
  split at there
  · exact Option.some.inj there ▸ kind
  · exact ordinary names down other there

theorem Ordinary.linkFree (ordinary : fs.Ordinary l) (directory : fs.isDirectoryAt l = true) : fs.LinkFree l := by
  intro names target there
  by_cases top : names = []
  · rw [top, List.append_nil] at there
    rw [isDirectoryAt, there] at directory
    cases directory
  · have kind := ordinary names top _ there
    simp [Node.isDirectory, Node.isFile] at kind

/-- Among files and directories, what can be read is a file. -/
theorem Ordinary.data?_of_contents (ordinary : fs.Ordinary l) (down : names ≠ []) {data : Bytes}
    (content : fs.contents (l ++ names) = .ok data) : fs.data? (l ++ names) = some data := by
  unfold contents at content
  cases there : fs.node? (l ++ names) with
  | none => rw [there] at content; cases content
  | some node =>
    rw [there] at content
    have kind := ordinary names down node there
    cases node with
    | file mode held =>
      cases content
      exact data?_eq_some.mpr ⟨mode, there⟩
    | directory mode => cases content
    | link target | device => simp [Node.isDirectory, Node.isFile] at kind

theorem contents_of_data? {data : Bytes} (held : fs.data? m = some data) : fs.contents m = .ok data := by
  obtain ⟨mode, there⟩ := data?_eq_some.mp held
  rw [contents, there]

/-- The files hold the same. -/
structure SameData (l : Location) (fs fs' : FileSystem) : Prop where
  data : ∀ m, fs'.data? m = fs.data? m
  ordinary : fs.Ordinary l → fs'.Ordinary l

namespace SameData

theorem refl (fs : FileSystem) : SameData l fs fs :=
  ⟨fun _ => rfl, id⟩

theorem trans (first : SameData l fs fs') (second : SameData l fs' fs'') : SameData l fs fs'' :=
  ⟨fun m => (second.data m).trans (first.data m), second.ordinary ∘ first.ordinary⟩

theorem of_adds {fresh : Location → Prop} (adds : fs.AddsDirectories fs' fresh) : SameData l fs fs' := by
  constructor
  · intro m
    rcases adds.nodes m with same | ⟨absent, _, directory⟩
    · exact data?_congr same
    · obtain ⟨mode, there⟩ := isDirectoryAt_iff.mp directory
      rw [data?, data?, absent, there]
  · intro ordinary names down node there
    rcases adds.nodes (l ++ names) with same | ⟨_, _, directory⟩
    · exact ordinary names down node (same ▸ there)
    · rw [isDirectoryAt, there] at directory
      exact Or.inl directory

theorem changeMode {p : Path} {mode : Nat} (changed : fs.changeMode p mode = .ok fs') : SameData l fs fs' := by
  obtain ⟨m, _, changes⟩ := changeMode_ok changed
  cases changes with
  | file atNode =>
    refine ⟨fun m' => ?_, fun ordinary => ordinary.put (Or.inr rfl)⟩
    rw [data?_put]
    split
    · rename_i here
      rw [here, data?, atNode]
    · rfl
  | directory atNode =>
    refine ⟨fun m' => ?_, fun ordinary => ordinary.put (Or.inl rfl)⟩
    by_cases here : m' = m
    · rw [data?, data?, node?_put, if_pos here, here, atNode]
    · exact data?_congr (by rw [node?_put, if_neg here])
  | other _ => exact .refl fs

end SameData

/-- What is opened for writing is a file that is emptied, where there are files and directories only. -/
theorem Within.openToWrite_empties (within : Within base l origin fs) (ordinary : fs.Ordinary l)
    (valid : AllNames names) (down : names ≠ []) {opened : FileSystem} (done : fs.openToWrite (base.descendant names) = .ok (m, opened)) :
    m = l ++ names ∧ ∃ mode, opened = fs.put (l ++ names) (.file mode []) := by
  obtain ⟨_, rfl, opens⟩ := within.leads.opens_below within.free valid down done
  cases opens with
  | new | old => exact ⟨rfl, _, rfl⟩
  | device atNode =>
    have kind := ordinary names down _ atNode
    simp [Node.isDirectory, Node.isFile] at kind

theorem data?_fill {old data : Bytes} (there : fs.data? l = some old) (m : Location) :
    (fs.fill l data).data? m = if m = l then some data else fs.data? m := by
  obtain ⟨mode, atNode⟩ := data?_eq_some.mp there
  rw [fill, atNode]
  exact data?_put fs l m _ data

theorem Ordinary.fill (ordinary : fs.Ordinary l) (m : Location) (data : Bytes) : (fs.fill m data).Ordinary l := by
  unfold FileSystem.fill
  split
  · exact ordinary.put (Or.inr rfl)
  · exact ordinary

end Unjar.FileSystem
