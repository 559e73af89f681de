import Unjar.Proofs.FileSystem.Ensure

/-!
Opening and looking up what lies below a directory that is reached, and file systems that have the same
nodes below a location: they answer alike there.
-/

namespace Unjar.FileSystem

variable {fs fs' : FileSystem}

/-- Where a walk along names can end. -/
theorem seek_cases {l : Location} {names : List Bytes} {spot : Spot} (here : fs.isDirectoryAt l = true)
    (valid : AllNames names) (found : fs.seek l names = .ok spot) :
    (spot = .taken (l ++ names) ∧ (fs.node? (l ++ names)).isSome) ∨
      ∃ front name, names = front ++ [name] ∧ spot = .free (l ++ front) name false ∧ fs.Vacancy (l ++ front) name := by
  induction names generalizing l with
  | nil =>
    cases found
    exact Or.inl ⟨by rw [List.append_nil], by rw [List.append_nil]; exact isSome_of_isDirectoryAt here⟩
  | cons name rest ih =>
    rw [seek] at found
    split at found
    · cases found
    · rename_i fits
      cases atNode : fs.node? (l ++ [name]) with
      | none =>
        simp only [atNode] at found
        split at found
        · rename_i last
          cases found
          subst last
          refine Or.inr ⟨[], name, rfl, by rw [List.append_nil], ?_⟩
          rw [List.append_nil]
          exact ⟨here, valid name List.mem_cons_self, Nat.not_lt.mp fits, atNode⟩
        · cases found
      | some node =>
        have later : AllNames rest := valid.tail
        simp only [atNode] at found
        cases node with
        | directory mode =>
          have split := List.append_cons l name rest
          rcases ih (isDirectoryAt_iff.mpr ⟨mode, atNode⟩) later found with
            ⟨taken, some⟩ | ⟨front, last, names, free, vacancy⟩
          · exact Or.inl ⟨by rw [split]; exact taken, by rw [split]; exact some⟩
          · refine Or.inr ⟨name :: front, last, by rw [names]; rfl, ?_, ?_⟩
            · rw [List.append_cons l name front]; exact free
            · rw [List.append_cons l name front]; exact vacancy
        | link target | file mode data | device =>
          simp only at found
          split at found
          · rename_i last
            cases found
            subst last
            exact Or.inl ⟨rfl, by rw [atNode]; rfl⟩
          · cases found

section Below

variable {base : Path} {l : Location} {names : List Bytes}

theorem Leads.locate_descendant (leads : fs.Leads base l) (free : fs.LinkFree l) (valid : AllNames names)
    (down : names ≠ []) (purpose : Purpose) :
    fs.locate purpose (base.descendant names) = match (base.descendant names).checked (fs.seek l names) with
      | .ok (.taken m) => .ok m
      | .ok (.free _ _ _) => .error .notFound
      | .error fault => .error fault := by
  rw [FileSystem.locate, leads.find free valid down]
  cases (base.descendant names).checked (fs.seek l names) with
  | error fault => rfl
  | ok spot => cases spot <;> rfl

/-- A path below a directory that is reached is located where its node is. -/
theorem Leads.locate_ok (leads : fs.Leads base l) (free : fs.LinkFree l) (valid : AllNames names) (down : names ≠ [])
    {purpose : Purpose} {m : Location} (located : fs.locate purpose (base.descendant names) = .ok m) :
    m = l ++ names ∧ (fs.node? (l ++ names)).isSome ∧ (base.descendant names).fault? = none := by
  rw [leads.locate_descendant free valid down] at located
  cases found : (base.descendant names).checked (fs.seek l names) with
  | error fault => rw [found] at located; cases located
  | ok spot =>
    obtain ⟨spelled, sought⟩ := checked_ok.mp found
    rw [found] at located
    rcases seek_cases leads.directory valid sought with ⟨rfl, some⟩ | ⟨front, name, _, rfl, _⟩
    · cases located
      exact ⟨rfl, some, spelled⟩
    · cases located

theorem Sound.seek_of_node (sound : fs.Sound) (there : (fs.node? (l ++ names)).isSome) :
    fs.seek l names = .ok (.taken (l ++ names)) := by
  rcases List.eq_nil_or_concat' names with rfl | ⟨front, name, rfl⟩
  · rw [seek, List.append_nil]
  · rw [← List.append_assoc] at there ⊢
    have directory := sound.above there (by simp)
    have fits := (sound.names _ there).2 name (by simp)
    rw [seek_append (sound.seek_directory directory) directory, seek, if_neg (by omega)]
    cases atNode : fs.node? (l ++ front ++ [name]) with
    | none => rw [atNode] at there; cases there
    | some node =>
      cases node with
      | directory mode => rfl
      | link target | file mode data | device => rfl

theorem Leads.locate_of_node (leads : fs.Leads base l) (sound : fs.Sound) (free : fs.LinkFree l)
    (valid : AllNames names) (down : names ≠ []) (spelled : (base.descendant names).fault? = none)
    (there : (fs.node? (l ++ names)).isSome) (purpose : Purpose) :
    fs.locate purpose (base.descendant names) = .ok (l ++ names) := by
  rw [leads.locate_descendant free valid down, Path.checked_of_sound spelled,
    sound.seek_of_node there]

/-- Opening a file below a directory that is reached: the file, or a new one, is there. -/
theorem Leads.openToWrite (leads : fs.Leads base l) (free : fs.LinkFree l) (valid : AllNames names)
    (down : names ≠ []) :
    fs.openToWrite (base.descendant names) = match (base.descendant names).checked (fs.seek l names) with
      | .error fault => .error fault
      | .ok (.free _ _ _) => .ok (l ++ names, fs.put (l ++ names) (.file fileMode []))
      | .ok (.taken _) =>
        match fs.node? (l ++ names) with
        | some (.file mode _) => .ok (l ++ names, fs.put (l ++ names) (.file (modeAfterWriting mode) []))
        | some (.device .terminal) => .error .noDevice
        | some (.device _) => .ok (l ++ names, fs)
        | _ => .error .isADirectory := by
  rw [FileSystem.openToWrite, openFile, leads.find free valid down]
  cases found : (base.descendant names).checked (fs.seek l names) with
  | error fault => rfl
  | ok spot =>
    obtain ⟨_, sought⟩ := checked_ok.mp found
    rcases seek_cases leads.directory valid sought with ⟨rfl, _⟩ | ⟨front, name, rfl, rfl, _⟩
    · rfl
    · rw [← List.append_assoc]
      rfl

/-- How a file below a directory is opened for writing: as a new one, as an old one that is emptied, or as a device. -/
inductive OpensBelow (fs : FileSystem) (l : Location) (names : List Bytes) : FileSystem → Prop
  | new {front : List Bytes} {name : Bytes} : names = front ++ [name] → fs.Vacancy (l ++ front) name →
      OpensBelow fs l names (fs.put (l ++ names) (.file fileMode []))
  | old {mode : Nat} {data : Bytes} : fs.node? (l ++ names) = some (.file mode data) →
      OpensBelow fs l names (fs.put (l ++ names) (.file (modeAfterWriting mode) []))
  | device {device : Device} : fs.node? (l ++ names) = some (.device device) → OpensBelow fs l names fs

theorem OpensBelow.isSome {opened : FileSystem} (opens : fs.OpensBelow l names opened)
    (there : (fs.node? (l ++ names)).isSome) :
    ∃ node, fs.node? (l ++ names) = some node ∧ node.isDirectory = false := by
  cases opens with
  | new split vacancy =>
    rw [split, ← List.append_assoc, vacancy.free] at there
    cases there
  | old atNode => exact ⟨_, atNode, rfl⟩
  | device atNode => exact ⟨_, atNode, rfl⟩

theorem Leads.opens_below (leads : fs.Leads base l) (free : fs.LinkFree l) (valid : AllNames names) (down : names ≠ [])
    {m : Location} {opened : FileSystem} (done : fs.openToWrite (base.descendant names) = .ok (m, opened)) :
    (base.descendant names).fault? = none ∧ m = l ++ names ∧ fs.OpensBelow l names opened := by
  have sought : ∀ {spot}, fs.find .openFile (base.descendant names) = .ok spot →
      (base.descendant names).fault? = none ∧ fs.seek l names = .ok spot := by
    intro spot found
    rw [leads.find free valid down] at found
    exact checked_ok.mp found
  cases openToWrite_ok done with
  | @new _ _ name found =>
    obtain ⟨spelled, ends⟩ := sought found
    rcases seek_cases leads.directory valid ends with ⟨impossible, _⟩ | ⟨front, _, split, same, vacancy⟩
    · cases impossible
    · cases same
      have place : l ++ front ++ [name] = l ++ names := by rw [split, List.append_assoc]
      rw [place]
      exact ⟨spelled, rfl, .new split vacancy⟩
  | old found atNode =>
    obtain ⟨spelled, ends⟩ := sought found
    rcases seek_cases leads.directory valid ends with ⟨same, _⟩ | ⟨front, name, _, impossible, _⟩
    · cases same
      exact ⟨spelled, rfl, .old atNode⟩
    · cases impossible
  | device found atNode _ =>
    obtain ⟨spelled, ends⟩ := sought found
    rcases seek_cases leads.directory valid ends with ⟨same, _⟩ | ⟨front, name, _, impossible, _⟩
    · cases same
      exact ⟨spelled, rfl, .device atNode⟩
    · cases impossible

end Below

/-- The same nodes at a location and below it. -/
def SameBelow (l : Location) (fs fs' : FileSystem) : Prop :=
  ∀ names, fs'.node? (l ++ names) = fs.node? (l ++ names)

namespace SameBelow

variable {l : Location}

theorem under (same : SameBelow l fs fs') (front : List Bytes) : SameBelow (l ++ front) fs fs' := by
  intro names
  rw [List.append_assoc]
  exact same (front ++ names)

theorem seek (same : SameBelow l fs fs') (names : List Bytes) : fs'.seek l names = fs.seek l names := by
  induction names generalizing l with
  | nil => rfl
  | cons name rest ih =>
    rw [FileSystem.seek, FileSystem.seek, same [name], ih (same.under [name])]

theorem put (same : SameBelow l fs fs') (m : Location) (node : Node) :
    SameBelow l (fs.put m node) (fs'.put m node) := by
  intro names
  rw [node?_put, node?_put, same]

theorem fill (same : SameBelow l fs fs') (names : List Bytes) (data : Bytes) :
    SameBelow l (fs.fill (l ++ names) data) (fs'.fill (l ++ names) data) := by
  unfold FileSystem.fill
  rw [same names]
  cases fs.node? (l ++ names) with
  | none => exact same
  | some node => cases node <;> first | exact same | exact same.put _ _

theorem ensure (same : SameBelow l fs fs') (front names : List Bytes) :
    (fs'.ensure (l ++ front) names).1 = (fs.ensure (l ++ front) names).1 ∧
      SameBelow l (fs.ensure (l ++ front) names).2 (fs'.ensure (l ++ front) names).2 := by
  induction names generalizing fs fs' front with
  | nil => exact ⟨rfl, same⟩
  | cons name rest ih =>
    have there := same (front ++ [name])
    have parent : fs'.modeBelow (l ++ front) = fs.modeBelow (l ++ front) := by
      rw [modeBelow, modeBelow, same front]
    rw [FileSystem.ensure, FileSystem.ensure]
    rw [← List.append_assoc] at there
    rw [there, parent]
    split
    · exact ⟨rfl, same⟩
    · cases fs.node? (l ++ front ++ [name]) with
      | none =>
        simp only
        rw [List.append_assoc]
        exact ih (same.put _ _) (front ++ [name])
      | some node =>
        cases node with
        | directory mode =>
          simp only
          rw [List.append_assoc]
          exact ih same (front ++ [name])
        | link target | file mode data | device => exact ⟨rfl, same⟩

end SameBelow

end Unjar.FileSystem
