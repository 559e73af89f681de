import Unjar.Proofs.FileSystem.Standing
import Unjar.Proofs.FileSystem.Within

/-!
The directory that a file is put into, and the file that is put there.
-/

namespace Unjar.FileSystem

variable {origin fs prepared : FileSystem} {base : Path} {l : Location} {names : List Bytes}

theorem Leads.descendant (leads : fs.Leads base l) (sound : fs.Sound) (valid : AllNames names)
    (directory : fs.isDirectoryAt (l ++ names) = true) : fs.Leads (base.descendant names) (l ++ names) := by
  refine ⟨?_, directory⟩
  obtain ⟨left, walked⟩ := followLinks_append (passes_use (names.map .descend)) leads.directory leads.walked
  rw [start_descendant fs base valid, Path.way_descendant base valid, walked]
  exact followLinks_ok.mpr (sound.finds_directory directory)

theorem Leads.enclosing (leads : fs.Leads base l) (sound : fs.Sound) (valid : AllNames names)
    (directory : fs.isDirectoryAt (l ++ names.dropLast) = true) :
    fs.Leads (base.enclosing names) (l ++ names.dropLast) := by
  unfold Path.enclosing
  split
  · rename_i top
    rw [top, List.append_nil]
    exact leads.trimmed
  · exact leads.descendant sound valid.dropLast directory

/-- Making the directory a file is put into again changes nothing. -/
theorem Leads.makeDirectories_enclosing (leads : fs.Leads base l) (sound : fs.Sound) (valid : AllNames names)
    (directory : fs.isDirectoryAt (l ++ names.dropLast) = true) :
    fs.makeDirectories (base.enclosing names) = ((base.enclosing names).standing, fs) :=
  (leads.enclosing sound valid directory).makeDirectories

/-- However it ends, making directories below one that is reached adds those on the way. -/
theorem Within.makeDirectories_adds (within : Within base l origin fs) (valid : AllNames names) (down : names ≠ []) :
    fs.AddsDirectories (fs.makeDirectories (base.descendant names)).2 (Passed l names) ∧
      Within base l origin (fs.makeDirectories (base.descendant names)).2 := by
  rw [makeDirectories_descendant within.sound within.leads within.free valid down]
  cases (base.descendant names).fault? with
  | some fault => exact ⟨.refl fs, within⟩
  | none => exact ⟨(within.sound.ensure within.leads.directory valid).2, within.ensure valid⟩

/-- However it ends, making the directory that a file is put into adds those on the way to it. -/
theorem Within.makeEnclosing_adds (within : Within base l origin fs) (valid : AllNames names) :
    fs.AddsDirectories (fs.makeDirectories (base.enclosing names)).2 (Passed l names.dropLast) ∧
      Within base l origin (fs.makeDirectories (base.enclosing names)).2 := by
  unfold Path.enclosing
  split
  · rw [within.leads.trimmed.makeDirectories]
    exact ⟨.refl fs, within⟩
  · rename_i deep
    exact within.makeDirectories_adds valid.dropLast deep

/-- What making the directory for a file leaves behind. -/
theorem Within.prepare (within : Within base l origin fs) (valid : AllNames names)
    (made : fs.makeDirectories (base.enclosing names) = (.ok (), prepared)) :
    Within base l origin prepared ∧ fs.AddsDirectories prepared (Passed l names.dropLast) ∧
      prepared.isDirectoryAt (l ++ names.dropLast) = true ∧ (base.enclosing names).standing = .ok () := by
  unfold Path.enclosing at made ⊢
  split at made
  · rename_i top
    rw [within.leads.trimmed.makeDirectories, Prod.mk.injEq] at made
    obtain ⟨standing, rfl⟩ := made
    rw [if_pos top, top, List.append_nil]
    exact ⟨within, .refl fs, within.leads.directory, standing⟩
  · rename_i deep
    rw [if_neg deep]
    rw [makeDirectories_descendant within.sound within.leads within.free valid.dropLast deep] at made
    cases spelled : (base.descendant names.dropLast).fault? with
    | some fault => rw [spelled] at made; cases made
    | none =>
      rw [spelled] at made
      simp only at made
      have ensured := within.ensure valid.dropLast
      have adds := (within.sound.ensure within.leads.directory valid.dropLast).2
      rw [made] at ensured adds
      exact ⟨ensured, adds, ensure_ok within.sound within.leads.directory valid.dropLast made,
        standing_of_spelled spelled⟩

/-- A passed directory is no file of its own: it is above what is put there. -/
theorem not_passed_dropLast (down : names ≠ []) : ¬ Passed l names.dropLast (l ++ names) := by
  rintro ⟨front, _, isFront, place⟩
  obtain rfl := List.append_cancel_left place
  have short := isFront.length_le
  rw [List.length_dropLast] at short
  have long := List.length_pos_iff.mpr down
  omega

/-- The directories above a file leave its place as it is. -/
theorem AddsDirectories.place (adds : fs.AddsDirectories prepared (Passed l names.dropLast)) (down : names ≠ []) :
    prepared.node? (l ++ names) = fs.node? (l ++ names) :=
  (adds.nodes _).resolve_right fun ⟨_, passed, _⟩ => not_passed_dropLast down passed

theorem put_put (fs : FileSystem) (m : Location) (first second : Node) :
    (fs.put m first).put m second = fs.put m second := by
  simp [put, List.filter_filter]

theorem modeAfterWriting_fileMode : modeAfterWriting fileMode = fileMode := by decide

theorem fill_put (fs : FileSystem) (m : Location) (mode : Nat) (data : Bytes) :
    (fs.put m (.file mode [])).fill m data =
      fs.put m (.file (if data = [] then mode else modeAfterWriting mode) data) := by
  simp only [fill, node?_put, if_true, put_put]

theorem fill_new (fs : FileSystem) (m : Location) (data : Bytes) :
    (fs.put m (.file fileMode [])).fill m data = fs.put m (.file fileMode data) := by
  rw [fill_put, modeAfterWriting_fileMode, ite_self]

theorem writeFile_writes {fs' : FileSystem} {p : Path} {data : Bytes} (done : fs.writeFile p data = .ok fs') :
    ∃ m opened, fs.openToWrite p = .ok (m, opened) ∧ opened.write m data = .ok fs' := by
  unfold FileSystem.writeFile at done
  cases opening : fs.openToWrite p with
  | error fault => rw [opening] at done; cases done
  | ok pair =>
    rw [opening] at done
    exact ⟨pair.1, pair.2, rfl, done⟩

theorem writeFile_ok {fs' : FileSystem} {p : Path} {data : Bytes} (done : fs.writeFile p data = .ok fs') :
    ∃ m opened, fs.openToWrite p = .ok (m, opened) ∧ fs' = opened.fill m data := by
  obtain ⟨m, opened, opening, wrote⟩ := writeFile_writes done
  exact ⟨m, opened, opening, write_ok wrote⟩

/-- A free place in an existing directory is opened as a new file. -/
theorem Leads.openToWrite_new (leads : fs.Leads base l) (sound : fs.Sound) (free : fs.LinkFree l)
    (valid : AllNames names) (down : names ≠ []) (spelled : (base.descendant names).fault? = none)
    (fits : ∀ name ∈ names.getLast?, name.length ≤ nameMax)
    (directory : fs.isDirectoryAt (l ++ names.dropLast) = true) (vacant : fs.node? (l ++ names) = none) :
    fs.openToWrite (base.descendant names) = .ok (l ++ names, fs.put (l ++ names) (.file fileMode [])) := by
  obtain ⟨front, name, rfl⟩ := (List.eq_nil_or_concat' names).resolve_left down
  rw [List.dropLast_concat] at directory
  have short := fits name (by simp)
  have sought : fs.seek l (front ++ [name]) = .ok (.free (l ++ front) name false) := by
    rw [seek_append (sound.seek_directory directory) directory, seek, if_neg (by omega)]
    rw [← List.append_assoc] at vacant
    rw [vacant]
    rfl
  rw [leads.openToWrite free valid down, Path.checked_of_sound spelled, sought]

/-- A file that is opened for writing where there was none is new. -/
theorem Leads.openToWrite_vacant (leads : fs.Leads base l) (free : fs.LinkFree l) (valid : AllNames names)
    (down : names ≠ []) (vacant : fs.node? (l ++ names) = none) {m : Location} {opened : FileSystem}
    (done : fs.openToWrite (base.descendant names) = .ok (m, opened)) :
    m = l ++ names ∧ opened = fs.put (l ++ names) (.file fileMode []) ∧
      (base.descendant names).fault? = none ∧ (∀ name ∈ names.getLast?, name.length ≤ nameMax) ∧
      fs.isDirectoryAt (l ++ names.dropLast) = true := by
  obtain ⟨spelled, rfl, opens⟩ := leads.opens_below free valid down done
  cases opens with
  | new split vacancy =>
    rw [split, List.getLast?_concat, List.dropLast_concat]
    refine ⟨rfl, rfl, split ▸ spelled, fun last isLast => ?_, vacancy.directory⟩
    cases isLast
    exact vacancy.fits
  | old atNode | device atNode =>
    rw [vacant] at atNode
    cases atNode

theorem Within.put_vacant (within : Within base l origin fs) (valid : AllNames names) (down : names ≠ [])
    (fits : ∀ name ∈ names.getLast?, name.length ≤ nameMax)
    (directory : fs.isDirectoryAt (l ++ names.dropLast) = true) (vacant : fs.node? (l ++ names) = none)
    (mode : Nat) (data : Bytes) : Within base l origin (fs.put (l ++ names) (.file mode data)) := by
  obtain ⟨front, name, rfl⟩ := (List.eq_nil_or_concat' names).resolve_left down
  rw [List.dropLast_concat] at directory
  rw [← List.append_assoc] at vacant
  exact within.put_new rfl ⟨directory, valid name (by simp), fits name (by simp), vacant⟩ (by simp)

/-- Whether there is something below a directory is read off its node. -/
theorem Leads.has_iff (leads : fs.Leads base l) (sound : fs.Sound) (free : fs.LinkFree l) (valid : AllNames names)
    (down : names ≠ []) :
    fs.has (base.descendant names) = true ↔ (base.descendant names).fault? = none ∧ (fs.node? (l ++ names)).isSome := by
  constructor
  · intro there
    obtain ⟨m, located, _⟩ := FileSystem.has_iff.mp there
    obtain ⟨_, some, spelled⟩ := leads.locate_ok free valid down located
    exact ⟨spelled, some⟩
  · rintro ⟨spelled, some⟩
    exact FileSystem.has_iff.mpr ⟨_, leads.locate_of_node sound free valid down spelled some _, some⟩

/-- What was opened could be spelled, and where no file was found there was nothing. -/
theorem Within.vacant_of_opened (within : Within base l origin fs) (valid : AllNames names) (down : names ≠ [])
    {m : Location} {opened : FileSystem} (done : fs.openToWrite (base.descendant names) = .ok (m, opened))
    (settled : (base.descendant names).fault? = none → ∀ node, fs.node? (l ++ names) = some node →
      node.isDirectory = true) : fs.node? (l ++ names) = none := by
  by_contra there
  obtain ⟨spelled, _, opens⟩ := within.leads.opens_below within.free valid down done
  obtain ⟨node, atNode, notDirectory⟩ := opens.isSome (Option.isSome_iff_ne_none.mpr there)
  have directory := settled spelled node atNode
  rw [notDirectory] at directory
  cases directory

/-- Where nothing was found, a file that is opened for writing is new, whatever is written to it. -/
theorem Within.openToWrite_absent (within : Within base l origin fs) (valid : AllNames names) (down : names ≠ [])
    (absent : fs.has (base.descendant names) = false) {m : Location} {opened : FileSystem}
    (done : fs.openToWrite (base.descendant names) = .ok (m, opened)) :
    m = l ++ names ∧ fs.node? (l ++ names) = none ∧ opened = fs.put (l ++ names) (.file fileMode []) ∧
      ∀ data, Within base l origin (fs.put (l ++ names) (.file fileMode data)) := by
  have vacant : fs.node? (l ++ names) = none := by
    refine within.vacant_of_opened valid down done fun spelled node there => ?_
    have has := (within.leads.has_iff within.sound within.free valid down).mpr ⟨spelled, by rw [there]; rfl⟩
    rw [absent] at has
    cases has
  obtain ⟨rfl, rfl, _, fits, directory⟩ := within.leads.openToWrite_vacant within.free valid down vacant done
  exact ⟨rfl, vacant, rfl, within.put_vacant valid down fits directory vacant fileMode⟩

end Unjar.FileSystem
