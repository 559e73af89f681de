import Unjar.Proofs.Extract.Steps
import Unjar.Proofs.FileSystem.Open

/-!
An entry by itself: what it asks for to be unpacked below a destination, and what it leaves there. Room for it is
all that depends on what was unpacked before.
-/

namespace Unjar

namespace Extract

open FileSystem

/-- An entry as it is unpacked, wherever it is in the archive. -/
structure Item where
  name : Bytes
  isDirectory : Bool
  mode : Option Nat
  /-- What is read of it, up to the fault that ends it. -/
  read : Except Archive.ZipError (Bytes × Option Fault)
  deriving DecidableEq

def item (image : Bytes) (r : Archive.Record) : Item where
  name := r.name
  isDirectory := r.isDirectory
  mode := r.mode
  read := (r.dataStart image).map fun start => r.content image start

namespace Item

def data (e : Item) : Bytes :=
  (e.read.toOption.map Prod.fst).getD []

/-- The mode of the file it is unpacked to. -/
def fileMode (e : Item) : Nat :=
  let opened := (e.mode.map (permissions · fileOwner)).getD FileSystem.fileMode
  if e.data = [] then opened else modeAfterWriting opened

/-- The node it is unpacked to, if it does not depend on what is around it. -/
def node? (e : Item) : Option Node :=
  if e.isDirectory then e.mode.map fun mode => .directory (permissions mode directoryOwner)
  else some (.file e.fileMode e.data)

variable (dest : Path)

/-- Where it is unpacked to, as names below the destination. -/
def names (e : Item) : List Bytes :=
  (dest.resolved e.name).cleaned.names.drop dest.cleaned.names.length

/-- The directories that it needs, as names below the destination. -/
def way (e : Item) : List Bytes :=
  if e.isDirectory then e.names dest else (e.names dest).dropLast

/-- An entry that can be unpacked, if nothing is in its way. -/
structure Fine (e : Item) : Prop where
  accepted : dest.resolveInside e.name = .ok (dest.resolved e.name)
  spelled : (dest.resolved e.name).fault? = none
  fits : ∀ name ∈ e.names dest, name.length ≤ nameMax
  read : ∃ data fault, e.read = .ok (data, fault) ∧ (e.isDirectory = false → fault = none)

/-- Entries that are not accepted under one path. -/
def Distinct (d e : Item) : Prop :=
  ∀ path, dest.resolveInside d.name = .ok path → dest.resolveInside e.name ≠ .ok path

instance (d e : Item) : Decidable (Distinct dest d e) :=
  decidable_of_iff (dest.resolveInside d.name = dest.resolveInside e.name → (dest.resolveInside d.name).isOk = false) <| by
    constructor
    · intro same path accepted accepted'
      have refused := same (accepted.trans accepted'.symm)
      rw [accepted] at refused
      cases refused
    · intro distinct same
      cases accepted : dest.resolveInside d.name with
      | error _ => rfl
      | ok path => exact absurd (same.symm.trans accepted) (distinct path accepted)

/-- Neither entry is a file where the other one needs a directory. -/
def Apart (d e : Item) : Prop :=
  (d.isDirectory = false → ¬ d.names dest <+: e.names dest) ∧
    (e.isDirectory = false → ¬ e.names dest <+: d.names dest)

variable {dest : Path} {d e : Item}

theorem Distinct.symm (distinct : Distinct dest d e) : Distinct dest e d :=
  fun path accepted accepted' => distinct path accepted' accepted

theorem Apart.symm (apart : Apart dest d e) : Apart dest e d :=
  ⟨apart.2, apart.1⟩

/-- An accepted entry has its path below the destination. -/
theorem resolved_of_accepted (guarded : dest.Guarded) {path : Path} (accepted : dest.resolveInside e.name = .ok path) :
    path = dest.resolved e.name ∧ path = dest.clean.descendant (e.names dest) ∧ AllNames (e.names dest) ∧
      e.names dest ≠ [] := by
  obtain ⟨whole, inside⟩ := guarded.inside accepted
  obtain ⟨names, down, valid, split⟩ := Path.descendant_of_inside accepted inside
  have same : e.names dest = names := by
    rw [Item.names, ← whole, split, Path.cleaned_descendant _ valid, Path.cleaned_clean, List.drop_left]
  rw [same]
  exact ⟨whole, split, valid, down⟩

theorem Fine.located (fine : e.Fine dest) (guarded : dest.Guarded) :
    dest.resolved e.name = dest.clean.descendant (e.names dest) ∧ AllNames (e.names dest) ∧ e.names dest ≠ [] :=
  (resolved_of_accepted guarded fine.accepted).2

theorem Distinct.names_ne (distinct : Distinct dest d e) (guarded : dest.Guarded) {path path' : Path}
    (accepted : dest.resolveInside d.name = .ok path) (accepted' : dest.resolveInside e.name = .ok path') :
    d.names dest ≠ e.names dest := by
  intro same
  refine distinct path accepted ?_
  rw [accepted', (resolved_of_accepted guarded accepted').2.1, (resolved_of_accepted guarded accepted).2.1, same]

/-- An entry needs the directories above it, and its own if it is one. -/
theorem prefix_way_iff (down : e.names dest ≠ []) {front : List Bytes} :
    front <+: e.way dest ↔ front <+: e.names dest ∧ (e.isDirectory = false → front ≠ e.names dest) := by
  unfold way
  split
  · rename_i directory
    simp [directory]
  · rename_i file
    obtain ⟨above, name, split⟩ := (List.eq_nil_or_concat' (e.names dest)).resolve_left down
    rw [split, List.dropLast_concat, List.prefix_concat_iff]
    constructor
    · intro isFront
      refine ⟨Or.inr isFront, fun _ same => ?_⟩
      have short := isFront.length_le
      rw [same, List.length_append, List.length_singleton] at short
      omega
    · rintro ⟨same | isFront, differs⟩
      · exact absurd same (differs (Bool.eq_false_iff.mpr file))
      · exact isFront

theorem way_prefix (e : Item) : e.way dest <+: e.names dest := by
  unfold way
  split
  · exact List.prefix_rfl
  · exact List.dropLast_prefix _

/-- What the entry puts into its place. -/
def put (e : Item) (dest : Path) (l : Location) (prepared : FileSystem) : FileSystem :=
  e.node?.elim prepared (prepared.put (l ++ e.names dest))

theorem put_here (l : Location) (prepared : FileSystem) {node : Node} (settled : e.node? = some node) :
    (e.put dest l prepared).node? (l ++ e.names dest) = some node := by
  rw [Item.put, settled, Option.elim_some, node?_put, if_pos rfl]

theorem put_elsewhere (e : Item) (prepared : FileSystem) {m : Location} (elsewhere : m ≠ l ++ e.names dest) :
    (e.put dest l prepared).node? m = prepared.node? m := by
  unfold Item.put
  cases e.node? with
  | none => rfl
  | some node => rw [Option.elim_some, node?_put, if_neg elsewhere]

end Item

/-- Room for an entry: its directories are made, and a file has a free place then. -/
structure Room (dest : Path) (l : Location) (fs prepared : FileSystem) (e : Item) : Prop where
  made : fs.ensure l (e.way dest) = (.ok (), prepared)
  vacant : e.isDirectory = false → prepared.node? (l ++ e.names dest) = none

namespace Room

variable {dest : Path} {l : Location} {origin fs prepared : FileSystem} {e : Item}

/-- Before the entry itself is put into its place, the directories that it needs are there. -/
theorem ready (room : Room dest l fs prepared e) (within : Within dest.clean l origin fs)
    (valid : AllNames (e.names dest)) :
    Within dest.clean l origin prepared ∧ fs.AddsDirectories prepared (Passed l (e.way dest)) ∧
      prepared.isDirectoryAt (l ++ e.way dest) = true := by
  have onWay : AllNames (e.way dest) := fun name member => valid name (e.way_prefix.subset member)
  have here := within.leads.directory
  have within₁ := within.ensure onWay
  have adds := (within.sound.ensure here onWay).2
  rw [room.made] at within₁ adds
  exact ⟨within₁, adds, ensure_ok within.sound here onWay room.made⟩

/-- What is put into its place makes no directory a file, and no file a directory. -/
theorem isDirectoryAt_put (room : Room dest l fs prepared e) (within : Within dest.clean l origin fs)
    (valid : AllNames (e.names dest)) (m : Location) :
    (e.put dest l prepared).isDirectoryAt m = prepared.isDirectoryAt m := by
  by_cases here : m = l ++ e.names dest
  · subst here
    cases settled : e.node? with
    | none => rw [Item.put, settled, Option.elim_none]
    | some node =>
      rw [isDirectoryAt, Item.put_here l prepared settled]
      by_cases isDirectory : e.isDirectory = true
      · have directory := (room.ready within valid).2.2
        rw [Item.way, if_pos isDirectory] at directory
        rw [Item.node?, if_pos isDirectory, Option.map_eq_some_iff] at settled
        obtain ⟨mode, _, rfl⟩ := settled
        exact directory.symm
      · rw [Item.node?, if_neg isDirectory] at settled
        cases settled
        rw [isDirectoryAt, room.vacant (Bool.eq_false_iff.mpr isDirectory)]
        rfl
  · rw [isDirectoryAt, isDirectoryAt, Item.put_elsewhere e prepared here]

theorem within (room : Room dest l fs prepared e) (within : Within dest.clean l origin fs) (guarded : dest.Guarded)
    (fine : e.Fine dest) : Within dest.clean l origin (e.put dest l prepared) := by
  obtain ⟨_, valid, down⟩ := fine.located guarded
  obtain ⟨within₁, _, directory⟩ := room.ready within valid
  unfold Item.put
  by_cases isDirectory : e.isDirectory = true
  · rw [Item.node?, if_pos isDirectory]
    rw [Item.way, if_pos isDirectory] at directory
    obtain ⟨mode, there⟩ := isDirectoryAt_iff.mp directory
    cases e.mode with
    | none => exact within₁
    | some mode => exact within₁.put_same down there (fun _ => rfl) (by simp)
  · rw [Item.node?, if_neg isDirectory]
    rw [Item.way, if_neg isDirectory] at directory
    exact within₁.put_vacant valid down (fun name isLast => fine.fits name (List.mem_of_getLast? isLast)) directory
      (room.vacant (Bool.eq_false_iff.mpr isDirectory)) _ _

end Room

section Entry

variable {dest : Path} {base : Path} {l jar : Location} {origin prepared : FileSystem} {image : Bytes}
  {names : List Bytes} {old : Nat} {r : Archive.Record} {w w' : World}

theorem applyMode_directory (within : Within base l origin w.files) (valid : AllNames names) (down : names ≠ [])
    (spelled : (base.descendant names).fault? = none) (directory : w.files.isDirectoryAt (l ++ names) = true)
    (mode : Option Nat) (owner : Nat) :
    applyMode (base.descendant names) mode owner w = .ok () { w with
      files := (mode.map fun mode => .directory (permissions mode owner)).elim w.files (w.files.put (l ++ names)) } := by
  cases mode with
  | none => rfl
  | some mode =>
    refine Task.change_ok.mpr ⟨_, ?_, rfl⟩
    rw [within.changeMode_directory valid down spelled directory]
    rfl

theorem applyMode_file (within : Within base l origin (prepared.put (l ++ names) (.file old [])))
    (valid : AllNames names) (down : names ≠ [])
    (spelled : (base.descendant names).fault? = none) (mode : Option Nat) (owner : Nat) :
    applyMode (base.descendant names) mode owner { w with files := prepared.put (l ++ names) (.file old []) } =
      .ok () { w with
        files := prepared.put (l ++ names) (.file ((mode.map (permissions · owner)).getD old) []) } := by
  cases mode with
  | none => rfl
  | some mode =>
    refine Task.change_ok.mpr ⟨_, ?_, rfl⟩
    have there : (prepared.put (l ++ names) (.file old [])).node? (l ++ names) = some (.file old []) := by
      rw [node?_put, if_pos rfl]
    rw [within.changeMode_file valid down spelled there, put_put]
    rfl

theorem makeDirectory_of_room (within : Within base l origin w.files) (valid : AllNames names) (down : names ≠ [])
    (spelled : (base.descendant names).fault? = none) (made : w.files.ensure l names = (.ok (), prepared))
    (mode : Option Nat) :
    makeDirectory (base.descendant names) mode w = .ok () { w with
      files := (mode.map fun mode => .directory (permissions mode directoryOwner)).elim prepared
        (prepared.put (l ++ names)) } := by
  have within₁ := within.ensure valid
  rw [made] at within₁
  refine makeDirectory_iff.mpr ⟨prepared, ?_, ?_⟩
  · rw [makeDirectories_descendant within.sound within.leads within.free valid down, spelled]
    exact made
  · exact applyMode_directory (w := { w with files := prepared }) within₁ valid down spelled
      (ensure_ok within.sound within.leads.directory valid made) mode directoryOwner

theorem makeEnclosing_of_room (named : dest.cleaned.names ≠ []) (within : Within dest.clean l origin w.files)
    (valid : AllNames names) (down : names ≠ []) (spelled : (dest.clean.descendant names).fault? = none)
    (made : w.files.ensure l names.dropLast = (.ok (), prepared)) :
    makeDirectory (dest.clean.enclosing names) none w = .ok () { w with files := prepared } := by
  refine makeDirectory_iff.mpr ⟨prepared, ?_, rfl⟩
  rw [within.makeDirectories_enclosing valid down spelled (Path.standing_enclosing named valid down spelled), made]

theorem makeFile_of_room (within : Within base l origin prepared) (valid : AllNames names) (down : names ≠ [])
    (spelled : (base.descendant names).fault? = none) (fits : ∀ name ∈ names.getLast?, name.length ≤ nameMax)
    (directory : prepared.isDirectoryAt (l ++ names.dropLast) = true) (vacant : prepared.node? (l ++ names) = none)
    (mode : Option Nat) :
    makeFile (base.descendant names) mode { w with files := prepared } = .ok (l ++ names) { w with
      files := prepared.put (l ++ names) (.file ((mode.map (permissions · fileOwner)).getD fileMode) []) } := by
  have within₁ := within.put_vacant valid down fits directory vacant fileMode []
  exact makeFile_iff.mpr ⟨_, within.leads.openToWrite_new within.sound within.free valid down spelled fits directory vacant,
    applyMode_file within₁ valid down spelled mode fileOwner⟩

theorem read_item {data : Bytes} {fault : Option Fault} (read : (item image r).read = .ok (data, fault)) :
    ∃ start, r.dataStart image = .ok start ∧ r.content image start = (data, fault) := by
  simp only [item] at read
  cases begins : r.dataStart image with
  | error cause => rw [begins] at read; cases read
  | ok start =>
    rw [begins] at read
    exact ⟨start, rfl, Except.ok.inj read⟩

/-- An entry that is fine and has room is unpacked. -/
theorem entry_of_room (named : dest.cleaned.names ≠ []) (within : Within dest.clean l origin w.files)
    (apart : ¬ Below l jar) (content : origin.contents jar = .ok image) (index : Nat)
    (fine : (item image r).Fine dest) (room : Room dest l w.files prepared (item image r)) :
    ∃ w', entry jar dest index r w = .ok () w' ∧ w'.files = (item image r).put dest l prepared := by
  have read : ∀ {fs}, Within dest.clean l origin fs → fs.contents jar = .ok image :=
    fun inside => (inside.contents apart).trans content
  obtain ⟨place, valid, down⟩ := fine.located ((Path.guarded_iff dest).mpr (Or.inr named))
  have spelled := fine.spelled
  rw [place] at spelled
  have accepted : dest.resolveInside r.name = .ok (dest.clean.descendant ((item image r).names dest)) :=
    fine.accepted.trans (congrArg _ place)
  obtain ⟨data, fault, wasRead, whole⟩ := fine.read
  obtain ⟨start, begins, out⟩ := read_item wasRead
  have made := room.made
  by_cases isDirectory : (item image r).isDirectory = true
  · rw [Item.way, if_pos isDirectory] at made
    have unpacks : Unpacks jar dest r start ((item image r).names dest) w _ :=
      .directory isDirectory (makeDirectory_of_room within valid down spelled made r.mode)
    refine ⟨_, unpacks.entry down valid accepted (read within) begins index, ?_⟩
    rw [Item.put, Item.node?, if_pos isDirectory]
    rfl
  · have isFile := Bool.eq_false_iff.mpr isDirectory
    rw [Item.way, if_neg isDirectory] at made
    have within₁ := within.ensure valid.dropLast
    rw [made] at within₁
    have directory := ensure_ok within.sound within.leads.directory valid.dropLast made
    have fits : ∀ name ∈ ((item image r).names dest).getLast?, name.length ≤ nameMax := fun name isLast =>
      fine.fits name (List.mem_of_getLast? isLast)
    have within₂ := within₁.put_vacant valid down fits directory (room.vacant isFile)
    rw [whole isFile] at out
    have unpacks : Unpacks jar dest r start ((item image r).names dest) w _ :=
      .file isFile (makeEnclosing_of_room named within valid down spelled made)
        (makeFile_of_room within₁ valid down spelled fits directory (room.vacant isFile) r.mode) (read (within₂ _ _)) out
        (write_put _ _ _ _ _)
    refine ⟨_, unpacks.entry down valid accepted (read within) begins index, ?_⟩
    have held : (item image r).data = data := by rw [Item.data, wasRead]; rfl
    rw [Item.put, Item.node?, if_neg isDirectory, Option.elim_some, Item.fileMode, held]
    exact fill_put _ _ _ _

theorem room_of_makeDirectory (within : Within base l origin w.files) (valid : AllNames names) (down : names ≠ [])
    {mode : Option Nat} (ran : makeDirectory (base.descendant names) mode w = .ok () w') :
    (base.descendant names).fault? = none ∧ ∃ prepared, w.files.ensure l names = (.ok (), prepared) := by
  obtain ⟨prepared, made, _⟩ := makeDirectory_iff.mp ran
  rw [makeDirectories_descendant within.sound within.leads within.free valid down] at made
  cases spelled : (base.descendant names).fault? with
  | some fault => rw [spelled] at made; cases made
  | none =>
    rw [spelled] at made
    exact ⟨rfl, prepared, made⟩

theorem room_of_makeFile (within : Within base l origin w.files) (valid : AllNames names) (down : names ≠ [])
    (settled : ∀ node, w.files.node? (l ++ names) = some node → node.isDirectory = true) {w₁ w₂ : World} {m : Location}
    {mode : Option Nat} (enclosed : makeDirectory (base.enclosing names) none w = .ok () w₁)
    (wrote : makeFile (base.descendant names) mode w₁ = .ok m w₂) :
    (base.descendant names).fault? = none ∧ (∀ name ∈ names, name.length ≤ nameMax) ∧
      Within base l origin w₂.files ∧ ∃ prepared, w.files.ensure l names.dropLast = (.ok (), prepared) ∧
        prepared.node? (l ++ names) = none := by
  obtain ⟨prepared, made, moded⟩ := makeDirectory_iff.mp enclosed
  cases moded
  obtain ⟨within₁, adds, directory, standing⟩ := within.prepare valid made
  obtain ⟨opened, opening, _⟩ := makeFile_iff.mp wrote
  have vacant : prepared.node? (l ++ names) = none :=
    within₁.vacant_of_opened valid down opening fun _ node there => settled node (adds.place down ▸ there)
  obtain ⟨_, _, spelled, fits, _⟩ := within₁.leads.openToWrite_vacant within₁.free valid down vacant opening
  rw [within.makeDirectories_enclosing valid down spelled standing] at made
  rw [makeFile_of_room within₁ valid down spelled fits directory vacant] at wrote
  cases wrote
  have within₂ := within₁.put_vacant valid down fits directory vacant
    ((mode.map (permissions · fileOwner)).getD fileMode) []
  refine ⟨spelled, fun name member => ?_, within₂, prepared, made, vacant⟩
  exact (within₂.sound.names _ (by rw [node?_put, if_pos rfl]; rfl)).2 name (List.mem_append_right l member)

/-- What is unpacked was fine, and there was room for it. -/
theorem room_of_entry (named : dest.cleaned.names ≠ []) (within : Within dest.clean l origin w.files)
    (apart : ¬ Below l jar) (content : origin.contents jar = .ok image)
    (settled : ∀ path, dest.resolveInside r.name = .ok path → r.isDirectory = false →
      ∀ node, w.files.node? (l ++ (item image r).names dest) = some node → node.isDirectory = true) {index : Nat} (ran : entry jar dest index r w = .ok () w') :
    (item image r).Fine dest ∧ ∃ prepared, Room dest l w.files prepared (item image r) := by
  have guarded : dest.Guarded := (Path.guarded_iff dest).mpr (Or.inr named)
  have read : ∀ {fs}, Within dest.clean l origin fs → fs.contents jar = .ok image :=
    fun inside => (inside.contents apart).trans content
  obtain ⟨names, image', start, down, valid, accepted, content', begins, unpacks⟩ :=
    unpacks_of_entry (.of_guarded guarded [r]) List.mem_cons_self ran
  rw [read within] at content'
  cases content'
  obtain ⟨place, place', valid', _⟩ := Item.resolved_of_accepted (e := item image r) guarded accepted
  have here : names = (item image r).names dest := Path.descendant_injective dest.clean valid valid' place'
  have accepted' := accepted
  rw [place] at accepted'
  have wasRead : (item image r).read = .ok (r.content image start) := by
    simp only [item, begins]
    rfl
  cases unpacks with
  | directory isDirectory made =>
    obtain ⟨spelled, prepared, made⟩ := room_of_makeDirectory within valid down made
    have fits := ((within.sound.ensure_iff within.leads.directory valid).mp ⟨_, made⟩).fits
    have isDirectory : (item image r).isDirectory = true := isDirectory
    refine ⟨⟨accepted', place ▸ spelled, here ▸ fits, _, _, wasRead, by simp [isDirectory]⟩, prepared, ?_,
      by simp [isDirectory]⟩
    rwa [Item.way, if_pos isDirectory, ← here]
  | @file w₁ w₂ m image' data isFile enclosed wrote again out =>
    obtain ⟨spelled, fits, within₂, prepared, made, vacant⟩ :=
      room_of_makeFile within valid down (here ▸ settled _ accepted isFile) enclosed wrote
    rw [read within₂] at again
    cases again
    have isFile : ¬ (item image r).isDirectory = true := Bool.eq_false_iff.mp isFile
    refine ⟨⟨accepted', place ▸ spelled, here ▸ fits, data, none, wasRead.trans (congrArg _ out), fun _ => rfl⟩, prepared,
      ?_, fun _ => here ▸ vacant⟩
    rwa [Item.way, if_neg isFile, ← here]

end Entry

end Extract

end Unjar
