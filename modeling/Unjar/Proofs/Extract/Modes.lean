import Unjar.Proofs.Extract.Content
import Unjar.Proofs.Extract.Permutation
import Unjar.Proofs.FileSystem.Modes

/-!
The modes of what an archive is unpacked to below an empty destination. Everything is open to its owner, and the mode
that was stored last for a path is the one it keeps, in whatever order directories, what is in them and entries without
a mode come.
-/

namespace Unjar

/-- The node with another mode, if one is given. -/
def Node.withMode (mode : Option Nat) : Node → Node
  | .file old data => .file (mode.getD old) data
  | .directory old => .directory (mode.getD old)
  | other => other

@[simp]
theorem Node.withMode_none (node : Node) : node.withMode none = node := by
  cases node <;> rfl

namespace Extract

open FileSystem

/-- An entry for the directory with these names below the destination. -/
def Marks (dest : Path) (names : List Bytes) (r : Archive.Record) : Prop :=
  r.isDirectory = true ∧ dest.resolveInside r.name = .ok (dest.clean.descendant names)

instance (dest : Path) (names : List Bytes) (r : Archive.Record) : Decidable (Marks dest names r) :=
  inferInstanceAs (Decidable (_ ∧ _))

/-- The mode stored last with such an entry. -/
def lastMode? (own : Archive.Record → Prop) [DecidablePred own] (records : List Archive.Record) : Option Nat :=
  records.reverse.findSome? fun r => if own r then r.mode else none

/-- The mode stored with the last such entry. -/
def modeOfLast? (own : Archive.Record → Prop) [DecidablePred own] (records : List Archive.Record) : Option Nat :=
  (records.reverse.find? (decide <| own ·)).bind (·.mode)

section LastMode

variable {own : Archive.Record → Prop} [DecidablePred own] {done : List Archive.Record} {r : Archive.Record} {stored : Nat}

theorem lastMode?_concat (done : List Archive.Record) (r : Archive.Record) :
    lastMode? own (done ++ [r]) = (if own r then r.mode else none).or (lastMode? own done) := by
  rw [lastMode?, List.reverse_append, List.reverse_singleton, List.singleton_append, List.findSome?_cons]
  split
  · rename_i found
    rw [found, Option.some_or]
  · rename_i found
    rw [found, Option.none_or]
    rfl

theorem lastMode?_concat_of_not (other : ¬ own r) : lastMode? own (done ++ [r]) = lastMode? own done := by
  rw [lastMode?_concat, if_neg other, Option.none_or]

theorem modeOfLast?_concat (isOwn : own r) (done : List Archive.Record) : modeOfLast? own (done ++ [r]) = r.mode := by
  rw [modeOfLast?, List.reverse_append, List.reverse_singleton, List.singleton_append,
    List.find?_cons_of_pos (by simpa using isOwn), Option.bind_some]

theorem modeOfLast?_concat_of_not (other : ¬ own r) : modeOfLast? own (done ++ [r]) = modeOfLast? own done := by
  rw [modeOfLast?, List.reverse_append, List.reverse_singleton, List.singleton_append,
    List.find?_cons_of_neg (by simpa using other)]
  rfl

theorem exists_of_lastMode? (found : lastMode? own done = some stored) : ∃ r ∈ done, own r := by
  obtain ⟨r, member, found⟩ := List.exists_of_findSome?_eq_some found
  refine ⟨r, List.mem_reverse.mp member, ?_⟩
  by_contra other
  rw [if_neg other] at found
  cases found

end LastMode

theorem permissions_owner (mode owner : Nat) : permissions mode owner &&& owner = owner := by
  refine Nat.eq_of_testBit_eq fun i => ?_
  rw [permissions, Nat.testBit_and, Nat.testBit_or]
  cases owner.testBit i <;> simp

/-- The mode of a file that is opened anew for an entry: what was stored before has been through a write. -/
structure OpenedMode (dest : Path) (names : List Bytes) (done : List Archive.Record) (mode : Nat) : Prop where
  owner : mode &&& fileOwner = fileOwner
  stored : ∀ stored, lastMode? (Fills dest names) done = some stored →
    mode = modeAfterWriting (permissions stored fileOwner)

/-- The mode of a file that some entries were unpacked to. Nothing was written since the mode was set just if the last
entry stored it and is empty. -/
structure FileMode (dest : Path) (names : List Bytes) (done : List Archive.Record) (mode : Nat) (data : Bytes) :
    Prop where
  owner : mode &&& fileOwner = fileOwner
  stored : ∀ stored, lastMode? (Fills dest names) done = some stored →
    mode = if data = [] ∧ modeOfLast? (Fills dest names) done = some stored then permissions stored fileOwner
      else modeAfterWriting (permissions stored fileOwner)

/-- The mode of a directory that some entries were unpacked to, or that was made on the way to one. -/
structure DirectoryMode (dest : Path) (names : List Bytes) (done : List Archive.Record) (mode : Nat) : Prop where
  owner : mode &&& directoryOwner = directoryOwner
  stored : ∀ stored, lastMode? (Marks dest names) done = some stored → mode = permissions stored directoryOwner

/-- A node as it is below the destination. -/
def Settled (dest : Path) (names : List Bytes) (done : List Archive.Record) : Node → Prop
  | .file mode data => FileMode dest names done mode data
  | .directory mode => DirectoryMode dest names done mode
  | .link _ | .device _ => False

/-- What is below the destination when some entries are unpacked. -/
structure Moded (dest : Path) (l : Location) (origin : FileSystem) (done : List Archive.Record) (fs : FileSystem) :
    Prop where
  within : Within dest.clean l origin fs
  settled : ∀ names, names ≠ [] → ∀ node, fs.node? (l ++ names) = some node → Settled dest names done node
  there : ∀ names, names ≠ [] → AllNames names → ∀ r ∈ done,
    dest.resolveInside r.name = .ok (dest.clean.descendant names) →
      ∃ node, fs.node? (l ++ names) = some node ∧ node.isDirectory = r.isDirectory

section Setting

variable {image : Bytes} {dest archive : Path} {l jar : Location} {origin fs fs' prepared : FileSystem}
  {records done : List Archive.Record} {r : Archive.Record} {names : List Bytes} {node : Node} {w w' : World}
  {mode count : Nat} {stored : Option Nat}

theorem FileMode.opened {data : Bytes} (moded : FileMode dest names done mode data) :
    OpenedMode dest names done (modeAfterWriting mode) := by
  refine ⟨modeAfterWriting_keeps (by decide) moded.owner, fun stored found => ?_⟩
  rw [moded.stored stored found]
  split
  · rfl
  · exact modeAfterWriting_twice _

/-- The mode stored with an entry for a file comes to be the file's mode, and then the file is written. -/
theorem OpenedMode.fill (opened : OpenedMode dest names done mode) (fills : Fills dest names r) (data : Bytes) :
    FileMode dest names (done ++ [r])
      (if data = [] then (r.mode.map (permissions · fileOwner)).getD mode
        else modeAfterWriting ((r.mode.map (permissions · fileOwner)).getD mode)) data := by
  have owned : ∀ {set}, set &&& fileOwner = fileOwner →
      (if data = [] then set else modeAfterWriting set) &&& fileOwner = fileOwner := by
    intro set owner
    split
    · exact owner
    · exact modeAfterWriting_keeps (by decide) owner
  cases bits : r.mode with
  | none =>
    refine ⟨owned opened.owner, fun stored found => ?_⟩
    rw [lastMode?_concat, if_pos fills, bits, Option.none_or] at found
    rw [modeOfLast?_concat fills, bits, Option.map_none, Option.getD_none, opened.stored stored found,
      modeAfterWriting_twice, ite_self, if_neg fun here => nomatch here.2]
  | some bits' =>
    refine ⟨owned (permissions_owner _ _), fun stored found => ?_⟩
    rw [lastMode?_concat, if_pos fills, bits, Option.some_or] at found
    cases found
    rw [modeOfLast?_concat fills, bits, Option.map_some, Option.getD_some]
    simp only [and_true]

theorem DirectoryMode.apply (moded : DirectoryMode dest names done mode) (marks : Marks dest names r) :
    DirectoryMode dest names (done ++ [r]) ((r.mode.map (permissions · directoryOwner)).getD mode) := by
  cases bits : r.mode with
  | none =>
    refine ⟨moded.owner, fun stored found => moded.stored stored ?_⟩
    rwa [lastMode?_concat, if_pos marks, bits, Option.none_or] at found
  | some bits' =>
    refine ⟨permissions_owner _ _, fun stored found => ?_⟩
    rw [lastMode?_concat, if_pos marks, bits, Option.some_or] at found
    cases found
    rfl

/-- An entry for another path is nothing to a node. -/
theorem Settled.concat (settled : Settled dest names done node)
    (other : dest.resolveInside r.name ≠ .ok (dest.clean.descendant names)) : Settled dest names (done ++ [r]) node := by
  cases node with
  | file mode data =>
    refine ⟨settled.owner, fun stored found => ?_⟩
    rw [lastMode?_concat_of_not fun fills => other fills.2] at found
    rw [modeOfLast?_concat_of_not fun fills => other fills.2]
    exact settled.stored stored found
  | directory mode =>
    refine ⟨settled.owner, fun stored found => settled.stored stored ?_⟩
    rwa [lastMode?_concat_of_not fun marks => other marks.2] at found
  | link target | device => exact settled

namespace Moded

theorem ordinary (moded : Moded dest l origin done fs) : fs.Ordinary l := by
  intro names down node there
  have settled := moded.settled names down node there
  cases node with
  | file | directory => simp [Node.isDirectory, Node.isFile]
  | link | device => exact settled.elim

theorem valid_names (moded : Moded dest l origin done fs) (there : fs.node? (l ++ names) = some node) :
    AllNames names :=
  (moded.within.sound.names _ (by rw [there]; rfl)).1.right

/-- Where there is no node, no entry was unpacked. -/
theorem lastMode?_absent {own : Archive.Record → Prop} [DecidablePred own] (moded : Moded dest l origin done fs)
    (down : names ≠ []) (valid : AllNames names) (absent : fs.node? (l ++ names) = none)
    (accepted : ∀ r, own r → dest.resolveInside r.name = .ok (dest.clean.descendant names)) :
    lastMode? own done = none := by
  refine Option.eq_none_iff_forall_ne_some.mpr fun stored found => ?_
  obtain ⟨r, member, isOwn⟩ := exists_of_lastMode? found
  obtain ⟨node, there, _⟩ := moded.there names down valid r member (accepted r isOwn)
  rw [absent] at there
  cases there

/-- New directories are open to their owner, and no entry stored another mode for them. -/
theorem adds (moded : Moded dest l origin done fs) (within : Within dest.clean l origin prepared)
    {fresh : Location → Prop} (added : fs.AddsDirectories prepared fresh)
    (open' : ∀ m mode, prepared.node? m = some (.directory mode) →
      fs.node? m = some (.directory mode) ∨ mode &&& directoryOwner = directoryOwner) :
    Moded dest l origin done prepared := by
  refine ⟨within, fun names down node there => ?_, fun names down valid r member accepted => ?_⟩
  · rcases added.nodes (l ++ names) with same | ⟨absent, _, directory⟩
    · exact moded.settled names down node (same ▸ there)
    · obtain ⟨mode, isDirectory⟩ := isDirectoryAt_iff.mp directory
      rw [isDirectory] at there
      cases there
      have valid := (within.sound.names _ (by rw [isDirectory]; rfl)).1.right
      refine ⟨(open' _ mode isDirectory).resolve_left (by rw [absent]; simp), fun stored found => ?_⟩
      rw [moded.lastMode?_absent down valid absent fun _ marks => marks.2] at found
      cases found
  · obtain ⟨node, there, kind⟩ := moded.there names down valid r member accepted
    exact ⟨node, added.kept there, kind⟩

/-- An entry changes the node at its own path, and no other one. -/
theorem concat (moded : Moded dest l origin done fs) (within : Within dest.clean l origin fs') (valid : AllNames names)
    (accepted : dest.resolveInside r.name = .ok (dest.clean.descendant names))
    (elsewhere : ∀ m, m ≠ l ++ names → fs'.node? m = fs.node? m) (there : fs'.node? (l ++ names) = some node)
    (kind : node.isDirectory = r.isDirectory)
    (before : ∀ old, fs.node? (l ++ names) = some old → old.isDirectory = node.isDirectory)
    (settled : Settled dest names (done ++ [r]) node) : Moded dest l origin (done ++ [r]) fs' := by
  have apart : ∀ {other}, other ≠ names → l ++ other ≠ l ++ names :=
    fun differs same => differs (List.append_cancel_left same)
  refine ⟨within, fun other down node' there' => ?_, fun other down validOther d member accepted' => ?_⟩
  · by_cases here : other = names
    · subst here
      rw [there] at there'
      cases there'
      exact settled
    · rw [elsewhere _ (apart here)] at there'
      refine (moded.settled other down node' there').concat fun same => here ?_
      rw [accepted] at same
      exact Path.descendant_injective dest.clean (moded.valid_names there') valid (Except.ok.inj same).symm
  · by_cases here : other = names
    · subst here
      refine ⟨node, there, ?_⟩
      rcases List.mem_append.mp member with earlier | last
      · obtain ⟨old, atOld, kindOld⟩ := moded.there other down validOther d earlier accepted'
        rw [← before old atOld, kindOld]
      · rw [List.mem_singleton.mp last, kind]
    · rw [elsewhere _ (apart here)]
      refine moded.there other down validOther d ?_ accepted'
      refine (List.mem_append.mp member).resolve_right fun last => here ?_
      rw [List.mem_singleton.mp last, accepted] at accepted'
      exact Path.descendant_injective dest.clean validOther valid (Except.ok.inj accepted').symm

end Moded

/-- A stored mode is set on the node at the path, and on no other one. -/
theorem applyMode_node {base : Path} {owner : Nat} (within : Within base l origin w.files) (valid : AllNames names)
    (down : names ≠ []) (there : w.files.node? (l ++ names) = some node)
    (ran : applyMode (base.descendant names) stored owner w = .ok () w') (m : Location) :
    w'.files.node? m =
      if m = l ++ names then some (node.withMode (stored.map (permissions · owner))) else w.files.node? m := by
  have unchanged : ∀ same : Node, same = node → w.files.node? m = if m = l ++ names then some same else w.files.node? m := by
    rintro _ rfl
    split
    · rename_i here
      rw [here, there]
    · rfl
  cases stored with
  | none =>
    cases ran
    exact unchanged _ node.withMode_none
  | some bits =>
    obtain ⟨changed, told, rfl⟩ := Task.change_ok.mp ran
    cases moded : w.files.changeMode (base.descendant names) (permissions bits owner) with
    | error fault => rw [moded] at told; cases told
    | ok fs' =>
      rw [moded] at told
      cases told
      obtain ⟨m', located, changes⟩ := changeMode_ok moded
      obtain ⟨rfl, _, _⟩ := within.leads.locate_ok within.free valid down located
      cases changes with
      | file atNode | directory atNode =>
        obtain rfl := Option.some.inj (there.symm.trans atNode)
        exact node?_put _ _ _ _
      | other kind =>
        obtain ⟨notFile, notDirectory⟩ := kind node there
        cases node with
        | file old data => cases notFile
        | directory old => cases notDirectory
        | link target | device => exact unchanged _ rfl

namespace Moded

/-- Making directories below the destination leaves them open to their owner. -/
theorem makeDirectories (moded : Moded dest l origin done fs) {p : Path} {fresh : Location → Prop}
    (added : fs.AddsDirectories prepared fresh) (within : Within dest.clean l origin prepared)
    (made : fs.makeDirectories p = (.ok (), prepared)) : Moded dest l origin done prepared := by
  refine moded.adds within added fun m mode there => ?_
  have prior := makeDirectories_modes fs p m mode
  rw [made] at prior
  exact prior there

/-- An entry for a directory is unpacked. -/
theorem directory_ok (moded : Moded dest l origin done w.files) (valid : AllNames names) (down : names ≠ [])
    (accepted : dest.resolveInside r.name = .ok (dest.clean.descendant names)) (isDirectory : r.isDirectory = true)
    (ran : makeDirectory (dest.clean.descendant names) r.mode w = .ok () w') :
    Moded dest l origin (done ++ [r]) w'.files := by
  obtain ⟨made, done', applied⟩ := makeDirectory_iff.mp ran
  obtain ⟨added, within⟩ := moded.within.makeDirectories_adds valid down
  rw [done'] at added within
  have moded₁ := moded.makeDirectories added within done'
  obtain ⟨old, there⟩ : ∃ old, made.node? (l ++ names) = some (.directory old) := by
    rw [makeDirectories_descendant moded.within.sound moded.within.leads moded.within.free valid down] at done'
    cases spelled : (dest.clean.descendant names).fault? with
    | some fault => rw [spelled] at done'; cases done'
    | none =>
      rw [spelled] at done'
      exact isDirectoryAt_iff.mp (ensure_ok moded.within.sound moded.within.leads.directory valid done')
  have nodes := applyMode_node (w := { w with files := made }) within valid down there applied
  have before : DirectoryMode dest names done old := moded₁.settled names down _ there
  have atNames : w'.files.node? (l ++ names) =
      some (.directory ((r.mode.map (permissions · directoryOwner)).getD old)) := (nodes _).trans (if_pos rfl)
  refine moded₁.concat (applyMode_ok (w := { w with files := made }) within valid down applied).1 valid accepted
    (fun m elsewhere => by rw [nodes, if_neg elsewhere]) atNames isDirectory.symm ?_
    (before.apply ⟨isDirectory, accepted⟩)
  intro node there'
  rw [there] at there'
  cases there'
  rfl

/-- An entry for a file is unpacked. -/
theorem file_ok (moded : Moded dest l origin done w.files) (valid : AllNames names) (down : names ≠ [])
    (accepted : dest.resolveInside r.name = .ok (dest.clean.descendant names)) (isFile : r.isDirectory = false)
    {w₁ w₂ : World} {m : Location} {data : Bytes}
    (enclosed : makeDirectory (dest.clean.enclosing names) none w = .ok () w₁)
    (made : makeFile (dest.clean.descendant names) r.mode w₁ = .ok m w₂) :
    Moded dest l origin (done ++ [r]) (w₂.files.fill m data) := by
  obtain ⟨prepared, done', same⟩ := makeDirectory_iff.mp enclosed
  cases same
  obtain ⟨within, added, _⟩ := moded.within.prepare valid done'
  have moded₁ := moded.makeDirectories added within done'
  obtain ⟨opened, opening, applied⟩ := makeFile_iff.mp made
  obtain ⟨_, within₂⟩ := within.openToWrite valid down opening
  obtain ⟨rfl, mode, rfl, former⟩ := within.openToWrite_modes moded₁.ordinary valid down opening
  -- the file as it is opened has the mode that the earlier entries left it, or that of a new file
  have before : OpenedMode dest names done mode := by
    rcases former with ⟨absent, rfl⟩ | ⟨old, content, there, rfl⟩
    · refine ⟨by decide, fun stored found => ?_⟩
      rw [moded₁.lastMode?_absent down valid absent fun _ fills => fills.2] at found
      cases found
    · exact FileMode.opened (moded₁.settled names down _ there)
  have emptied : (prepared.put (l ++ names) (.file mode [])).node? (l ++ names) = some (.file mode []) := by
    rw [node?_put, if_pos rfl]
  have nodes := applyMode_node (w := { w with files := prepared.put (l ++ names) (.file mode []) }) within₂ valid down
    emptied applied
  have within₃ := (applyMode_ok (w := { w with files := _ }) within₂ valid down applied).1
  have filled := node?_fill ((nodes _).trans (if_pos rfl)) data
  refine moded₁.concat (within₃.fill down data) valid accepted (fun m elsewhere => ?_)
    ((filled _).trans (if_pos rfl)) isFile.symm ?_ (before.fill ⟨isFile, accepted⟩ data)
  · rw [filled, if_neg elsewhere, nodes, if_neg elsewhere]
    exact (node?_put _ _ _ _).trans (if_neg elsewhere)
  · intro node there
    rcases former with ⟨absent, _⟩ | ⟨old, content, there', _⟩
    · rw [absent] at there
      cases there
    · rw [there'] at there
      cases there
      rfl

theorem entry_ok (moded : Moded dest l origin done w.files) (confined : Confined dest records) (member : r ∈ records)
    {index : Nat} (ran : entry jar dest index r w = .ok () w') : Moded dest l origin (done ++ [r]) w'.files := by
  obtain ⟨names, _, _, down, valid, accepted, _, _, unpacks⟩ := unpacks_of_entry confined member ran
  cases unpacks with
  | directory isDirectory made => exact moded.directory_ok valid down accepted isDirectory made
  | file isFile enclosed made => exact moded.file_ok valid down accepted isFile enclosed made

theorem entriesFrom_ok (moded : Moded dest l origin done w.files) (confined : Confined dest records) {index : Nat}
    (ran : entriesFrom jar dest index records w = .ok () w') : Moded dest l origin (done ++ records) w'.files := by
  induction records generalizing index done w with
  | nil =>
    cases ran
    rwa [List.append_nil]
  | cons r rest ih =>
    obtain ⟨_, w₁, first, others⟩ := Task.bind_ok ran
    rw [List.append_cons]
    exact ih (moded.entry_ok confined List.mem_cons_self first)
      (fun other member => confined other (List.mem_cons_of_mem _ member)) others

/-- Nothing is unpacked to a destination that was just made. -/
theorem start (laid : Laid dest l origin [] fs) : Moded dest l origin [] fs := by
  refine ⟨laid.within, fun names down node there => ?_, by simp⟩
  have directory := (laid.files names down node there).resolve_right (by simp)
  obtain ⟨_, member, _⟩ := (laid.directories names down).mp (by rw [isDirectoryAt, there]; exact directory)
  cases member

end Moded

/-- A file that its owner may read and write, or a directory that its owner may fill and empty. -/
def OwnerOpen : Node → Prop
  | .file mode _ => mode &&& fileOwner = fileOwner
  | .directory mode => mode &&& directoryOwner = directoryOwner
  | .link _ | .device _ => False

theorem Settled.ownerOpen (settled : Settled dest names done node) : OwnerOpen node := by
  cases node with
  | file | directory => exact settled.owner
  | link | device => exact settled

/-- What an archive is unpacked to is open to its owner. Where entries of a path store modes, the path has the last one
of them, with the owner's bits added: exactly this one if it is a directory, or a file from whose mode writing takes
nothing, or one that nothing was written to since its mode was set. -/
theorem extract_modes (vacant : Vacant dest w.files) (opened : openArchive archive w.files = .ok (jar, records))
    (ran : extract archive dest w = .ok count w') :
    (∀ m, Below (w.files.place dest) m → ∀ node, w'.files.node? m = some node → OwnerOpen node) ∧
      ∀ names, names ≠ [] → AllNames names → ∀ stored,
        (lastMode? (Marks dest names) records = some stored →
          w'.files.node? (w.files.place dest ++ names) = some (.directory (permissions stored directoryOwner))) ∧
        (lastMode? (Fills dest names) records = some stored →
          ∃ mode data, w'.files.node? (w.files.place dest ++ names) = some (.file mode data) ∧
            (mode = if data = [] ∧ modeOfLast? (Fills dest names) records = some stored then permissions stored fileOwner
              else modeAfterWriting (permissions stored fileOwner)) ∧
            (modeAfterWriting (permissions stored fileOwner) = permissions stored fileOwner →
              mode = permissions stored fileOwner)) := by
  obtain ⟨ready, made, unpacked, _⟩ := entries_of_extract opened ran
  have moded : Moded dest (w.files.place dest) ready records w'.files :=
    (Moded.start (vacant.laid_nil made)).entriesFrom_ok (w := { w with files := ready })
      (.of_guarded vacant.downward.guarded records) unpacked
  refine ⟨?_, fun names down valid stored => ⟨fun found => ?_, fun found => ?_⟩⟩
  · rintro _ ⟨names, down, rfl⟩ node there
    exact (moded.settled names down node there).ownerOpen
  · obtain ⟨r, member, isDirectory, accepted⟩ := exists_of_lastMode? found
    obtain ⟨node, there, kind⟩ := moded.there names down valid r member accepted
    have settled := moded.settled names down node there
    rw [isDirectory] at kind
    cases node with
    | directory mode => rw [there, settled.stored stored found]
    | file | link | device => cases kind
  · obtain ⟨r, member, isFile, accepted⟩ := exists_of_lastMode? found
    obtain ⟨node, there, kind⟩ := moded.there names down valid r member accepted
    have settled := moded.settled names down node there
    rw [isFile] at kind
    cases node with
    | file mode data =>
      have exactly := settled.stored stored found
      refine ⟨mode, data, there, exactly, fun kept => ?_⟩
      rw [exactly, kept, ite_self]
    | directory => cases kind
    | link | device => exact settled.elim

end Setting

/-! A directory that is marked after what is in it, and a file that is stored under two names, the second
time without a mode. -/

namespace Marked

def image : Bytes :=
  Archive.storedWithModes [(ascii "d/f", some 0o100420, ascii "f"), (ascii "d/", some 0o42005, []),
    (ascii "d/./f", none, ascii "g")]

def archive : Path := ⟨ascii "j"⟩

def dest : Path := ⟨ascii "./out"⟩

def world : World :=
  { files :=
    { nodes := [([], .directory 0o755), ([ascii "j"], .file 0o644 image)]
      here := [] } }

def records : List Archive.Record :=
  (Archive.directory image).toOption.getD []

end Marked

theorem modes_sample : Vacant Marked.dest Marked.world.files ∧
    openArchive Marked.archive Marked.world.files = .ok ([ascii "j"], Marked.records) ∧
    ∃ w', extract Marked.archive Marked.dest Marked.world = .ok 3 w' ∧
      w'.files.node? [ascii "out", ascii "d"] = some (.directory 0o2705) ∧
      ∃ data, w'.files.node? [ascii "out", ascii "d", ascii "f"] = some (.file 0o620 data) := by
  have sound : Marked.world.files.Sound := .of_nodes (by decide +kernel) (by decide) (by decide) (by decide)
  have unlinked : Marked.world.files.Unlinked := by decide
  have vacant : Vacant Marked.dest Marked.world.files := by
    refine ⟨sound, ⟨[ascii "out"], by simp, by decide⟩, unlinked.plain _, ?_⟩
    rintro _ ⟨names, down, rfl⟩
    exact empty_of_nodes (by decide +kernel) down
  have opened : openArchive Marked.archive Marked.world.files = .ok ([ascii "j"], Marked.records) := by decide +kernel
  have ran : extract Marked.archive Marked.dest Marked.world = .ok 3 _ := Task.ok_of_outcome (by decide +kernel)
  obtain ⟨_, stored⟩ := extract_modes vacant opened ran
  have marked := (stored [ascii "d"] (by simp) (by decide) 0o42005).1 (by decide +kernel)
  obtain ⟨mode, data, there, _, exactly⟩ :=
    (stored [ascii "d", ascii "f"] (by simp) (by decide) 0o100420).2 (by decide +kernel)
  obtain rfl := exactly (by decide)
  exact ⟨vacant, opened, _, ran, marked, data, there⟩

end Extract

end Unjar
