import Unjar.Proofs.Extract.Frame
import Unjar.Proofs.Extract.Permutation
import Unjar.Proofs.FileSystem.Toward

/-!
Unpacking that fails. What it leaves behind is what the entries before the one it failed at come to when they are
all there is of the archive, and what was begun for that entry; nothing was done for a later one.
-/

namespace Unjar

namespace Extract

open FileSystem

/-- Unpacks an archive as if it ended after so many entries. -/
def extractFront (count : Nat) (archive dest : Path) : Task ExtractError Nat := do
  let (jar, records) ← Task.query (openArchive archive)
  makeDirectory dest none
  entriesFrom jar dest 0 (records.take count)
  return (records.take count).length

/-- What an entry leaves behind that was not unpacked: nothing, if it was not read or leads out of the destination;
else the node at its path may be another one, and there may be new directories above. -/
inductive Remains (dest : Path) (index : Nat) (r : Archive.Record) (before : World) : ExtractError → World → Prop
  | unread {cause : Archive.ZipError} : Remains dest index r before (.readEntry index cause) before
  | escaped {resolved : Path} : dest.resolveInside r.name = .error resolved →
      Remains dest index r before (.pathEscape r.name resolved) before
  | unwritten {path p : Path} {fault : Fault} {files : FileSystem} : dest.resolveInside r.name = .ok path →
      p = path ∨ path.parent = some p → before.files.Toward files (before.files.place path) →
      Remains dest index r before (.write p fault) { before with files := files }

/-- How unpacking an archive fails: nothing is done if it is not opened, and only directories were made if the
destination is not. Else it fails at an entry, as it does if the archive ends behind that entry; what is left then
is what is left if the archive ends before it, and the remains of the entry. -/
inductive Stopped (archive dest : Path) (w : World) : ExtractError → World → Prop
  | unopened {cause : Archive.ZipError} : openArchive archive w.files = .error (.openFailed archive cause) →
      Stopped archive dest w (.openFailed archive cause) w
  | unmade {jar : Location} {records : List Archive.Record} {fault : Fault} {files : FileSystem} :
      openArchive archive w.files = .ok (jar, records) → w.files.makeDirectories dest = (.error fault, files) →
      w.files.AddsDirectories files (· ∈ w.files.trail dest) →
      Stopped archive dest w (.write dest fault) { w with files := files }
  | atEntry {jar : Location} {records : List Archive.Record} {index : Nat} {r : Archive.Record} {before after : World}
      {e : ExtractError} : openArchive archive w.files = .ok (jar, records) → records[index]? = some r →
      extractFront index archive dest w = .ok index before → extractFront (index + 1) archive dest w = .error e after →
      Remains dest index r before e after → Stopped archive dest w e after

/-- An archive that does not lie below the destination. -/
def Beside (archive dest : Path) (fs : FileSystem) : Prop :=
  ∀ jar records, openArchive archive fs = .ok (jar, records) → ¬ Below (fs.place dest) jar

section Stopping

variable {archive dest : Path} {jar : Location} {w w' : World} {ready : FileSystem} {records : List Archive.Record}
  {index : Nat} {e : ExtractError}

theorem openArchive_error {fs : FileSystem} (failed : openArchive archive fs = .error e) :
    ∃ cause, e = .openFailed archive cause := by
  unfold openArchive at failed
  cases located : fs.openToRead archive with
  | error fault => rw [located] at failed; cases failed; exact ⟨_, rfl⟩
  | ok l =>
    cases content : fs.contents l with
    | error fault =>
      simp only [located, content, bind, Except.bind, Except.mapError] at failed
      cases failed
      exact ⟨_, rfl⟩
    | ok image =>
      simp only [located, content, bind, Except.bind, Except.mapError] at failed
      cases found : Archive.directory image with
      | error cause => rw [found] at failed; cases failed; exact ⟨_, rfl⟩
      | ok records => rw [found] at failed; cases failed

/-- Once the destination is made, it goes on with the entries. -/
theorem extractFront_run (opened : openArchive archive w.files = .ok (jar, records))
    (made : w.files.makeDirectories dest = (.ok (), ready)) (count : Nat) :
    extractFront count archive dest w =
      (entriesFrom jar dest 0 (records.take count) >>= fun _ => pure (records.take count).length)
        { w with files := ready } := by
  have directory : makeDirectory dest none w = .ok () { w with files := ready } :=
    makeDirectory_iff.mpr ⟨ready, made, rfl⟩
  unfold extractFront
  rw [Task.bind_of_ok _ (Task.query_ok.mpr ⟨opened, rfl⟩)]
  simp only
  rw [Task.bind_of_ok _ directory]

/-- Where the entries stopped that failed. -/
theorem entriesFrom_error (failed : entriesFrom jar dest index records w = .error e w') :
    ∃ front r back before, records = front ++ r :: back ∧ entriesFrom jar dest index front w = .ok () before ∧
      entry jar dest (index + front.length) r before = .error e w' := by
  induction records generalizing index w with
  | nil => cases failed
  | cons r rest ih =>
    rcases Task.bind_error failed with here | ⟨_, w₁, done, later⟩
    · exact ⟨[], r, rest, w, rfl, rfl, here⟩
    · obtain ⟨front, r', back, before, split, passed, stopped⟩ := ih later
      refine ⟨r :: front, r', back, before, by rw [split]; rfl, ?_, ?_⟩
      · rw [entriesFrom, Task.bind_of_ok _ done]
        exact passed
      · rwa [List.length_cons, Nat.add_comm front.length 1, ← Nat.add_assoc]

theorem entriesFrom_append {front : List Archive.Record} {before : World}
    (done : entriesFrom jar dest index front w = .ok () before) (back : List Archive.Record) :
    entriesFrom jar dest index (front ++ back) w = entriesFrom jar dest (index + front.length) back before := by
  induction front generalizing index w with
  | nil => cases done; rfl
  | cons r rest ih =>
    obtain ⟨_, w₁, first, later⟩ := Task.bind_ok done
    rw [List.cons_append, entriesFrom, Task.bind_of_ok _ first, ih later, List.length_cons,
      Nat.add_comm rest.length 1, ← Nat.add_assoc]

/-- All that is done for an entry is done at its path, and above it. -/
theorem upheld_toward {base : Path} {l : Location} {names : List Bytes} (origin before : FileSystem)
    (valid : AllNames names) (down : names ≠ []) :
    Upheld (fun fs => Within base l origin fs ∧ before.Toward fs (l ++ names)) (base.descendant names) := by
  refine ⟨?_, ?_, ?_⟩
  · rintro fs p (rfl | above) ⟨within, toward⟩
    · obtain ⟨adds, within'⟩ := within.makeDirectories_adds valid down
      exact ⟨within', toward.trans (.of_adds adds fun _ => prefix_of_passed)⟩
    · rw [Path.parent_eq_enclosing base valid down] at above
      cases above
      obtain ⟨adds, within'⟩ := within.makeEnclosing_adds valid
      refine ⟨within', toward.trans (.of_adds adds fun _ passed => ?_)⟩
      exact (prefix_of_passed passed).trans ((List.prefix_append_right_inj l).mpr (List.dropLast_prefix names))
  · rintro fs mode changed ⟨within, toward⟩ done
    refine ⟨within.changeMode valid down done, toward.trans (.changeMode ?_ done)⟩
    exact fun m located => (within.leads.locate_ok within.free valid down located).1
  · rintro fs m opened ⟨within, toward⟩ done
    obtain ⟨rfl, within'⟩ := within.openToWrite valid down done
    exact ⟨⟨within', toward.trans (.openToWrite done)⟩,
      fun other data ⟨within, toward⟩ => ⟨within.fill down data, toward.trans (.fill _ _ _)⟩⟩

/-- What an entry leaves that fails below a destination that is reached. -/
theorem remains_of_entry {origin : FileSystem} {r : Archive.Record} (guarded : dest.Guarded)
    (within : Within dest.clean (origin.place dest) origin w.files)
    (failed : entry jar dest index r w = .error e w') : Remains dest index r w e w' := by
  have upheld : ∀ p, dest.resolveInside r.name = .ok p → Upheld (fun fs =>
      Within dest.clean (origin.place dest) origin fs ∧ w.files.Toward fs (w.files.place p)) p := by
    intro p accepted
    obtain ⟨names, down, valid, rfl⟩ := Path.descendant_of_inside accepted (guarded.inside accepted).2
    rw [place_descendant _ _ valid, place_clean, place_congr within.here]
    exact upheld_toward origin w.files valid down
  rcases (ends_entry upheld (fun p _ => ⟨within, .refl _ _⟩) jar index).of_error failed with
    ⟨rfl, ⟨cause, rfl⟩ | ⟨resolved, outside, rfl⟩⟩ | ⟨path, accepted, ⟨p, fault, below, rfl⟩, changed⟩
  · exact .unread
  · exact .escaped outside
  · rw [changed.others]
    exact .unwritten accepted below changed.files.2

/-- However unpacking an archive fails, it stopped cleanly. -/
theorem stopped_of_extract (sound : w.files.Sound) (guarded : dest.Guarded) (plain : w.files.Plain dest)
    (free : w.files.LinkFree (w.files.place dest)) (failed : extract archive dest w = .error e w') :
    Stopped archive dest w e w' := by
  rcases Task.bind_error failed with asked | ⟨⟨jar, records⟩, w₁, asked, failed⟩
  · obtain ⟨refused, rfl⟩ := Task.query_error.mp asked
    obtain ⟨cause, rfl⟩ := openArchive_error refused
    exact .unopened refused
  obtain ⟨opened, rfl⟩ := Task.query_ok.mp asked
  rcases Task.bind_error failed with unmade | ⟨_, w₂, made, failed⟩
  · have adds := (sound.makeDirectories plain).2
    rcases Task.bind_error unmade with attempted | ⟨_, _, _, moded⟩
    · obtain ⟨fault, refused, rfl⟩ := Task.withError_error.mp attempted
      obtain ⟨unfinished, rfl⟩ := Task.attempt_error.mp refused
      exact .unmade opened (Prod.ext unfinished rfl) adds
    · cases moded
  obtain ⟨ready, done, moded⟩ := makeDirectory_iff.mp made
  cases moded
  rcases Task.bind_error failed with failed | ⟨_, _, _, ended⟩
  · obtain ⟨front, r, back, before, rfl, passed, stopped⟩ := entriesFrom_error failed
    have within := within_of_made sound plain free done
    have here : ready.place dest = w.files.place dest := by
      have adds := (sound.makeDirectories plain).2
      rw [done] at adds
      exact place_congr adds.here dest
    rw [← here] at within
    have upheld : ∀ r ∈ front, ∀ p, dest.resolveInside r.name = .ok p →
        Upheld (Within dest.clean (ready.place dest) ready) p :=
      fun r _ p => upheld_accepted guarded _ ready r.name p
    have kept := (keeps_entriesFrom (w := { w with files := ready }) upheld jar 0 ⟨within, rfl⟩).of_ok passed
    have met : (front ++ r :: back)[front.length]? = some r := by simp
    rw [Nat.zero_add] at stopped
    refine .atEntry opened met ?_ ?_ (remains_of_entry guarded kept.files stopped)
    · rw [extractFront_run opened done, List.take_left, Task.bind_of_ok _ passed]
      rfl
    · have last : (front ++ r :: back).take (front.length + 1) = front ++ [r] := by
        rw [List.append_cons, List.take_left' (by simp)]
      rw [extractFront_run opened done, last]
      refine Task.bind_of_error _ ?_
      rw [entriesFrom_append passed, Nat.zero_add]
      exact Task.bind_of_error _ stopped
  · cases ended

section Cutting

variable {origin : FileSystem} {l jar' : Location} {image image' : Bytes} {records' : List Archive.Record}

/-- Entries that are stored alike are both not read, or read from where they start. -/
theorem read_alike {r r' : Archive.Record} (same : item image r = item image' r') :
    (∃ cause, r.dataStart image = .error cause ∧ r'.dataStart image' = .error cause) ∨
      ∃ start start', r.dataStart image = .ok start ∧ r'.dataStart image' = .ok start' ∧
        r.content image start = r'.content image' start' := by
  have read : (r.dataStart image).map (r.content image) = (r'.dataStart image').map (r'.content image') :=
    congrArg Item.read same
  cases begins : r.dataStart image with
  | error cause =>
    cases begins' : r'.dataStart image' with
    | error cause' => rw [begins, begins'] at read; cases read; exact Or.inl ⟨cause, rfl, rfl⟩
    | ok start' => rw [begins, begins'] at read; cases read
  | ok start =>
    cases begins' : r'.dataStart image' with
    | error cause' => rw [begins, begins'] at read; cases read
    | ok start' => rw [begins, begins'] at read; exact Or.inr ⟨start, start', rfl, rfl, Except.ok.inj read⟩

/-- A file that is begun below a destination is begun below nothing else. -/
theorem within_of_begun {names : List Bytes} {mode : Option Nat} {m : Location} {w₁ w₂ : World}
    (within : Within dest.clean l origin w.files) (valid : AllNames names) (down : names ≠ [])
    (enclosed : makeDirectory (dest.clean.enclosing names) none w = .ok () w₁)
    (begun : makeFile (dest.clean.descendant names) mode w₁ = .ok m w₂) : Within dest.clean l origin w₂.files := by
  have within₁ := (within.makeEnclosing_adds valid).2
  obtain ⟨made, done, moded⟩ := makeDirectory_iff.mp enclosed
  cases moded
  rw [done] at within₁
  have unchanged : Changed (Within dest.clean l origin) { w with files := made } { w with files := made } :=
    ⟨within₁, rfl⟩
  exact ((changes_makeFile (upheld_within l origin valid down) mode unchanged).of_ok begun).1.files

/-- An entry is unpacked alike from two archives that store it alike, if neither is among what is written. -/
theorem entry_congr {r r' : Archive.Record} (guarded : dest.Guarded) (within : Within dest.clean l origin w.files)
    (beside : ¬ Below l jar) (beside' : ¬ Below l jar') (content : origin.contents jar = .ok image)
    (content' : origin.contents jar' = .ok image') (same : item image r = item image' r') (index : Nat) :
    entry jar dest index r w = entry jar' dest index r' w := by
  have name : r.name = r'.name := congrArg Item.name same
  have isDirectory : r.isDirectory = r'.isDirectory := congrArg Item.isDirectory same
  have mode : r.mode = r'.mode := congrArg Item.mode same
  have holds : ∀ {fs}, Within dest.clean l origin fs → fs.contents jar = .ok image :=
    fun inside => (inside.contents beside).trans content
  have holds' : ∀ {fs}, Within dest.clean l origin fs → fs.contents jar' = .ok image' :=
    fun inside => (inside.contents beside').trans content'
  unfold entry
  rcases read_alike same with ⟨cause, begins, begins'⟩ | ⟨start, start', begins, begins', read⟩
  · have asked := asked_start (holds within) index (congrArg _ begins)
    have asked' := asked_start (holds' within) index (congrArg _ begins')
    rw [Task.bind_of_error _ (Task.query_error.mpr ⟨asked, rfl⟩),
      Task.bind_of_error _ (Task.query_error.mpr ⟨asked', rfl⟩)]
  · have asked := asked_start (holds within) index (congrArg _ begins)
    have asked' := asked_start (holds' within) index (congrArg _ begins')
    rw [Task.bind_of_ok _ (Task.query_ok.mpr ⟨asked, rfl⟩), Task.bind_of_ok _ (Task.query_ok.mpr ⟨asked', rfl⟩)]
    simp only [name, isDirectory, mode]
    cases accepted : dest.resolveInside r'.name with
    | error resolved => rfl
    | ok path =>
      obtain ⟨names, down, valid, rfl⟩ := Path.descendant_of_inside accepted (guarded.inside accepted).2
      simp only
      split
      · rfl
      · rw [Path.parent_eq_enclosing dest.clean valid down]
        refine Task.bind_congr rfl fun _ w₁ enclosed => Task.bind_congr rfl fun m w₂ begun => ?_
        have within₂ := within_of_begun within valid down enclosed begun
        rw [Task.bind_of_ok (a := image) _ (Task.query_ok.mpr ⟨by rw [holds within₂]; rfl, rfl⟩),
          Task.bind_of_ok (a := image') _ (Task.query_ok.mpr ⟨by rw [holds' within₂]; rfl, rfl⟩), read]

theorem entriesFrom_congr (guarded : dest.Guarded) (within : Within dest.clean l origin w.files)
    (beside : ¬ Below l jar) (beside' : ¬ Below l jar') (content : origin.contents jar = .ok image)
    (content' : origin.contents jar' = .ok image') (same : records.map (item image) = records'.map (item image')) :
    entriesFrom jar dest index records w = entriesFrom jar' dest index records' w := by
  induction records generalizing records' index w with
  | nil =>
    rw [List.map_nil, List.nil_eq, List.map_eq_nil_iff] at same
    rw [same]
    rfl
  | cons r rest ih =>
    obtain ⟨r', rest', rfl, first, later⟩ := List.map_eq_cons_iff.mp same.symm
    rw [entriesFrom, entriesFrom]
    refine Task.bind_congr (entry_congr guarded within beside beside' content content' first.symm index) ?_
    intro _ w₁ unpacked
    have kept := (keeps_entry (upheld_accepted guarded l origin r.name) jar index ⟨within, rfl⟩).of_ok unpacked
    exact ih kept.files later.symm

/-- The front of an archive is unpacked as an archive that holds just that. -/
theorem extract_eq_front {cut : Path} {items : List Item} {count : Nat} (sound : w.files.Sound) (guarded : dest.Guarded)
    (plain : w.files.Plain dest) (free : w.files.LinkFree (w.files.place dest)) (holds : Holds archive w.files items)
    (beside : Beside archive dest w.files) (holds' : Holds cut w.files (items.take count))
    (beside' : Beside cut dest w.files) : extract cut dest w = extractFront count archive dest w := by
  obtain ⟨jar, image, records, opened, content, rfl⟩ := holds
  obtain ⟨jar', image', records', opened', content', same⟩ := holds'
  unfold extract extractFront
  rw [Task.bind_of_ok _ (Task.query_ok.mpr ⟨opened', rfl⟩), Task.bind_of_ok _ (Task.query_ok.mpr ⟨opened, rfl⟩)]
  refine Task.bind_congr rfl fun _ w₁ made => ?_
  obtain ⟨ready, done, moded⟩ := makeDirectory_iff.mp made
  cases moded
  have adds := (sound.makeDirectories plain).2
  rw [done] at adds
  rw [← List.map_take] at same
  refine Task.bind_congr ?_ fun _ _ _ => ?_
  · exact entriesFrom_congr (w := { w with files := ready }) guarded (within_of_made sound plain free done)
      (beside' jar' records' opened') (beside jar records opened) (adds.grows.contents content')
      (adds.grows.contents content) same.symm
  · rw [← List.length_map (item image'), ← List.length_map (item image), same]

end Cutting

/-- An archive that is unpacked was all unpacked, and one that is not was stopped cleanly. Any other archive with as
many of its first entries comes to what they come to, where neither lies among what is unpacked. -/
theorem extract_stops (sound : w.files.Sound) (guarded : dest.Guarded) (plain : w.files.Plain dest)
    (free : w.files.LinkFree (w.files.place dest)) :
    Task.Ends (extract archive dest) w
        (fun count _ => ∃ jar records, openArchive archive w.files = .ok (jar, records) ∧ count = records.length)
        (fun e w' => Stopped archive dest w e w') ∧
      ∀ cut items count, Holds archive w.files items → Beside archive dest w.files →
        Holds cut w.files (items.take count) → Beside cut dest w.files →
        extract cut dest w = extractFront count archive dest w := by
  constructor
  · refine .intro (fun count w' ran => ?_) fun e w' failed => stopped_of_extract sound guarded plain free failed
    obtain ⟨jar, records, _, opened, _, _, all⟩ := extract_ok ran
    exact ⟨jar, records, opened, all⟩
  · intro cut items count holds beside holds' beside'
    exact extract_eq_front sound guarded plain free holds beside holds' beside'

end Stopping

/-! An archive with an entry that leads out, and another one that ends before it. -/

namespace Halted

def begun : List (Bytes × Bytes) :=
  [(ascii "d/f", ascii "f"), (ascii "e/", [])]

def whole : List (Bytes × Bytes) :=
  begun ++ [(ascii "../g", ascii "g"), (ascii "h", ascii "h")]

def dest : Path := ⟨ascii "out"⟩

def world : World :=
  { files :=
    { nodes := [([], .directory 0o755), ([ascii "j"], .file 0o644 (Archive.stored whole)),
        ([ascii "k"], .file 0o644 (Archive.stored begun))]
      here := [] } }

def records (entries : List (Bytes × Bytes)) : List Archive.Record :=
  (Archive.directory (Archive.stored entries)).toOption.getD []

end Halted

theorem stops_sample : Halted.world.files.Sound ∧ Halted.dest.Guarded ∧ Halted.world.files.Plain Halted.dest ∧
    Halted.world.files.LinkFree (Halted.world.files.place Halted.dest) ∧
    ∃ after, extract ⟨ascii "j"⟩ Halted.dest Halted.world = .error (.pathEscape (ascii "../g") ⟨ascii "g"⟩) after ∧
      Stopped ⟨ascii "j"⟩ Halted.dest Halted.world (.pathEscape (ascii "../g") ⟨ascii "g"⟩) after ∧
      extract ⟨ascii "k"⟩ Halted.dest Halted.world = extractFront 2 ⟨ascii "j"⟩ Halted.dest Halted.world := by
  have sound : Halted.world.files.Sound := .of_nodes (by decide +kernel) (by decide) (by decide) (by decide)
  have unlinked : Halted.world.files.Unlinked := by decide
  have guarded : Halted.dest.Guarded := Path.Downward.guarded ⟨[ascii "out"], by simp, by decide⟩
  have plain := unlinked.plain Halted.dest
  have free := unlinked.linkFree (Halted.world.files.place Halted.dest)
  have opened : openArchive ⟨ascii "j"⟩ Halted.world.files = .ok ([ascii "j"], Halted.records Halted.whole) := by
    decide +kernel
  have opened' : openArchive ⟨ascii "k"⟩ Halted.world.files = .ok ([ascii "k"], Halted.records Halted.begun) := by
    decide +kernel
  have beside : ∀ name, ascii "out" ≠ name → ¬ Below (Halted.world.files.place Halted.dest) [name] := by
    rintro name differs ⟨names, _, split⟩
    exact differs (List.cons.inj split).1.symm
  have failed : extract ⟨ascii "j"⟩ Halted.dest Halted.world = .error (.pathEscape (ascii "../g") ⟨ascii "g"⟩) _ :=
    Task.error_of_outcome (by decide +kernel)
  refine ⟨sound, guarded, plain, free, _, failed, (extract_stops sound guarded plain free).1.of_error failed, ?_⟩
  refine (extract_stops sound guarded plain free).2 ⟨ascii "k"⟩ _ 2
    ⟨_, Archive.stored Halted.whole, _, opened, rfl, rfl⟩ ?_ ⟨_, Archive.stored Halted.begun, _, opened', rfl, ?_⟩ ?_
  · intro jar records other
    rw [opened] at other
    cases other
    exact beside _ (by decide)
  · decide +kernel
  · intro jar records other
    rw [opened'] at other
    cases other
    exact beside _ (by decide)

end Extract

end Unjar
