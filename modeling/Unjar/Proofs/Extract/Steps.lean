import Unjar.Extract
import Unjar.Proofs.FileSystem.Access
import Unjar.Proofs.Path.Confinement
import Unjar.Proofs.Task

/-!
What it takes to unpack an archive: where its entries lead, and what each step comes to when it succeeds.
-/

namespace Unjar

/-- What is accepted and lies strictly inside is the cleaned destination with names joined to it. -/
theorem Path.descendant_of_inside {dest p : Path} {name : Bytes} (accepted : dest.resolveInside name = .ok p)
    (inside : p.StrictlyInside dest) : ∃ names, names ≠ [] ∧ AllNames names ∧ p = dest.clean.descendant names := by
  rw [resolveInside_eq] at accepted
  split at accepted
  · cases accepted
  · cases accepted
    obtain ⟨names, some, split⟩ := inside
    have valid := names_cleaned (dest.resolved name)
    rw [components_resolved, components_clean, components_descend] at split
    have form := Cleaned.components_injective split
    rw [form] at valid
    refine ⟨names, some, valid.right, ?_⟩
    have whole : dest.resolved name = (dest.resolved name).cleaned.path := by
      rw [resolved, cleaned_clean, clean_eq]
    rw [whole, form, Cleaned.path, descendant_append, clean_eq]
    rfl

/-- A guarded destination accepts what leads strictly inside, under the path it leads to. -/
theorem Path.Guarded.inside {dest p : Path} {name : Bytes} (guarded : dest.Guarded)
    (accepted : dest.resolveInside name = .ok p) : p = dest.resolved name ∧ p.StrictlyInside dest := by
  rw [Path.resolveInside_eq] at accepted
  split at accepted
  · cases accepted
  · rename_i inside
    cases accepted
    exact ⟨rfl, (guarded.accepts_iff name).mp inside⟩

namespace Extract

/-- Entries that lead strictly inside the destination, if they are accepted at all. -/
def Confined (dest : Path) (records : List Archive.Record) : Prop :=
  ∀ r ∈ records, ∀ p, dest.resolveInside r.name = .ok p → p.StrictlyInside dest

theorem Confined.of_guarded {dest : Path} (guarded : dest.Guarded) (records : List Archive.Record) :
    Confined dest records :=
  fun _ _ _ accepted => (guarded.inside accepted).2

theorem Confined.path {dest : Path} {records : List Archive.Record} (confined : Confined dest records)
    {r : Archive.Record} (member : r ∈ records) {p : Path} (accepted : dest.resolveInside r.name = .ok p) :
    ∃ names, names ≠ [] ∧ AllNames names ∧ p = dest.clean.descendant names :=
  Path.descendant_of_inside accepted (confined r member p accepted)

/-- What is done for a directory: it is made, and a stored mode is set. -/
theorem makeDirectory_iff {p : Path} {mode : Option Nat} {w w' : World} :
    makeDirectory p mode w = .ok () w' ↔ ∃ made, w.files.makeDirectories p = (.ok (), made) ∧
      applyMode p mode directoryOwner { w with files := made } = .ok () w' := by
  constructor
  · intro ran
    obtain ⟨_, w₁, made, moded⟩ := Task.bind_ok ran
    rw [Task.withError_ok, Task.attempt_ok] at made
    obtain ⟨done, rfl⟩ := made
    exact ⟨_, Prod.ext done rfl, moded⟩
  · rintro ⟨made, done, moded⟩
    unfold makeDirectory
    rw [Task.bind_of_ok _ (Task.withError_ok.mpr (Task.attempt_ok.mpr ⟨by rw [done], rfl⟩)), done]
    exact moded

/-- What is done for a file: it is opened, and a stored mode is set. -/
theorem makeFile_iff {p : Path} {mode : Option Nat} {m : Location} {w w' : World} :
    makeFile p mode w = .ok m w' ↔ ∃ opened, w.files.openToWrite p = .ok (m, opened) ∧
      applyMode p mode fileOwner { w with files := opened } = .ok () w' := by
  constructor
  · intro ran
    obtain ⟨m', w₁, opened, later⟩ := Task.bind_ok ran
    obtain ⟨_, w₂, moded, ended⟩ := Task.bind_ok later
    cases ended
    rw [Task.attempt_ok] at opened
    cases opening : w.files.openToWrite p with
    | error fault =>
      simp only [opening] at opened
      cases opened.1
    | ok pair =>
      simp only [opening, Except.ok.injEq] at opened
      obtain ⟨rfl, rfl⟩ := opened
      exact ⟨pair.2, rfl, moded⟩
  · rintro ⟨opened, done, moded⟩
    unfold makeFile
    rw [Task.bind_of_ok (a := m) _ (Task.attempt_ok.mpr ⟨by simp only [done], rfl⟩)]
    simp only [done]
    rw [Task.bind_of_ok _ moded]
    rfl

open FileSystem

theorem openArchive_ok {archive : Path} {fs : FileSystem} {jar : Location} {records : List Archive.Record} :
    openArchive archive fs = .ok (jar, records) ↔ fs.openToRead archive = .ok jar ∧
      ∃ image, fs.contents jar = .ok image ∧ Archive.directory image = .ok records := by
  unfold openArchive
  constructor
  · intro opened
    cases reading : fs.openToRead archive with
    | error fault => rw [reading] at opened; cases opened
    | ok m =>
      rw [reading] at opened
      simp only [bind, Except.bind, Except.mapError] at opened
      cases content : fs.contents m with
      | error fault => rw [content] at opened; cases opened
      | ok image =>
        rw [content] at opened
        simp only at opened
        cases found : Archive.directory image with
        | error fault => rw [found] at opened; cases opened
        | ok records' =>
          rw [found] at opened
          cases opened
          exact ⟨rfl, image, content, found⟩
  · rintro ⟨opened, image, content, found⟩
    simp only [opened, content, found, bind, Except.bind, Except.mapError]
    rfl

/-- An archive that was opened is there. -/
theorem node_of_openArchive {archive : Path} {fs : FileSystem} {jar : Location} {records : List Archive.Record}
    (opened : openArchive archive fs = .ok (jar, records)) : ∃ node, fs.node? jar = some node := by
  obtain ⟨_, image, content, _⟩ := openArchive_ok.mp opened
  rw [FileSystem.contents] at content
  cases atNode : fs.node? jar with
  | none => rw [atNode] at content; cases content
  | some node => exact ⟨node, rfl⟩

/-- An archive is opened as before when nothing of the file system is lost. -/
theorem openArchive_grows {archive : Path} {fs fs' : FileSystem} {jar : Location} {records : List Archive.Record}
    (sound : fs.Sound) (grows : fs.Grows fs') (opened : openArchive archive fs = .ok (jar, records)) :
    openArchive archive fs' = .ok (jar, records) := by
  obtain ⟨node, atNode⟩ := node_of_openArchive opened
  obtain ⟨reading, image, content, found⟩ := openArchive_ok.mp opened
  refine openArchive_ok.mpr ⟨sound.openToRead_grows grows reading, image, ?_, found⟩
  rwa [FileSystem.contents, grows.kept atNode, ← atNode, ← FileSystem.contents]

/-- Where the data of an entry starts is asked of an archive that can be read. -/
theorem asked_start {fs : FileSystem} {jar : Location} {image : Bytes} {r : Archive.Record}
    {start : Except ExtractError Nat} (content : fs.contents jar = .ok image) (index : Nat)
    (begins : (r.dataStart image).mapError (.readEntry index) = start) :
    ((fs.contents jar).mapError (fun fault => .readEntry index (.unreadable fault)) >>= fun image =>
      (r.dataStart image).mapError (.readEntry index)) = start := by
  rw [content]
  exact begins

/-- What is done for an entry that is unpacked to these names below the destination: a directory is made, or a file is
made in its directory, and filled with what the archive holds for it then. -/
inductive Unpacks (jar : Location) (dest : Path) (r : Archive.Record) (start : Nat) (names : List Bytes) (w : World) :
    World → Prop
  | directory {w' : World} : r.isDirectory = true →
      makeDirectory (dest.clean.descendant names) r.mode w = .ok () w' → Unpacks jar dest r start names w w'
  | file {w₁ w₂ : World} {m : Location} {image data : Bytes} : r.isDirectory = false →
      makeDirectory (dest.clean.enclosing names) none w = .ok () w₁ →
      makeFile (dest.clean.descendant names) r.mode w₁ = .ok m w₂ → w₂.files.contents jar = .ok image →
      r.content image start = (data, none) → w₂.files.write m data = .ok (w₂.files.fill m data) →
      Unpacks jar dest r start names w { w₂ with
        files := w₂.files.fill m data, events := w₂.events ++ [.extracted (dest.clean.descendant names)] }

section Entry

variable {dest : Path} {records : List Archive.Record} {r : Archive.Record} {jar : Location} {image : Bytes}
  {start index : Nat} {names : List Bytes} {w w' : World}

/-- An entry that is unpacked was found in the archive and accepted, and all that was done is to unpack it. -/
theorem unpacks_of_entry (confined : Confined dest records) (member : r ∈ records)
    (ran : entry jar dest index r w = .ok () w') :
    ∃ names image start, names ≠ [] ∧ AllNames names ∧ dest.resolveInside r.name = .ok (dest.clean.descendant names) ∧
      w.files.contents jar = .ok image ∧ r.dataStart image = .ok start ∧ Unpacks jar dest r start names w w' := by
  obtain ⟨start, w₁, asked, ran⟩ := Task.bind_ok ran
  obtain ⟨starts, rfl⟩ := Task.query_ok.mp asked
  cases content : w.files.contents jar with
  | error fault =>
    simp only [content, bind, Except.bind, Except.mapError] at starts
    cases starts
  | ok image =>
    simp only [content, bind, Except.bind, Except.mapError] at starts
    cases begins : r.dataStart image with
    | error fault => rw [begins] at starts; cases starts
    | ok start' =>
      rw [begins] at starts
      cases starts
      cases accepted : dest.resolveInside r.name with
      | error resolved => rw [accepted] at ran; cases ran
      | ok path =>
        obtain ⟨names, down, valid, rfl⟩ := confined.path member accepted
        refine ⟨names, image, start, down, valid, rfl, rfl, begins, ?_⟩
        simp only [accepted] at ran
        by_cases isDirectory : r.isDirectory = true
        · rw [if_pos isDirectory] at ran
          exact .directory isDirectory ran
        · rw [if_neg isDirectory, Path.parent_eq_enclosing dest.clean valid down] at ran
          obtain ⟨_, w₂, enclosed, ran⟩ := Task.bind_ok ran
          obtain ⟨m, w₃, made, ran⟩ := Task.bind_ok ran
          obtain ⟨image', w₄, asked, ran⟩ := Task.bind_ok ran
          obtain ⟨again, rfl⟩ := Task.query_ok.mp asked
          cases content' : w₃.files.contents jar with
          | error fault => rw [content'] at again; cases again
          | ok image'' =>
            rw [content'] at again
            cases again
            rcases out : r.content image' start with ⟨data, fault⟩
            rw [out] at ran
            obtain ⟨_, w₅, taken, ran⟩ := Task.bind_ok ran
            obtain ⟨files, written, rfl⟩ := Task.change_ok.mp taken
            cases wrote : w₃.files.write m data with
            | error fault => rw [wrote] at written; cases written
            | ok filled =>
              rw [wrote] at written
              cases written
              obtain rfl := write_ok wrote
              cases fault with
              | some fault => cases ran
              | none => cases ran; exact .file (Bool.eq_false_iff.mpr isDirectory) enclosed made content' out wrote

theorem Unpacks.entry (unpacks : Unpacks jar dest r start names w w') (down : names ≠ []) (valid : AllNames names)
    (accepted : dest.resolveInside r.name = .ok (dest.clean.descendant names)) (content : w.files.contents jar = .ok image)
    (begins : r.dataStart image = .ok start) (index : Nat) : entry jar dest index r w = .ok () w' := by
  have asked := asked_start content index (congrArg (Except.mapError _) begins)
  unfold Extract.entry
  rw [Task.bind_of_ok _ (Task.query_ok.mpr ⟨asked, rfl⟩)]
  simp only [accepted]
  cases unpacks with
  | directory isDirectory made => rw [if_pos isDirectory, made]
  | file isFile enclosed made again out taken =>
    rw [if_neg (Bool.eq_false_iff.mp isFile), Path.parent_eq_enclosing dest.clean valid down]
    simp only
    rw [Task.bind_of_ok _ enclosed, Task.bind_of_ok _ made,
      Task.bind_of_ok _ (Task.query_ok.mpr ⟨by rw [again]; rfl, rfl⟩), out]
    simp only
    rw [Task.bind_of_ok _ (Task.change_ok.mpr ⟨_, by rw [taken]; rfl, rfl⟩)]
    rfl

end Entry

theorem extract_ok {archive dest : Path} {w w₁ : World} {count : Nat} (ran : extract archive dest w = .ok count w₁) :
    ∃ jar records ready, openArchive archive w.files = .ok (jar, records) ∧
      w.files.makeDirectories dest = (.ok (), ready) ∧
      entriesFrom jar dest 0 records { w with files := ready } = .ok () w₁ ∧ count = records.length := by
  obtain ⟨⟨jar, records⟩, w', asked, ran⟩ := Task.bind_ok ran
  obtain ⟨opened, rfl⟩ := Task.query_ok.mp asked
  obtain ⟨_, w₂, prepared, ran⟩ := Task.bind_ok ran
  obtain ⟨ready, made, moded⟩ := makeDirectory_iff.mp prepared
  cases moded
  obtain ⟨_, w₄, unpacked, ran⟩ := Task.bind_ok ran
  cases ran
  exact ⟨jar, records, ready, opened, made, unpacked, rfl⟩

/-- Where it is known what the archive holds, that is what was unpacked. -/
theorem entries_of_extract {archive dest : Path} {w w₁ : World} {jar : Location} {records : List Archive.Record}
    {count : Nat} (opened : openArchive archive w.files = .ok (jar, records)) (ran : extract archive dest w = .ok count w₁) :
    ∃ ready, w.files.makeDirectories dest = (.ok (), ready) ∧
      entriesFrom jar dest 0 records { w with files := ready } = .ok () w₁ ∧ count = records.length := by
  obtain ⟨jar', records', ready, opened', made, unpacked, counted⟩ := extract_ok ran
  rw [opened] at opened'
  cases opened'
  exact ⟨ready, made, unpacked, counted⟩

theorem extract_of_entries {archive dest : Path} {w w₁ : World} {jar : Location} {records : List Archive.Record}
    {ready : FileSystem} (opened : openArchive archive w.files = .ok (jar, records))
    (made : w.files.makeDirectories dest = (.ok (), ready))
    (ran : entriesFrom jar dest 0 records { w with files := ready } = .ok () w₁) :
    extract archive dest w = .ok records.length w₁ := by
  have directory : makeDirectory dest none w = .ok () { w with files := ready } :=
    makeDirectory_iff.mpr ⟨ready, made, rfl⟩
  unfold extract
  rw [Task.bind_of_ok _ (Task.query_ok.mpr ⟨opened, rfl⟩)]
  simp only
  rw [Task.bind_of_ok _ directory, Task.bind_of_ok _ ran]
  rfl

end Extract

end Unjar
