import Unjar.Proofs.Archive.Stored
import Unjar.Proofs.Extract.Steps
import Unjar.Proofs.FileSystem.Data
import Unjar.Proofs.FileSystem.Evolution
import Unjar.Proofs.FileSystem.Nodes

/-!
Unpacking, however it ends. What the operations on single nodes keep is kept by all of it: no node outside the
destination is touched, and nothing but files and directories comes to be below it.

A file is held by one location only, so that what is written below the destination is seen nowhere else. A file that
somebody has linked hard to one below the destination would be written with it.
-/

namespace Unjar

namespace Extract

open FileSystem

/-- Files of which something holds, and the calls that there were. -/
structure Keeps (kept : FileSystem → Prop) (calls : List (Path × Bytes)) (w : World) : Prop where
  files : kept w.files
  calls : w.calls = calls

/-- What each operation keeps that is done for an entry with this path. -/
structure Upheld (kept : FileSystem → Prop) (path : Path) : Prop where
  directories : ∀ fs p, p = path ∨ path.parent = some p → kept fs → kept (fs.makeDirectories p).2
  modes : ∀ fs mode changed, kept fs → fs.changeMode path mode = .ok changed → kept changed
  opening : ∀ fs l opened, kept fs → fs.openToWrite path = .ok (l, opened) →
    kept opened ∧ ∀ other data, kept other → kept (other.fill l data)

/-- Files of which something holds, in a world that is as before otherwise. -/
structure Changed (kept : FileSystem → Prop) (before after : World) : Prop where
  files : kept after.files
  others : after = { before with files := after.files }

/-- The error of an entry that is not written, about its path or the one above it. -/
def Unwritten (path : Path) (e : ExtractError) : Prop :=
  ∃ p fault, (p = path ∨ path.parent = some p) ∧ e = .write p fault

section Kept

variable {kept : FileSystem → Prop} {calls : List (Path × Bytes)} {path dest : Path} {w before : World}

theorem Changed.step (changed : Changed kept before w) {fs : FileSystem} (holds : kept fs) :
    Changed kept before { w with files := fs } :=
  ⟨holds, by rw [changed.others]⟩

theorem changes_makeDirectories (upheld : Upheld kept path) {p : Path} (made : p = path ∨ path.parent = some p)
    (changed : Changed kept before w) :
    Task.Ends ((Task.attempt fun fs => fs.makeDirectories p).withError (.write p)) w (fun _ => Changed kept before)
      fun e w' => Unwritten path e ∧ Changed kept before w' := by
  have after := changed.step (upheld.directories w.files p made changed.files)
  exact Task.Ends.withError (Task.Ends.attempt (fun _ _ => after) fun fault _ => ⟨⟨p, fault, made, rfl⟩, after⟩)

theorem changes_change {operation : FileSystem → Except Fault FileSystem}
    (keeps : ∀ fs, operation w.files = .ok fs → kept fs) (changed : Changed kept before w) :
    Task.Ends (Task.change fun fs => (operation fs).mapError (.write path)) w (fun _ => Changed kept before)
      fun e w' => Unwritten path e ∧ Changed kept before w' := by
  cases tried : operation w.files with
  | error fault =>
    refine Task.Ends.change (fun _ done => ?_) fun e failed => ?_
    · rw [tried] at done; cases done
    · rw [tried] at failed
      cases failed
      exact ⟨⟨path, fault, Or.inl rfl, rfl⟩, changed⟩
  | ok fs =>
    refine Task.Ends.change (fun _ done => ?_) fun e failed => ?_
    · rw [tried] at done
      cases done
      exact changed.step (keeps _ tried)
    · rw [tried] at failed; cases failed

theorem changes_applyMode (upheld : Upheld kept path) (mode : Option Nat) (owner : Nat)
    (changed : Changed kept before w) :
    Task.Ends (applyMode path mode owner) w (fun _ => Changed kept before)
      fun e w' => Unwritten path e ∧ Changed kept before w' := by
  cases mode with
  | none => exact Task.Ends.pure changed
  | some mode => exact changes_change (fun _ moded => upheld.modes _ _ _ changed.files moded) changed

theorem changes_makeFile (upheld : Upheld kept path) (mode : Option Nat) (changed : Changed kept before w) :
    Task.Ends (makeFile path mode) w
      (fun l w' => Changed kept before w' ∧ ∀ other data, kept other → kept (other.fill l data))
      fun e w' => Unwritten path e ∧ Changed kept before w' := by
  refine Task.Ends.bind
    (Q := fun l w' => Changed kept before w' ∧ ∀ other data, kept other → kept (other.fill l data))
    (Task.Ends.attempt ?_ ?_) ?_
  · intro l done
    cases opening : w.files.openToWrite path with
    | error fault => rw [opening] at done; cases done
    | ok pair =>
      rw [opening] at done
      cases done
      obtain ⟨opened, fills⟩ := upheld.opening _ _ _ changed.files opening
      exact ⟨changed.step opened, fills⟩
  · intro e failed
    cases opening : w.files.openToWrite path with
    | error fault =>
      rw [opening] at failed
      cases failed
      exact ⟨⟨path, fault, Or.inl rfl, rfl⟩, changed⟩
    | ok pair => rw [opening] at failed; cases failed
  · rintro l w' ⟨changed', fills⟩
    exact (changes_applyMode upheld mode fileOwner changed').bind fun _ w'' changed'' => .pure ⟨changed'', fills⟩

theorem changes_write {l : Location} (fills : ∀ other data, kept other → kept (other.fill l data)) (data : Bytes)
    (changed : Changed kept before w) :
    Task.Ends (Task.change fun fs => (fs.write l data).mapError (.write path)) w (fun _ => Changed kept before)
      fun e w' => Unwritten path e ∧ Changed kept before w' := by
  refine changes_change (fun fs wrote => ?_) changed
  rw [write_ok wrote]
  exact fills w.files data changed.files

/-- How an entry ends: unpacked, or not read or accepted and then without a change, or not written. What the
operations on its path keep is kept in either case. -/
theorem ends_entry {r : Archive.Record} {kept : Path → FileSystem → Prop}
    (upheld : ∀ p, dest.resolveInside r.name = .ok p → Upheld (kept p) p)
    (holds : ∀ p, dest.resolveInside r.name = .ok p → kept p w.files) (jar : Location) (index : Nat) :
    Task.Ends (entry jar dest index r) w
      (fun _ w' => ∃ path, dest.resolveInside r.name = .ok path ∧ kept path w'.files ∧ w'.calls = w.calls)
      fun e w' => (w' = w ∧ ((∃ cause, e = .readEntry index cause) ∨
          ∃ resolved, dest.resolveInside r.name = .error resolved ∧ e = .pathEscape r.name resolved)) ∨
        ∃ path, dest.resolveInside r.name = .ok path ∧ Unwritten path e ∧ Changed (kept path) w w' := by
  refine Task.Ends.bind (Q := fun _ w' => w' = w) (Task.Ends.query (fun _ _ => rfl) fun e failed => ?_) ?_
  · refine Or.inl ⟨rfl, Or.inl ?_⟩
    cases content : w.files.contents jar with
    | error fault => rw [content] at failed; cases failed; exact ⟨_, rfl⟩
    | ok image =>
      cases begins : r.dataStart image with
      | error cause =>
        simp only [content, begins, bind, Except.bind, Except.mapError] at failed
        cases failed
        exact ⟨_, rfl⟩
      | ok start =>
        simp only [content, begins, bind, Except.bind, Except.mapError] at failed
        cases failed
  intro start w₀ same
  rw [same]
  cases accepted : dest.resolveInside r.name with
  | error resolved => exact Task.Ends.throw (Or.inl ⟨rfl, Or.inr ⟨resolved, rfl, rfl⟩⟩)
  | ok path =>
    have upheld := upheld path accepted
    have changed : Changed (kept path) w w := ⟨holds path accepted, rfl⟩
    have settled : ∀ {w'}, Changed (kept path) w w' → kept path w'.files ∧ w'.calls = w.calls :=
      fun changed' => ⟨changed'.files, by rw [changed'.others]⟩
    refine Task.Ends.mono (Q := fun _ w' => kept path w'.files ∧ w'.calls = w.calls)
      (E := fun e w' => Unwritten path e ∧ Changed (kept path) w w') ?_ (fun _ _ here => ⟨path, rfl, here⟩)
      fun e w' failed => Or.inr ⟨path, rfl, failed⟩
    simp only
    split
    · exact (changes_makeDirectories upheld (Or.inl rfl) changed).bind fun _ w₁ changed₁ =>
        (changes_applyMode upheld r.mode directoryOwner changed₁).mono (fun _ _ => settled) fun _ _ failed => failed
    · generalize above : path.parent = parent
      refine Task.Ends.optional (x := parent) (f := fun p => makeDirectory p none) (P := Changed (kept path) w)
        changed (by rintro rfl; rfl) (by rintro _ rfl; rfl) ?_ ?_
      · rintro _ rfl
        exact (changes_makeDirectories upheld (Or.inr above) changed).bind fun _ _ changed₁ => .pure changed₁
      · intro w₁ changed₁
        refine (changes_makeFile upheld r.mode changed₁).bind ?_
        rintro l w₂ ⟨changed₂, fills⟩
        refine Task.Ends.bind (Q := fun _ => Changed (kept path) w) (Task.Ends.query (fun _ _ => changed₂) ?_) ?_
        · intro e failed
          cases content : w₂.files.contents jar with
          | error fault =>
            rw [content] at failed
            cases failed
            exact ⟨⟨path, fault, Or.inl rfl, rfl⟩, changed₂⟩
          | ok image => rw [content] at failed; cases failed
        · intro image w₃ changed₃
          rcases r.content image start with ⟨data, fault⟩
          refine Task.Ends.bind (Q := fun _ => Changed (kept path) w) (changes_write fills data changed₃) ?_
          intro _ w₄ written
          cases fault with
          | none => exact ⟨written.files, (settled written).2⟩
          | some fault => exact Task.Ends.throw ⟨⟨path, fault, Or.inl rfl, rfl⟩, written⟩

/-- What is kept by the operations for one entry is kept while the entry is unpacked, or fails to be. -/
theorem keeps_entry {r : Archive.Record} (upheld : ∀ p, dest.resolveInside r.name = .ok p → Upheld kept p)
    (jar : Location) (index : Nat) (holds : Keeps kept calls w) :
    Task.Ends (entry jar dest index r) w (fun _ => Keeps kept calls) fun _ => Keeps kept calls := by
  refine (ends_entry upheld (fun _ _ => holds.files) jar index).mono ?_ ?_
  · rintro _ w' ⟨_, _, files, same⟩
    exact ⟨files, same.trans holds.calls⟩
  · rintro e w' (⟨rfl, _⟩ | ⟨_, _, _, changed⟩)
    · exact holds
    · exact ⟨changed.files, by rw [changed.others]; exact holds.calls⟩

theorem keeps_entriesFrom {records : List Archive.Record}
    (upheld : ∀ r ∈ records, ∀ p, dest.resolveInside r.name = .ok p → Upheld kept p) (jar : Location) (index : Nat)
    (holds : Keeps kept calls w) :
    Task.Ends (entriesFrom jar dest index records) w (fun _ => Keeps kept calls) fun _ => Keeps kept calls := by
  induction records generalizing index w with
  | nil => exact Task.Ends.pure holds
  | cons r rest ih =>
    refine (keeps_entry (upheld r List.mem_cons_self) jar index holds).bind fun _ w₁ holds₁ => ?_
    exact ih (fun other member => upheld other (List.mem_cons_of_mem _ member)) (index + 1) holds₁

/-- Unpacking begins with the destination, and goes on with the entries if that is made. -/
theorem ends_extract {archive : Path} {Q P : World → Prop} (unopened : P w)
    (unmade : ∀ fault left, w.files.makeDirectories dest = (.error fault, left) → P { w with files := left })
    (unpacking : ∀ jar records ready, w.files.makeDirectories dest = (.ok (), ready) →
      Task.Ends (entriesFrom jar dest 0 records) { w with files := ready } (fun _ => Q) fun _ => P) :
    Task.Ends (extract archive dest) w (fun _ => Q) fun _ => P := by
  refine Task.Ends.bind (Q := fun _ w' => w' = w) (Task.Ends.query (fun _ _ => rfl) fun _ _ => unopened) ?_
  rintro ⟨jar, records⟩ w' rfl
  have made : Task.Ends (makeDirectory dest none) w'
      (fun _ w₁ => ∃ ready, w'.files.makeDirectories dest = (.ok (), ready) ∧ w₁ = { w' with files := ready })
      fun _ => P := by
    refine Task.Ends.bind (Task.Ends.withError (Task.Ends.attempt ?_ ?_)) fun _ _ here => Task.Ends.pure here
    · exact fun _ done => ⟨_, Prod.ext done rfl, rfl⟩
    · exact fun fault failed => unmade fault _ (Prod.ext failed rfl)
  refine made.bind ?_
  rintro _ _ ⟨ready, made, rfl⟩
  exact (unpacking jar records ready made).bind fun _ _ here => Task.Ends.pure here

end Kept

theorem upheld_evolves (origin : FileSystem) (path : Path) : Upheld origin.Evolves path := by
  refine ⟨?_, ?_, ?_⟩
  · exact fun _ _ _ so_far => so_far.trans (.makeDirectories so_far.sound _)
  · exact fun _ _ _ so_far done => so_far.trans (.changeMode so_far.sound done)
  · exact fun _ _ _ so_far done => ⟨so_far.trans (.openToWrite so_far.sound done),
      fun _ _ other => other.trans (.fill other.sound _ _)⟩

/-- Wherever an archive is unpacked, directories and links stay, and there are new directories and files only. -/
theorem extract_evolves (archive dest : Path) {w : World} (sound : w.files.Sound) :
    Task.Ends (extract archive dest) w (fun _ => Keeps w.files.Evolves w.calls)
      fun _ => Keeps w.files.Evolves w.calls := by
  have made := Evolves.makeDirectories sound dest
  refine ends_extract ⟨.refl sound, rfl⟩ ?_ ?_
  · intro fault left failed
    rw [failed] at made
    exact ⟨made, rfl⟩
  · intro jar records ready done
    rw [done] at made
    exact keeps_entriesFrom (fun _ _ p _ => upheld_evolves w.files p) jar 0 ⟨made, rfl⟩

/-- An archive that is unpacked leaves a directory in place of its destination, whatever links are on the way. -/
theorem leads_of_extract {archive dest : Path} {w w₁ : World} {count : Nat} (sound : w.files.Sound)
    (ran : extract archive dest w = .ok count w₁) :
    w.files.Evolves w₁.files ∧ w₁.calls = w.calls ∧ ∃ l, w₁.files.Leads dest l := by
  obtain ⟨evolves, calls⟩ := (extract_evolves archive dest sound).of_ok ran
  obtain ⟨jar, records, ready, _, made, unpacked, _⟩ := extract_ok ran
  obtain ⟨l, leads⟩ := sound.leads_of_made made
  have soundReady := (Evolves.makeDirectories sound dest).sound
  rw [made] at soundReady
  have start : Keeps ready.Evolves w.calls { w with files := ready } := ⟨.refl soundReady, rfl⟩
  have kept := (keeps_entriesFrom (fun _ _ p _ => upheld_evolves ready p) jar 0 start).of_ok unpacked
  exact ⟨evolves, calls, l, leads.mono kept.files.keeps⟩

theorem Upheld.and {kept kept' : FileSystem → Prop} {path : Path} (first : Upheld kept path)
    (second : Upheld kept' path) : Upheld (fun fs => kept fs ∧ kept' fs) path := by
  refine ⟨?_, ?_, ?_⟩
  · exact fun fs p made ⟨here, here'⟩ => ⟨first.directories fs p made here, second.directories fs p made here'⟩
  · exact fun fs mode changed ⟨here, here'⟩ done =>
      ⟨first.modes fs mode changed here done, second.modes fs mode changed here' done⟩
  · intro fs l opened ⟨here, here'⟩ done
    obtain ⟨opened, fills⟩ := first.opening fs l _ here done
    obtain ⟨opened', fills'⟩ := second.opening fs l _ here' done
    exact ⟨⟨opened, opened'⟩, fun other data ⟨there, there'⟩ => ⟨fills other data there, fills' other data there'⟩⟩

/-- What is below a directory that is reached stays below it. -/
theorem upheld_within {base : Path} (l : Location) (origin : FileSystem) {names : List Bytes} (valid : AllNames names)
    (down : names ≠ []) : Upheld (Within base l origin) (base.descendant names) := by
  refine ⟨?_, fun _ _ _ within => within.changeMode valid down, ?_⟩
  · rintro fs p (rfl | above) within
    · exact (within.makeDirectories_adds valid down).2
    · rw [Path.parent_eq_enclosing base valid down] at above
      cases above
      exact (within.makeEnclosing_adds valid).2
  · intro fs m opened within done
    obtain ⟨rfl, within'⟩ := within.openToWrite valid down done
    exact ⟨within', fun _ data other => other.fill down data⟩

/-- What unpacking may do to a file system: outside the destination it makes directories that the destination is in,
and nothing else; what it makes or changes is a directory or a file; no link is on the way to the destination or
below it. -/
structure Frame (dest : Path) (before after : FileSystem) : Prop where
  outside : ∀ m, ¬ Below (before.place dest) m → after.node? m = before.node? m ∨
    before.node? m = none ∧ m <+: before.place dest ∧ after.isDirectoryAt m = true
  ordinary : ∀ m node, after.node? m = some node →
    before.node? m = some node ∨ node.isDirectory = true ∨ node.isFile = true
  plain : after.Plain dest
  linkFree : after.LinkFree (before.place dest)

section Framed

variable {fs ready after : FileSystem} {dest : Path}

/-- The destination itself is made. -/
theorem Frame.of_adds (sound : fs.Sound) (straight : dest.Straight) (plain : fs.Plain dest)
    (free : fs.LinkFree (fs.place dest)) (adds : fs.AddsDirectories ready (· ∈ fs.trail dest)) :
    Frame dest fs ready := by
  refine ⟨fun m _ => ?_, fun m node there => ?_, adds.plain plain, free.of_adds adds⟩
  · rcases adds.nodes m with same | ⟨vacant, passed, directory⟩
    · exact Or.inl same
    · rcases mem_trail_of_straight straight passed with atStart | isFront
      · have there := sound.directory_of_prefix (sound.directory_start dest) atStart
        rw [isDirectoryAt, vacant] at there
        cases there
      · exact Or.inr ⟨vacant, isFront, directory⟩
  · rcases adds.nodes m with same | ⟨_, _, directory⟩
    · exact Or.inl (same ▸ there)
    · rw [isDirectoryAt, there] at directory
      exact Or.inr (Or.inl directory)

/-- What was made first is framed, and all else was done below the destination. -/
theorem Frame.within (framed : Frame dest fs ready)
    (within : Within dest.clean (fs.place dest) ready after) (evolves : fs.Evolves after) : Frame dest fs after := by
  refine ⟨fun m elsewhere => ?_, evolves.ordinary, fun m passed target there => ?_, within.free⟩
  · rw [isDirectoryAt, within.outside m elsewhere]
    exact framed.outside m elsewhere
  · by_cases inside : Below (fs.place dest) m
    · obtain ⟨names, _, rfl⟩ := inside
      exact within.free names target there
    · rw [within.outside m inside] at there
      rw [trail_congr within.here] at passed
      exact framed.plain m passed target there

/-- A destination that was made leads to its place, and the entries that are accepted lead below it. -/
theorem within_of_made (sound : fs.Sound) (plain : fs.Plain dest) (free : fs.LinkFree (fs.place dest))
    (done : fs.makeDirectories dest = (.ok (), ready)) : Within dest.clean (fs.place dest) ready ready := by
  obtain ⟨soundMade, adds⟩ := sound.makeDirectories plain
  have directory := (sound.leads_of_makeDirectories plain done).1.directory
  rw [done] at soundMade adds
  rw [← place_congr adds.here] at directory ⊢
  exact .start soundMade (place_congr adds.here dest ▸ free.of_adds adds) (soundMade.leads_clean directory)

theorem upheld_accepted (guarded : dest.Guarded) (l : Location) (origin : FileSystem) (name : Bytes) (p : Path)
    (accepted : dest.resolveInside name = .ok p) : Upheld (Within dest.clean l origin) p := by
  obtain ⟨names, down, valid, rfl⟩ := Path.descendant_of_inside accepted (guarded.inside accepted).2
  exact upheld_within l origin valid down

end Framed

/-- The whole of it is framed, and an archive that is unpacked leaves its destination in its place. -/
theorem ends_framed (archive : Path) {dest : Path} {w : World} (sound : w.files.Sound) (straight : dest.Straight)
    (plain : w.files.Plain dest) (free : w.files.LinkFree (w.files.place dest)) :
    Task.Ends (extract archive dest) w
      (fun _ w' => Frame dest w.files w'.files ∧ w'.files.Leads dest (w.files.place dest))
      fun _ w' => Frame dest w.files w'.files := by
  have guarded : dest.Guarded := (Path.guarded_iff dest).mpr (Or.inr straight.cleaned)
  obtain ⟨soundMade, adds⟩ := sound.makeDirectories plain
  have made : Frame dest w.files (w.files.makeDirectories dest).2 := .of_adds sound straight plain free adds
  refine ends_extract (Q := fun w' => Frame dest w.files w'.files ∧ w'.files.Leads dest (w.files.place dest))
    (P := fun w' => Frame dest w.files w'.files) ?_ ?_ ?_
  · exact .of_adds sound straight plain free (.refl w.files)
  · intro fault left failed
    rwa [failed] at made
  · intro jar records ready done
    have leads := (sound.leads_of_makeDirectories plain done).1
    have evolves := Evolves.makeDirectories sound dest
    have within := within_of_made sound plain free done
    rw [done] at made soundMade evolves
    have upheld : ∀ r ∈ records, ∀ p, dest.resolveInside r.name = .ok p →
        Upheld (fun fs => Within dest.clean (w.files.place dest) ready fs ∧ ready.Evolves fs) p :=
      fun r _ p accepted => (upheld_accepted guarded _ ready r.name p accepted).and (upheld_evolves ready p)
    refine (keeps_entriesFrom (w := { w with files := ready }) upheld jar 0 ⟨⟨within, .refl soundMade⟩, rfl⟩).mono ?_ ?_
    · rintro _ w' ⟨⟨within', later⟩, _⟩
      exact ⟨made.within within' (evolves.trans later), leads.mono later.keeps⟩
    · rintro _ w' ⟨⟨within', later⟩, _⟩
      exact made.within within' (evolves.trans later)

/-- However unpacking an archive ends, nothing outside the destination is changed but for the directories that
the destination is in, and no link comes to lie on the way to it or below it. -/
theorem extract_framed (archive : Path) {dest : Path} {w : World} (sound : w.files.Sound) (straight : dest.Straight)
    (plain : w.files.Plain dest) (free : w.files.LinkFree (w.files.place dest)) :
    Frame dest w.files (Task.left (extract archive dest w)).files :=
  Task.Ends.left (P := fun w' => Frame dest w.files w'.files)
    ((ends_framed archive sound straight plain free).mono (fun _ _ both => both.1) fun _ _ framed => framed)

/-! An archive with a file and an entry that leads out, and a file beside the destination. -/

namespace Sample

def archive : Path := ⟨ascii "j"⟩

def dest : Path := ⟨ascii "../a/b"⟩

def world : World :=
  { files :=
    { nodes := [([], .directory 0o755),
        ([ascii "w"], .directory 0o755),
        ([ascii "w", ascii "j"], .file 0o644 (Archive.stored [(ascii "d/f", ascii "f"), (ascii "../g", ascii "g")])),
        ([ascii "a"], .directory 0o755),
        ([ascii "a", ascii "g"], .file 0o644 (ascii "kept"))]
      here := [ascii "w"] } }

end Sample

theorem framed_sample : Sample.world.files.Sound ∧ Sample.dest.Straight ∧ Sample.world.files.Plain Sample.dest ∧
    Sample.world.files.LinkFree (Sample.world.files.place Sample.dest) ∧
    Frame Sample.dest Sample.world.files (Task.left (extract Sample.archive Sample.dest Sample.world)).files := by
  have sound : Sample.world.files.Sound := .of_nodes (by decide +kernel) (by decide) (by decide) (by decide)
  have unlinked : Sample.world.files.Unlinked := by decide
  have straight : Sample.dest.Straight := ⟨[.up], [ascii "a", ascii "b"], by simp, by decide, by decide⟩
  have plain := unlinked.plain Sample.dest
  have free := unlinked.linkFree (Sample.world.files.place Sample.dest)
  exact ⟨sound, straight, plain, free, extract_framed Sample.archive sound straight plain free⟩

example : Task.outcome (extract Sample.archive Sample.dest Sample.world) =
    .error (.pathEscape (ascii "../g") ⟨ascii "../a/g"⟩) := by decide +kernel

end Extract

end Unjar
