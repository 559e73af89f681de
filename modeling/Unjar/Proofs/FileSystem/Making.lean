import Unjar.Proofs.FileSystem.Growth
import Unjar.Proofs.FileSystem.Lineage
import Unjar.Proofs.Path.Parent

/-!
Making a directory and those above it, and opening a file. On a path without links only directories on its trail come
into being, and when it succeeds the path leads to a directory.
-/

namespace Unjar.FileSystem

variable {fs fs' : FileSystem}

theorem makeNode_ok {p : Path} {node : Location → Node} (made : fs.makeNode p node = .ok fs') :
    ∃ parent name slashed, fs.find .makeDirectory p = .ok (.free parent name slashed) ∧
      fs' = fs.put (parent ++ [name]) (node parent) := by
  unfold makeNode at made
  cases found : fs.find .makeDirectory p with
  | error fault => rw [found] at made; cases made
  | ok spot =>
    rw [found] at made
    cases spot with
    | taken l => cases made
    | free parent name slashed =>
      cases made
      exact ⟨parent, name, slashed, rfl, rfl⟩

theorem makeDirectory_ok {p : Path} (made : fs.makeDirectory p = .ok fs') :
    ∃ parent name slashed, fs.find .makeDirectory p = .ok (.free parent name slashed) ∧
      fs' = fs.put (parent ++ [name]) (.directory (fs.modeBelow parent)) :=
  makeNode_ok made

/-- How a file is opened for writing, emptied or not: as a new one, as an old one, or as a device. -/
inductive OpensToWrite (fs : FileSystem) (newMode : Nat) (p : Path) : Bool → Location → FileSystem → Prop
  | new {empties : Bool} {parent : Location} {name : Bytes} : fs.find .openFile p = .ok (.free parent name false) →
      OpensToWrite fs newMode p empties (parent ++ [name]) (fs.put (parent ++ [name]) (.file newMode []))
  | old {l : Location} {mode : Nat} {data : Bytes} : fs.find .openFile p = .ok (.taken l) →
      fs.node? l = some (.file mode data) →
      OpensToWrite fs newMode p true l (fs.put l (.file (modeAfterWriting mode) []))
  | kept {l : Location} {mode : Nat} {data : Bytes} : fs.find .openFile p = .ok (.taken l) →
      fs.node? l = some (.file mode data) → OpensToWrite fs newMode p false l fs
  | device {empties : Bool} {l : Location} {device : Device} : fs.find .openFile p = .ok (.taken l) →
      fs.node? l = some (.device device) → device ≠ .terminal → OpensToWrite fs newMode p empties l fs

theorem openFile_ok {newMode : Nat} {empties : Bool} {p : Path} {l : Location}
    (done : fs.openFile newMode empties p = .ok (l, fs')) : fs.OpensToWrite newMode p empties l fs' := by
  unfold openFile at done
  cases found : fs.find .openFile p with
  | error fault => rw [found] at done; cases done
  | ok spot =>
    rw [found] at done
    simp only [bind, Except.bind] at done
    cases spot with
    | free parent name slashed =>
      cases slashed with
      | true => cases done
      | false => cases done; exact .new found
    | taken m =>
      simp only at done
      cases atNode : fs.node? m with
      | none => rw [atNode] at done; cases done
      | some node =>
        rw [atNode] at done
        cases node with
        | file mode data =>
          cases empties with
          | true => cases done; exact .old found atNode
          | false => cases done; exact .kept found atNode
        | device device =>
          cases device with
          | terminal => cases done
          | null | zeros | full | input | output | errors =>
            cases done
            exact .device found atNode (by simp)
        | directory mode | link target => cases done

theorem openToWrite_ok {p : Path} {l : Location} (done : fs.openToWrite p = .ok (l, fs')) :
    fs.OpensToWrite fileMode p true l fs' :=
  openFile_ok done

/-- A write that is taken leaves its data, unless there is no file to hold them. -/
theorem write_ok {l : Location} {data : Bytes} (done : fs.write l data = .ok fs') : fs' = fs.fill l data := by
  unfold write at done
  split at done
  · cases done
  · exact (Except.ok.inj done).symm

/-- Only a device refuses a write. -/
theorem write_of_plain {l : Location} (plain : fs.node? l ≠ some (.device .full)) (data : Bytes) :
    fs.write l data = .ok (fs.fill l data) := by
  rw [write, if_neg fun refused => plain refused.1]

/-- A file that was put somewhere takes what is written to it. -/
theorem write_put (fs : FileSystem) (l : Location) (mode : Nat) (old data : Bytes) :
    (fs.put l (.file mode old)).write l data = .ok ((fs.put l (.file mode old)).fill l data) :=
  write_of_plain (by rw [node?_put, if_pos rfl]; simp) data

/-- How the mode of a node is changed. Only files and directories have one. -/
inductive ChangesMode (fs : FileSystem) (mode : Nat) (l : Location) : FileSystem → Prop
  | file {old : Nat} {data : Bytes} : fs.node? l = some (.file old data) →
      ChangesMode fs mode l (fs.put l (.file mode data))
  | directory {old : Nat} : fs.node? l = some (.directory old) → ChangesMode fs mode l (fs.put l (.directory mode))
  | other : (∀ node, fs.node? l = some node → node.isFile = false ∧ node.isDirectory = false) →
      ChangesMode fs mode l fs

theorem changeMode_ok {p : Path} {mode : Nat} (done : fs.changeMode p mode = .ok fs') :
    ∃ l, fs.locate .use p = .ok l ∧ fs.ChangesMode mode l fs' := by
  unfold changeMode at done
  cases located : fs.locate .use p with
  | error fault => rw [located] at done; cases done
  | ok l =>
    rw [located] at done
    simp only [bind, Except.bind, pure, Except.pure] at done
    refine ⟨l, rfl, ?_⟩
    cases atNode : fs.node? l with
    | none => rw [atNode] at done; cases done; exact .other (by simp [atNode])
    | some node =>
      rw [atNode] at done
      cases node with
      | file old data => cases done; exact .file atNode
      | directory old => cases done; exact .directory atNode
      | link target | device => cases done; exact .other (by simp [atNode, Node.isFile, Node.isDirectory])

theorem Sound.makeDirectory_adds (sound : fs.Sound) {p : Path} (plain : fs.Plain p)
    (made : fs.makeDirectory p = .ok fs') : fs'.Sound ∧ fs.AddsDirectories fs' (· ∈ fs.trail p) := by
  obtain ⟨parent, name, slashed, found, rfl⟩ := makeDirectory_ok made
  have vacancy := (sound.find_free found).resolve_left (by simp)
  refine ⟨sound.put_new vacancy _, .put vacancy.free ?_ _⟩
  rw [show parent ++ [name] = fs.place p from plain.location found]
  exact place_mem_trail fs p

/-- Directories that are made for a lineage lie on the trails of its paths. -/
theorem Sound.makeLineage (sound : fs.Sound) {paths : List Path} {fresh : Location → Prop}
    (plain : ∀ p ∈ paths, fs.Plain p) (fresh_of_trail : ∀ p ∈ paths, ∀ l ∈ fs.trail p, fresh l) :
    (makeLineage paths fs).2.Sound ∧ fs.AddsDirectories (makeLineage paths fs).2 fresh := by
  refine makeLineage_induction (P := fun fs' => fs'.Sound ∧ fs.AddsDirectories fs' fresh) ?_ ⟨sound, .refl fs⟩
  rintro p member before made ⟨soundBefore, adds⟩ done
  obtain ⟨soundMade, addsLast⟩ := soundBefore.makeDirectory_adds (adds.plain (plain p member)) done
  refine ⟨soundMade, adds.trans (addsLast.weaken ?_)⟩
  intro l passed
  rw [trail_congr adds.here] at passed
  exact fresh_of_trail p member l passed

/-- Whatever links lie on the way of a path, making its directories adds directories. -/
theorem Sound.makeDirectories_grow (sound : fs.Sound) (p : Path) :
    fs.AddsDirectories (fs.makeDirectories p).2 fun _ => True := by
  have grown : (fs.makeDirectories p).2.Sound ∧ fs.AddsDirectories (fs.makeDirectories p).2 fun _ => True := by
    refine makeLineage_induction (P := fun fs' => fs'.Sound ∧ fs.AddsDirectories fs' fun _ => True) ?_
      ⟨sound, .refl fs⟩
    rintro q _ before made ⟨soundBefore, adds⟩ done
    obtain ⟨parent, name, slashed, found, rfl⟩ := makeDirectory_ok done
    have vacancy := (soundBefore.find_free found).resolve_left (by simp)
    exact ⟨soundBefore.put_new vacancy _, adds.trans (.put vacancy.free trivial _)⟩
  exact grown.2

theorem mem_parentsFrom {fuel : Nat} {p q : Path} (member : q ∈ parentsFrom fuel p) :
    q.way <+: p.way ∧ q.isAbsolute = p.isAbsolute := by
  induction fuel generalizing p with
  | zero =>
    rw [parentsFrom, List.mem_singleton] at member
    rw [member]
    exact ⟨List.prefix_rfl, rfl⟩
  | succ fuel ih =>
    rw [parentsFrom] at member
    cases above : p.parent with
    | none =>
      rw [above, List.mem_singleton] at member
      rw [member]
      exact ⟨List.prefix_rfl, rfl⟩
    | some parent =>
      rw [above] at member
      rcases List.mem_cons.mp member with rfl | higher
      · exact ⟨List.prefix_rfl, rfl⟩
      · obtain ⟨isFront, _, anchored⟩ := Path.way_parent above
        obtain ⟨isFront', anchored'⟩ := ih higher
        exact ⟨isFront'.trans isFront, anchored'.trans anchored⟩

theorem trail_of_parentsFrom {fuel : Nat} {p q : Path} (member : q ∈ parentsFrom fuel p) {l : Location}
    (passed : l ∈ fs.trail q) : l ∈ fs.trail p := by
  obtain ⟨isFront, anchored⟩ := mem_parentsFrom member
  rw [trail, start, anchored] at passed
  exact trailFrom_prefix isFront _ l passed

theorem Sound.makeParents (sound : fs.Sound) {p : Path} (plain : fs.Plain p) (fuel : Nat) :
    (FileSystem.makeLineage (parentsFrom fuel p) fs).2.Sound ∧
      fs.AddsDirectories (FileSystem.makeLineage (parentsFrom fuel p) fs).2 (· ∈ fs.trail p) :=
  sound.makeLineage (fun _ member l passed => plain l (trail_of_parentsFrom member passed))
    (fun _ member _ passed => trail_of_parentsFrom member passed)

theorem Sound.makeDirectories (sound : fs.Sound) {p : Path} (plain : fs.Plain p) :
    (fs.makeDirectories p).2.Sound ∧ fs.AddsDirectories (fs.makeDirectories p).2 (· ∈ fs.trail p) :=
  sound.makeParents plain p.text.length

/-- What may be put at a free place, so that its path leads there: a directory, or a file if no slash is behind
the name. -/
structure Fills (purpose : Purpose) (slashed : Bool) (node : Node) : Prop where
  kind : node.isDirectory = true ∨ node.isFile = true ∧ slashed = false
  opened : purpose = .openFile → slashed = false

/-- A free place that is filled is reached. -/
theorem Finds.put {purpose : Purpose} {links : Nat} {l parent : Location} {name : Bytes} {slashed : Bool} {node : Node}
    {steps : List Step} (vacant : fs.node? (parent ++ [name]) = none) (fills : Fills purpose slashed node)
    (found : fs.Finds purpose (.free parent name slashed) links l steps) :
    (fs.put (parent ++ [name]) node).Finds .use (.taken (parent ++ [name])) links l steps := by
  -- what the walk meets was there before, and is not what is put
  have kept : ∀ {m other}, fs.node? m = some other → (fs.put (parent ++ [name]) node).node? m = some other := by
    intro m other there
    rw [node?_put, if_neg, there]
    rintro rfl
    rw [vacant] at there
    cases there
  induction found with
  | arrives same | stops _ _ _ same => cases same
  | stays stays _ ih => exact .stays stays ih
  | ascends _ ih => exact .ascends ih
  | enters tried there _ ih =>
    obtain ⟨mode, there⟩ := isDirectoryAt_iff.mp there
    exact .enters (.use tried.fits) (isDirectoryAt_iff.mpr ⟨mode, kept there⟩) ih
  | follows tried there _ named _ ih => exact .follows (.use tried.fits) (kept there) (followsLast_use _) named ih
  | @vacant _ _ _ slashed rest tried _ last same =>
    cases same
    have there : (fs.put (parent ++ [name]) node).node? (parent ++ [name]) = some node := by rw [node?_put, if_pos rfl]
    rcases fills.kind with directory | ⟨file, rfl⟩
    · refine .enters (.use tried.fits) (by rwa [isDirectoryAt, there]) ?_
      rw [last]
      cases slashed with
      | false => exact .arrives rfl
      | true => exact .stays (Or.inr rfl) (.arrives rfl)
    · refine .stops (.use tried.fits) there ?_ rfl
      cases node with
      | file mode data => exact Or.inl last
      | directory mode | link target | device => cases file
  | slashed opened _ same =>
    cases same
    cases fills.opened opened

/-- A path that was free leads to what is put in its place. -/
theorem locate_put {purpose : Purpose} {p : Path} {parent : Location} {name : Bytes} {slashed : Bool} {node : Node}
    (vacant : fs.node? (parent ++ [name]) = none) (fills : Fills purpose slashed node)
    (found : fs.find purpose p = .ok (.free parent name slashed)) :
    (fs.put (parent ++ [name]) node).locate .use p = .ok (parent ++ [name]) := by
  obtain ⟨spelled, found⟩ := find_ok.mp found
  exact locate_ok.mpr (find_ok.mpr ⟨spelled, found.put vacant fills⟩)

theorem isDirectory_of_makeDirectory {p : Path} (made : fs.makeDirectory p = .ok fs')
    (sound : fs.Sound) : fs'.isDirectory p = true := by
  obtain ⟨parent, name, slashed, found, rfl⟩ := makeDirectory_ok made
  have vacancy := (sound.find_free found).resolve_left (by simp)
  exact isDirectory_of_locate (locate_put vacancy.free ⟨Or.inl rfl, by simp⟩ found)
    (isDirectoryAt_iff.mpr ⟨_, by rw [node?_put, if_pos rfl]⟩)

theorem Sound.of_makeDirectory (sound : fs.Sound) {p : Path} (made : fs.makeDirectory p = .ok fs') : fs'.Sound := by
  obtain ⟨parent, name, slashed, found, rfl⟩ := makeDirectory_ok made
  exact sound.put_new ((sound.find_free found).resolve_left (by simp)) _

theorem Sound.of_makeLineage (sound : fs.Sound) (paths : List Path) : (FileSystem.makeLineage paths fs).2.Sound :=
  makeLineage_induction (fun _ _ _ _ before made => before.of_makeDirectory made) sound

theorem Sound.isDirectory_of_makeLast (sound : fs.Sound) {p : Path} (made : fs.makeLast p = (.ok (), fs')) :
    fs'.isDirectory p = true := by
  rcases makeLast_ok made with new | ⟨_, there, rfl⟩
  · exact isDirectory_of_makeDirectory new sound
  · exact there

theorem Sound.isDirectory_of_makeDirectories (sound : fs.Sound) {p : Path}
    (made : fs.makeDirectories p = (.ok (), fs')) (named : p.components ≠ []) : fs'.isDirectory p = true := by
  obtain ⟨ancestors, split⟩ := parentsFrom_eq_cons p.text.length p
  rw [FileSystem.makeDirectories, lineage, split, makeLineage_ok named] at made
  rcases made with ⟨_, last⟩ | ⟨_, prepared, above, last⟩
  · exact sound.isDirectory_of_makeLast last
  · have soundAbove := sound.of_makeLineage ancestors
    rw [above] at soundAbove
    exact soundAbove.isDirectory_of_makeLast last

/-- Where no link is in the way, a path that leads to a directory passes directories only. -/
theorem Finds.isDirectoryAt_trailFrom (sound : fs.Sound) {links : Nat} {l m : Location} {steps : List Step}
    (found : fs.Finds .use (.taken m) links l steps)
    (plain : ∀ k ∈ trailFrom l steps, ∀ target, fs.node? k ≠ some (.link target))
    (start : fs.isDirectoryAt l = true) (ends : fs.isDirectoryAt m = true) :
    ∀ k ∈ trailFrom l steps, fs.isDirectoryAt k = true := by
  induction found with
  | arrives _ =>
    intro k member
    rwa [List.mem_singleton.mp member]
  | stays stays _ ih =>
    rw [trailFrom, Step.apply_of_stays stays] at plain ⊢
    exact List.forall_mem_cons.mpr ⟨start, ih (fun k member => plain k (List.mem_cons_of_mem _ member)) start⟩
  | ascends _ ih =>
    refine List.forall_mem_cons.mpr ⟨start, ih (fun k member => plain k (List.mem_cons_of_mem _ member)) ?_⟩
    exact sound.directory_of_prefix start (List.dropLast_prefix _)
  | enters _ there _ ih =>
    exact List.forall_mem_cons.mpr ⟨start, ih (fun k member => plain k (List.mem_cons_of_mem _ member)) there⟩
  | follows _ there => exact absurd there (plain _ (List.mem_cons_of_mem _ (start_mem_trailFrom _ _)) _)
  | stops _ there stops same =>
    cases same
    rw [stops.not_directory there] at ends
    cases ends
  | vacant _ _ _ same | slashed _ _ same => cases same

theorem Leads.isDirectoryAt_trail {p : Path} {l : Location} (leads : fs.Leads p l) (sound : fs.Sound)
    (plain : fs.Plain p) : ∀ k ∈ fs.trail p, fs.isDirectoryAt k = true :=
  (leads_iff.mp leads).1.isDirectoryAt_trailFrom sound plain (sound.directory_start p) leads.directory

end Unjar.FileSystem
