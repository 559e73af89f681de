import Unjar.Proofs.Archive.Stored
import Unjar.Proofs.Extract.Layout
import Unjar.Proofs.FileSystem.Nodes

/-!
Unpacking the entries of an archive in another order. Where the destination is empty and the entries have paths of
their own, it is done just if it is done in the first order, and it comes to the same tree.
-/

namespace Unjar

namespace Extract

open FileSystem

/-- A destination of names that is absent or empty, with no link on the way to it. -/
structure Vacant (dest : Path) (fs : FileSystem) : Prop where
  sound : fs.Sound
  downward : dest.Downward
  plain : fs.Plain dest
  empty : ∀ m, Below (fs.place dest) m → fs.node? m = none

/-- An archive with these entries. -/
def Holds (archive : Path) (fs : FileSystem) (items : List Item) : Prop :=
  ∃ jar image records, openArchive archive fs = .ok (jar, records) ∧ fs.contents jar = .ok image ∧
    items = records.map (item image)

section Unpacking

variable {archive archive' dest : Path} {w w' : World} {ready fs fs' origin : FileSystem} {l : Location}
  {items items' : List Item} {count : Nat}

/-- When the destination is made, nothing is laid out in it. -/
theorem Vacant.laid_nil (vacant : Vacant dest fs) (made : fs.makeDirectories dest = (.ok (), ready)) :
    Laid dest (fs.place dest) ready [] ready := by
  obtain ⟨soundReady, adds⟩ := vacant.sound.makeDirectories vacant.plain
  have leads := (vacant.sound.leads_of_makeDirectories vacant.plain made).1
  rw [made] at soundReady adds
  have empty : ∀ names, names ≠ [] → ready.node? (fs.place dest ++ names) = none := by
    intro names down
    rcases adds.nodes (fs.place dest ++ names) with same | ⟨_, passed, _⟩
    · rw [same, vacant.empty _ ⟨names, down, rfl⟩]
    · have short := (prefix_place vacant.downward passed).length_le
      have long := List.length_pos_iff.mpr down
      rw [List.length_append] at short
      omega
  have free : ready.LinkFree (fs.place dest) := by
    intro names target there
    by_cases top : names = []
    · obtain ⟨mode, directory⟩ := isDirectoryAt_iff.mp leads.directory
      rw [top, List.append_nil, directory] at there
      cases there
    · rw [empty names top] at there
      cases there
  have clean : ready.Leads dest.clean (fs.place dest) := by
    have directory := leads.directory
    rw [← place_congr adds.here] at directory ⊢
    exact soundReady.leads_clean directory
  refine ⟨.start soundReady free clean, by simp, by simp, fun names some => ?_, fun names some node there => ?_⟩
  · rw [isDirectoryAt, empty names some]
    simp
  · rw [empty names some] at there
    cases there

theorem Vacant.beside (vacant : Vacant dest fs) {jar : Location} {image : Bytes}
    (content : fs.contents jar = .ok image) : ¬ Below (fs.place dest) jar := by
  intro below
  rw [FileSystem.contents, vacant.empty jar below] at content
  cases content

theorem Vacant.contents (vacant : Vacant dest fs) (made : fs.makeDirectories dest = (.ok (), ready)) {jar : Location}
    {image : Bytes} (content : fs.contents jar = .ok image) : ready.contents jar = .ok image := by
  have adds := (vacant.sound.makeDirectories vacant.plain).2
  rw [made] at adds
  exact adds.grows.contents content

/-- What was unpacked is laid out, and its entries are fine and apart. -/
theorem Vacant.laid_of_extract (vacant : Vacant dest w.files) (holds : Holds archive w.files items)
    (distinct : items.Pairwise (Item.Distinct dest)) (ran : extract archive dest w = .ok count w') :
    count = items.length ∧ items.Pairwise (Item.Apart dest) ∧
      ∃ ready, w.files.makeDirectories dest = (.ok (), ready) ∧ Laid dest (w.files.place dest) ready items w'.files := by
  obtain ⟨jar, image, records, opened, content, rfl⟩ := holds
  obtain ⟨ready, made, unpacked, rfl⟩ := entries_of_extract opened ran
  obtain ⟨apart, laid⟩ := Laid.of_entriesFrom (w := { w with files := ready }) (vacant.laid_nil made)
    vacant.downward.cleaned (vacant.beside content) (vacant.contents made content) distinct .nil unpacked
  exact ⟨(List.length_map _).symm, apart, ready, made, laid⟩

/-- An archive is unpacked just if its destination can be made and its entries are fine and apart. -/
theorem Vacant.extract_iff (vacant : Vacant dest w.files) (holds : Holds archive w.files items)
    (distinct : items.Pairwise (Item.Distinct dest)) :
    (∃ count w', extract archive dest w = .ok count w') ↔ (∃ ready, w.files.makeDirectories dest = (.ok (), ready)) ∧
      (∀ e ∈ items, e.Fine dest) ∧ items.Pairwise (Item.Apart dest) := by
  constructor
  · rintro ⟨count, w', ran⟩
    obtain ⟨_, apart, ready, made, laid⟩ := vacant.laid_of_extract holds distinct ran
    exact ⟨⟨ready, made⟩, laid.fine, apart⟩
  · rintro ⟨⟨ready, made⟩, fine, apart⟩
    obtain ⟨jar, image, records, opened, content, rfl⟩ := holds
    obtain ⟨w', ran⟩ := Laid.entriesFrom_of_apart (w := { w with files := ready }) (vacant.laid_nil made)
      vacant.downward.cleaned (vacant.beside content) (vacant.contents made content) distinct
      (fun r member => fine _ (List.mem_map_of_mem member)) apart 0
    exact ⟨_, w', extract_of_entries opened made ran⟩

/-- Trees with the same paths, kinds of nodes and files, and the same modes for all entries with a stored mode. -/
structure SameTree (dest : Path) (items : List Item) (fs fs' : FileSystem) : Prop where
  nodes : ∀ m, fs'.node? m = fs.node? m ∨ fs.isDirectoryAt m = true ∧ fs'.isDirectoryAt m = true
  stored : ∀ e ∈ items, e.mode ≠ none → ∀ path, dest.resolveInside e.name = .ok path →
    ∃ node, fs.stat? path = some node ∧ fs'.stat? path = some node

theorem Laid.node (laid : Laid dest l origin items fs) (laid' : Laid dest l origin items' fs')
    (same : ∀ e ∈ items, e ∈ items') {names : List Bytes} (down : names ≠ []) {node : Node}
    (there : fs.node? (l ++ names) = some node) : fs'.node? (l ++ names) = some node ∨
      fs.isDirectoryAt (l ++ names) = true ∧ fs'.isDirectoryAt (l ++ names) = true := by
  rcases laid.files names down node there with isDirectory | ⟨e, member, isFile, rfl⟩
  · refine Or.inr ?_
    have directory : fs.isDirectoryAt (l ++ names) = true := by rw [isDirectoryAt, there]; exact isDirectory
    obtain ⟨e, member, isFront⟩ := (laid.directories names down).mp directory
    exact ⟨directory, (laid'.directories names down).mpr ⟨e, same e member, isFront⟩⟩
  · have settled : e.node? = some (.file e.fileMode e.data) := by rw [Item.node?, isFile]; rfl
    rw [laid.made e member _ settled] at there
    cases there
    exact Or.inl (laid'.made e (same e member) _ settled)

theorem Laid.stat (laid : Laid dest l origin items fs) (guarded : dest.Guarded) {e : Item} (member : e ∈ items)
    {node : Node} (settled : e.node? = some node) : fs.stat? (dest.resolved e.name) = some node := by
  have fine := laid.fine e member
  obtain ⟨place, valid, down⟩ := fine.located guarded
  have spelled := fine.spelled
  have there := laid.made e member node settled
  rw [place] at spelled ⊢
  rw [stat?, laid.within.leads.locate_of_node laid.within.sound laid.within.free valid down spelled
    (by rw [there]; rfl)]
  exact there

theorem Laid.sameTree (laid : Laid dest l origin items fs) (laid' : Laid dest l origin items' fs')
    (guarded : dest.Guarded) (same : ∀ e, e ∈ items ↔ e ∈ items') : SameTree dest items fs fs' := by
  constructor
  · intro m
    by_cases below : Below l m
    · obtain ⟨names, down, rfl⟩ := below
      cases atNode : fs.node? (l ++ names) with
      | some node => exact laid.node laid' (fun e => (same e).mp) down atNode
      | none =>
        refine Or.inl ?_
        by_contra there
        obtain ⟨node, there⟩ := Option.ne_none_iff_exists'.mp there
        rcases laid'.node laid (fun e => (same e).mpr) down there with other | ⟨_, other⟩
        · rw [atNode] at other
          cases other
        · rw [isDirectoryAt, atNode] at other
          cases other
    · exact Or.inl (by rw [laid'.within.outside m below, laid.within.outside m below])
  · intro e member stored path accepted
    obtain ⟨rfl, _⟩ := Item.resolved_of_accepted guarded accepted
    obtain ⟨mode, isMode⟩ := Option.ne_none_iff_exists'.mp stored
    obtain ⟨node, settled⟩ : ∃ node, e.node? = some node := by
      rw [Item.node?, isMode]
      split
      · exact ⟨_, rfl⟩
      · exact ⟨_, rfl⟩
    exact ⟨node, laid.stat guarded member settled, laid'.stat guarded ((same e).mp member) settled⟩

/-- Two archives with the same entries, in whatever order, are unpacked with the same success and to the same tree,
where the destination is absent or empty and no two entries have one path. -/
theorem extract_permuted (vacant : Vacant dest w.files) (holds : Holds archive w.files items)
    (holds' : Holds archive' w.files items') (permuted : items.Perm items')
    (distinct : items.Pairwise (Item.Distinct dest)) :
    ((∃ count w₁, extract archive dest w = .ok count w₁) ↔ ∃ count w₁, extract archive' dest w = .ok count w₁) ∧
      ∀ count w₁ count' w₁', extract archive dest w = .ok count w₁ → extract archive' dest w = .ok count' w₁' →
        count' = count ∧ SameTree dest items w₁.files w₁'.files := by
  have distinct' := (permuted.pairwise_iff Item.Distinct.symm).mp distinct
  constructor
  · rw [vacant.extract_iff holds distinct, vacant.extract_iff holds' distinct', permuted.pairwise_iff Item.Apart.symm]
    have fine : (∀ e ∈ items, e.Fine dest) ↔ ∀ e ∈ items', e.Fine dest :=
      forall_congr' fun e => by rw [permuted.mem_iff]
    rw [fine]
  · intro count w₁ count' w₁' ran ran'
    obtain ⟨rfl, _, ready, made, laid⟩ := vacant.laid_of_extract holds distinct ran
    obtain ⟨rfl, _, ready', made', laid'⟩ := vacant.laid_of_extract holds' distinct' ran'
    rw [made] at made'
    cases made'
    exact ⟨permuted.length_eq.symm, laid.sameTree laid' vacant.downward.guarded fun e => permuted.mem_iff⟩

end Unpacking

/-! Two archives with a directory and the file in it, one with the directory first and one with it last. -/

namespace Reordered

def marker : Bytes × Option Nat × Bytes :=
  (ascii "d/", some 0o42750, [])

def file : Bytes × Option Nat × Bytes :=
  (ascii "d/f", some 0o100444, ascii "f")

def forward : Bytes :=
  Archive.storedWithModes [marker, file]

def backward : Bytes :=
  Archive.storedWithModes [file, marker]

def dest : Path := ⟨ascii "out"⟩

def world : World :=
  { files :=
    { nodes := [([], .directory 0o755), ([ascii "j"], .file 0o644 forward), ([ascii "k"], .file 0o644 backward)]
      here := [] } }

def items (image : Bytes) : List Item :=
  ((Archive.directory image).toOption.getD []).map (item image)

end Reordered

theorem permuted_sample : Vacant Reordered.dest Reordered.world.files ∧
    Holds ⟨ascii "j"⟩ Reordered.world.files (Reordered.items Reordered.forward) ∧
    Holds ⟨ascii "k"⟩ Reordered.world.files (Reordered.items Reordered.backward) ∧
    (Reordered.items Reordered.forward).Perm (Reordered.items Reordered.backward) ∧
    (Reordered.items Reordered.forward).Pairwise (Item.Distinct Reordered.dest) ∧
    ∃ w₁ w₁', extract ⟨ascii "j"⟩ Reordered.dest Reordered.world = .ok 2 w₁ ∧
      extract ⟨ascii "k"⟩ Reordered.dest Reordered.world = .ok 2 w₁' ∧
      SameTree Reordered.dest (Reordered.items Reordered.forward) w₁.files w₁'.files := by
  have sound : Reordered.world.files.Sound := .of_nodes (by decide +kernel) (by decide) (by decide) (by decide)
  have unlinked : Reordered.world.files.Unlinked := by decide
  have vacant : Vacant Reordered.dest Reordered.world.files := by
    refine ⟨sound, ⟨[ascii "out"], by simp, by decide⟩, unlinked.plain _, ?_⟩
    rintro _ ⟨names, down, rfl⟩
    exact empty_of_nodes (by decide +kernel) down
  have holds : Holds ⟨ascii "j"⟩ Reordered.world.files (Reordered.items Reordered.forward) :=
    ⟨[ascii "j"], Reordered.forward, _, by decide +kernel, rfl, rfl⟩
  have holds' : Holds ⟨ascii "k"⟩ Reordered.world.files (Reordered.items Reordered.backward) :=
    ⟨[ascii "k"], Reordered.backward, _, by decide +kernel, rfl, rfl⟩
  have permuted : (Reordered.items Reordered.forward).Perm (Reordered.items Reordered.backward) := by decide +kernel
  have distinct : (Reordered.items Reordered.forward).Pairwise (Item.Distinct Reordered.dest) := by decide +kernel
  have ran : extract ⟨ascii "j"⟩ Reordered.dest Reordered.world = .ok 2 _ := Task.ok_of_outcome (by decide +kernel)
  have ran' : extract ⟨ascii "k"⟩ Reordered.dest Reordered.world = .ok 2 _ := Task.ok_of_outcome (by decide +kernel)
  exact ⟨vacant, holds, holds', permuted, distinct, _, _, ran, ran',
    ((extract_permuted vacant holds holds' permuted distinct).2 _ _ _ _ ran ran').2⟩

example : (Task.left (extract ⟨ascii "k"⟩ Reordered.dest Reordered.world)).files.stat? ⟨ascii "out/d"⟩ =
    some (.directory 0o2750) := by decide +kernel

end Extract

end Unjar
