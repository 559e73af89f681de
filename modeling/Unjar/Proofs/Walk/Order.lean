import Unjar.Proofs.Text.Utf8
import Unjar.Proofs.Walk

/-!
Which files a walk meets, and in which order: the names of each of them come before those of the next.
-/

namespace Unjar

namespace ClassFile

/-- The `$` of nested and anonymous classes. -/
def dollar : UInt8 := 0x24

theorem isSynthetic_of_fileName {p : Path} {name : Bytes} (named : p.fileName = some name) :
    isSynthetic p = name.contains dollar := by
  rw [isSynthetic, named]
  exact Utf8.contains_lossy (by decide) name

theorem isSynthetic_descendant (base : Path) {front : List Bytes} {name : Bytes} (valid : AllNames (front ++ [name])) :
    isSynthetic (base.descendant (front ++ [name])) = name.contains dollar :=
  isSynthetic_of_fileName (Path.fileName_descendant base valid)

end ClassFile

namespace Walk

open FileSystem

variable {fs : FileSystem} {root : Path} {l : Location} {names : List Bytes} {depth : Nat}

/-- A file below the root that is not left out. -/
structure Visible (fs : FileSystem) (root : Path) (l : Location) (names : List Bytes) : Prop where
  down : names ≠ []
  node : ∃ node, fs.node? (l ++ names) = some node ∧ node.isDirectory = false
  kept : ClassFile.isSynthetic (root.descendant names) = false

/-- A walk that can read every directory meets every file. -/
theorem mem_items (rooted : Rooted root l fs)
    (readable : ∀ item ∈ items fs depth (root.descendant names), ∃ p, item = .ok p)
    {more : List Bytes} (down : more ≠ []) {node : Node} (there : fs.node? (l ++ (names ++ more)) = some node)
    (isFile : node.isDirectory = false) (kept : ClassFile.isSynthetic (root.descendant (names ++ more)) = false) :
    .ok (root.descendant (names ++ more)) ∈ items fs depth (root.descendant names) := by
  have valid : AllNames (names ++ more) := (rooted.sound.names _ (by rw [there]; rfl)).1.right
  induction depth generalizing names more with
  | zero =>
    obtain ⟨p, impossible⟩ := readable _ (List.mem_singleton.mpr rfl)
    cases impossible
  | succ depth ih =>
    obtain ⟨name, rest, rfl⟩ := List.exists_cons_of_ne_nil down
    cases listed : fs.list (root.descendant names) with
    | error fault =>
      obtain ⟨p, impossible⟩ := readable _ (mem_items_succ.mpr (Or.inl ⟨fault, listed, rfl⟩))
      cases impossible
    | ok entries =>
      have directory : fs.isDirectoryAt (l ++ names) = true := by
        have some : (fs.node? (l ++ names ++ name :: rest)).isSome := by
          rw [List.append_assoc, there]
          rfl
        exact rooted.sound.above some (by simp)
      obtain rfl := rooted.list_ok valid.left directory listed
      by_cases last : rest = []
      · subst last
        have entry := rooted.sound.mem_entriesAt.mpr (by rw [List.append_assoc]; exact there)
        refine mem_items_succ.mpr (Or.inr ⟨_, name, node, listed, entry, Or.inr ⟨isFile, ?_, ?_⟩⟩)
        · rw [← Path.descendant_concat]
          exact kept
        · rw [← Path.descendant_concat]
      · have inner : fs.isDirectoryAt (l ++ names ++ [name]) = true := by
          refine rooted.sound.above ?_ last
          rw [List.append_assoc, List.append_assoc, List.singleton_append, there]
          rfl
        obtain ⟨mode, atInner⟩ := isDirectoryAt_iff.mp inner
        have entry := rooted.sound.mem_entriesAt.mpr atInner
        have below : ∀ item ∈ items fs depth (root.descendant (names ++ [name])),
            item ∈ items fs (depth + 1) (root.descendant names) := by
          intro item member
          rw [Path.descendant_concat] at member
          exact mem_items_succ.mpr (Or.inr ⟨_, name, _, listed, entry, Or.inl ⟨rfl, member⟩⟩)
        rw [List.append_cons] at there kept valid ⊢
        exact below _ (ih (fun item member => readable item (below item member)) last there kept valid)

/-- Of two files that are met, the names of the first come before those of the second. -/
def Before (root : Path) (first second : Item) : Prop :=
  ∀ m n, AllNames m → AllNames n → first = .ok (root.descendant m) → second = .ok (root.descendant n) → m < n

/-- The names of what is met at an entry go on from its name. -/
theorem names_of_entry (rooted : Rooted root l fs) {name : Bytes} {node : Node}
    (entry : (name, node) ∈ fs.entriesAt (l ++ names)) (valid : AllNames names) {m : List Bytes} (validM : AllNames m)
    (member : .ok (root.descendant m) ∈ (if node.isDirectory then items fs depth ((root.descendant names).child name)
      else if ClassFile.isSynthetic ((root.descendant names).child name) then []
      else [.ok ((root.descendant names).child name)])) : ∃ more, m = names ++ name :: more := by
  have validChild := valid.append (.singleton (rooted.valid_entry entry))
  rw [← Path.descendant_concat] at member
  split at member
  · rename_i inner
    obtain ⟨more, _, _, valid', same, _⟩ := found_of_mem rooted validChild (rooted.directory_entry entry inner) member
    refine ⟨more, ?_⟩
    rw [List.append_cons]
    exact Path.descendant_injective root validM valid' same
  · split at member
    · cases member
    · have same := Except.ok.inj (List.mem_singleton.mp member)
      exact ⟨[], Path.descendant_injective root validM validChild same⟩

theorem pairwise_items (rooted : Rooted root l fs) (valid : AllNames names)
    (directory : fs.isDirectoryAt (l ++ names) = true) :
    (items fs depth (root.descendant names)).Pairwise (Before root) := by
  induction depth generalizing names with
  | zero => exact List.pairwise_singleton _ _
  | succ depth ih =>
    rw [items]
    cases listed : fs.list (root.descendant names) with
    | error fault => exact List.pairwise_singleton _ _
    | ok entries =>
      obtain rfl := rooted.list_ok valid directory listed
      refine List.pairwise_flatMap.mpr ⟨?_, ?_⟩
      · rintro ⟨name, node⟩ entry
        simp only
        split
        · rename_i inner
          rw [← Path.descendant_concat]
          exact ih (valid.append (.singleton (rooted.valid_entry entry))) (rooted.directory_entry entry inner)
        · split
          · exact .nil
          · exact List.pairwise_singleton _ _
      · refine (List.pairwise_iff_forall_sublist.mpr ?_)
        rintro ⟨name, node⟩ ⟨name', node'⟩ sublist first firstMet second secondMet m n validM validN rfl rfl
        have before := List.pairwise_iff_forall_sublist.mp rooted.sound.pairwise_entriesAt sublist
        obtain ⟨more, rfl⟩ := names_of_entry rooted (sublist.subset (by simp)) valid validM firstMet
        obtain ⟨more', rfl⟩ := names_of_entry rooted (sublist.subset (by simp)) valid validN secondMet
        exact List.append_left_lt (List.cons_lt_cons_iff.mpr (Or.inl before))

/-- A walk that can read every directory goes through the files in the order of their names. -/
theorem items_eq_map (rooted : Rooted root l fs) (readable : ∀ item ∈ items fs depth root, ∃ p, item = .ok p) :
    ∃ met : List (List Bytes), items fs depth root = met.map (fun names => .ok (root.descendant names)) ∧
      met.Pairwise (· < ·) ∧ (∀ names ∈ met, AllNames names) ∧ ∀ names, names ∈ met ↔ Visible fs root l names := by
  have named : ∀ item ∈ items fs depth root, ∃ names, Visible fs root l names ∧ AllNames names ∧
      item = .ok (root.descendant names) := by
    intro item member
    obtain ⟨p, rfl⟩ := readable item member
    obtain ⟨names, node, down, valid, rfl, there, isFile, kept⟩ :=
      @found_of_mem _ _ _ rooted depth [] allNames_nil rooted.top _ member
    exact ⟨names, ⟨down, ⟨node, there, isFile⟩, kept⟩, valid, rfl⟩
  choose! namesOf visible valid found using named
  have split : items fs depth root =
      ((items fs depth root).map namesOf).map fun names => .ok (root.descendant names) := by
    rw [List.map_map]
    exact (List.map_id _).symm.trans (List.map_congr_left found)
  refine ⟨(items fs depth root).map namesOf, split, ?_, ?_, fun names => ⟨?_, ?_⟩⟩
  · refine List.pairwise_map.mpr ((@pairwise_items _ _ _ [] depth rooted allNames_nil rooted.top).imp_of_mem ?_)
    intro first second firstMet secondMet before
    exact before _ _ (valid first firstMet) (valid second secondMet) (found first firstMet) (found second secondMet)
  · intro names member
    obtain ⟨item, met, rfl⟩ := List.mem_map.mp member
    exact valid item met
  · intro member
    obtain ⟨item, met, rfl⟩ := List.mem_map.mp member
    exact visible item met
  · rintro ⟨down, ⟨node, there, isFile⟩, kept⟩
    have validNames := (rooted.sound.names _ (by rw [there]; rfl)).1.right
    have met := @mem_items _ _ _ [] depth rooted readable names down node there isFile kept
    refine List.mem_map.mpr ⟨_, met, ?_⟩
    exact Path.descendant_injective root (valid _ met) validNames (Except.ok.inj (found _ met)).symm

/-- The files among what was met. -/
def files (met : List Item) : List Path :=
  met.filterMap Except.toOption

theorem mem_files {met : List Item} {p : Path} : p ∈ files met ↔ .ok p ∈ met := by
  rw [files, List.mem_filterMap]
  constructor
  · rintro ⟨item, member, isFile⟩
    cases item with
    | error e => cases isFile
    | ok q => cases isFile; exact member
  · exact fun member => ⟨_, member, rfl⟩

theorem pairwise_files (rooted : Rooted root l fs) :
    (files (items fs depth root)).Pairwise fun p q => Before root (.ok p) (.ok q) := by
  refine List.pairwise_filterMap.mpr ((@pairwise_items _ _ _ [] depth rooted allNames_nil rooted.top).imp ?_)
  intro first second before p isFirst q isSecond
  cases first with
  | error e => cases isFirst
  | ok p' =>
    cases second with
    | error e => cases isSecond
    | ok q' =>
      cases isFirst
      cases isSecond
      exact before

/-- No file is met twice. -/
theorem nodup_files (rooted : Rooted root l fs) : (files (items fs depth root)).Nodup := by
  refine (pairwise_files rooted).imp_of_mem ?_
  rintro p _ member _ before rfl
  obtain ⟨names, _, valid, rfl⟩ := proper_of_mem rooted (mem_files.mp member) p rfl
  exact List.lt_irrefl _ (before names names valid valid rfl rfl)

section Adding

variable {fs' : FileSystem} {fresh : Location → Prop}

/-- Where directories are added, all is met that was met before. -/
theorem mem_items_of_adds (rooted : Rooted root l fs) (rooted' : Rooted root l fs') (adds : fs.AddsDirectories fs' fresh)
    (valid : AllNames names) (directory : fs.isDirectoryAt (l ++ names) = true) {item : Item}
    (member : item ∈ items fs depth (root.descendant names)) : item ∈ items fs' depth (root.descendant names) := by
  induction depth generalizing names with
  | zero => exact member
  | succ depth ih =>
    have listed' := rooted.list_grows rooted' adds.grows valid directory
    rcases mem_items_succ.mp member with ⟨fault, listed, rfl⟩ | ⟨entries, name, node, listed, entry, met⟩
    · rw [listed] at listed'
      exact mem_items_succ.mpr (Or.inl ⟨fault, listed', rfl⟩)
    · obtain rfl := rooted.list_ok valid directory listed
      rw [listed] at listed'
      have entry' := rooted'.sound.mem_entriesAt.mpr (adds.kept (rooted.sound.mem_entriesAt.mp entry))
      refine mem_items_succ.mpr (Or.inr ⟨_, name, node, listed', entry', met.imp_left ?_⟩)
      rintro ⟨inner, below⟩
      rw [← Path.descendant_concat] at below ⊢
      exact ⟨inner, ih (valid.append (.singleton (rooted.valid_entry entry))) (rooted.directory_entry entry inner) below⟩

/-- In directories that are added there is no file. -/
theorem file_of_adds (rooted : Rooted root l fs) (rooted' : Rooted root l fs') (adds : fs.AddsDirectories fs' fresh)
    (valid : AllNames names) (directory : fs.isDirectoryAt (l ++ names) = true) {p : Path}
    (member : .ok p ∈ items fs' depth (root.descendant names)) : .ok p ∈ items fs depth (root.descendant names) := by
  induction depth generalizing names with
  | zero => exact member
  | succ depth ih =>
    rcases mem_items_succ.mp member with ⟨fault, _, failed⟩ | ⟨entries, name, node, listed', entry', met⟩
    · cases failed
    · obtain rfl := rooted'.list_ok valid (adds.directory directory) listed'
      have listed : fs.list (root.descendant names) = .ok (fs.entriesAt (l ++ names)) := by
        rw [rooted.list_grows rooted' adds.grows valid directory] at listed'
        cases before : fs.list (root.descendant names) with
        | error fault => rw [before] at listed'; cases listed'
        | ok entries => rw [rooted.list_ok valid directory before]
      have validChild := valid.append (.singleton (rooted'.valid_entry entry'))
      have atNode' := rooted'.sound.mem_entriesAt.mp entry'
      rcases met with ⟨inner, below⟩ | ⟨isFile, kept, same⟩
      · rw [← Path.descendant_concat] at below
        obtain ⟨more, node', some, _, _, there', isFile, _⟩ :=
          found_of_mem rooted' validChild (rooted'.directory_entry entry' inner) below
        -- the file was there before, and so the directory was
        have there : fs.isDirectoryAt (l ++ (names ++ [name])) = true := by
          have inside : (fs.node? (l ++ (names ++ [name]) ++ more)).isSome := by
            rw [List.append_assoc, adds.other there' isFile]
            rfl
          exact rooted.sound.above inside some
        obtain ⟨mode, atNode⟩ := isDirectoryAt_iff.mp there
        have entry := rooted.sound.mem_entriesAt.mpr (by rw [List.append_assoc]; exact atNode)
        refine mem_items_succ.mpr (Or.inr ⟨_, name, _, listed, entry, Or.inl ⟨rfl, ?_⟩⟩)
        rw [← Path.descendant_concat]
        exact ih validChild there below
      · have entry := rooted.sound.mem_entriesAt.mpr (adds.other atNode' isFile)
        exact mem_items_succ.mpr (Or.inr ⟨_, name, node, listed, entry, Or.inr ⟨isFile, kept, same⟩⟩)

/-- Adding directories changes nothing about the files that are met, and their order. -/
theorem files_of_adds (rooted : Rooted root l fs) (rooted' : Rooted root l fs') (adds : fs.AddsDirectories fs' fresh) :
    files (items fs' depth root) = files (items fs depth root) := by
  have perm : (files (items fs' depth root)).Perm (files (items fs depth root)) := by
    rw [List.perm_ext_iff_of_nodup (nodup_files rooted') (nodup_files rooted)]
    intro p
    rw [mem_files, mem_files]
    exact ⟨@file_of_adds _ _ _ [] depth _ _ rooted rooted' adds allNames_nil rooted.top p,
      @mem_items_of_adds _ _ _ [] depth _ _ rooted rooted' adds allNames_nil rooted.top (.ok p)⟩
  refine perm.eq_of_pairwise ?_ (pairwise_files rooted') (pairwise_files rooted)
  intro p q memberP memberQ before behind
  obtain ⟨m, _, validM, rfl⟩ := proper_of_mem rooted' (mem_files.mp memberP) p rfl
  obtain ⟨n, _, validN, rfl⟩ := proper_of_mem rooted (mem_files.mp memberQ) q rfl
  exact absurd (behind n m validN validM rfl rfl) (List.lt_asymm (before m n validM validN rfl rfl))

end Adding

end Walk

end Unjar
