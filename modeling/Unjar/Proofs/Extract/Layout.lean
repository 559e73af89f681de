import Unjar.Proofs.Extract.Item

/-!
The tree that an archive is unpacked to below an empty destination, when its entries have paths of their own. It is
told by the entries one by one, and so is whether there is room for all of them.
-/

namespace Unjar

namespace Extract

open FileSystem

/-- What is below an empty destination when these entries are unpacked. -/
structure Laid (dest : Path) (l : Location) (origin : FileSystem) (items : List Item) (fs : FileSystem) : Prop where
  within : Within dest.clean l origin fs
  fine : ∀ e ∈ items, e.Fine dest
  made : ∀ e ∈ items, ∀ node, e.node? = some node → fs.node? (l ++ e.names dest) = some node
  directories : ∀ names, names ≠ [] → (fs.isDirectoryAt (l ++ names) = true ↔ ∃ e ∈ items, names <+: e.way dest)
  files : ∀ names, names ≠ [] → ∀ node, fs.node? (l ++ names) = some node → node.isDirectory = true ∨
    ∃ e ∈ items, e.isDirectory = false ∧ e.names dest = names

section Laying

variable {dest : Path} {l jar : Location} {origin fs prepared : FileSystem} {image : Bytes} {done : List Item} {e : Item}
  {records : List Archive.Record} {w w' : World}

/-- There is room for an entry if it is no file where another one needs a directory, nor the other way round. -/
theorem Laid.room_iff (laid : Laid dest l origin done fs) (guarded : dest.Guarded) (fine : e.Fine dest)
    (differs : ∀ d ∈ done, d.names dest ≠ e.names dest) :
    (∃ prepared, Room dest l fs prepared e) ↔ ∀ d ∈ done, d.Apart dest e := by
  obtain ⟨_, valid, down⟩ := fine.located guarded
  have here := laid.within.leads.directory
  have onWay : AllNames (e.way dest) := fun name member => valid name (e.way_prefix.subset member)
  have adds := (laid.within.sound.ensure here onWay).2
  constructor
  · rintro ⟨prepared, made, vacant⟩ d member
    have isOpen := (laid.within.sound.ensure_iff here onWay).mp ⟨_, made⟩
    have downOther := ((laid.fine d member).located guarded).2.2
    rw [made] at adds
    constructor
    · intro isFile isFront
      have there := laid.made d member (.file d.fileMode d.data) (by rw [Item.node?, isFile]; rfl)
      rcases isOpen.way _ downOther ((Item.prefix_way_iff down).mpr ⟨isFront, fun _ => differs d member⟩) with
        absent | directory
      · rw [there] at absent
        cases absent
      · rw [isDirectoryAt, there] at directory
        cases directory
    · intro isFile isFront
      have directory := (laid.directories _ down).mpr
        ⟨d, member, (Item.prefix_way_iff downOther).mpr ⟨isFront, fun _ => (differs d member).symm⟩⟩
      rw [isDirectoryAt, adds.absent (vacant isFile)] at directory
      cases directory
  · intro apart
    have isOpen : fs.Open l (e.way dest) := by
      refine ⟨fun name member => fine.fits name (e.way_prefix.subset member), fun front some isFront => ?_⟩
      cases atNode : fs.node? (l ++ front) with
      | none => exact Or.inl rfl
      | some node =>
        refine Or.inr ?_
        rcases laid.files front some node atNode with directory | ⟨d, member, isFile, rfl⟩
        · rw [isDirectoryAt, atNode]
          exact directory
        · exact absurd ((Item.prefix_way_iff down).mp isFront).1 ((apart d member).1 isFile)
    obtain ⟨prepared, made⟩ := (laid.within.sound.ensure_iff here onWay).mpr isOpen
    rw [made] at adds
    refine ⟨prepared, made, fun isFile => ?_⟩
    rw [Item.way, isFile] at adds
    rw [adds.place down]
    by_contra there
    obtain ⟨node, there⟩ := Option.ne_none_iff_exists'.mp there
    rcases laid.files _ down node there with directory | ⟨d, member, _, same⟩
    · obtain ⟨d, member, isFront⟩ := (laid.directories _ down).mp (by rw [isDirectoryAt, there]; exact directory)
      have downOther := ((laid.fine d member).located guarded).2.2
      exact (apart d member).2 isFile ((Item.prefix_way_iff downOther).mp isFront).1
    · exact differs d member same

/-- One entry more is put into its place. -/
theorem Laid.lay (laid : Laid dest l origin done fs) (guarded : dest.Guarded) (fine : e.Fine dest)
    (differs : ∀ d ∈ done, d.names dest ≠ e.names dest) (room : Room dest l fs prepared e) :
    Laid dest l origin (done ++ [e]) (e.put dest l prepared) := by
  obtain ⟨_, valid, down⟩ := fine.located guarded
  obtain ⟨within, adds, directory⟩ := room.ready laid.within valid
  refine ⟨room.within laid.within guarded fine, ?_, ?_, ?_, ?_⟩
  · intro d member
    rcases List.mem_append.mp member with before | last
    · exact laid.fine d before
    · exact List.mem_singleton.mp last ▸ fine
  · intro d member node settled
    rcases List.mem_append.mp member with before | last
    · have elsewhere : l ++ d.names dest ≠ l ++ e.names dest := fun same =>
        differs d before (List.append_cancel_left same)
      rw [Item.put_elsewhere e prepared elsewhere]
      exact adds.kept (laid.made d before node settled)
    · obtain rfl := List.mem_singleton.mp last
      exact Item.put_here l prepared settled
  · intro names some
    rw [room.isDirectoryAt_put laid.within valid]
    constructor
    · intro there
      rcases adds.nodes (l ++ names) with same | ⟨_, ⟨front, _, isFront, place⟩, _⟩
      · rw [isDirectoryAt, same] at there
        obtain ⟨d, member, isFront⟩ := (laid.directories names some).mp there
        exact ⟨d, List.mem_append_left _ member, isFront⟩
      · exact ⟨e, by simp, List.append_cancel_left place ▸ isFront⟩
    · rintro ⟨d, member, isFront⟩
      rcases List.mem_append.mp member with before | last
      · exact adds.directory ((laid.directories names some).mpr ⟨d, before, isFront⟩)
      · obtain rfl := List.mem_singleton.mp last
        exact within.sound.directory_of_prefix directory ((List.prefix_append_right_inj l).mpr isFront)
  · intro names some node there
    by_cases isDirectory : node.isDirectory = true
    · exact Or.inl isDirectory
    · refine Or.inr ?_
      by_cases here : names = e.names dest
      · subst here
        refine ⟨e, by simp, ?_, rfl⟩
        by_contra notFile
        have kept := room.isDirectoryAt_put laid.within valid (l ++ e.names dest)
        rw [Item.way, if_pos (by simpa using notFile)] at directory
        rw [directory, isDirectoryAt, there] at kept
        exact isDirectory kept
      · have elsewhere : l ++ names ≠ l ++ e.names dest := fun same => here (List.append_cancel_left same)
        rw [Item.put_elsewhere e prepared elsewhere] at there
        have before := adds.other there (Bool.eq_false_iff.mpr isDirectory)
        obtain ⟨d, member, found⟩ := (laid.files names some node before).resolve_left isDirectory
        exact ⟨d, List.mem_append_left _ member, found⟩

/-- All entries that are fine and apart are unpacked, one after the other. -/
theorem Laid.entriesFrom_of_apart (laid : Laid dest l origin done w.files) (named : dest.cleaned.names ≠ [])
    (beside : ¬ Below l jar) (content : origin.contents jar = .ok image)
    (distinct : (done ++ records.map (item image)).Pairwise (Item.Distinct dest))
    (fine : ∀ r ∈ records, (item image r).Fine dest)
    (apart : (done ++ records.map (item image)).Pairwise (Item.Apart dest)) (index : Nat) :
    ∃ w', entriesFrom jar dest index records w = .ok () w' := by
  have guarded : dest.Guarded := (Path.guarded_iff dest).mpr (Or.inr named)
  induction records generalizing done w index with
  | nil => exact ⟨w, rfl⟩
  | cons r rest ih =>
    have fineFirst := fine r List.mem_cons_self
    have differs : ∀ d ∈ done, d.names dest ≠ (item image r).names dest := fun d member =>
      ((List.pairwise_append.mp distinct).2.2 d member _ List.mem_cons_self).names_ne guarded
        (laid.fine d member).accepted fineFirst.accepted
    obtain ⟨prepared, room⟩ := (laid.room_iff guarded fineFirst differs).mpr fun d member =>
      (List.pairwise_append.mp apart).2.2 d member _ List.mem_cons_self
    obtain ⟨w₁, ran, files⟩ := entry_of_room named laid.within beside content index fineFirst room
    have laid₁ := laid.lay guarded fineFirst differs room
    rw [← files] at laid₁
    rw [List.map_cons, List.append_cons] at distinct apart
    obtain ⟨w', others⟩ := ih laid₁ distinct (fun other member => fine other (List.mem_cons_of_mem _ member)) apart
      (index + 1)
    exact ⟨w', by rw [entriesFrom, Task.bind_of_ok _ ran, others]⟩

/-- Entries that were unpacked were fine and apart, and they are laid out. -/
theorem Laid.of_entriesFrom (laid : Laid dest l origin done w.files) (named : dest.cleaned.names ≠ [])
    (beside : ¬ Below l jar) (content : origin.contents jar = .ok image)
    (distinct : (done ++ records.map (item image)).Pairwise (Item.Distinct dest))
    (apart : done.Pairwise (Item.Apart dest)) {index : Nat}
    (ran : entriesFrom jar dest index records w = .ok () w') :
    (done ++ records.map (item image)).Pairwise (Item.Apart dest) ∧
      Laid dest l origin (done ++ records.map (item image)) w'.files := by
  have guarded : dest.Guarded := (Path.guarded_iff dest).mpr (Or.inr named)
  induction records generalizing done w index with
  | nil =>
    cases ran
    rw [List.map_nil, List.append_nil]
    exact ⟨apart, laid⟩
  | cons r rest ih =>
    obtain ⟨_, w₁, first, others⟩ := Task.bind_ok ran
    have differs : ∀ path, dest.resolveInside r.name = .ok path →
        ∀ d ∈ done, d.names dest ≠ (item image r).names dest := fun path accepted d member =>
      ((List.pairwise_append.mp distinct).2.2 d member _ List.mem_cons_self).names_ne guarded
        (laid.fine d member).accepted accepted
    have settled : ∀ path, dest.resolveInside r.name = .ok path → r.isDirectory = false →
        ∀ node, w.files.node? (l ++ (item image r).names dest) = some node → node.isDirectory = true := by
      intro path accepted _ node there
      have down := (Item.resolved_of_accepted (e := item image r) guarded accepted).2.2.2
      refine (laid.files _ down node there).resolve_right ?_
      rintro ⟨d, member, _, same⟩
      exact differs path accepted d member same
    obtain ⟨fine, prepared, room⟩ := room_of_entry named laid.within beside content settled first
    have apartFirst := (laid.room_iff guarded fine (differs _ fine.accepted)).mp ⟨prepared, room⟩
    obtain ⟨w₁', ran', files⟩ := entry_of_room named laid.within beside content index fine room
    rw [first] at ran'
    cases ran'
    have laid₁ := laid.lay guarded fine (differs _ fine.accepted) room
    rw [← files] at laid₁
    rw [List.map_cons, List.append_cons] at distinct ⊢
    refine ih laid₁ distinct (List.pairwise_append.mpr ⟨apart, List.pairwise_singleton _ _, ?_⟩) others
    intro d member other isFirst
    exact List.mem_singleton.mp isFirst ▸ apartFirst d member

end Laying

end Extract

end Unjar
