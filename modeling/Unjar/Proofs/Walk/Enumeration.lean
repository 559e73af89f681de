import Unjar.Proofs.FileSystem.Nodes
import Unjar.Proofs.Walk.Order

/-!
What a walk tells of a tree that stays as it is: each file below the root that carries no `$` in its own name, once, in
the order of the names. It can tell so much just if every directory on the way can be read.
-/

namespace Unjar

namespace Path

theorem length_child (base : Path) {name : Bytes} (valid : IsName name) :
    base.text.length < (base.child name).text.length := by
  have some := List.length_pos_iff.mpr valid.1
  unfold child join
  rw [if_neg (by simp [isAbsolute_of_name valid])]
  split
  · simpa using some
  · simp only [List.length_append, List.length_cons]
    omega

theorem length_lt_of_spelled {p : Path} (spelled : p.fault? = none) : p.text.length < pathMax := by
  by_contra long
  unfold fault? at spelled
  split_ifs at spelled
  exact long (by omega)

theorem length_pos_of_spelled {p : Path} (spelled : p.fault? = none) : 0 < p.text.length := by
  by_contra short
  have empty := List.length_eq_zero_iff.mp (by omega : p.text.length = 0)
  unfold fault? at spelled
  rw [if_neg (by simp [empty]), if_pos empty] at spelled
  cases spelled

end Path

namespace Walk

open FileSystem ClassFile

variable {ε : Type} {fs : FileSystem} {root : Path} {l : Location} {names : List Bytes} {depth : Nat} {w : World}

/-- The root and every directory below it can be read. The system takes its path, which is not too long and holds no
NUL. It lets its owner read it, and those on the way to it let their owner look for names in them. -/
structure Readable (fs : FileSystem) (root : Path) (l : Location) : Prop where
  spelled : ∀ names, fs.isDirectoryAt (l ++ names) = true → (root.descendant names).fault? = none
  reached : fs.admits .use root = true
  searched : ∀ names name, fs.isDirectoryAt (l ++ (names ++ [name])) = true → fs.permits searchBit (l ++ names) = true
  read : ∀ names, fs.isDirectoryAt (l ++ names) = true → fs.permits readBit (l ++ names) = true

/-- Each file that carries no `$` in its own name is told, once, and the names of files that are told increase. -/
structure Enumerates (fs : FileSystem) (root : Path) (l : Location) (items : List Item) (told : List (List Bytes)) :
    Prop where
  items : items = told.map fun names => .ok (root.join ⟨Bytes.joinWith slash names⟩)
  increasing : told.Pairwise (· < ·)
  complete : ∀ names, names ∈ told ↔ ∃ front name node, names = front ++ [name] ∧
    fs.node? (l ++ names) = some node ∧ node.isDirectory = false ∧ dollar ∉ name

theorem visible_iff (sound : fs.Sound) : Visible fs root l names ↔ ∃ front name node, names = front ++ [name] ∧
    fs.node? (l ++ names) = some node ∧ node.isDirectory = false ∧ dollar ∉ name := by
  constructor
  · rintro ⟨down, ⟨node, there, isFile⟩, kept⟩
    obtain ⟨front, name, rfl⟩ := (List.eq_nil_or_concat' names).resolve_left down
    have valid := (sound.names _ (by rw [there]; rfl)).1.right
    rw [isSynthetic_descendant root valid, List.contains_eq_mem, decide_eq_false_iff_not] at kept
    exact ⟨front, name, node, rfl, there, isFile, kept⟩
  · rintro ⟨front, name, node, rfl, there, isFile, plain⟩
    have valid := (sound.names _ (by rw [there]; rfl)).1.right
    refine ⟨by simp, ⟨node, there, isFile⟩, ?_⟩
    rw [isSynthetic_descendant root valid, List.contains_eq_mem, decide_eq_false_iff_not]
    exact plain

theorem directory_above (sound : fs.Sound) {front rest : List Bytes}
    (directory : fs.isDirectoryAt (l ++ (front ++ rest)) = true) : fs.isDirectoryAt (l ++ front) = true :=
  sound.directory_of_prefix directory ((List.prefix_append_right_inj l).mpr (List.prefix_append front rest))

/-- Where a walk tells no error, every directory that it comes to is listed. -/
theorem listed_of_items (rooted : Rooted root l fs)
    (told : ∀ item ∈ items fs depth (root.descendant names), ∃ p, item = .ok p) {more : List Bytes}
    (directory : fs.isDirectoryAt (l ++ (names ++ more)) = true) :
    ∃ entries, fs.list (root.descendant (names ++ more)) = .ok entries := by
  have valid : AllNames (names ++ more) := (rooted.sound.names _ (isSome_of_isDirectoryAt directory)).1.right
  induction depth generalizing names more with
  | zero =>
    obtain ⟨p, impossible⟩ := told _ (List.mem_singleton.mpr rfl)
    cases impossible
  | succ depth ih =>
    cases listed : fs.list (root.descendant names) with
    | error fault =>
      obtain ⟨p, impossible⟩ := told _ (mem_items_succ.mpr (Or.inl ⟨fault, listed, rfl⟩))
      cases impossible
    | ok entries =>
      cases more with
      | nil => exact ⟨entries, by rwa [List.append_nil]⟩
      | cons name rest =>
        rw [List.append_cons] at directory valid ⊢
        have inner := directory_above rooted.sound directory
        obtain ⟨mode, atInner⟩ := isDirectoryAt_iff.mp inner
        have entry : (name, .directory mode) ∈ entries := by
          rw [rooted.list_ok valid.left.left (directory_above rooted.sound inner) listed]
          refine rooted.sound.mem_entriesAt.mpr ?_
          rwa [List.append_assoc]
        refine ih (fun item member => told item ?_) directory valid
        rw [Path.descendant_concat] at member
        exact mem_items_succ.mpr (Or.inr ⟨_, name, _, listed, entry, Or.inl ⟨rfl, member⟩⟩)

/-- Where every directory is listed, a walk tells no error. The depth bounds no walk: a path grows from each directory
to the next, and so it is too long before the depth is used up. -/
theorem items_of_listed (rooted : Rooted root l fs) (valid : AllNames names)
    (directory : fs.isDirectoryAt (l ++ names) = true)
    (listed : ∀ more, fs.isDirectoryAt (l ++ (names ++ more)) = true →
      ∃ entries, fs.list (root.descendant (names ++ more)) = .ok entries)
    (room : pathMax ≤ depth + (root.descendant names).text.length) :
    ∀ item ∈ items fs depth (root.descendant names), ∃ p, item = .ok p := by
  obtain ⟨entries, here⟩ := listed [] (by rwa [List.append_nil])
  rw [List.append_nil] at here
  induction depth generalizing names entries with
  | zero =>
    have short := Path.length_lt_of_spelled ((rooted.list_ok_iff valid directory).mp here).1
    omega
  | succ depth ih =>
    intro item member
    rcases mem_items_succ.mp member with ⟨fault, failed, _⟩ | ⟨found, name, node, found', entry, met⟩
    · rw [here] at failed
      cases failed
    · obtain rfl := Except.ok.inj (here.symm.trans found')
      obtain rfl := rooted.list_ok valid directory here
      rcases met with ⟨inner, below⟩ | ⟨_, _, isFile⟩
      · have validName := rooted.valid_entry entry
        have there := rooted.directory_entry entry inner
        have grown := Path.length_child (root.descendant names) validName
        rw [← Path.descendant_concat] at below grown
        have listed' : ∀ more, fs.isDirectoryAt (l ++ ((names ++ [name]) ++ more)) = true →
            ∃ entries, fs.list (root.descendant ((names ++ [name]) ++ more)) = .ok entries := by
          intro more
          rw [← List.append_cons]
          exact listed (name :: more)
        obtain ⟨first, listedFirst⟩ := listed' [] (by rwa [List.append_nil])
        rw [List.append_nil] at listedFirst
        exact ih (valid.append (.singleton validName)) there listed' (by omega) first listedFirst item below
      · exact ⟨_, isFile⟩

/-- What is asked for every directory to be listed, put apart for each of them. -/
theorem readable_iff_listed (rooted : Rooted root l fs) : Readable fs root l ↔
    ∀ names, fs.isDirectoryAt (l ++ names) = true → ∃ entries, fs.list (root.descendant names) = .ok entries := by
  have valid : ∀ {names}, fs.isDirectoryAt (l ++ names) = true → AllNames names := fun directory =>
    (rooted.sound.names _ (isSome_of_isDirectoryAt directory)).1.right
  constructor
  · intro readable names directory
    have spelled := readable.spelled names directory
    have spelledRoot := readable.spelled [] rooted.top
    refine ⟨_, (rooted.list_ok_iff (valid directory) directory).mpr ⟨spelled, ?_, rfl⟩⟩
    rw [mayRead, Bool.and_eq_true]
    refine ⟨(rooted.leads.admits_descendant rooted.sound (valid directory) directory spelled spelledRoot).mpr
      ⟨readable.reached, ?_⟩, readable.read names directory⟩
    rintro front ⟨rest, rfl⟩ proper
    cases rest with
    | nil => exact absurd (List.append_nil front).symm proper
    | cons name rest =>
      rw [List.append_cons] at directory
      exact readable.searched front name (directory_above rooted.sound directory)
  · intro listed
    have apart : ∀ names, fs.isDirectoryAt (l ++ names) = true → (root.descendant names).fault? = none ∧
        fs.admits .use (root.descendant names) = true ∧ fs.permits readBit (l ++ names) = true := by
      intro names directory
      obtain ⟨entries, here⟩ := listed names directory
      obtain ⟨spelled, may, _⟩ := (rooted.list_ok_iff (valid directory) directory).mp here
      rw [mayRead, Bool.and_eq_true] at may
      exact ⟨spelled, may⟩
    have top := apart [] rooted.top
    rw [Path.descendant_nil] at top
    refine ⟨fun names directory => (apart names directory).1, top.2.1, ?_,
      fun names directory => (apart names directory).2.2⟩
    intro names name directory
    obtain ⟨spelled, admitted, _⟩ := apart _ directory
    exact ((rooted.leads.admits_descendant rooted.sound (valid directory) directory spelled top.1).mp admitted).2 names
      (List.prefix_append names [name]) (by simp)

theorem readable_iff (rooted : Rooted root l fs) :
    (∀ item ∈ items fs pathMax root, ∃ p, item = .ok p) ↔ Readable fs root l := by
  rw [readable_iff_listed rooted]
  constructor
  · intro told names directory
    exact @listed_of_items _ _ _ [] pathMax rooted told names directory
  · intro listed
    exact @items_of_listed _ _ _ [] pathMax rooted allNames_nil rooted.top listed (by omega)

/-- It is enough to look at the nodes that there are, where every directory is open to its owner. -/
theorem Readable.of_nodes (sound : fs.Sound) (reached : fs.admits .use root = true)
    (spelled : ∀ entry ∈ fs.nodes, l <+: entry.1 → (root.descendant (entry.1.drop l.length)).fault? = none)
    (opened : ∀ entry ∈ fs.nodes, entry.2.isDirectory = true →
      fs.permits searchBit entry.1 = true ∧ fs.permits readBit entry.1 = true) : Readable fs root l := by
  have spelled' : ∀ names, fs.isDirectoryAt (l ++ names) = true → (root.descendant names).fault? = none := by
    intro names directory
    obtain ⟨mode, there⟩ := isDirectoryAt_iff.mp directory
    have known := FileSystem.of_nodes (p := fun at' _ => l <+: at' →
      (root.descendant (at'.drop l.length)).fault? = none) spelled there (List.prefix_append l names)
    rwa [List.drop_left] at known
  have opened' : ∀ {m}, fs.isDirectoryAt m = true → fs.permits searchBit m = true ∧ fs.permits readBit m = true := by
    intro m directory
    obtain ⟨mode, there⟩ := isDirectoryAt_iff.mp directory
    exact FileSystem.of_nodes (p := fun at' node => node.isDirectory = true →
      fs.permits searchBit at' = true ∧ fs.permits readBit at' = true) opened there rfl
  exact ⟨spelled', reached, fun _ _ directory => (opened' (directory_above sound directory)).1,
    fun _ directory => (opened' directory).2⟩

/-- A walk of a directory tells files alone just if every directory can be read. Then it tells each file below the
root that has no `$` in its own name, whatever the directories above it are called, and tells them in the order of
their names. -/
theorem walk_enumerates (sound : w.files.Sound) (located : w.files.locate .use root = .ok l)
    (directory : w.files.isDirectoryAt l = true) :
    ∃ items, (walk root : Task ε _) w = .ok items w ∧
      ((∀ item ∈ items, ∃ p, item = .ok p) ↔ Readable w.files root l) ∧
      (Readable w.files root l → ∃ told, Enumerates w.files root l items told) := by
  obtain ⟨m, leads, spelled⟩ := leads_of_isDirectory (isDirectory_of_locate located directory)
  obtain rfl : m = l := Except.ok.inj ((leads.locate spelled).symm.trans located)
  have rooted : Rooted root m w.files := ⟨sound, leads⟩
  refine ⟨items w.files pathMax root, walk_eq_items rooted, readable_iff rooted, fun readable => ?_⟩
  obtain ⟨told, split, increasing, valid, complete⟩ := items_eq_map rooted ((readable_iff rooted).mpr readable)
  refine ⟨told, ?_, increasing, fun names => (complete names).trans (visible_iff sound)⟩
  rw [split]
  refine List.map_congr_left fun names member => ?_
  have down := ((complete names).mp member).down
  rw [← Path.join_descendant_empty root (valid names member) down, ← Path.text_descendant_empty (valid names member)]

namespace Sample

/-- A directory with a `$` in its name and a file with one, and a directory whose name is the front of that of a file. -/
def world : World :=
  { files :=
      { here := []
        nodes := [([], .directory 0o755), ([ascii "s"], .directory 0o755), ([ascii "s", ascii "a.txt"], .file 0o644 []),
          ([ascii "s", ascii "a"], .directory 0o755), ([ascii "s", ascii "a", ascii "b"], .file 0o644 []),
          ([ascii "s", ascii "$d"], .directory 0o755), ([ascii "s", ascii "$d", ascii "x"], .link ⟨ascii ".."⟩),
          ([ascii "s", ascii "x$y"], .file 0o644 [])] } }

theorem sound : world.files.Sound :=
  .of_nodes (by decide +kernel) (by decide +kernel) (by decide +kernel) (by decide +kernel)

end Sample

theorem enumerates_sample : Sample.world.files.Sound ∧
    Sample.world.files.locate .use ⟨ascii "./s/"⟩ = .ok [ascii "s"] ∧
    Sample.world.files.isDirectoryAt [ascii "s"] = true ∧ Readable Sample.world.files ⟨ascii "./s/"⟩ [ascii "s"] ∧
    ∃ items told, (walk ⟨ascii "./s/"⟩ : Task WalkError _) Sample.world = .ok items Sample.world ∧
      Enumerates Sample.world.files ⟨ascii "./s/"⟩ [ascii "s"] items told := by
  have located : Sample.world.files.locate .use ⟨ascii "./s/"⟩ = .ok [ascii "s"] := by decide +kernel
  have directory : Sample.world.files.isDirectoryAt [ascii "s"] = true := by decide +kernel
  have readable : Readable Sample.world.files ⟨ascii "./s/"⟩ [ascii "s"] :=
    .of_nodes Sample.sound (by decide +kernel) (by decide +kernel) (by decide +kernel)
  obtain ⟨items, walked, _, enumerates⟩ := walk_enumerates (ε := WalkError) Sample.sound located directory
  obtain ⟨told, enumerated⟩ := enumerates readable
  exact ⟨Sample.sound, located, directory, readable, items, told, walked, enumerated⟩

example : Task.outcome ((walk ⟨ascii "./s/"⟩ : Task WalkError _) Sample.world) =
    .ok [.ok ⟨ascii "./s/$d/x"⟩, .ok ⟨ascii "./s/a/b"⟩, .ok ⟨ascii "./s/a.txt"⟩] := by decide +kernel

/-- A directory that lets nobody do anything, with a file in it. -/
def Sample.closed : World :=
  { files :=
      { here := []
        nodes := [([], .directory 0o755), ([ascii "s"], .directory 0o755), ([ascii "s", ascii "d"], .directory 0),
          ([ascii "s", ascii "d", ascii "f"], .file 0o644 []), ([ascii "s", ascii "g"], .file 0o644 [])] } }

example : Task.outcome ((walk ⟨ascii "s"⟩ : Task WalkError _) Sample.closed) =
    .ok [.error ⟨⟨ascii "s/d"⟩, .permissionDenied⟩, .ok ⟨ascii "s/g"⟩] := by decide +kernel

/-- A path of one name with slashes behind it. -/
def Sample.slashed (count : Nat) : Path :=
  ⟨ascii "s" ++ slash :: List.replicate count slash⟩

/-- A file in a directory, two levels below the root. -/
def Sample.shallow : World :=
  { files :=
      { here := []
        nodes := [([], .directory 0o755), ([ascii "s"], .directory 0o755), ([ascii "s", ascii "d"], .directory 0o755),
          ([ascii "s", ascii "d", ascii "f"], .file 0o644 (ascii "x"))] } }

theorem Sample.way_slashed (count : Nat) : (slashed count).way = [.descend (ascii "s")] := by
  have blank : ∀ n, Bytes.splitOn slash (List.replicate n slash) = List.replicate (n + 1) [] := by
    intro n
    induction n with
    | zero => rfl
    | succ n ih => rw [List.replicate_succ, Bytes.splitOn, if_pos rfl, ih, ← List.replicate_succ]
  have clean : slash ∉ ascii "s" := by decide
  have segments : (slashed count).segments = ascii "s" :: List.replicate (count + 1) [] := by
    rw [Path.segments, slashed, Bytes.splitOn_append clean, blank]
  have noSteps : (List.replicate (count + 1) []).filterMap Step.ofSegment? = [] :=
    List.filterMap_eq_nil_iff.mpr fun segment member => by rw [List.eq_of_mem_replicate member]; rfl
  rw [Path.way, segments, List.filterMap_cons, noSteps]
  rfl

theorem Sample.length_slashed (count : Nat) : (slashed count).text.length = count + 2 := by
  simp [slashed, show (ascii "s").length = 1 from rfl]
  omega

theorem Sample.fault?_slashed {count : Nat} (short : count + 2 < pathMax) : (slashed count).fault? = none := by
  have length := length_slashed count
  have noNul : (slashed count).text.contains 0 = false := by
    rw [List.contains_eq_mem, decide_eq_false_iff_not, slashed, List.mem_append, List.mem_cons, List.mem_replicate]
    simp [show (0 : UInt8) ∉ ascii "s" by decide, show (0 : UInt8) ≠ slash by decide]
  have some : (slashed count).text ≠ [] := by
    intro none
    rw [none] at length
    cases length
  rw [Path.fault?, if_neg (by rw [noNul]; simp), if_neg some, if_neg (by omega)]

/-- A directory that is spelled with as many slashes as a path may have is found, and what is in it is not. -/
theorem not_enumerates_slashed : Sample.shallow.files.Sound ∧
    Sample.shallow.files.locate .use (Sample.slashed 4093) = .ok [ascii "s"] ∧
    Sample.shallow.files.isDirectoryAt [ascii "s"] = true ∧
    ¬ ∃ items told, (walk (Sample.slashed 4093) : Task WalkError _) Sample.shallow = .ok items Sample.shallow ∧
      Enumerates Sample.shallow.files (Sample.slashed 4093) [ascii "s"] items told := by
  have sound : Sample.shallow.files.Sound :=
    .of_nodes (by decide +kernel) (by decide +kernel) (by decide +kernel) (by decide +kernel)
  have leads : Sample.shallow.files.Leads (Sample.slashed 4093) [ascii "s"] := by
    refine ⟨?_, by decide +kernel⟩
    rw [Sample.way_slashed]
    decide +kernel
  have rooted : Rooted (Sample.slashed 4093) [ascii "s"] Sample.shallow.files := ⟨sound, leads⟩
  refine ⟨sound, leads.locate (Sample.fault?_slashed (by decide)), leads.directory, ?_⟩
  rintro ⟨items, told, walked, enumerates⟩
  rw [walk_eq_items rooted] at walked
  obtain rfl := (EStateM.Result.ok.inj walked).1
  have told' : ∀ item ∈ Walk.items Sample.shallow.files pathMax (Sample.slashed 4093), ∃ p, item = .ok p := by
    intro item member
    rw [enumerates.items] at member
    obtain ⟨names, _, rfl⟩ := List.mem_map.mp member
    exact ⟨_, rfl⟩
  have readable := (readable_iff rooted).mp told'
  have short := Path.length_lt_of_spelled (readable.spelled ([] ++ [ascii "d"]) (by decide +kernel))
  have grown := Path.length_child (Sample.slashed 4093) (show IsName (ascii "d") by decide)
  rw [Path.descendant_concat, Path.descendant_nil] at short
  rw [Sample.length_slashed] at grown
  rw [pathMax] at short
  omega

end Walk

end Unjar
