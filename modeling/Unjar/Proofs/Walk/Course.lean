import Unjar.Proofs.Walk.Enumeration

/-!
The course of a walk whose visits add to the tree that is walked. It is told by what is met on the way: a fold over
that, which is in the order of the names, holds all that was there at the start, and nothing that was not there when
its directory was listed.
-/

namespace Unjar

namespace Task

variable {ε σ κ ι : Type} {step : σ → κ → Task ε σ} {parts : κ → σ → World → List ι} {visit : σ → ι → Task ε σ}
  {entries : List κ}

/-- The parts of the steps of a fold, each as it is when its turn comes, up to the step that fails. -/
def along (step : σ → κ → Task ε σ) (parts : κ → σ → World → List ι) : List κ → σ → World → List ι
  | [], _, _ => []
  | entry :: rest, a, w => parts entry a w ++
    match step a entry w with
    | .ok b w' => along step parts rest b w'
    | .error _ _ => []

/-- A fold whose steps are folds over their parts is one fold over all of them. -/
theorem foldlM_along (each : ∀ entry a w, step a entry w = (parts entry a w).foldlM visit a w) (entries : List κ)
    (a : σ) (w : World) : entries.foldlM step a w = (along step parts entries a w).foldlM visit a w := by
  induction entries generalizing a w with
  | nil => rfl
  | cons entry rest ih =>
    rw [List.foldlM_cons, along, List.foldlM_append]
    simp only [bind, EStateM.bind, ← each]
    cases step a entry w with
    | ok b w' => exact ih b w'
    | error e w' => rfl

theorem along_append_of_ok {a b : σ} {w w' : World} {before after : List κ} (passed : before.foldlM step a w = .ok b w') :
    along step parts (before ++ after) a w = along step parts before a w ++ along step parts after b w' := by
  induction before generalizing a w with
  | nil =>
    cases passed
    rfl
  | cons entry rest ih =>
    rw [List.foldlM_cons] at passed
    obtain ⟨c, w₁, first, later⟩ := bind_ok passed
    simp only [List.cons_append, along, first, ih later, List.append_assoc]

/-- Where an item comes from: a part of one of the steps, with all of the steps before it gone well. -/
theorem along_split {front back : List ι} {item : ι} {a : σ} {w : World}
    (split : along step parts entries a w = front ++ item :: back) :
    ∃ before entry after b v inner outer, entries = before ++ entry :: after ∧ before.foldlM step a w = .ok b v ∧
      parts entry b v = inner ++ item :: outer ∧ front = along step parts before a w ++ inner := by
  induction entries generalizing a w front with
  | nil =>
    rw [along] at split
    cases front <;> cases split
  | cons entry rest ih =>
    rw [along] at split
    rcases List.append_eq_append_iff.mp split with ⟨more, rfl, later⟩ | ⟨more, first, back'⟩
    · cases ran : step a entry w with
      | error e w' =>
        rw [ran] at later
        cases more <;> cases later
      | ok c w' =>
        rw [ran] at later
        obtain ⟨before, entry', after, b, v, inner, outer, rfl, passed, there, rfl⟩ := ih later
        refine ⟨entry :: before, entry', after, b, v, inner, outer, rfl, ?_, there, ?_⟩
        · rw [List.foldlM_cons, bind_of_ok _ ran, passed]
        · simp only [along, ran, List.append_assoc]
    · cases more with
      | nil =>
        -- the item is the first of the later parts
        rw [List.append_nil] at first
        cases ran : step a entry w with
        | error e w' =>
          rw [ran] at back'
          cases back'
        | ok c w' =>
          rw [ran, List.nil_append] at back'
          obtain ⟨before, entry', after, b, v, inner, outer, rfl, passed, there, nothing⟩ :=
            @ih [] c w' back'.symm
          refine ⟨entry :: before, entry', after, b, v, inner, outer, rfl, ?_, there, ?_⟩
          · rw [List.foldlM_cons, bind_of_ok _ ran, passed]
          · simp only [along, ran, List.append_assoc, ← nothing, List.append_nil, first]
      | cons item' more =>
        cases back'
        exact ⟨[], entry, rest, a, w, front, more, rfl, rfl, first, rfl⟩

/-- Folds whose steps come to the same wherever they get to. -/
theorem foldlM_congr {P : World → Prop} {step' : σ → κ → Task ε σ}
    (same : ∀ entry ∈ entries, ∀ a w, P w → step a entry w = step' a entry w)
    (keeps : ∀ entry ∈ entries, ∀ a w b w', P w → step a entry w = .ok b w' → P w') {a : σ} {w : World} (here : P w) :
    entries.foldlM step a w = entries.foldlM step' a w := by
  induction entries generalizing a w with
  | nil => rfl
  | cons entry rest ih =>
    rw [List.foldlM_cons, List.foldlM_cons]
    refine bind_congr (same entry List.mem_cons_self a w here) fun b w₁ ran => ?_
    exact ih (fun other member => same other (List.mem_cons_of_mem _ member))
      (fun other member => keeps other (List.mem_cons_of_mem _ member))
      (keeps entry List.mem_cons_self a w b w₁ here ran)

theorem mem_along {item : ι} {a : σ} {w : World} (member : item ∈ along step parts entries a w) :
    ∃ before entry after b v, entries = before ++ entry :: after ∧ before.foldlM step a w = .ok b v ∧
      item ∈ parts entry b v := by
  obtain ⟨front, back, split⟩ := List.append_of_mem member
  obtain ⟨before, entry, after, b, v, inner, outer, whole, passed, there, _⟩ := along_split split
  exact ⟨before, entry, after, b, v, whole, passed, there ▸ by simp⟩

/-- Parts that are ordered, of steps that are ordered. -/
theorem pairwise_along {R : ι → ι → Prop} {a : σ} {w : World}
    (inside : ∀ before entry after b v, entries = before ++ entry :: after → before.foldlM step a w = .ok b v →
      (parts entry b v).Pairwise R)
    (across : ∀ before entry between entry' after b v b' v',
      entries = before ++ entry :: (between ++ entry' :: after) → before.foldlM step a w = .ok b v →
      (before ++ entry :: between).foldlM step a w = .ok b' v' →
      ∀ x ∈ parts entry b v, ∀ y ∈ parts entry' b' v', R x y) : (along step parts entries a w).Pairwise R := by
  induction entries generalizing a w with
  | nil => exact .nil
  | cons entry rest ih =>
    rw [along]
    refine List.pairwise_append.mpr ⟨inside [] entry rest a w rfl rfl, ?_, ?_⟩
    · cases ran : step a entry w with
      | error e w' => exact .nil
      | ok c w' =>
        refine ih (fun before entry' after b v whole passed => ?_) fun before e between e' after b v b' v' whole passed passed' => ?_
        · refine inside (entry :: before) entry' after b v (by rw [whole]; rfl) ?_
          rw [List.foldlM_cons, bind_of_ok _ ran, passed]
        · refine across (entry :: before) e between e' after b v b' v' (by rw [whole]; rfl) ?_ ?_
          · rw [List.foldlM_cons, bind_of_ok _ ran, passed]
          · rw [List.cons_append, List.foldlM_cons, bind_of_ok _ ran, passed']
    · intro x first y second
      cases ran : step a entry w with
      | error e w' =>
        rw [ran] at second
        cases second
      | ok c w' =>
        rw [ran] at second
        obtain ⟨before, entry', after, b, v, whole, passed, there⟩ := mem_along second
        refine across [] entry before entry' after a w b v (by rw [whole]; rfl) rfl ?_ x first y there
        rw [List.nil_append, List.foldlM_cons, bind_of_ok _ ran, passed]

end Task

namespace Walk

open FileSystem

variable {ε α : Type} {visit : α → Item → Task ε α} {root : Path} {l : Location} {names : List Bytes} {depth : Nat}
  {a b : α} {w w' : World}

/-- Directories that are added are no files to be seen. -/
theorem visible_of_adds {fs fs' : FileSystem} {fresh : Location → Prop} (adds : fs.AddsDirectories fs' fresh) :
    Visible fs' root l names ↔ Visible fs root l names := by
  constructor
  · rintro ⟨down, ⟨node, there, isFile⟩, kept⟩
    exact ⟨down, ⟨node, adds.other there isFile, isFile⟩, kept⟩
  · rintro ⟨down, ⟨node, there, isFile⟩, kept⟩
    exact ⟨down, ⟨node, adds.kept there, isFile⟩, kept⟩

/-- What a walk does at an entry of a directory. -/
def enter (visit : α → Item → Task ε α) (depth : Nat) (directory : Path) (soFar : α) (entry : Bytes × Node) :
    Task ε α :=
  if entry.2.isDirectory then below visit depth (directory.child entry.1) soFar
  else if ClassFile.isSynthetic (directory.child entry.1) then return soFar
  else visit soFar (.ok (directory.child entry.1))

theorem below_succ (visit : α → Item → Task ε α) (depth : Nat) (directory : Path) (a : α) (w : World) :
    below visit (depth + 1) directory a w =
      match w.files.list directory with
      | .error fault => visit a (.error ⟨directory, fault⟩) w
      | .ok entries => entries.foldlM (enter visit depth directory) a w := by
  rw [below, Task.bind_of_ok _ (Task.files_run w)]
  cases w.files.list directory <;> rfl

/-- What is met at an entry of a directory. -/
def metAt (inside : Path → α → World → List Item) (directory : Path) (entry : Bytes × Node) (a : α) (w : World) :
    List Item :=
  if entry.2.isDirectory then inside (directory.child entry.1) a w
  else if ClassFile.isSynthetic (directory.child entry.1) then []
  else [.ok (directory.child entry.1)]

/-- What a walk meets on its way, each directory listed as it is when it is entered. -/
def met (visit : α → Item → Task ε α) : Nat → Path → α → World → List Item
  | 0, directory, _, _ => [.error ⟨directory, .nameTooLong⟩]
  | depth + 1, directory, a, w =>
    match w.files.list directory with
    | .error fault => [.error ⟨directory, fault⟩]
    | .ok entries => Task.along (enter visit depth directory) (metAt (met visit depth) directory) entries a w

/-- A walk is a fold over what it meets, whatever its visits do. -/
theorem below_eq_met (visit : α → Item → Task ε α) (depth : Nat) (directory : Path) (a : α) (w : World) :
    below visit depth directory a w = (met visit depth directory a w).foldlM visit a w := by
  induction depth generalizing directory a w with
  | zero => simp only [below, met, List.foldlM_cons, List.foldlM_nil, bind_pure]
  | succ depth ih =>
    rw [below_succ, met]
    cases w.files.list directory with
    | error fault => simp only [List.foldlM_cons, List.foldlM_nil, bind_pure]
    | ok entries =>
      refine Task.foldlM_along (fun entry b v => ?_) entries a w
      simp only [enter, metAt]
      split
      · exact ih _ b v
      · split
        · rfl
        · simp only [List.foldlM_cons, List.foldlM_nil, bind_pure]

theorem enter_eq_metAt (visit : α → Item → Task ε α) (depth : Nat) (directory : Path) (entry : Bytes × Node) (a : α)
    (w : World) :
    enter visit depth directory a entry w = (metAt (met visit depth) directory entry a w).foldlM visit a w := by
  simp only [enter, metAt]
  split
  · exact below_eq_met visit depth _ a w
  · split
    · rfl
    · simp only [List.foldlM_cons, List.foldlM_nil, bind_pure]

theorem spelled_of_list {fs : FileSystem} {p : Path} {entries : List (Bytes × Node)} (listed : fs.list p = .ok entries) :
    p.fault? = none := by
  cases spelled : p.fault? with
  | none => rfl
  | some fault =>
    rw [list_of_fault spelled] at listed
    cases listed

theorem eq_of_singleton {ι : Type} {item item' : ι} {front back : List ι} (split : [item'] = front ++ item :: back) :
    front = [] ∧ item = item' := by
  cases front with
  | nil => exact ⟨rfl, (List.head_eq_of_cons_eq split).symm⟩
  | cons => simp at split

/-- What is kept by whatever is done with a file below the root is kept at each entry of a directory. -/
theorem ends_enter {P : World → Prop} {E : ε → World → Prop} (sound : ∀ w, P w → w.files.Sound)
    (each : ∀ a item w, Proper root item → P w → Task.Ends (visit a item) w (fun _ => P) E) (valid : AllNames names)
    {entry : Bytes × Node} (isName : IsName entry.1) (a : α) (here : P w) :
    Task.Ends (enter visit depth (root.descendant names) a entry) w (fun _ => P) E := by
  have validChild := valid.append (.singleton isName)
  unfold enter
  rw [← Path.descendant_concat]
  split
  · exact ends_below sound each depth validChild a here
  · split
    · exact .pure here
    · refine each a _ w ?_ here
      rintro p ⟨⟩
      exact ⟨_, by simp, validChild, rfl⟩

/-- What is met is below the root, whatever the visits do to the tree. -/
theorem proper_of_met {P : World → Prop} {E : ε → World → Prop} (sound : ∀ w, P w → w.files.Sound)
    (each : ∀ a item w, Proper root item → P w → Task.Ends (visit a item) w (fun _ => P) E) (valid : AllNames names)
    (here : P w) : ∀ item ∈ met visit depth (root.descendant names) a w, Proper root item := by
  induction depth generalizing names a w with
  | zero =>
    intro item member
    rw [List.mem_singleton.mp member]
    rintro p ⟨⟩
  | succ depth ih =>
    intro item member
    rw [met] at member
    cases listed : w.files.list (root.descendant names) with
    | error fault =>
      rw [listed] at member
      rw [List.mem_singleton.mp member]
      rintro p ⟨⟩
    | ok entries =>
      rw [listed] at member
      obtain ⟨before, entry, after, b, v, rfl, passed, there⟩ := Task.mem_along member
      have isName : ∀ other ∈ before ++ entry :: after, IsName other.1 := fun (name, node) member =>
        (sound w here).isName_of_list listed member
      have here' : P v := (Task.Ends.foldlM (fun other earlier c u between =>
        ends_enter sound each valid (isName other (List.mem_append_left _ earlier)) c between) here).of_ok passed
      have validChild := valid.append (.singleton (isName entry (by simp)))
      rw [metAt, ← Path.descendant_concat] at there
      split at there
      · exact ih validChild here' item there
      · split at there
        · cases there
        · rw [List.mem_singleton.mp there]
          rintro p ⟨⟩
          exact ⟨_, by simp, validChild, rfl⟩

/-- A root is walked through, or cannot be read, or is no directory. -/
theorem fold_cases (visit : α → Item → Task ε α) (root : Path) (a : α) (w : World) :
    fold visit root a w = below visit pathMax root a w ∨
      (∃ fault, fold visit root a w = visit a (.error ⟨root, fault⟩) w) ∨ fold visit root a w = .ok a w := by
  unfold fold
  rw [Task.bind_of_ok _ (Task.files_run w)]
  cases found : w.files.locateAdmitted .inspect root with
  | error fault => exact Or.inr (Or.inl ⟨fault, by simp only⟩)
  | ok l =>
    simp only
    rcases there : w.files.node? l with _ | ⟨_ | _ | target | _⟩
    · exact Or.inr (Or.inr rfl)
    · exact Or.inr (Or.inr rfl)
    · exact Or.inl rfl
    · simp only
      cases w.files.locateAdmitted .use root with
      | error fault => exact Or.inr (Or.inl ⟨fault, rfl⟩)
      | ok m =>
        by_cases directory : w.files.isDirectoryAt m = true
        · exact Or.inl (by simp only [directory, if_true])
        · exact Or.inr (Or.inr (by simp only [directory]; rfl))
    · exact Or.inr (Or.inr rfl)

/-- A walk that only looks leaves the world alone, and what it tells is below the root. -/
theorem walk_proper (sound : w.files.Sound) (root : Path) :
    ∃ items, (walk root : Task ε _) w = .ok items w ∧ ∀ item ∈ items, Proper root item := by
  have looks : ∀ (found : List Item) item v, Proper root item → v = w →
      Task.Ends (collect found item : Task ε _) v (fun _ v' => v' = w) fun _ _ => True := fun _ _ _ _ same => same
  have proper : ∀ item ∈ met (collect (ε := ε)) pathMax (root.descendant []) [] w, Proper root item :=
    proper_of_met (P := (· = w)) (fun v same => same ▸ sound) looks allNames_nil rfl
  rcases fold_cases (collect (ε := ε)) root [] w with through | ⟨fault, refused⟩ | nothing
  · exact ⟨_, through.trans ((below_eq_met _ _ _ _ _).trans (foldlM_collect _ _ w)), proper⟩
  · refine ⟨[.error ⟨root, fault⟩], refused, fun item member => ?_⟩
    rw [List.mem_singleton.mp member]
    rintro p ⟨⟩
  · exact ⟨[], nothing, List.forall_mem_nil _⟩

/-- Visits under which the walked tree grows. -/
structure Growing (visit : α → Item → Task ε α) (root : Path) (l : Location) (P : World → Prop) : Prop where
  rooted : ∀ w, P w → Rooted root l w.files
  visits : ∀ a item w b w', Proper root item → P w → visit a item w = .ok b w' → P w' ∧ w.files.Grows w'.files

namespace Growing

variable {P : World → Prop} (growing : Growing visit root l P)

include growing

theorem ends_visit (w : World) (a : α) (item : Item) (v : World) (proper : Proper root item)
    (there : P v ∧ w.files.Grows v.files) :
    Task.Ends (visit a item) v (fun _ v' => P v' ∧ w.files.Grows v'.files) fun _ _ => True := by
  refine .intro (fun b v' ran => ?_) fun _ _ _ => trivial
  obtain ⟨there', grows⟩ := growing.visits a item v b v' proper there.1 ran
  exact ⟨there', there.2.trans grows⟩

theorem enter_ok (valid : AllNames names) {entry : Bytes × Node} (isName : IsName entry.1) (here : P w)
    (ran : enter visit depth (root.descendant names) a entry w = .ok b w') : P w' ∧ w.files.Grows w'.files :=
  (ends_enter (fun v there => (growing.rooted v there.1).sound) (growing.ends_visit w) valid isName a
    ⟨here, .refl _⟩).of_ok ran

theorem entries_ok (valid : AllNames names) {entries : List (Bytes × Node)} (each : ∀ entry ∈ entries, IsName entry.1)
    (here : P w) (ran : entries.foldlM (enter visit depth (root.descendant names)) a w = .ok b w') :
    P w' ∧ w.files.Grows w'.files :=
  (Task.Ends.foldlM (fun entry member c _ there =>
    ends_enter (fun v there => (growing.rooted v there.1).sound) (growing.ends_visit w) valid (each entry member) c
      there) ⟨here, .refl _⟩).of_ok ran

/-- When a walk comes to an entry of a directory that it listed, the directory has grown. -/
theorem at_entry (valid : AllNames names) (here : P w)
    {before after : List (Bytes × Node)} {name : Bytes} {node : Node} {v : World}
    (whole : w.files.entriesAt (l ++ names) = before ++ (name, node) :: after)
    (passed : before.foldlM (enter visit depth (root.descendant names)) a w = .ok b v) :
    P v ∧ w.files.Grows v.files ∧ AllNames (names ++ [name]) ∧
      w.files.node? (l ++ (names ++ [name])) = some node ∧
      (node.isDirectory = true → v.files.isDirectoryAt (l ++ (names ++ [name])) = true) := by
  have rooted := growing.rooted w here
  have entry : (name, node) ∈ w.files.entriesAt (l ++ names) := by rw [whole]; simp
  have each : ∀ entry ∈ before, IsName entry.1 := by
    intro (name', node') member
    have entry' : (name', node') ∈ w.files.entriesAt (l ++ names) := by
      rw [whole]
      exact List.mem_append_left _ member
    exact rooted.valid_entry entry'
  have atNode := rooted.sound.mem_entriesAt.mp entry
  rw [List.append_assoc] at atNode
  obtain ⟨there, grows⟩ := growing.entries_ok valid each here passed
  exact ⟨there, grows, valid.append (.singleton (rooted.valid_entry entry)), atNode,
    fun isDirectory => grows.directory (rooted.directory_entry entry isDirectory)⟩

/-- The names of what is met in a directory go on from those of the directory. -/
theorem of_mem_met (valid : AllNames names) (directory : w.files.isDirectoryAt (l ++ names) = true) (here : P w)
    {m : List Bytes} (validM : AllNames m)
    (member : .ok (root.descendant m) ∈ met visit depth (root.descendant names) a w) : ∃ more, m = names ++ more := by
  induction depth generalizing names a w with
  | zero => simp [met] at member
  | succ depth ih =>
    have rooted := growing.rooted w here
    rw [met] at member
    cases listed : w.files.list (root.descendant names) with
    | error fault =>
      rw [listed] at member
      simp at member
    | ok entries =>
      obtain rfl := rooted.list_ok valid directory listed
      rw [listed] at member
      obtain ⟨before, ⟨name, node⟩, after, b, v, whole, passed, there⟩ := Task.mem_along member
      obtain ⟨hereEntry, _, validChild, _, inner⟩ := growing.at_entry valid here whole passed
      rw [metAt, ← Path.descendant_concat] at there
      split at there
      · rename_i isDirectory
        obtain ⟨more, rfl⟩ := ih validChild (inner isDirectory) hereEntry there
        exact ⟨name :: more, (List.append_cons _ _ _).symm⟩
      · split at there
        · cases there
        · have same := Except.ok.inj (List.mem_singleton.mp there)
          exact ⟨[name], Path.descendant_injective root validM validChild same⟩

/-- The names of what is met at an entry go on from its name. -/
theorem of_mem_metAt {name : Bytes} {node : Node} (valid : AllNames (names ++ [name]))
    (directory : node.isDirectory = true → w.files.isDirectoryAt (l ++ (names ++ [name])) = true) (here : P w)
    {m : List Bytes} (validM : AllNames m)
    (member : .ok (root.descendant m) ∈ metAt (met visit depth) (root.descendant names) (name, node) a w) :
    ∃ more, m = names ++ name :: more := by
  rw [metAt, ← Path.descendant_concat] at member
  split at member
  · rename_i inner
    obtain ⟨more, rfl⟩ := growing.of_mem_met valid (directory inner) here validM member
    exact ⟨more, (List.append_cons _ _ _).symm⟩
  · split at member
    · cases member
    · have same := Except.ok.inj (List.mem_singleton.mp member)
      exact ⟨[], Path.descendant_injective root validM valid same⟩

/-- What is met is a directory that cannot be read, or a file that was there when its directory was listed: a front part
of what was met before it had been visited then, all of it before the directory. -/
theorem met_split (valid : AllNames names) (directory : w.files.isDirectoryAt (l ++ names) = true) (here : P w)
    {front back : List Item} {item : Item}
    (split : met visit depth (root.descendant names) a w = front ++ item :: back) :
    ∃ pre post b v more, front = pre ++ post ∧ pre.foldlM visit a w = .ok b v ∧ P v ∧ w.files.Grows v.files ∧
      AllNames (names ++ more) ∧ ((∃ fault, item = .error ⟨root.descendant (names ++ more), fault⟩) ∨
        more ≠ [] ∧ item = .ok (root.descendant (names ++ more)) ∧ Visible v.files root l (names ++ more) ∧
          ∀ m, AllNames m → .ok (root.descendant m) ∈ pre → m < (names ++ more).dropLast) := by
  induction depth generalizing names a w front back with
  | zero =>
    obtain ⟨rfl, rfl⟩ := eq_of_singleton split
    exact ⟨[], [], a, w, [], rfl, rfl, here, .refl _, by rwa [List.append_nil], Or.inl ⟨_, by rw [List.append_nil]⟩⟩
  | succ depth ih =>
    have rooted := growing.rooted w here
    rw [met] at split
    cases listed : w.files.list (root.descendant names) with
    | error fault =>
      rw [listed] at split
      obtain ⟨rfl, rfl⟩ := eq_of_singleton split
      exact ⟨[], [], a, w, [], rfl, rfl, here, .refl _, by rwa [List.append_nil], Or.inl ⟨_, by rw [List.append_nil]⟩⟩
    | ok entries =>
      obtain rfl := rooted.list_ok valid directory listed
      rw [listed] at split
      obtain ⟨before, ⟨name, node⟩, after, b, v, front', back', whole, passed, there, rfl⟩ := Task.along_split split
      obtain ⟨hereEntry, grows, validChild, atNode, inner⟩ := growing.at_entry valid here whole passed
      rw [metAt, ← Path.descendant_concat] at there
      by_cases isDirectory : node.isDirectory = true
      · rw [if_pos isDirectory] at there
        obtain ⟨pre, post, c, u, more, rfl, passed', hereThen, grows', valid', met⟩ :=
          ih validChild (inner isDirectory) hereEntry there
        rw [← List.append_cons] at valid' met
        refine ⟨_ ++ pre, post, c, u, name :: more, (List.append_assoc _ _ _).symm, ?_, hereThen, grows.trans grows',
          valid', met.imp_right fun ⟨deep, found, visible, later⟩ => ⟨by simp, found, visible, fun m validM member => ?_⟩⟩
        · rw [Task.foldlM_along (enter_eq_metAt visit depth _)] at passed
          rw [List.foldlM_append, Task.bind_of_ok _ passed, passed']
        · rcases List.mem_append.mp member with earlier | inside
          · -- what was met at an earlier entry is before all that is met at this one
            obtain ⟨before', ⟨name', node'⟩, after', b', v', whole', passed', there'⟩ := Task.mem_along earlier
            rw [whole', List.append_assoc, List.cons_append] at whole
            obtain ⟨hereOther, _, validOther, _, innerOther⟩ := growing.at_entry valid here whole passed'
            obtain ⟨rest, rfl⟩ := growing.of_mem_metAt validOther innerOther hereOther validM there'
            have precedes : name' < name := rooted.sound.lt_of_entriesAt whole
            rw [List.dropLast_append_of_ne_nil (by simp), List.dropLast_cons_of_ne_nil deep]
            exact List.append_left_lt (List.cons_lt_cons_iff.mpr (Or.inl precedes))
          · exact later m validM inside
      · -- a file was listed with the directory
        rw [if_neg isDirectory] at there
        split at there
        · cases front' <;> cases there
        · rename_i kept
          obtain ⟨rfl, rfl⟩ := eq_of_singleton there
          exact ⟨[], _, a, w, [name], rfl, rfl, here, .refl _, validChild, Or.inr ⟨by simp, rfl, ⟨by simp,
            ⟨node, atNode, Bool.eq_false_iff.mpr isDirectory⟩, Bool.eq_false_iff.mpr kept⟩, by simp⟩⟩

/-- What is met is below the root. -/
theorem proper_met (valid : AllNames names) (here : P w) :
    ∀ item ∈ met visit depth (root.descendant names) a w, Proper root item :=
  proper_of_met (fun v there => (growing.rooted v there.1).sound) (growing.ends_visit w) valid ⟨here, .refl _⟩

/-- A walk goes through the files in the order of their names, whatever is added while it goes on. -/
theorem pairwise_met (valid : AllNames names) (directory : w.files.isDirectoryAt (l ++ names) = true) (here : P w) :
    (met visit depth (root.descendant names) a w).Pairwise (Before root) := by
  induction depth generalizing names a w with
  | zero => exact List.pairwise_singleton _ _
  | succ depth ih =>
    have rooted := growing.rooted w here
    rw [met]
    cases listed : w.files.list (root.descendant names) with
    | error fault => exact List.pairwise_singleton _ _
    | ok entries =>
      obtain rfl := rooted.list_ok valid directory listed
      refine Task.pairwise_along ?_ ?_
      · rintro before ⟨name, node⟩ after b v whole passed
        obtain ⟨there, _, validChild, _, inner⟩ := growing.at_entry valid here whole passed
        rw [metAt, ← Path.descendant_concat]
        split
        · rename_i isDirectory
          exact ih validChild (inner isDirectory) there
        · split
          · exact .nil
          · exact List.pairwise_singleton _ _
      · rintro before ⟨name, node⟩ between ⟨name', node'⟩ after b v b' v' whole passed passed' x first y second m n validM
          validN isFirst isSecond
        obtain ⟨there, _, validChild, _, inner⟩ := growing.at_entry valid here whole passed
        have whole' : w.files.entriesAt (l ++ names) = (before ++ (name, node) :: between) ++ (name', node') :: after := by
          rw [whole, List.append_assoc, List.cons_append]
        obtain ⟨there', _, validChild', _, inner'⟩ := growing.at_entry valid here whole' passed'
        obtain ⟨more, rfl⟩ := growing.of_mem_metAt validChild inner there validM (isFirst ▸ first)
        obtain ⟨more', rfl⟩ := growing.of_mem_metAt validChild' inner' there' validN (isSecond ▸ second)
        have precedes : name < name' := rooted.sound.lt_of_entriesAt whole
        exact List.append_left_lt (List.cons_lt_cons_iff.mpr (Or.inl precedes))

/-- A walk that ends well, and cannot do so past a directory that it cannot read, meets all that was there at its
start. -/
theorem mem_met (strict : ∀ a e w b w', visit a (.error e) w ≠ .ok b w') {more : List Bytes} (down : more ≠ [])
    (visible : Visible w.files root l (names ++ more)) (here : P w)
    (ran : below visit depth (root.descendant names) a w = .ok b w') :
    .ok (root.descendant (names ++ more)) ∈ met visit depth (root.descendant names) a w := by
  have rooted := growing.rooted w here
  obtain ⟨-, ⟨node, there, isFile⟩, kept⟩ := visible
  have valid : AllNames (names ++ more) := (rooted.sound.names _ (by rw [there]; rfl)).1.right
  induction depth generalizing names a b w w' more with
  | zero => exact absurd ran (strict _ _ _ _ _)
  | succ depth ih =>
    rw [below_succ] at ran
    rw [met]
    cases listed : w.files.list (root.descendant names) with
    | error fault =>
      rw [listed] at ran
      exact absurd ran (strict _ _ _ _ _)
    | ok entries =>
      rw [listed] at ran
      obtain ⟨name, rest, rfl⟩ := List.exists_cons_of_ne_nil down
      have directory : w.files.isDirectoryAt (l ++ names) = true := by
        have inside : (w.files.node? (l ++ names ++ name :: rest)).isSome := by
          rw [List.append_assoc, there]
          rfl
        exact rooted.sound.above inside (by simp)
      obtain rfl := rooted.list_ok valid.left directory listed
      obtain ⟨atName, there', last⟩ : ∃ atName, w.files.node? (l ++ names ++ [name]) = some atName ∧
          (rest = [] ∧ atName.isDirectory = false ∨ rest ≠ [] ∧ atName.isDirectory = true) := by
        by_cases last : rest = []
        · subst last
          exact ⟨node, by rw [List.append_assoc, there], Or.inl ⟨rfl, isFile⟩⟩
        · have inside : (w.files.node? (l ++ names ++ [name] ++ rest)).isSome := by simp [there]
          have inner : w.files.isDirectoryAt (l ++ names ++ [name]) = true := rooted.sound.above inside last
          obtain ⟨mode, atInner⟩ := isDirectoryAt_iff.mp inner
          exact ⟨_, atInner, Or.inr ⟨last, rfl⟩⟩
      obtain ⟨before, after, whole⟩ := List.append_of_mem (rooted.sound.mem_entriesAt.mpr there')
      simp only [whole, List.foldlM_append] at ran
      obtain ⟨c, v, passed, ran⟩ := Task.bind_ok ran
      rw [List.foldlM_cons] at ran
      obtain ⟨c', v', entered, _⟩ := Task.bind_ok ran
      obtain ⟨hereEntry, grows, validChild, _, _⟩ := growing.at_entry valid.left here whole passed
      simp only [whole, Task.along_append_of_ok passed, Task.along]
      refine List.mem_append_right _ (List.mem_append_left _ ?_)
      rw [enter, ← Path.descendant_concat] at entered
      rw [metAt, ← Path.descendant_concat]
      rw [List.append_cons names name rest] at there kept valid ⊢
      rcases last with ⟨rfl, notDirectory⟩ | ⟨deep, isDirectory⟩
      · rw [List.append_nil] at kept ⊢
        simp [notDirectory, kept]
      · rw [if_pos isDirectory] at entered ⊢
        exact ih deep hereEntry entered (growing.rooted v hereEntry) kept (grows.kept there) valid

/-- The depth bounds no walk: a path grows from each directory to the next, and so it is refused before the depth is
used up. -/
theorem below_bounded (more : Nat) (valid : AllNames names) (here : P w)
    (long : pathMax ≤ depth + max 1 (root.descendant names).text.length) :
    below visit (depth + 1 + more) (root.descendant names) a w = below visit (depth + 1) (root.descendant names) a w := by
  induction depth generalizing names a w with
  | zero =>
    rw [Nat.zero_add] at long
    rw [Nat.zero_add, Nat.add_comm 1 more, below_succ, below_succ _ 0]
    cases listed : w.files.list (root.descendant names) with
    | error fault => rfl
    | ok entries =>
      have short := Path.length_lt_of_spelled (spelled_of_list listed)
      have some := Path.length_pos_of_spelled (spelled_of_list listed)
      omega
  | succ depth ih =>
    rw [Nat.add_right_comm (depth + 1) 1 more, below_succ, below_succ _ (depth + 1)]
    cases listed : w.files.list (root.descendant names) with
    | error fault => rfl
    | ok entries =>
      have some := Path.length_pos_of_spelled (spelled_of_list listed)
      have each : ∀ entry ∈ entries, IsName entry.1 := fun (name, node) member =>
        (growing.rooted w here).sound.isName_of_list listed member
      refine Task.foldlM_congr (P := P) (fun entry member c v there => ?_) (fun entry member c v c' v' there entered => ?_)
        here
      · have validChild := valid.append (.singleton (each entry member))
        have grown := Path.length_child (root.descendant names) (each entry member)
        rw [enter, enter, ← Path.descendant_concat] at *
        split
        · exact ih validChild there (by omega)
        · rfl
      · exact (growing.enter_ok valid (each entry member) there entered).1

end Growing

end Walk

end Unjar
