import Unjar.Proofs.FileSystem.Enclosing
import Unjar.Proofs.FileSystem.Listing
import Unjar.Proofs.Task
import Unjar.Walk

/-!
The walk as a list. When what is done for the files leaves the walked tree alone, the files that are
met are those that were there at the start, in an order that is read off their names.
-/

namespace Unjar

namespace FileSystem

variable {fs fs' : FileSystem} {root : Path} {l : Location}

/-- A directory that can be walked from a path that leads to it. -/
structure Rooted (root : Path) (l : Location) (fs : FileSystem) : Prop where
  sound : fs.Sound
  leads : fs.Leads root l

/-- A tree that can be walked from its root, and holds no link. -/
structure Tree (root : Path) (l : Location) (fs : FileSystem) : Prop where
  sound : fs.Sound
  leads : fs.Leads root l
  free : fs.LinkFree l

theorem Tree.rooted (tree : Tree root l fs) : Rooted root l fs :=
  ⟨tree.sound, tree.leads⟩

namespace Rooted

theorem top (rooted : Rooted root l fs) : fs.isDirectoryAt (l ++ []) = true := by
  rw [List.append_nil]
  exact rooted.leads.directory

theorem leads_below (rooted : Rooted root l fs) {names : List Bytes} (valid : AllNames names)
    (directory : fs.isDirectoryAt (l ++ names) = true) : fs.Leads (root.descendant names) (l ++ names) :=
  rooted.leads.descendant rooted.sound valid directory

/-- A directory below the root is listed, unless the path to it is refused or its modes forbid it. -/
theorem list (rooted : Rooted root l fs) {names : List Bytes} (valid : AllNames names)
    (directory : fs.isDirectoryAt (l ++ names) = true) : fs.list (root.descendant names) =
      (root.descendant names).checked (if fs.mayRead (root.descendant names) (l ++ names)
        then .ok (fs.entriesAt (l ++ names)) else .error .permissionDenied) :=
  (rooted.leads_below valid directory).list

theorem list_ok_iff (rooted : Rooted root l fs) {names : List Bytes} (valid : AllNames names)
    (directory : fs.isDirectoryAt (l ++ names) = true) {entries : List (Bytes × Node)} :
    fs.list (root.descendant names) = .ok entries ↔ (root.descendant names).fault? = none ∧
      fs.mayRead (root.descendant names) (l ++ names) = true ∧ fs.entriesAt (l ++ names) = entries := by
  rw [rooted.list valid directory, checked_ok]
  cases fs.mayRead (root.descendant names) (l ++ names) <;> simp

theorem list_ok (rooted : Rooted root l fs) {names : List Bytes} (valid : AllNames names)
    (directory : fs.isDirectoryAt (l ++ names) = true) {entries : List (Bytes × Node)}
    (listed : fs.list (root.descendant names) = .ok entries) : entries = fs.entriesAt (l ++ names) :=
  ((rooted.list_ok_iff valid directory).mp listed).2.2.symm

/-- A directory is listed as before while the file system grows, but with what was added. -/
theorem list_grows (rooted : Rooted root l fs) (rooted' : Rooted root l fs') (grows : fs.Grows fs')
    {names : List Bytes} (valid : AllNames names) (directory : fs.isDirectoryAt (l ++ names) = true) :
    fs'.list (root.descendant names) =
      (fs.list (root.descendant names)).map fun _ => fs'.entriesAt (l ++ names) := by
  rw [rooted.list valid directory, rooted'.list valid (grows.directory directory),
    (rooted.leads_below valid directory).mayRead_grows rooted.sound grows]
  unfold Path.checked
  cases (root.descendant names).fault? with
  | some fault => rfl
  | none => cases fs.mayRead (root.descendant names) (l ++ names) <;> rfl

theorem list_congr (rooted : Rooted root l fs) (rooted' : Rooted root l fs') (grows : fs.Grows fs')
    (same : SameBelow l fs fs') {names : List Bytes} (valid : AllNames names)
    (directory : fs.isDirectoryAt (l ++ names) = true) :
    fs'.list (root.descendant names) = fs.list (root.descendant names) := by
  rw [rooted.list_grows rooted' grows valid directory]
  cases listed : fs.list (root.descendant names) with
  | error fault => rfl
  | ok entries =>
    rw [rooted.list_ok valid directory listed]
    exact congrArg _ (rooted.sound.entriesAt_congr rooted'.sound fun name => (same.under names) [name])

theorem valid_entry (rooted : Rooted root l fs) {names : List Bytes} {name : Bytes} {node : Node}
    (member : (name, node) ∈ fs.entriesAt (l ++ names)) : IsName name := by
  have there := rooted.sound.mem_entriesAt.mp member
  exact (rooted.sound.names _ (by rw [there]; rfl)).1 name (by simp)

/-- An entry that is a directory is one below the root. -/
theorem directory_entry (rooted : Rooted root l fs) {names : List Bytes} {name : Bytes} {node : Node}
    (member : (name, node) ∈ fs.entriesAt (l ++ names)) (isDirectory : node.isDirectory = true) :
    fs.isDirectoryAt (l ++ (names ++ [name])) = true := by
  rw [← List.append_assoc, isDirectoryAt, rooted.sound.mem_entriesAt.mp member]
  exact isDirectory

end Rooted

end FileSystem

namespace Walk

open FileSystem

variable {ε α : Type} {fs : FileSystem} {root : Path} {l : Location}

/-- What a walk meets in a file system that does not change. -/
def items (fs : FileSystem) : Nat → Path → List Item
  | 0, directory => [.error ⟨directory, .nameTooLong⟩]
  | depth + 1, directory =>
    match fs.list directory with
    | .error fault => [.error ⟨directory, fault⟩]
    | .ok entries => entries.flatMap fun (name, node) =>
      if node.isDirectory then items fs depth (directory.child name)
      else if ClassFile.isSynthetic (directory.child name) then []
      else [.ok (directory.child name)]

/-- A directory that could not be read, or a file below the root. -/
def Proper (root : Path) (item : Item) : Prop :=
  ∀ p, item = .ok p → ∃ names, names ≠ [] ∧ AllNames names ∧ p = root.descendant names

/-- What is met at one entry of a directory. -/
theorem mem_items_succ {depth : Nat} {directory : Path} {item : Item} :
    item ∈ items fs (depth + 1) directory ↔
      (∃ fault, fs.list directory = .error fault ∧ item = .error ⟨directory, fault⟩) ∨
      ∃ entries name node, fs.list directory = .ok entries ∧ (name, node) ∈ entries ∧
        (node.isDirectory = true ∧ item ∈ items fs depth (directory.child name) ∨
          node.isDirectory = false ∧ ClassFile.isSynthetic (directory.child name) = false ∧
            item = .ok (directory.child name)) := by
  rw [items]
  cases fs.list directory with
  | error fault => simp
  | ok entries =>
    simp only [List.mem_flatMap, Prod.exists, reduceCtorEq, false_and, exists_false, false_or, Except.ok.injEq,
      exists_and_left, exists_eq_left']
    refine exists_congr fun name => exists_congr fun node => and_congr_right fun _ => ?_
    cases node.isDirectory <;> cases ClassFile.isSynthetic (directory.child name) <;> simp

/-- A file that is met is a node below the root that is no directory. -/
theorem found_of_mem (rooted : Rooted root l fs) {depth : Nat} {names : List Bytes} (valid : AllNames names)
    (directory : fs.isDirectoryAt (l ++ names) = true) {p : Path}
    (member : .ok p ∈ items fs depth (root.descendant names)) :
    ∃ more node, more ≠ [] ∧ AllNames (names ++ more) ∧ p = root.descendant (names ++ more) ∧
      fs.node? (l ++ (names ++ more)) = some node ∧ node.isDirectory = false ∧ ClassFile.isSynthetic p = false := by
  induction depth generalizing names with
  | zero => simp [items] at member
  | succ depth ih =>
    rcases mem_items_succ.mp member with ⟨fault, _, failed⟩ | ⟨entries, name, node, listed, entry, met⟩
    · cases failed
    · obtain rfl := rooted.list_ok valid directory listed
      have validChild := valid.append (.singleton (rooted.valid_entry entry))
      rw [← Path.descendant_concat] at met
      rcases met with ⟨inner, below⟩ | ⟨isFile, kept, found⟩
      · obtain ⟨more, node', some, valid', place, atNode, isFile, kept⟩ :=
          ih validChild (rooted.directory_entry entry inner) below
        refine ⟨name :: more, node', by simp, ?_, ?_, ?_, isFile, kept⟩
        · rwa [List.append_cons]
        · rwa [List.append_cons]
        · rwa [List.append_cons]
      · have atNode := rooted.sound.mem_entriesAt.mp entry
        cases found
        rw [List.append_assoc] at atNode
        exact ⟨[name], node, by simp, validChild, rfl, atNode, isFile, kept⟩

theorem proper_of_mem (rooted : Rooted root l fs) {depth : Nat} {item : Item} (member : item ∈ items fs depth root) :
    Proper root item := by
  rintro p rfl
  obtain ⟨more, _, some, valid, place, _⟩ := @found_of_mem _ _ _ rooted _ [] allNames_nil rooted.top _ member
  exact ⟨more, some, valid, place⟩

/-- Trees with the same nodes are walked alike, if the ways to them are the same. -/
theorem items_congr {fs' : FileSystem} (rooted : Rooted root l fs) (rooted' : Rooted root l fs')
    (grows : fs.Grows fs') (same : SameBelow l fs fs') {depth : Nat} {names : List Bytes} (valid : AllNames names)
    (directory : fs.isDirectoryAt (l ++ names) = true) :
    items fs' depth (root.descendant names) = items fs depth (root.descendant names) := by
  induction depth generalizing names with
  | zero => rfl
  | succ depth ih =>
    rw [items, items, rooted.list_congr rooted' grows same valid directory]
    cases listed : fs.list (root.descendant names) with
    | error fault => rfl
    | ok entries =>
      obtain rfl := rooted.list_ok valid directory listed
      refine List.flatMap_congr ?_
      rintro ⟨name, node⟩ member
      simp only
      split
      · rename_i inner
        rw [← Path.descendant_concat]
        exact ih (valid.append (.singleton (rooted.valid_entry member))) (rooted.directory_entry member inner)
      · rfl

/-- A walk folds over the files there were at its start, if the visits leave the tree alone. -/
theorem below_eq_foldlM (rooted : Rooted root l fs) (kept : World → Prop) {visit : α → Item → Task ε α}
    (same : ∀ w, kept w → Rooted root l w.files ∧ fs.Grows w.files ∧ SameBelow l fs w.files)
    (keeps : ∀ a item w b w', Proper root item → kept w → visit a item w = .ok b w' → kept w')
    {depth : Nat} {names : List Bytes} (valid : AllNames names) (directory : fs.isDirectoryAt (l ++ names) = true)
    {a : α} {w : World} (here : kept w) :
    below visit depth (root.descendant names) a w = (items fs depth (root.descendant names)).foldlM visit a w ∧
      ∀ b w', below visit depth (root.descendant names) a w = .ok b w' → kept w' := by
  induction depth generalizing names a w with
  | zero =>
    have single : (items fs 0 (root.descendant names)).foldlM visit a w =
        visit a (.error ⟨root.descendant names, .nameTooLong⟩) w := by
      simp only [items, List.foldlM_cons, List.foldlM_nil, bind_pure]
    refine ⟨single.symm, fun b w' ran => keeps a _ w b w' ?_ here ran⟩
    rintro p ⟨⟩
  | succ depth ih =>
    obtain ⟨rooted', grows, unchanged⟩ := same w here
    have start : below visit (depth + 1) (root.descendant names) a w =
        (match fs.list (root.descendant names) with
        | .error fault => visit a (.error ⟨root.descendant names, fault⟩)
        | .ok entries => entries.foldlM (fun soFar ((name, node) : Bytes × Node) => do
            if node.isDirectory then below visit depth ((root.descendant names).child name) soFar
            else if ClassFile.isSynthetic ((root.descendant names).child name) then return soFar
            else visit soFar (.ok ((root.descendant names).child name))) a) w := by
      rw [← rooted.list_congr rooted' grows unchanged valid directory]
      rfl
    rw [start, items]
    cases listed : fs.list (root.descendant names) with
    | error fault =>
      refine ⟨?_, fun b w' ran => keeps a _ w b w' ?_ here ran⟩
      · simp only [List.foldlM_cons, List.foldlM_nil, bind_pure]
      · rintro p ⟨⟩
    | ok entries =>
      obtain rfl := rooted.list_ok valid directory listed
      refine Task.foldlM_flatMap ?_ a w here
      rintro ⟨name, node⟩ member b w' there
      have validChild := valid.append (.singleton (rooted.valid_entry member))
      simp only [← Path.descendant_concat]
      by_cases inner : node.isDirectory = true
      · rw [if_pos inner, if_pos inner]
        exact ih validChild (rooted.directory_entry member inner) there
      · rw [if_neg inner, if_neg inner]
        by_cases synthetic : ClassFile.isSynthetic (root.descendant (names ++ [name])) = true
        · rw [if_pos synthetic, if_pos synthetic]
          refine ⟨rfl, fun c w'' ran => ?_⟩
          cases ran
          exact there
        · rw [if_neg synthetic, if_neg synthetic]
          refine ⟨by simp only [List.foldlM_cons, List.foldlM_nil, bind_pure], fun c w'' ran => ?_⟩
          refine keeps b _ w' c w'' ?_ there ran
          rintro p ⟨⟩
          exact ⟨_, by simp, validChild, rfl⟩

/-- A walk from a path that leads to a directory goes through it, whatever the way there is. A path that is
refused is met as a directory that could not be read. -/
theorem fold_of_leads {visit : α → Item → Task ε α} {init : α} {w : World} (leads : w.files.Leads root l) :
    fold visit root init w = below visit pathMax root init w := by
  unfold fold
  rw [Task.bind_of_ok _ (Task.files_run w)]
  have refused : ∀ {fault}, w.files.list root = .error fault →
      below visit pathMax root init w = visit init (.error ⟨root, fault⟩) w := by
    intro fault listed
    rw [pathMax, below, Task.bind_of_ok _ (Task.files_run w)]
    simp only [listed]
  cases spelled : root.fault? with
  | some fault => rw [refused (list_of_fault spelled), locateAdmitted_of_fault spelled]
  | none =>
    have shut : w.files.admits .use root ≠ true → w.files.list root = .error .permissionDenied := by
      intro denied
      rw [FileSystem.list, locateAdmitted, if_neg denied]
      rfl
    by_cases admitted : w.files.admits .inspect root = true
    · obtain ⟨m, found, kind⟩ := leads.find_taken .inspect (by simp) spelled
      simp only [locateAdmitted_ok.mpr ⟨admitted, locate_ok.mpr found⟩]
      rcases kind with directory | ⟨target, link⟩
      · obtain ⟨mode, atNode⟩ := isDirectoryAt_iff.mp directory
        simp only [atNode]
      · simp only [link]
        by_cases through : w.files.admits .use root = true
        · simp only [locateAdmitted_ok.mpr ⟨through, leads.locate spelled⟩, leads.directory, if_true]
        · rw [refused (shut through), locateAdmitted, if_neg through]
    · rw [refused (shut (mt admits_of_use admitted)), locateAdmitted, if_neg admitted]

/-- What is kept by whatever is done with a file below the root is kept by the walk, wherever it leads. -/
theorem ends_below {P : World → Prop} {E : ε → World → Prop} {visit : α → Item → Task ε α}
    (sound : ∀ w, P w → w.files.Sound)
    (each : ∀ a item w, Proper root item → P w → Task.Ends (visit a item) w (fun _ => P) E) (depth : Nat)
    {names : List Bytes} (valid : AllNames names) (a : α) {w : World} (here : P w) :
    Task.Ends (below visit depth (root.descendant names) a) w (fun _ => P) E := by
  induction depth generalizing names a w with
  | zero => exact each a _ w (by rintro p ⟨⟩) here
  | succ depth ih =>
    rw [below]
    refine Task.Ends.bind (Q := fun fs w' => fs = w'.files ∧ P w') ⟨rfl, here⟩ ?_
    rintro _ w₁ ⟨rfl, here₁⟩
    cases listed : w₁.files.list (root.descendant names) with
    | error fault => exact each a _ w₁ (by rintro p ⟨⟩) here₁
    | ok entries =>
      refine Task.Ends.foldlM (fun entry member b w₂ here₂ => ?_) here₁
      obtain ⟨name, node⟩ := entry
      have validChild := valid.append (.singleton ((sound w₁ here₁).isName_of_list listed member))
      simp only [← Path.descendant_concat]
      split
      · exact ih validChild b here₂
      · split
        · exact .pure here₂
        · refine each b _ w₂ ?_ here₂
          rintro p ⟨⟩
          exact ⟨_, by simp, validChild, rfl⟩

theorem ends_fold {P : World → Prop} {E : ε → World → Prop} {visit : α → Item → Task ε α}
    (sound : ∀ w, P w → w.files.Sound)
    (each : ∀ a item w, Proper root item → P w → Task.Ends (visit a item) w (fun _ => P) E) (init : α) {w : World}
    (here : P w) : Task.Ends (fold visit root init) w (fun _ => P) E := by
  refine Task.Ends.bind (Q := fun _ => P) here fun fs w₁ here₁ => ?_
  have walked : Task.Ends (below visit pathMax root init) w₁ (fun _ => P) E :=
    @ends_below _ _ root _ _ _ sound each pathMax [] allNames_nil init w₁ here₁
  have refused : ∀ fault, Task.Ends (visit init (.error ⟨root, fault⟩)) w₁ (fun _ => P) E :=
    fun fault => each init _ w₁ (by rintro p ⟨⟩) here₁
  split
  · exact refused _
  · split
    · exact walked
    · split
      · exact refused _
      · split
        · exact walked
        · exact .pure here₁
    · exact .pure here₁

/-- What a walk that only looks does with a file. -/
def collect (found : List Item) (item : Item) : Task ε (List Item) :=
  return found ++ [item]

/-- A walk that only looks tells what it met. -/
theorem foldlM_collect (items found : List Item) (w : World) :
    (items.foldlM collect found : Task ε _) w = .ok (found ++ items) w := by
  induction items generalizing found with
  | nil =>
    rw [List.append_nil]
    rfl
  | cons item rest ih =>
    have first : (collect found item : Task ε _) w = .ok (found ++ [item]) w := rfl
    rw [List.foldlM_cons, Task.bind_of_ok _ first, ih, List.append_assoc, List.singleton_append]

/-- A walk that only looks meets what is there. -/
theorem walk_eq_items {w : World} (rooted : Rooted root l w.files) :
    (walk root : Task ε _) w = .ok (items w.files pathMax root) w := by
  have keeps : ∀ (found : List Item) (item : Item) (v : World) (found' : List Item) (v' : World), Proper root item →
      v = w → collect (ε := ε) found item v = .ok found' v' → v' = w := by
    intro found item v found' v' _ same ran
    cases ran
    exact same
  rw [walk, fold_of_leads rooted.leads]
  exact (below_eq_foldlM rooted (· = w) (fun v same => by rw [same]; exact ⟨rooted, .refl _, fun _ => rfl⟩) keeps allNames_nil
    rooted.top rfl).1.trans (foldlM_collect _ [] w)

end Walk

end Unjar
