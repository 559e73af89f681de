import Unjar.Proofs.FileSystem.Making

/-!
Making directories below a directory that is reached. The attempts on a path and on those above it
come to the same as one walk from the top that makes each directory that is missing.
-/

namespace Unjar

namespace Path

theorem text_child (base : Path) {name : Bytes} (valid : IsName name) :
    ∃ gap, (base.child name).text = base.text ++ gap ∧ name.length ≤ gap.length := by
  simp only [child, join, isAbsolute_of_name valid, Bool.false_eq_true, if_false]
  split
  · exact ⟨name, rfl, le_rfl⟩
  · exact ⟨slash :: name, rfl, by simp⟩

theorem length_le_text (base : Path) {names : List Bytes} (valid : AllNames names) :
    names.length ≤ (base.descendant names).text.length := by
  induction names using List.reverseRecOn with
  | nil => exact Nat.zero_le _
  | append_singleton names name ih =>
    have last := valid name (by simp)
    obtain ⟨gap, text, long⟩ := text_child (base.descendant names) last
    have nonempty := List.length_pos_iff.mpr last.1
    have shorter := ih valid.left
    rw [descendant_concat, text, List.length_append, List.length_append, List.length_singleton]
    omega

/-- A path that is not refused has no parent that is. -/
theorem fault?_parent (base : Path) {names : List Bytes} {name : Bytes} (valid : AllNames (names ++ [name]))
    (down : names ≠ []) (sound : (base.descendant (names ++ [name])).fault? = none) :
    (base.descendant names).fault? = none := by
  obtain ⟨gap, text, _⟩ := text_child (base.descendant names) (valid name (by simp))
  rw [descendant_concat, fault?, text] at sound
  rw [fault?]
  split at sound
  · cases sound
  · rename_i noNul
    rw [List.contains_iff_mem, List.mem_append, not_or] at noNul
    rw [if_neg (by rw [List.contains_iff_mem]; exact noNul.1), if_neg (text_ne_nil_descendant base valid.left down)]
    split at sound
    · cases sound
    · split at sound
      · cases sound
      · rename_i short
        rw [List.length_append] at short
        rw [if_neg (by omega)]

end Path

namespace FileSystem

variable {fs fs' : FileSystem}

/-- The walk along names from a directory that makes each directory that is missing. -/
def ensure (fs : FileSystem) : Location → List Bytes → Except Fault Unit × FileSystem
  | _, [] => (.ok (), fs)
  | l, name :: rest =>
    if nameMax < name.length then (.error .nameTooLong, fs)
    else match fs.node? (l ++ [name]) with
      | none => ensure (fs.put (l ++ [name]) (.directory (fs.modeBelow l))) (l ++ [name]) rest
      | some (.directory _) => ensure fs (l ++ [name]) rest
      | some _ => (.error (if rest = [] then .alreadyExists else .notADirectory), fs)

/-- The locations that names pass below a directory. -/
def Passed (l : Location) (names : List Bytes) (m : Location) : Prop :=
  ∃ front, front ≠ [] ∧ front <+: names ∧ m = l ++ front

theorem Passed.cons {l m : Location} {name : Bytes} {rest : List Bytes} (passed : Passed (l ++ [name]) rest m) :
    Passed l (name :: rest) m := by
  obtain ⟨front, _, isFront, rfl⟩ := passed
  exact ⟨name :: front, by simp, (List.prefix_cons_inj name).mpr isFront, by simp⟩

theorem passed_first (l : Location) (name : Bytes) (rest : List Bytes) : Passed l (name :: rest) (l ++ [name]) :=
  ⟨[name], by simp, (List.prefix_cons_inj name).mpr List.nil_prefix, rfl⟩

theorem Sound.ensure (sound : fs.Sound) {l : Location} {names : List Bytes} (here : fs.isDirectoryAt l = true)
    (valid : AllNames names) :
    (fs.ensure l names).2.Sound ∧ fs.AddsDirectories (fs.ensure l names).2 (Passed l names) := by
  induction names generalizing fs l with
  | nil => exact ⟨sound, .refl fs⟩
  | cons name rest ih =>
    have later : AllNames rest := valid.tail
    rw [FileSystem.ensure]
    split
    · exact ⟨sound, .refl fs⟩
    · rename_i fits
      cases atNode : fs.node? (l ++ [name]) with
      | none =>
        have vacancy : fs.Vacancy l name := ⟨here, valid name List.mem_cons_self, Nat.not_lt.mp fits, atNode⟩
        have made : fs.AddsDirectories (fs.put (l ++ [name]) (.directory (fs.modeBelow l))) (Passed l (name :: rest)) :=
          .put atNode (passed_first l name rest) (fs.modeBelow l)
        obtain ⟨soundRest, adds⟩ := ih (sound.put_new vacancy (.directory (fs.modeBelow l)))
          (by rw [isDirectoryAt_put, if_pos rfl]; rfl) later
        exact ⟨soundRest, made.trans (adds.weaken fun m passed => passed.cons)⟩
      | some node =>
        cases node with
        | directory mode =>
          obtain ⟨soundRest, adds⟩ := ih sound (isDirectoryAt_iff.mpr ⟨mode, atNode⟩) later
          exact ⟨soundRest, adds.weaken fun m passed => passed.cons⟩
        | link target | file mode data | device => exact ⟨sound, .refl fs⟩

theorem LinkFree.of_adds {l : Location} {fresh : Location → Prop} (free : fs.LinkFree l)
    (adds : fs.AddsDirectories fs' fresh) : fs'.LinkFree l :=
  fun names target there => free names target (adds.other there rfl)

theorem ensure_ok (sound : fs.Sound) {l : Location} {names : List Bytes} (here : fs.isDirectoryAt l = true)
    (valid : AllNames names) (done : fs.ensure l names = (.ok (), fs')) :
    fs'.isDirectoryAt (l ++ names) = true := by
  induction names generalizing fs l with
  | nil =>
    cases done
    rwa [List.append_nil]
  | cons name rest ih =>
    have later : AllNames rest := valid.tail
    rw [List.append_cons]
    rw [ensure] at done
    split at done
    · cases done
    · rename_i fits
      cases atNode : fs.node? (l ++ [name]) with
      | none =>
        have vacancy : fs.Vacancy l name := ⟨here, valid name List.mem_cons_self, Nat.not_lt.mp fits, atNode⟩
        simp only [atNode] at done
        exact ih (sound.put_new vacancy _) (by rw [isDirectoryAt_put, if_pos rfl]; rfl) later done
      | some node =>
        simp only [atNode] at done
        cases node with
        | directory mode => exact ih sound (isDirectoryAt_iff.mpr ⟨mode, atNode⟩) later done
        | link target | file mode data | device => cases done

/-- Where nothing lies below, only a name that is too long ends the walk. -/
theorem ensure_fresh {l : Location} {names : List Bytes} {fault : Fault}
    (empty : ∀ more, more ≠ [] → fs.node? (l ++ more) = none) (failed : fs.ensure l names = (.error fault, fs')) :
    fault = .nameTooLong := by
  induction names generalizing fs l with
  | nil => cases failed
  | cons name rest ih =>
    rw [ensure] at failed
    split at failed
    · cases failed; rfl
    · simp only [empty [name] (by simp)] at failed
      refine ih ?_ failed
      intro more some
      have differs : l ++ [name] ++ more ≠ l ++ [name] := by simpa using some
      rw [node?_put, if_neg differs, List.append_assoc]
      exact empty _ (by simp)

/-- What a look-up tells about the walk that makes what is missing. -/
inductive Prospect (fs : FileSystem) (l : Location) (names : List Bytes) : Prop
  | there : fs.seek l names = .ok (.taken (l ++ names)) → fs.isDirectoryAt (l ++ names) = true →
      fs.ensure l names = (.ok (), fs) → Prospect fs l names
  | inTheWay : fs.seek l names = .ok (.taken (l ++ names)) → fs.isDirectoryAt (l ++ names) = false →
      fs.ensure l names = (.error .alreadyExists, fs) → Prospect fs l names
  | refused (fault : Fault) : fs.seek l names = .error fault → fault ≠ .notFound → fault ≠ .alreadyExists →
      fs.ensure l names = (.error fault, fs) → Prospect fs l names
  | missing : (∃ parent name, fs.seek l names = .ok (.free parent name false)) ∨ fs.seek l names = .error .notFound →
      (∀ fault fs', fs.ensure l names = (.error fault, fs') → fault ≠ .alreadyExists) → Prospect fs l names

theorem Sound.prospect (sound : fs.Sound) {l : Location} (names : List Bytes) (here : fs.isDirectoryAt l = true) :
    Prospect fs l names := by
  induction names generalizing l with
  | nil => exact .there (by rw [seek, List.append_nil]) (by rwa [List.append_nil]) rfl
  | cons name rest ih =>
    by_cases long : nameMax < name.length
    · exact .refused .nameTooLong (by rw [seek, if_pos long]) (by simp) (by simp)
        (by rw [FileSystem.ensure, if_pos long])
    · cases atNode : fs.node? (l ++ [name]) with
      | none =>
        refine .missing ?_ ?_
        · rw [seek, if_neg long]
          simp only [atNode]
          by_cases last : rest = []
          · exact Or.inl ⟨l, name, if_pos last⟩
          · exact Or.inr (if_neg last)
        · intro fault fs' failed
          rw [FileSystem.ensure, if_neg long] at failed
          simp only [atNode] at failed
          have notDirectory : fs.isDirectoryAt (l ++ [name]) = false := by rw [isDirectoryAt, atNode]; rfl
          have tooLong := ensure_fresh (fun more some => ?_) failed
          · rw [tooLong]; simp
          · rw [node?_put, if_neg (by simpa using some)]
            exact sound.below_none notDirectory some
      | some node =>
        have walk : ∀ mode, node = .directory mode →
            fs.seek l (name :: rest) = fs.seek (l ++ [name]) rest ∧
            fs.ensure l (name :: rest) = fs.ensure (l ++ [name]) rest := by
          rintro mode rfl
          rw [seek, FileSystem.ensure, if_neg long, if_neg long]
          simp only [atNode, and_self]
        cases node with
        | directory mode =>
          obtain ⟨seeks, ensures⟩ := walk mode rfl
          have split := List.append_cons l name rest
          cases ih (isDirectoryAt_iff.mpr ⟨mode, atNode⟩) with
          | there found directory done =>
            exact .there (by rw [seeks, split, found]) (by rwa [split]) (by rw [ensures, done])
          | inTheWay found other failed =>
            exact .inTheWay (by rw [seeks, split, found]) (by rwa [split]) (by rw [ensures, failed])
          | refused fault found notMissing notThere failed =>
            exact .refused fault (by rw [seeks, found]) notMissing notThere (by rw [ensures, failed])
          | missing found failed => exact .missing (by rwa [seeks]) (by rwa [ensures])
        | link target | file mode data | device =>
          by_cases last : rest = []
          · subst last
            refine .inTheWay ?_ (by rw [isDirectoryAt, atNode]; rfl) ?_
            · rw [seek, if_neg long]; simp only [atNode, if_true]
            · rw [FileSystem.ensure, if_neg long]; simp only [atNode, if_true]
          · refine .refused .notADirectory ?_ (by simp) (by simp) ?_
            · rw [seek, if_neg long]; simp only [atNode, last, if_false]
            · rw [FileSystem.ensure, if_neg long]; simp only [atNode, last, if_false]

theorem ensure_append (fs : FileSystem) (l : Location) (names : List Bytes) (name : Bytes) :
    fs.ensure l (names ++ [name]) = match fs.ensure l names with
      | (.ok (), prepared) => prepared.ensure (l ++ names) [name]
      | (.error fault, partly) => (.error (if fault = .alreadyExists then .notADirectory else fault), partly) := by
  induction names generalizing fs l with
  | nil => rw [List.nil_append, List.append_nil]; rfl
  | cons first rest ih =>
    rw [List.cons_append, ensure, ensure.eq_def fs l (first :: rest)]
    simp only
    split
    · simp
    · cases atNode : fs.node? (l ++ [first]) with
      | none => simp only [ih, List.append_cons l first rest]
      | some node =>
        cases node with
        | directory mode => simp only [ih, List.append_cons l first rest]
        | link target | file mode data | device => by_cases last : rest = [] <;> simp [last]

theorem seek_append {l m : Location} {names : List Bytes} (found : fs.seek l names = .ok (.taken m))
    (directory : fs.isDirectoryAt m = true) (more : List Bytes) : fs.seek l (names ++ more) = fs.seek m more := by
  induction names generalizing l with
  | nil => cases found; rfl
  | cons name rest ih =>
    rw [seek] at found
    rw [List.cons_append, seek]
    split at found
    · cases found
    · rename_i fits
      rw [if_neg fits]
      cases atNode : fs.node? (l ++ [name]) with
      | none => simp only [atNode] at found; split at found <;> cases found
      | some node =>
        simp only [atNode] at found
        cases node with
        | directory mode => exact ih found
        | link target | file mode data | device =>
          simp only at found
          split at found
          · cases found
            rw [isDirectoryAt, atNode] at directory
            cases directory
          · cases found

/-- Behind what is no directory there is nothing to be found. -/
theorem seek_append_failed {l : Location} {names : List Bytes} (more : List Bytes) (some : more ≠ []) :
    (fs.seek l names = .ok (.taken (l ++ names)) → fs.isDirectoryAt (l ++ names) = false → names ≠ [] →
      fs.seek l (names ++ more) = .error .notADirectory) ∧
    (∀ fault, fs.seek l names = .error fault → fs.seek l (names ++ more) = .error fault) ∧
    (∀ parent name, fs.seek l names = .ok (.free parent name false) →
      fs.seek l (names ++ more) = .error .notFound) := by
  induction names generalizing l with
  | nil => simp [seek]
  | cons name rest ih =>
    rw [List.cons_append, seek, seek]
    split
    · simp
    · have notLast : rest ++ more ≠ [] := by simp [some]
      cases atNode : fs.node? (l ++ [name]) with
      | none => simp only [notLast, if_false]; split <;> simp
      | some node =>
        cases node with
        | directory mode =>
          obtain ⟨other, failed, free⟩ := ih (l := l ++ [name])
          refine ⟨?_, failed, free⟩
          intro found notDirectory _
          by_cases last : rest = []
          · subst last
            rw [isDirectoryAt, atNode] at notDirectory
            cases notDirectory
          · rw [List.append_cons l name rest] at found notDirectory
            exact other found notDirectory last
        | link target | file mode data | device => simp only [notLast, if_false]; split <;> simp

theorem isDirectory_eq (fs : FileSystem) (p : Path) :
    fs.isDirectory p = match fs.find .use p with
      | .ok (.taken l) => fs.isDirectoryAt l
      | _ => false := by
  unfold FileSystem.isDirectory stat? FileSystem.locate
  cases fs.find .use p with
  | error fault => rfl
  | ok spot => cases spot <;> rfl

section Below

variable {base : Path} {l : Location} {names : List Bytes} {name : Bytes}

/-- The last directory, when the one it lies in is there. That something above it is missing is never found. -/
theorem makeLast_descendant (leads : fs.Leads base l) (free : fs.LinkFree l)
    (valid : AllNames (names ++ [name])) (spelled : (base.descendant (names ++ [name])).fault? = none)
    (found : fs.seek l names = .ok (.taken (l ++ names))) (directory : fs.isDirectoryAt (l ++ names) = true) :
    fs.makeLast (base.descendant (names ++ [name])) = fs.ensure (l ++ names) [name] ∧
      fs.makeDirectory (base.descendant (names ++ [name])) ≠ .error .notFound := by
  have seek_last : ∀ purpose, fs.find purpose (base.descendant (names ++ [name])) = fs.seek (l ++ names) [name] := by
    intro purpose
    rw [leads.find free valid (by simp), Path.checked_of_sound spelled, seek_append found directory]
  have refused : ∀ {fault}, fs.seek (l ++ names) [name] = .error fault →
      fs.makeDirectory (base.descendant (names ++ [name])) = .error fault ∧
        fs.isDirectory (base.descendant (names ++ [name])) = false := by
    intro fault sought
    rw [makeDirectory, makeNode, isDirectory_eq, seek_last, seek_last, sought]
    exact ⟨rfl, rfl⟩
  have made : ∀ {parent last slashed}, fs.seek (l ++ names) [name] = .ok (.free parent last slashed) →
      fs.makeDirectory (base.descendant (names ++ [name])) =
        .ok (fs.put (parent ++ [last]) (.directory (fs.modeBelow parent))) := by
    intro parent last slashed sought
    rw [makeDirectory, makeNode, seek_last, sought]
    rfl
  have taken : ∀ {m}, fs.seek (l ++ names) [name] = .ok (.taken m) →
      fs.makeDirectory (base.descendant (names ++ [name])) = .error .alreadyExists ∧
        fs.isDirectory (base.descendant (names ++ [name])) = fs.isDirectoryAt m := by
    intro m sought
    rw [makeDirectory, makeNode, isDirectory_eq, seek_last, seek_last, sought]
    exact ⟨rfl, rfl⟩
  rw [makeLast, ensure]
  by_cases long : nameMax < name.length
  · obtain ⟨failed, other⟩ := refused (by rw [seek, if_pos long])
    rw [failed, other, if_pos long]
    exact ⟨rfl, by simp⟩
  · rw [if_neg long]
    cases atNode : fs.node? (l ++ names ++ [name]) with
    | none =>
      rw [made (by rw [seek, if_neg long]; simp only [atNode, if_true]; rfl)]
      exact ⟨rfl, by simp⟩
    | some node =>
      obtain ⟨failed, same⟩ := taken (m := l ++ names ++ [name]) (by
        rw [seek, if_neg long]
        simp only [atNode]
        cases node <;> rfl)
      rw [failed, same]
      simp only [isDirectoryAt, atNode]
      cases node <;> exact ⟨rfl, by simp⟩

theorem named_descendant (valid : AllNames names) (down : names ≠ []) : (base.descendant names).components ≠ [] := by
  rw [Path.components_descendant base valid]
  simp [down]

/-- Where the directory that it lies in is there, those above the last directory do not matter. -/
theorem makeLineage_last (leads : fs.Leads base l) (free : fs.LinkFree l)
    (valid : AllNames (names ++ [name])) (spelled : (base.descendant (names ++ [name])).fault? = none)
    (found : fs.seek l names = .ok (.taken (l ++ names))) (directory : fs.isDirectoryAt (l ++ names) = true)
    (ancestors : List Path) :
    makeLineage (base.descendant (names ++ [name]) :: ancestors) fs = fs.ensure (l ++ names) [name] := by
  obtain ⟨made, tried⟩ := makeLast_descendant leads free valid spelled found directory
  rw [makeLineage_tried (named_descendant valid (by simp)) tried, made]

/-- A path that stops before its last name cannot be made, and is no directory. -/
theorem makeDirectory_failed (leads : fs.Leads base l) (free : fs.LinkFree l) (valid : AllNames names)
    (down : names ≠ []) {fault : Fault}
    (found : (base.descendant names).checked (fs.seek l names) = .error fault) :
    fs.makeDirectory (base.descendant names) = .error fault ∧ fs.isDirectory (base.descendant names) = false := by
  have failed := fun purpose => (leads.find free valid down purpose).trans found
  exact ⟨by rw [makeDirectory, makeNode, failed]; rfl, by rw [isDirectory_eq, failed]⟩

theorem makeLineage_failed (leads : fs.Leads base l) (free : fs.LinkFree l) (valid : AllNames names)
    (down : names ≠ []) {fault : Fault} (ancestors : List Path)
    (found : (base.descendant names).checked (fs.seek l names) = .error fault) (notMissing : fault ≠ .notFound) :
    makeLineage (base.descendant names :: ancestors) fs = (.error fault, fs) := by
  obtain ⟨failed, noDirectory⟩ := makeDirectory_failed leads free valid down found
  rw [makeLineage_tried (named_descendant valid down) (by rw [failed]; simpa using notMissing),
    makeLast_of_error failed]
  simp [noDirectory]

theorem makeLineage_descendant (sound : fs.Sound) (leads : fs.Leads base l) (free : fs.LinkFree l)
    (valid : AllNames names) (down : names ≠ []) (spelled : (base.descendant names).fault? = none) {fuel : Nat}
    (enough : names.length ≤ fuel) :
    makeLineage (parentsFrom fuel (base.descendant names)) fs = fs.ensure l names := by
  induction names using List.reverseRecOn generalizing fuel with
  | nil => exact absurd rfl down
  | append_singleton names name ih =>
    rw [List.length_append, List.length_singleton] at enough
    obtain ⟨fuel, rfl⟩ : ∃ fuel', fuel = fuel' + 1 := ⟨fuel - 1, by omega⟩
    by_cases first : names = []
    · subst first
      obtain ⟨ancestors, split⟩ := parentsFrom_eq_cons (fuel + 1) (base.descendant ([] ++ [name]))
      have found : fs.seek l [] = .ok (.taken (l ++ [])) := by rw [seek, List.append_nil]
      have last := makeLineage_last leads free valid spelled found
        (by rw [List.append_nil]; exact leads.directory) ancestors
      rw [split, last, List.append_nil, List.nil_append]
    · have above := ih valid.left first (Path.fault?_parent base valid first spelled) (by omega : names.length ≤ fuel)
      rw [parentsFrom, Path.parent_descendant base valid first, ensure_append]
      simp only
      have failed := @seek_append_failed fs l names [name] (by simp)
      have checked := Path.checked_of_sound spelled (fs.seek l (names ++ [name]))
      cases sound.prospect names leads.directory with
      | there found directory done =>
        rw [makeLineage_last leads free valid spelled found directory, done]
      | inTheWay found other done =>
        have blocked := checked.trans (failed.1 found other first)
        rw [makeLineage_failed leads free valid (by simp) _ blocked (by simp), done]
        rfl
      | refused fault found notMissing notThere done =>
        have refused := checked.trans (failed.2.1 fault found)
        rw [makeLineage_failed leads free valid (by simp) _ refused notMissing, done]
        simp [notThere]
      | missing found notThere =>
        have missing : fs.seek l (names ++ [name]) = .error .notFound := by
          rcases found with ⟨parent, other, found⟩ | found
          · exact failed.2.2 parent other found
          · exact failed.2.1 _ found
        have absent := (makeDirectory_failed leads free valid (by simp) (checked.trans missing)).1
        rw [makeLineage_missing (named_descendant valid (by simp)) absent, above]
        obtain ⟨soundPartly, adds⟩ := sound.ensure leads.directory valid.left
        rcases prior : fs.ensure l names with ⟨result, partly⟩
        rw [prior] at soundPartly adds
        cases result with
        | error fault => simp [notThere fault partly prior]
        | ok _ =>
          have directory := ensure_ok sound leads.directory valid.left prior
          exact (makeLast_descendant (leads.mono adds.keeps) (free.of_adds adds) valid spelled
            (soundPartly.seek_directory directory) directory).1

/-- Making a directory below one that is reached is the walk along its names. -/
theorem makeDirectories_descendant (sound : fs.Sound) (leads : fs.Leads base l) (free : fs.LinkFree l)
    (valid : AllNames names) (down : names ≠ []) :
    fs.makeDirectories (base.descendant names) = match (base.descendant names).fault? with
      | some fault => (.error fault, fs)
      | none => fs.ensure l names := by
  unfold makeDirectories
  cases spelled : (base.descendant names).fault? with
  | none => exact makeLineage_descendant sound leads free valid down spelled (Path.length_le_text base valid)
  | some fault =>
    obtain ⟨ancestors, split⟩ := parentsFrom_eq_cons (base.descendant names).text.length (base.descendant names)
    rw [lineage, split]
    refine makeLineage_failed leads free valid down ancestors (Path.checked_of_fault spelled _) ?_
    rintro rfl
    exact Path.fault?_ne_notFound (Path.text_ne_nil_descendant base valid down) spelled

end Below

end FileSystem

end Unjar
