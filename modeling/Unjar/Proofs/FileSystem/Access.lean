import Unjar.FileSystem.Access
import Unjar.Proofs.FileSystem.Creation
import Unjar.Proofs.FileSystem.Enclosing

/-!
Who is let into the directories on the way of a path, and so may read what it leads to. That does not change while the
file system grows, and below a directory it is read off the modes of the directories on the way there.
-/

namespace Unjar.FileSystem

variable {fs fs' : FileSystem} {purpose : Purpose} {links : Nat} {l m : Location} {name : Bytes}
  {rest steps : List Step} {names : List Bytes} {base : Path}

/-- How it goes on behind a link. -/
def admitsBeyond (fs : FileSystem) (purpose : Purpose) : Nat → Location → List Step → Bool
  | 0 => fun _ _ => true
  | links + 1 => fs.admitsLinks purpose links

theorem admitsLinks_eq (fs : FileSystem) (purpose : Purpose) (links : Nat) :
    fs.admitsLinks purpose links = fs.admitsFrom purpose (fs.admitsBeyond purpose links) := by
  cases links <;> rfl

theorem admitsLinks_nil : fs.admitsLinks purpose links l [] = true := by
  rw [admitsLinks_eq, admitsFrom]

theorem admitsLinks_slashEnd :
    fs.admitsLinks purpose links l (.slashEnd :: rest) = fs.admitsLinks purpose links l rest := by
  rw [admitsLinks_eq, admitsFrom]

theorem admitsLinks_stay : fs.admitsLinks purpose links l (.stay :: rest) =
    (fs.permits searchBit l && fs.admitsLinks purpose links l rest) := by
  rw [admitsLinks_eq, admitsFrom]

theorem admitsLinks_ascend : fs.admitsLinks purpose links l (.ascend :: rest) =
    (fs.permits searchBit l && fs.admitsLinks purpose links l.dropLast rest) := by
  rw [admitsLinks_eq, admitsFrom]

/-- Whether it is let on from the node that a name stands for. -/
def admitsAt (fs : FileSystem) (purpose : Purpose) (links : Nat) (l : Location) (name : Bytes) (rest : List Step) :
    Option Node → Bool
  | some (.directory _) => fs.admitsLinks purpose links (l ++ [name]) rest
  | some (.link target) =>
    if followsLast purpose rest ∧ target.text ≠ [] then
      fs.admitsBeyond purpose links (if target.isAbsolute then [] else l) (target.steps ++ rest)
    else true
  | _ => true

theorem admitsLinks_descend (fits : name.length ≤ nameMax) : fs.admitsLinks purpose links l (.descend name :: rest) =
    (fs.permits searchBit l && fs.admitsAt purpose links l name rest (fs.node? (l ++ [name]))) := by
  rw [admitsLinks_eq, admitsFrom, if_neg (Nat.not_lt.mpr fits), ← admitsLinks_eq]
  rfl

theorem admitsAt_link {target : Path} (follows : followsLast purpose rest = true) (named : target.text ≠ []) :
    fs.admitsAt purpose links l name rest (some (.link target)) =
      fs.admitsBeyond purpose links (if target.isAbsolute then [] else l) (target.steps ++ rest) :=
  if_pos ⟨follows, named⟩

theorem Grows.permits (grows : fs.Grows fs') (bit : Nat) (there : (fs.node? l).isSome) :
    fs'.permits bit l = fs.permits bit l := by
  obtain ⟨node, atNode⟩ := Option.isSome_iff_exists.mp there
  rw [FileSystem.permits, FileSystem.permits, grows.kept atNode, atNode]

/-- A node that is found is found through the same directories while the file system grows. -/
theorem Finds.admits_grows (found : fs.Finds purpose (.taken m) links l steps) (sound : fs.Sound)
    (grows : fs.Grows fs') (here : fs.isDirectoryAt l = true) :
    fs'.admitsLinks purpose links l steps = fs.admitsLinks purpose links l steps := by
  induction found with
  | arrives same => rw [admitsLinks_nil, admitsLinks_nil]
  | stays stays _ ih =>
    rcases stays with rfl | rfl
    · rw [admitsLinks_stay, admitsLinks_stay, grows.permits _ (isSome_of_isDirectoryAt here), ih here]
    · rw [admitsLinks_slashEnd, admitsLinks_slashEnd, ih here]
  | ascends _ ih =>
    rw [admitsLinks_ascend, admitsLinks_ascend, grows.permits _ (isSome_of_isDirectoryAt here),
      ih (sound.directory_of_prefix here (List.dropLast_prefix _))]
  | enters tried there _ ih =>
    obtain ⟨mode, atNode⟩ := isDirectoryAt_iff.mp there
    rw [admitsLinks_descend tried.fits, admitsLinks_descend tried.fits, atNode, grows.kept atNode, admitsAt, admitsAt,
      grows.permits _ (isSome_of_isDirectoryAt here), ih there]
  | follows tried there follows named _ ih =>
    rw [admitsLinks_descend tried.fits, admitsLinks_descend tried.fits, there, grows.kept there,
      admitsAt_link follows named, admitsAt_link follows named, grows.permits _ (isSome_of_isDirectoryAt here),
      admitsBeyond, admitsBeyond, ih (sound.directory_of_target _ here)]
  | @stops _ _ _ _ node tried there stops _ =>
    rw [admitsLinks_descend tried.fits, admitsLinks_descend tried.fits, there, grows.kept there,
      grows.permits _ (isSome_of_isDirectoryAt here)]
    cases node with
    | directory mode => exact stops.elim
    | link target =>
      have unfollowed : ¬ (followsLast purpose _ = true ∧ target.text ≠ []) :=
        fun both => Bool.eq_false_iff.mp stops both.1
      rw [admitsAt, admitsAt, if_neg unfollowed, if_neg unfollowed]
    | file mode data | device device => rfl
  | vacant _ _ _ same | slashed _ _ same => cases same

theorem admits_eq (fs : FileSystem) (purpose : Purpose) (p : Path) :
    fs.admits purpose p = (p.fault?.isSome || fs.admitsLinks purpose linksMax (fs.start p) p.steps) := by
  unfold admits Path.fault?
  rw [← start]
  cases p.text.contains 0 with
  | true => rfl
  | false =>
    by_cases empty : p.text = []
    · simp [empty]
    · by_cases long : pathMax ≤ p.text.length <;> simp [empty, long]

theorem admits_of_fault {fault : Fault} (refused : base.fault? = some fault) : fs.admits purpose base = true := by
  rw [admits_eq, refused]
  rfl

theorem admits_of_spelled (spelled : base.fault? = none) :
    fs.admits purpose base = fs.admitsLinks purpose linksMax (fs.start base) base.steps := by
  rw [admits_eq, spelled]
  rfl

/-- Whether the directories are open that are passed on the way to where a path leads. -/
def wayAdmits (fs : FileSystem) (p : Path) : Bool :=
  fs.admitsLinks .use linksMax (fs.start p) p.way

theorem Leads.wayAdmits_grows (leads : fs.Leads base l) (sound : fs.Sound) (grows : fs.Grows fs') :
    fs'.wayAdmits base = fs.wayAdmits base := by
  rw [wayAdmits, wayAdmits, grows.keeps.start,
    (leads_iff.mp leads).1.admits_grows sound grows (sound.directory_start base)]

theorem Leads.admits_grows (leads : fs.Leads base l) (sound : fs.Sound) (grows : fs.Grows fs') :
    fs'.admits .use base = fs.admits .use base := by
  rw [admits_eq, admits_eq, grows.keeps.start, leads.finds.admits_grows sound grows (sound.directory_start base)]

/-- Behind a directory that is reached, as many are let on as from there. -/
theorem Finds.admits_append (found : fs.Finds .use (.taken m) links l steps) (directory : fs.isDirectoryAt m = true)
    (rest : List Step) : ∃ left, fs.admitsLinks .use links l (steps ++ rest) =
      (fs.admitsLinks .use links l steps && fs.admitsLinks .use left m rest) := by
  induction found with
  | arrives same =>
    cases same
    exact ⟨_, by rw [admitsLinks_nil, Bool.true_and, List.nil_append]⟩
  | stays stays _ ih =>
    obtain ⟨left, same⟩ := ih
    refine ⟨left, ?_⟩
    rcases stays with rfl | rfl
    · rw [List.cons_append, admitsLinks_stay, admitsLinks_stay, same, Bool.and_assoc]
    · rw [List.cons_append, admitsLinks_slashEnd, admitsLinks_slashEnd, same]
  | ascends _ ih =>
    obtain ⟨left, same⟩ := ih
    exact ⟨left, by rw [List.cons_append, admitsLinks_ascend, admitsLinks_ascend, same, Bool.and_assoc]⟩
  | enters tried there _ ih =>
    obtain ⟨left, same⟩ := ih
    obtain ⟨mode, atNode⟩ := isDirectoryAt_iff.mp there
    refine ⟨left, ?_⟩
    rw [List.cons_append, admitsLinks_descend tried.fits, admitsLinks_descend tried.fits, atNode, admitsAt, admitsAt,
      same, Bool.and_assoc]
  | follows tried there _ named _ ih =>
    obtain ⟨left, same⟩ := ih
    refine ⟨left, ?_⟩
    rw [List.append_assoc] at same
    rw [List.cons_append, admitsLinks_descend tried.fits, admitsLinks_descend tried.fits, there,
      admitsAt_link (followsLast_use _) named, admitsAt_link (followsLast_use _) named, admitsBeyond, same,
      Bool.and_assoc]
  | stops _ there stops same =>
    cases same
    rw [stops.not_directory there] at directory
    cases directory
  | vacant _ _ _ same | slashed _ _ same => cases same

/-- Slashes at the end of a path keep nobody out. -/
theorem Leads.admits_eq_way (leads : fs.Leads base l) (spelled : base.fault? = none) :
    fs.admits .use base = fs.wayAdmits base := by
  obtain ⟨slashed, same⟩ := base.steps_eq_way
  obtain ⟨left, cut⟩ := (leads_iff.mp leads).1.admits_append leads.directory (Path.slashStep slashed)
  rw [admits_of_spelled spelled, same, cut, wayAdmits]
  cases slashed with
  | false => exact (congrArg _ admitsLinks_nil).trans (Bool.and_true _)
  | true => exact (congrArg _ (admitsLinks_slashEnd.trans admitsLinks_nil)).trans (Bool.and_true _)

/-- The directories in which the names of a way down are looked for may be searched. -/
def SearchableAlong (fs : FileSystem) (l : Location) (names : List Bytes) : Prop :=
  ∀ front, front <+: names → front ≠ names → fs.permits searchBit (l ++ front) = true

theorem searchableAlong_nil : fs.SearchableAlong l [] :=
  fun _ isFront other => absurd (List.prefix_nil.mp isFront) other

theorem searchableAlong_cons : fs.SearchableAlong l (name :: names) ↔
    fs.permits searchBit l = true ∧ fs.SearchableAlong (l ++ [name]) names := by
  constructor
  · intro all
    refine ⟨?_, fun front isFront other => ?_⟩
    · have first := all [] List.nil_prefix (by simp)
      rwa [List.append_nil] at first
    · rw [← List.append_cons]
      exact all (name :: front) ((List.prefix_cons_inj name).mpr isFront) (by simpa using other)
  · rintro ⟨first, later⟩ front isFront other
    rcases List.prefix_cons_iff.mp isFront with rfl | ⟨front, rfl, isShorter⟩
    · rwa [List.append_nil]
    · rw [List.append_cons]
      exact later front isShorter fun same => other (by rw [same])

/-- Below a directory it is let on if each directory above the last node may be searched. A link would be followed. -/
theorem Sound.admits_names (sound : fs.Sound) (there : (fs.node? (l ++ names)).isSome)
    (unlinked : ∀ target, fs.node? (l ++ names) ≠ some (.link target)) :
    fs.admitsLinks .use links l (names.map .descend) = true ↔ fs.SearchableAlong l names := by
  induction names generalizing l with
  | nil =>
    rw [List.map_nil, admitsLinks_nil]
    exact iff_of_true rfl searchableAlong_nil
  | cons name rest ih =>
    rw [List.append_cons] at there unlinked
    have onward : name.length ≤ nameMax ∧ fs.admitsAt .use links l name (rest.map .descend) (fs.node? (l ++ [name])) =
        fs.admitsLinks .use links (l ++ [name]) (rest.map .descend) := by
      by_cases last : rest = []
      · subst last
        rw [List.append_nil] at there unlinked
        obtain ⟨node, atNode⟩ := Option.isSome_iff_exists.mp there
        refine ⟨(sound.names _ there).2 name (by simp), ?_⟩
        rw [atNode, List.map_nil, admitsLinks_nil]
        cases node with
        | directory mode => exact admitsLinks_nil
        | link target => exact absurd atNode (unlinked target)
        | file mode data | device kind => rfl
      · have directory := sound.above there last
        obtain ⟨mode, atNode⟩ := isDirectoryAt_iff.mp directory
        refine ⟨sound.fits_of_directory directory, ?_⟩
        rw [atNode]
        rfl
    rw [List.map_cons, admitsLinks_descend onward.1, onward.2, Bool.and_eq_true, ih there unlinked, searchableAlong_cons]

/-- Who is let into a directory and into those between that and a node below it may get at the node. -/
theorem Leads.admits_below (leads : fs.Leads base l) (sound : fs.Sound) (valid : AllNames names) (down : names ≠ [])
    (there : (fs.node? (l ++ names)).isSome) (unlinked : ∀ target, fs.node? (l ++ names) ≠ some (.link target))
    (spelled : (base.descendant names).fault? = none) :
    fs.admits .use (base.descendant names) = true ↔ fs.wayAdmits base = true ∧ fs.SearchableAlong l names := by
  obtain ⟨left, cut⟩ := (leads_iff.mp leads).1.admits_append leads.directory (names.map .descend)
  rw [admits_of_spelled spelled, start_descendant fs base valid, Path.steps_descendant base valid down, cut,
    Bool.and_eq_true, sound.admits_names there unlinked, wayAdmits]

/-- A directory below one that is reached lets in who is let into that one and into those between them. -/
theorem Leads.admits_descendant (leads : fs.Leads base l) (sound : fs.Sound) (valid : AllNames names)
    (directory : fs.isDirectoryAt (l ++ names) = true) (spelled : (base.descendant names).fault? = none)
    (spelledBase : base.fault? = none) :
    fs.admits .use (base.descendant names) = true ↔ fs.admits .use base = true ∧ fs.SearchableAlong l names := by
  by_cases down : names = []
  · subst down
    rw [Path.descendant_nil, iff_self_and]
    exact fun _ => searchableAlong_nil
  · obtain ⟨mode, there⟩ := isDirectoryAt_iff.mp directory
    rw [leads.admits_below sound valid down (by rw [there]; rfl) (by rw [there]; simp) spelled,
      leads.admits_eq_way spelledBase]

theorem admitsFrom_of_use {next next' : Location → List Step → Bool}
    (onward : ∀ l' steps', next l' steps' = true → next' l' steps' = true)
    (admitted : fs.admitsFrom .use next l steps = true) : fs.admitsFrom purpose next' l steps = true := by
  induction steps generalizing l with
  | nil => rw [admitsFrom]
  | cons step rest ih =>
    cases step with
    | slashEnd =>
      rw [admitsFrom] at admitted ⊢
      exact ih admitted
    | stay | ascend =>
      rw [admitsFrom, Bool.and_eq_true] at admitted ⊢
      exact admitted.imp_right ih
    | descend name =>
      rw [admitsFrom, Bool.and_eq_true] at admitted ⊢
      refine admitted.imp_right fun behind => ?_
      by_cases long : nameMax < name.length
      · rw [if_pos long]
      · rw [if_neg long] at behind ⊢
        generalize fs.node? (l ++ [name]) = there at behind ⊢
        rcases there with _ | ⟨_ | _ | target | _⟩
        · rfl
        · rfl
        · exact ih behind
        · by_cases followed : followsLast purpose rest = true ∧ target.text ≠ []
          · simp only [followed, ne_eq, not_false_eq_true, and_self, if_true, followsLast_use] at behind ⊢
            exact onward _ _ behind
          · simp only [if_neg followed]
        · rfl

/-- Who is let on to what a path stands for is let on to a link in its place. -/
theorem admitsLinks_of_use (admitted : fs.admitsLinks .use links l steps = true) :
    fs.admitsLinks purpose links l steps = true := by
  induction links generalizing l steps with
  | zero => exact admitsFrom_of_use (fun _ _ _ => rfl) admitted
  | succ links ih => exact admitsFrom_of_use (fun _ _ onward => ih onward) admitted

theorem admits_of_use (admitted : fs.admits .use base = true) : fs.admits purpose base = true := by
  rw [admits_eq, Bool.or_eq_true] at admitted ⊢
  exact admitted.imp_right admitsLinks_of_use

theorem locateAdmitted_ok : fs.locateAdmitted purpose base = .ok l ↔
    fs.admits purpose base = true ∧ fs.locate purpose base = .ok l := by
  unfold locateAdmitted
  split <;> simp_all

/-- What is done with a node that one is let on to goes well. -/
theorem locateAdmitted_bind_ok {α : Type} {next : Location → Except Fault α} {a : α} :
    (fs.locateAdmitted purpose base >>= next) = .ok a ↔
      ∃ l, fs.admits purpose base = true ∧ fs.locate purpose base = .ok l ∧ next l = .ok a := by
  constructor
  · intro done
    cases located : fs.locateAdmitted purpose base with
    | error fault => rw [located] at done; cases done
    | ok l =>
      rw [located] at done
      obtain ⟨admitted, found⟩ := locateAdmitted_ok.mp located
      exact ⟨l, admitted, found, done⟩
  · rintro ⟨l, admitted, found, done⟩
    rw [locateAdmitted_ok.mpr ⟨admitted, found⟩]
    exact done

theorem locateAdmitted_of_fault {fault : Fault} (refused : base.fault? = some fault) :
    fs.locateAdmitted purpose base = .error fault := by
  rw [locateAdmitted, if_pos (admits_of_fault refused), locate_of_fault refused]

/-- A directory is listed for one who is let into it and may read it. -/
theorem list_ok {entries : List (Bytes × Node)} : fs.list base = .ok entries ↔ ∃ l, fs.admits .use base = true ∧
    fs.locate .use base = .ok l ∧ fs.isDirectoryAt l = true ∧ fs.permits readBit l = true ∧
      fs.entriesAt l = entries := by
  unfold list
  rw [locateAdmitted_bind_ok]
  constructor
  · rintro ⟨l, admitted, found, listed⟩
    split at listed
    · cases listed
    split at listed
    · rename_i directory readable
      exact ⟨l, admitted, found, not_not.mp directory, readable, Except.ok.inj listed⟩
    · cases listed
  · rintro ⟨l, admitted, found, directory, readable, rfl⟩
    refine ⟨l, admitted, found, ?_⟩
    rw [if_neg (not_not.mpr directory), if_pos readable]
    rfl

theorem list_of_fault {fault : Fault} (refused : base.fault? = some fault) : fs.list base = .error fault := by
  rw [list, locateAdmitted_of_fault refused]
  rfl

/-- Whether what a path leads to may be read. -/
def mayRead (fs : FileSystem) (p : Path) (l : Location) : Bool :=
  fs.admits .use p && fs.permits readBit l

/-- A directory that a path leads to is listed, unless the path is refused or its modes forbid it. -/
theorem Leads.list (leads : fs.Leads base l) : fs.list base =
    base.checked (if fs.mayRead base l then .ok (fs.entriesAt l) else .error .permissionDenied) := by
  cases spelled : base.fault? with
  | some fault => rw [list_of_fault spelled, Path.checked_of_fault spelled]
  | none =>
    rw [Path.checked_of_sound spelled, FileSystem.list, locateAdmitted, leads.locate spelled, mayRead]
    cases fs.admits .use base with
    | false => rfl
    | true =>
      simp only [bind, Except.bind, if_true, leads.directory, not_true, if_false, Bool.true_and]
      rfl

theorem Leads.mayRead_grows (leads : fs.Leads base l) (sound : fs.Sound) (grows : fs.Grows fs') :
    fs'.mayRead base l = fs.mayRead base l := by
  rw [mayRead, mayRead, leads.admits_grows sound grows, grows.permits _ (isSome_of_isDirectoryAt leads.directory)]

/-- A node is opened for reading where a path leads to it and it may be read, unless it is the terminal. -/
theorem openToRead_ok : fs.openToRead base = .ok l ↔
    fs.locate .use base = .ok l ∧ fs.mayRead base l = true ∧ fs.node? l ≠ some (.device .terminal) := by
  unfold openToRead
  rw [locateAdmitted_bind_ok]
  constructor
  · rintro ⟨m, admitted, found, opened⟩
    split at opened
    · cases opened
    split at opened
    · rename_i other readable
      cases opened
      exact ⟨found, by rw [mayRead, admitted, readable]; rfl, other⟩
    · cases opened
  · rintro ⟨found, may, other⟩
    rw [mayRead, Bool.and_eq_true] at may
    refine ⟨l, may.1, found, ?_⟩
    rw [if_neg other, if_pos may.2]
    rfl

theorem Sound.openToRead_grows (sound : fs.Sound) (grows : fs.Grows fs') (opened : fs.openToRead base = .ok l) :
    fs'.openToRead base = .ok l := by
  obtain ⟨located, may, other⟩ := openToRead_ok.mp opened
  obtain ⟨node, atNode⟩ := Option.isSome_iff_exists.mp (sound.isSome_of_locate located)
  obtain ⟨_, found⟩ := find_ok.mp (locate_ok.mp located)
  have kept := (grows.kept atNode).trans atNode.symm
  refine openToRead_ok.mpr ⟨grows.keeps.locate located kept, ?_, kept ▸ other⟩
  rw [mayRead, admits_eq] at may ⊢
  rwa [grows.keeps.start, found.admits_grows sound grows (sound.directory_start base),
    grows.permits _ (by rw [atNode]; rfl)]

/-- A file below a directory is opened where the same lies below it, if one is let in there as well. -/
theorem Leads.openToRead_congr (leads : fs.Leads base l) (sound : fs.Sound) (free : fs.LinkFree l)
    (leads' : fs'.Leads base l) (sound' : fs'.Sound) (same : SameBelow l fs fs')
    (way : fs'.wayAdmits base = fs.wayAdmits base) (valid : AllNames names) (down : names ≠ [])
    (opened : fs.openToRead (base.descendant names) = .ok m) : fs'.openToRead (base.descendant names) = .ok m := by
  obtain ⟨located, may, other⟩ := openToRead_ok.mp opened
  obtain ⟨rfl, there, spelled⟩ := leads.locate_ok free valid down located
  have free' : fs'.LinkFree l := fun more target => by rw [same more]; exact free more target
  have there' : (fs'.node? (l ++ names)).isSome := by rwa [same names]
  have permits : ∀ bit more, fs'.permits bit (l ++ more) = fs.permits bit (l ++ more) := fun bit more => by
    rw [FileSystem.permits, FileSystem.permits, same more]
  rw [mayRead, Bool.and_eq_true, leads.admits_below sound valid down there (free names) spelled] at may
  refine openToRead_ok.mpr ⟨leads'.locate_of_node sound' free' valid down spelled there' .use, ?_, by rwa [same names]⟩
  rw [mayRead, Bool.and_eq_true, leads'.admits_below sound' valid down there' (free' names) spelled, way, permits]
  exact ⟨⟨may.1.1, fun front isFront other => (permits _ front).trans (may.1.2 front isFront other)⟩, may.2⟩

end Unjar.FileSystem
