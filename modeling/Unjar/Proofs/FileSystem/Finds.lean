import Unjar.Proofs.Path.Cleaned

/-!
What a look-up finds, told step by step. The look-up succeeds exactly when there is such a walk, so that
what is found can be taken apart by its cases, the links on the way among them.
-/

namespace Unjar

/-- Why a path is refused by its spelling alone. -/
def Path.fault? (p : Path) : Option Fault :=
  if p.text.contains 0 then some .nulInName
  else if p.text = [] then some .notFound
  else if pathMax ≤ p.text.length then some .nameTooLong
  else none

/-- A path is not refused as missing, unless it is spelled as nothing at all. -/
theorem Path.fault?_ne_notFound {p : Path} (spelled : p.text ≠ []) : p.fault? ≠ some .notFound := by
  unfold Path.fault?
  rw [if_neg spelled]
  split
  · simp
  · split <;> simp

/-- What is found under a path, if the spelling is not refused. -/
def Path.checked {α : Type} (p : Path) (found : Except Fault α) : Except Fault α :=
  match p.fault? with
  | some fault => .error fault
  | none => found

theorem Path.checked_of_sound {α : Type} {p : Path} (sound : p.fault? = none) (found : Except Fault α) :
    p.checked found = found := by
  rw [checked, sound]

theorem Path.checked_of_fault {α : Type} {p : Path} {fault : Fault} (refused : p.fault? = some fault)
    (found : Except Fault α) : p.checked found = .error fault := by
  rw [checked, refused]

namespace FileSystem

variable {fs : FileSystem} {purpose : Purpose} {spot : Spot} {links : Nat} {l : Location} {name : Bytes}
  {step : Step} {rest steps : List Step}

theorem checked_ok {p : Path} {α : Type} {found : Except Fault α} {value : α} :
    p.checked found = .ok value ↔ p.fault? = none ∧ found = .ok value := by
  unfold Path.checked
  cases p.fault? <;> simp

theorem isDirectoryAt_iff : fs.isDirectoryAt l = true ↔ ∃ mode, fs.node? l = some (.directory mode) := by
  unfold isDirectoryAt
  cases fs.node? l with
  | none => simp
  | some node => cases node <;> simp [Node.isDirectory]

theorem isSome_of_isDirectoryAt (directory : fs.isDirectoryAt l = true) : (fs.node? l).isSome := by
  obtain ⟨mode, there⟩ := isDirectoryAt_iff.mp directory
  rw [there]
  rfl

def start (fs : FileSystem) (p : Path) : Location :=
  if p.isAbsolute then [] else fs.here

theorem find_eq (fs : FileSystem) (purpose : Purpose) (p : Path) :
    fs.find purpose p = p.checked (fs.followLinks purpose linksMax (fs.start p) p.steps) := by
  unfold find Path.checked Path.fault?
  split
  · rfl
  · split
    · rfl
    · split <;> rfl

/-- What is done with the node that a name stands for, and the steps behind it. -/
def meet (fs : FileSystem) (purpose : Purpose) (next : Location → List Step → Except Fault Spot)
    (l : Location) (name : Bytes) (rest : List Step) : Option Node → Except Fault Spot
  | none =>
    if rest = [] then .ok (.free l name false)
    else if rest = [.slashEnd] then .ok (.free l name true)
    else .error .notFound
  | some (.directory _) => fs.follow purpose next (l ++ [name]) rest
  | some (.link target) =>
    if followsLast purpose rest then
      if target.text = [] then .error .notFound
      else next (if target.isAbsolute then [] else l) (target.steps ++ rest)
    else .ok (.taken (l ++ [name]))
  | some _ =>
    if rest = [] ∨ (purpose = .makeDirectory ∧ rest = [.slashEnd]) then .ok (.taken (l ++ [name]))
    else .error .notADirectory

theorem follow_descend (fs : FileSystem) (purpose : Purpose) (next : Location → List Step → Except Fault Spot)
    (l : Location) (name : Bytes) (rest : List Step) :
    fs.follow purpose next l (.descend name :: rest) =
      if purpose = .openFile ∧ rest = [.slashEnd] then .ok (.free l name true)
      else if nameMax < name.length then .error .nameTooLong
      else fs.meet purpose next l name rest (fs.node? (l ++ [name])) := by
  rw [follow.eq_def]
  simp only
  split
  · rfl
  · split
    · rfl
    · cases fs.node? (l ++ [name]) with
      | none =>
        simp only [meet]
        cases rest with
        | nil => rfl
        | cons step more =>
          cases more with
          | nil => cases step <;> rfl
          | cons => simp
      | some node => cases node <;> rfl

/-- A name that is looked up: it fits, and no file is to be opened under it that has a slash behind its name. -/
structure Tried (purpose : Purpose) (name : Bytes) (rest : List Step) : Prop where
  unslashed : ¬ (purpose = .openFile ∧ rest = [.slashEnd])
  fits : name.length ≤ nameMax

/-- A walk stops at a node, with such steps behind its name. -/
def StopsAt (purpose : Purpose) (rest : List Step) : Node → Prop
  | .directory _ => False
  | .link _ => followsLast purpose rest = false
  | .file _ _ | .device _ => rest = [] ∨ (purpose = .makeDirectory ∧ rest = [.slashEnd])

/-- A walk from a location along some steps, with so many links left to follow, ends at a spot. -/
inductive Finds (fs : FileSystem) (purpose : Purpose) (spot : Spot) : Nat → Location → List Step → Prop
  | arrives {links : Nat} {l : Location} : spot = .taken l → Finds fs purpose spot links l []
  | stays {links : Nat} {l : Location} {step : Step} {rest : List Step} : step = .stay ∨ step = .slashEnd →
      Finds fs purpose spot links l rest → Finds fs purpose spot links l (step :: rest)
  | ascends {links : Nat} {l : Location} {rest : List Step} : Finds fs purpose spot links l.dropLast rest →
      Finds fs purpose spot links l (.ascend :: rest)
  | enters {links : Nat} {l : Location} {name : Bytes} {rest : List Step} : Tried purpose name rest →
      fs.isDirectoryAt (l ++ [name]) = true → Finds fs purpose spot links (l ++ [name]) rest →
      Finds fs purpose spot links l (.descend name :: rest)
  | follows {links : Nat} {l : Location} {name : Bytes} {rest : List Step} {target : Path} :
      Tried purpose name rest → fs.node? (l ++ [name]) = some (.link target) → followsLast purpose rest = true →
      target.text ≠ [] →
      Finds fs purpose spot links (if target.isAbsolute then [] else l) (target.steps ++ rest) →
      Finds fs purpose spot (links + 1) l (.descend name :: rest)
  | stops {links : Nat} {l : Location} {name : Bytes} {rest : List Step} {node : Node} : Tried purpose name rest →
      fs.node? (l ++ [name]) = some node → StopsAt purpose rest node → spot = .taken (l ++ [name]) →
      Finds fs purpose spot links l (.descend name :: rest)
  | vacant {links : Nat} {l : Location} {name : Bytes} {slashed : Bool} {rest : List Step} :
      Tried purpose name rest → fs.node? (l ++ [name]) = none → rest = Path.slashStep slashed →
      spot = .free l name slashed → Finds fs purpose spot links l (.descend name :: rest)
  | slashed {links : Nat} {l : Location} {name : Bytes} {rest : List Step} : purpose = .openFile →
      rest = [.slashEnd] → spot = .free l name true → Finds fs purpose spot links l (.descend name :: rest)

theorem StopsAt.not_directory {node : Node} (stops : StopsAt purpose rest node) (there : fs.node? l = some node) :
    fs.isDirectoryAt l = false := by
  rw [isDirectoryAt, there]
  cases node with
  | directory mode => exact stops.elim
  | file mode data | link target | device => rfl

theorem StopsAt.short {node : Node} (stops : StopsAt purpose rest node) : rest = [] ∨ rest = [.slashEnd] := by
  cases node with
  | directory mode => exact stops.elim
  | link target =>
    rw [StopsAt] at stops
    unfold followsLast at stops
    split at stops <;> first | exact Or.inl rfl | exact Or.inr rfl | cases stops
  | file mode data | device => exact stops.imp_right And.right

/-- Where a link is followed, and no file is looked for behind a slash, a walk stops behind the last name. -/
theorem StopsAt.last {node : Node} (stops : StopsAt purpose rest node) (follows : followsLast purpose rest = true)
    (notMade : purpose ≠ .makeDirectory) : rest = [] := by
  cases node with
  | directory mode => exact stops.elim
  | link target =>
    rw [StopsAt, follows] at stops
    cases stops
  | file mode data | device => exact stops.resolve_right fun both => notMade both.1

theorem Tried.use (fits : name.length ≤ nameMax) : Tried .use name rest :=
  ⟨by simp, fits⟩

theorem followsLast_use (rest : List Step) : followsLast .use rest = true := by
  unfold followsLast
  split <;> simp_all

/-- How a walk goes on behind a link. -/
def beyond (fs : FileSystem) (purpose : Purpose) : Nat → Location → List Step → Except Fault Spot
  | 0 => fun _ _ => .error .tooManyLinks
  | links + 1 => fs.followLinks purpose links

theorem followLinks_eq (fs : FileSystem) (purpose : Purpose) (links : Nat) :
    fs.followLinks purpose links = fs.follow purpose (fs.beyond purpose links) := by
  cases links <;> rfl

theorem followLinks_stays (stays : step = .stay ∨ step = .slashEnd) :
    fs.followLinks purpose links l (step :: rest) = fs.followLinks purpose links l rest := by
  rw [followLinks_eq]
  rcases stays with rfl | rfl <;> rfl

theorem followLinks_ascends :
    fs.followLinks purpose links l (.ascend :: rest) = fs.followLinks purpose links l.dropLast rest := by
  rw [followLinks_eq, follow]

theorem followLinks_tried (tried : Tried purpose name rest) :
    fs.followLinks purpose links l (.descend name :: rest) =
      fs.meet purpose (fs.beyond purpose links) l name rest (fs.node? (l ++ [name])) := by
  rw [followLinks_eq, follow_descend, if_neg tried.unslashed, if_neg (Nat.not_lt.mpr tried.fits)]

theorem followLinks_enters (tried : Tried purpose name rest) (directory : fs.isDirectoryAt (l ++ [name]) = true) :
    fs.followLinks purpose links l (.descend name :: rest) = fs.followLinks purpose links (l ++ [name]) rest := by
  obtain ⟨mode, there⟩ := isDirectoryAt_iff.mp directory
  rw [followLinks_tried tried, there, meet, followLinks_eq]

theorem followLinks_follows {target : Path} (tried : Tried purpose name rest)
    (there : fs.node? (l ++ [name]) = some (.link target)) (follows : followsLast purpose rest = true)
    (named : target.text ≠ []) :
    fs.followLinks purpose (links + 1) l (.descend name :: rest) =
      fs.followLinks purpose links (if target.isAbsolute then [] else l) (target.steps ++ rest) := by
  rw [followLinks_tried tried, there, meet, if_pos follows, if_neg named, beyond]

theorem finds_of_follow {next : Location → List Step → Except Fault Spot}
    (onward : ∀ l' steps', next l' steps' = .ok spot →
      ∃ fewer, links = fewer + 1 ∧ fs.Finds purpose spot fewer l' steps')
    (walked : fs.follow purpose next l steps = .ok spot) : fs.Finds purpose spot links l steps := by
  induction steps generalizing l with
  | nil =>
    cases walked
    exact .arrives rfl
  | cons step rest ih =>
    cases step with
    | stay => exact .stays (Or.inl rfl) (ih walked)
    | slashEnd => exact .stays (Or.inr rfl) (ih walked)
    | ascend => exact .ascends (ih walked)
    | descend name =>
      rw [follow_descend] at walked
      split at walked
      · rename_i opened
        cases walked
        exact .slashed opened.1 opened.2 rfl
      split at walked
      · cases walked
      rename_i unslashed fits
      have tried : Tried purpose name rest := ⟨unslashed, Nat.not_lt.mp fits⟩
      cases there : fs.node? (l ++ [name]) with
      | none =>
        rw [there, meet] at walked
        split at walked
        · rename_i last
          cases walked
          exact .vacant tried there (show rest = Path.slashStep false from last) rfl
        split at walked
        · rename_i last
          cases walked
          exact .vacant tried there (show rest = Path.slashStep true from last) rfl
        · cases walked
      | some node =>
        rw [there] at walked
        cases node with
        | directory mode => exact .enters tried (isDirectoryAt_iff.mpr ⟨mode, there⟩) (ih walked)
        | link target =>
          rw [meet] at walked
          split at walked
          · rename_i follows
            split at walked
            · cases walked
            · rename_i named
              obtain ⟨fewer, rfl, found⟩ := onward _ _ walked
              exact .follows tried there follows named found
          · rename_i unfollowed
            cases walked
            exact .stops tried there (Bool.eq_false_iff.mpr unfollowed) rfl
        | file mode data | device =>
          simp only [meet] at walked
          split at walked
          · rename_i last
            cases walked
            exact .stops tried there last rfl
          · cases walked

/-- The look-up succeeds where there is a walk. -/
theorem followLinks_ok : fs.followLinks purpose links l steps = .ok spot ↔ fs.Finds purpose spot links l steps := by
  constructor
  · intro walked
    induction links generalizing l steps with
    | zero =>
      refine finds_of_follow ?_ walked
      intro l' steps' failed
      cases failed
    | succ links ih => exact finds_of_follow (fun _ _ reached => ⟨links, rfl, ih reached⟩) walked
  · intro found
    induction found with
    | arrives same => rw [followLinks_eq, follow, same]
    | stays stays _ ih => rwa [followLinks_stays stays]
    | ascends _ ih => rwa [followLinks_ascends]
    | enters tried directory _ ih => rwa [followLinks_enters tried directory]
    | follows tried there follows named _ ih => rwa [followLinks_follows tried there follows named]
    | @stops links l name rest node tried there stops same =>
      rw [followLinks_tried tried, there, same]
      cases node with
      | directory mode => exact stops.elim
      | link target => rw [meet, if_neg (Bool.eq_false_iff.mp stops)]
      | file mode data | device => exact if_pos stops
    | @vacant links l name slashed rest tried free last same =>
      rw [followLinks_tried tried, free, same, last]
      cases slashed <;> rfl
    | slashed opened last same => rw [followLinks_eq, follow_descend, if_pos ⟨opened, last⟩, same]

theorem find_ok {p : Path} :
    fs.find purpose p = .ok spot ↔ p.fault? = none ∧ fs.Finds purpose spot linksMax (fs.start p) p.steps := by
  rw [find_eq, checked_ok, followLinks_ok]

theorem find_of_fault {p : Path} {fault : Fault} (refused : p.fault? = some fault) :
    fs.find purpose p = .error fault := by
  rw [find_eq, Path.checked_of_fault refused]

theorem locate_of_fault {p : Path} {fault : Fault} (refused : p.fault? = some fault) :
    fs.locate purpose p = .error fault := by
  rw [locate, find_of_fault refused]
  rfl

theorem locate_ok {p : Path} : fs.locate purpose p = .ok l ↔ fs.find purpose p = .ok (.taken l) := by
  unfold locate
  cases fs.find purpose p with
  | error fault => simp [bind, Except.bind]
  | ok spot => cases spot <;> simp [bind, Except.bind]

theorem stat?_eq_some {p : Path} {node : Node} :
    fs.stat? p = some node ↔ ∃ l, fs.locate .use p = .ok l ∧ fs.node? l = some node := by
  unfold stat?
  cases fs.locate .use p <;> simp

theorem has_iff {p : Path} : fs.has p = true ↔ ∃ l, fs.locate .use p = .ok l ∧ (fs.node? l).isSome := by
  unfold has stat?
  cases fs.locate .use p <;> simp

theorem isDirectory_iff {p : Path} :
    fs.isDirectory p = true ↔ ∃ l, fs.locate .use p = .ok l ∧ fs.isDirectoryAt l = true := by
  unfold isDirectory stat?
  cases fs.locate .use p <;> simp [isDirectoryAt]

end FileSystem

end Unjar
