import Unjar.Proofs.FileSystem.Reach

/-!
Look-ups below a directory. Without links below it, a path that goes down from it by names is found by
walking along the names, whatever it is looked up for.
-/

namespace Unjar.FileSystem

variable {fs fs' : FileSystem}

/-- The walk along names from a directory. -/
def seek (fs : FileSystem) : Location → List Bytes → Except Fault Spot
  | l, [] => .ok (.taken l)
  | l, name :: rest =>
    if nameMax < name.length then .error .nameTooLong
    else match fs.node? (l ++ [name]) with
      | none => if rest = [] then .ok (.free l name false) else .error .notFound
      | some (.directory _) => seek fs (l ++ [name]) rest
      | some _ => if rest = [] then .ok (.taken (l ++ [name])) else .error .notADirectory

/-- There is no link below a location, nor at it. -/
def LinkFree (fs : FileSystem) (l : Location) : Prop :=
  ∀ names target, fs.node? (l ++ names) ≠ some (.link target)

theorem LinkFree.below (free : fs.LinkFree l) (names : List Bytes) : fs.LinkFree (l ++ names) := by
  intro more target
  rw [List.append_assoc]
  exact free (names ++ more) target

theorem follow_names {purpose : Purpose} {next : Location → List Step → Except Fault Spot} {l : Location}
    {names : List Bytes} (free : fs.LinkFree l) :
    fs.follow purpose next l (names.map .descend) = fs.seek l names := by
  induction names generalizing l with
  | nil => rfl
  | cons name rest ih =>
    have notSlash : rest.map Step.descend ≠ [.slashEnd] := by cases rest <;> simp
    have bare : rest.map Step.descend = [] ↔ rest = [] := List.map_eq_nil_iff
    rw [List.map_cons, follow_descend, if_neg (fun both => notSlash both.2), seek]
    split
    · rfl
    · cases atNode : fs.node? (l ++ [name]) with
      | none => simp only [meet, bare, notSlash, if_false]
      | some node =>
        cases node with
        | directory mode => exact ih (free.below [name])
        | link target => exact absurd atNode (free [name] target)
        | file | device => simp only [meet, bare, notSlash, and_false, or_false]

theorem followLinks_names {purpose : Purpose} {links : Nat} {l : Location} {names : List Bytes}
    (free : fs.LinkFree l) : fs.followLinks purpose links l (names.map .descend) = fs.seek l names := by
  cases links <;> exact follow_names free

theorem start_descendant (fs : FileSystem) (base : Path) {names : List Bytes} (valid : AllNames names) :
    fs.start (base.descendant names) = fs.start base := by
  rw [start, start, Path.isAbsolute_descendant base valid]

/-- A path below a directory that is reached is found by its names. -/
theorem Leads.find {base : Path} {l : Location} (leads : fs.Leads base l) (free : fs.LinkFree l)
    {names : List Bytes} (valid : AllNames names) (down : names ≠ []) (purpose : Purpose) :
    fs.find purpose (base.descendant names) = (base.descendant names).checked (fs.seek l names) := by
  obtain ⟨left, walked⟩ := followLinks_append (passes_names purpose down) leads.directory leads.walked
  rw [find_eq, start_descendant fs base valid, Path.steps_descendant base valid down, walked,
    followLinks_names free]

/-- Steps that stay where they are. -/
def Idle (steps : List Step) : Prop :=
  ∀ step ∈ steps, step = .stay ∨ step = .slashEnd

theorem Finds.idle {purpose : Purpose} {links : Nat} {l : Location} {idle : List Step} (stays : Idle idle) :
    fs.Finds purpose (.taken l) links l idle := by
  induction idle with
  | nil => exact .arrives rfl
  | cons step rest ih =>
    exact .stays (stays step List.mem_cons_self) (ih fun other member => stays other (List.mem_cons_of_mem _ member))

/-- Steps with some left out that stay where they are. -/
inductive Thins : List Step → List Step → Prop
  | nil : Thins [] []
  | keep (step : Step) {steps thinned : List Step} : Thins steps thinned → Thins (step :: steps) (step :: thinned)
  | drop {step : Step} {steps thinned : List Step} : step = .stay ∨ step = .slashEnd → Thins steps thinned →
      Thins (step :: steps) thinned

theorem Thins.append_left {steps thinned : List Step} (front : List Step) (thins : Thins steps thinned) :
    Thins (front ++ steps) (front ++ thinned) := by
  induction front with
  | nil => exact thins
  | cons step rest ih => exact .keep step ih

theorem Thins.of_idle {idle : List Step} (stays : Idle idle) : Thins idle [] := by
  induction idle with
  | nil => exact .nil
  | cons step rest ih =>
    exact .drop (stays step List.mem_cons_self) (ih fun other member => stays other (List.mem_cons_of_mem _ member))

/-- The steps that move are kept. -/
theorem Thins.of_moves {step : Step} {steps thinned : List Step} (thins : Thins (step :: steps) thinned)
    (moves : ¬ (step = .stay ∨ step = .slashEnd)) : ∃ rest, thinned = step :: rest ∧ Thins steps rest := by
  cases thins with
  | keep _ thins => exact ⟨_, rfl, thins⟩
  | drop stays _ => exact absurd stays moves

/-- What is reached is also reached without the steps that stay. -/
theorem Finds.thinned {links : Nat} {l m : Location} {steps thinned : List Step}
    (found : fs.Finds .use (.taken m) links l steps) (thins : Thins steps thinned) :
    fs.Finds .use (.taken m) links l thinned := by
  induction found generalizing thinned with
  | arrives same =>
    cases thins
    exact .arrives same
  | stays stays _ ih =>
    cases thins with
    | keep _ behind => exact .stays stays (ih behind)
    | drop _ behind => exact ih behind
  | ascends _ ih =>
    obtain ⟨rest, rfl, behind⟩ := thins.of_moves (by simp)
    exact .ascends (ih behind)
  | enters tried there _ ih =>
    obtain ⟨rest, rfl, behind⟩ := thins.of_moves (by simp)
    exact .enters (.use tried.fits) there (ih behind)
  | follows tried there _ named _ ih =>
    obtain ⟨rest, rfl, behind⟩ := thins.of_moves (by simp)
    exact .follows (.use tried.fits) there (followsLast_use rest) named (ih (behind.append_left _))
  | stops tried there stops same =>
    obtain ⟨rest, rfl, behind⟩ := thins.of_moves (by simp)
    obtain rfl := stops.last (followsLast_use _) (by simp)
    cases behind
    exact .stops tried there stops same
  | vacant _ _ _ same | slashed _ _ same => cases same

/-- A directory is also reached with idle steps at the end. -/
theorem Finds.append_idle {links : Nat} {l m : Location} {steps idle : List Step}
    (found : fs.Finds .use (.taken m) links l steps) (stays : Idle idle) (directory : fs.isDirectoryAt m = true) :
    fs.Finds .use (.taken m) links l (steps ++ idle) := by
  obtain ⟨left, same⟩ := followLinks_append (passes_use idle) directory (followLinks_ok.mpr found)
  rw [← followLinks_ok, same, followLinks_ok]
  exact .idle stays

theorem Finds.drop_idle {links : Nat} {l m : Location} {steps idle : List Step} (stays : Idle idle)
    (found : fs.Finds .use (.taken m) links l (steps ++ idle)) : fs.Finds .use (.taken m) links l steps := by
  have thins := (Thins.of_idle stays).append_left steps
  rw [List.append_nil] at thins
  exact found.thinned thins

theorem idle_slashStep (slashed : Bool) : Idle (Path.slashStep slashed) :=
  fun _ member => Or.inr (Path.eq_slashEnd_of_mem member)

theorem thins_steps (p : Path) : Thins p.steps p.way := by
  obtain ⟨slashed, same⟩ := p.steps_eq_way
  rw [same]
  simpa only [List.append_nil] using (Thins.of_idle (idle_slashStep slashed)).append_left p.way

/-- The slash at the end of a path may stand behind a directory. -/
theorem Leads.finds {p : Path} {l : Location} (leads : fs.Leads p l) :
    fs.Finds .use (.taken l) linksMax (fs.start p) p.steps := by
  obtain ⟨found, directory⟩ := leads_iff.mp leads
  obtain ⟨slashed, same⟩ := p.steps_eq_way
  rw [same]
  exact found.append_idle (idle_slashStep slashed) directory

/-- Looked up on its own, a path leads to the directory it leads to. -/
theorem Leads.locate {p : Path} {l : Location} (leads : fs.Leads p l) (sound : p.fault? = none) :
    fs.locate .use p = .ok l :=
  locate_ok.mpr (find_ok.mpr ⟨sound, leads.finds⟩)

theorem isDirectory_of_locate {p : Path} {l : Location} (located : fs.locate .use p = .ok l)
    (there : fs.isDirectoryAt l = true) : fs.isDirectory p = true :=
  isDirectory_iff.mpr ⟨l, located, there⟩

theorem Leads.isDirectory {p : Path} {l : Location} (leads : fs.Leads p l) (sound : p.fault? = none) :
    fs.isDirectory p = true :=
  isDirectory_of_locate (leads.locate sound) leads.directory

theorem leads_of_isDirectory {p : Path} (there : fs.isDirectory p = true) :
    ∃ l, fs.Leads p l ∧ p.fault? = none := by
  obtain ⟨l, located, directory⟩ := isDirectory_iff.mp there
  obtain ⟨spelled, found⟩ := find_ok.mp (locate_ok.mp located)
  exact ⟨l, leads_iff.mpr ⟨found.thinned (thins_steps p), directory⟩, spelled⟩

/-- The directories and links of a file system are in the other one as well. -/
structure Keeps (fs fs' : FileSystem) : Prop where
  here : fs'.here = fs.here
  directories : ∀ l, fs.isDirectoryAt l = true → fs'.isDirectoryAt l = true
  links : ∀ l target, fs.node? l = some (.link target) → fs'.node? l = some (.link target)

/-- What is found once is found again where directories and links are kept, if it is a directory or is
kept itself. -/
theorem Finds.mono (keeps : fs.Keeps fs') {purpose : Purpose} {links : Nat} {l m : Location} {steps : List Step}
    (settled : fs.isDirectoryAt m = true ∨ fs'.node? m = fs.node? m)
    (found : fs.Finds purpose (.taken m) links l steps) : fs'.Finds purpose (.taken m) links l steps := by
  induction found with
  | arrives same => exact .arrives same
  | stays stays _ ih => exact .stays stays ih
  | ascends _ ih => exact .ascends ih
  | enters tried there _ ih => exact .enters tried (keeps.directories _ there) ih
  | follows tried there follows named _ ih => exact .follows tried (keeps.links _ _ there) follows named ih
  | stops tried there stops same =>
    cases same
    rcases settled with directory | kept
    · rw [stops.not_directory there] at directory
      cases directory
    · exact .stops tried (kept.trans there) stops rfl
  | vacant _ _ _ same | slashed _ _ same => cases same

theorem Keeps.start (keeps : fs.Keeps fs') (p : Path) : fs'.start p = fs.start p := by
  rw [FileSystem.start, FileSystem.start, keeps.here]

theorem Leads.mono {p : Path} {l : Location} (leads : fs.Leads p l) (keeps : fs.Keeps fs') : fs'.Leads p l := by
  obtain ⟨found, directory⟩ := leads_iff.mp leads
  rw [leads_iff, keeps.start]
  exact ⟨found.mono keeps (Or.inl directory), keeps.directories _ directory⟩

/-- A node that is kept is located where it was. -/
theorem Keeps.locate (keeps : fs.Keeps fs') {p : Path} {l : Location} (located : fs.locate .use p = .ok l)
    (kept : fs'.node? l = fs.node? l) : fs'.locate .use p = .ok l := by
  obtain ⟨spelled, found⟩ := find_ok.mp (locate_ok.mp located)
  rw [locate_ok, find_ok, keeps.start]
  exact ⟨spelled, found.mono keeps (Or.inr kept)⟩

end Unjar.FileSystem
