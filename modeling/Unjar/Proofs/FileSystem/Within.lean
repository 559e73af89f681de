import Unjar.Proofs.FileSystem.Entering

/-!
What is done below a directory stays below it: the nodes elsewhere are those of the file system it
started from, and the base still leads to the directory.
-/

namespace Unjar.FileSystem

/-- Strictly below. -/
def Below (l m : Location) : Prop :=
  ∃ names, names ≠ [] ∧ m = l ++ names

/-- A file system that was made from another one by changes below a directory. -/
structure Within (base : Path) (l : Location) (origin fs : FileSystem) : Prop where
  sound : fs.Sound
  here : fs.here = origin.here
  outside : ∀ m, ¬ Below l m → fs.node? m = origin.node? m
  free : fs.LinkFree l
  leads : fs.Leads base l

variable {fs : FileSystem} {l : Location}

theorem keeps_put {m : Location} {node : Node} (directories : fs.isDirectoryAt m = true → node.isDirectory = true)
    (links : ∀ target, fs.node? m ≠ some (.link target)) : fs.Keeps (fs.put m node) := by
  refine ⟨rfl, ?_, ?_⟩
  · intro m' directory
    rw [isDirectoryAt_put]
    split
    · rename_i same
      exact directories (same ▸ directory)
    · exact directory
  · intro m' target there
    rw [node?_put]
    split
    · rename_i same
      exact absurd (same ▸ there) (links target)
    · exact there

theorem linkFree_put {m : Location} {node : Node} (free : fs.LinkFree l) (notLink : ∀ target, node ≠ .link target) :
    (fs.put m node).LinkFree l := by
  intro names target
  rw [node?_put]
  split
  · intro there
    exact notLink target (Option.some.inj there)
  · exact free names target

namespace Within

variable {base : Path} {origin : FileSystem} {names : List Bytes} {node : Node}

theorem start (sound : fs.Sound) (free : fs.LinkFree l) (leads : fs.Leads base l) : Within base l fs fs :=
  ⟨sound, rfl, fun _ _ => rfl, free, leads⟩

theorem contents (within : Within base l origin fs) {m : Location} (apart : ¬ Below l m) :
    fs.contents m = origin.contents m := by
  rw [FileSystem.contents, FileSystem.contents, within.outside m apart]

theorem put (within : Within base l origin fs) (down : names ≠ []) (sound : (fs.put (l ++ names) node).Sound)
    (directories : fs.isDirectoryAt (l ++ names) = true → node.isDirectory = true)
    (notLink : ∀ target, node ≠ .link target) : Within base l origin (fs.put (l ++ names) node) := by
  refine ⟨sound, within.here, ?_, linkFree_put within.free notLink, ?_⟩
  · intro m elsewhere
    have differs : m ≠ l ++ names := fun same => elsewhere ⟨names, down, same⟩
    rw [node?_put, if_neg differs]
    exact within.outside m elsewhere
  · exact within.leads.mono (keeps_put directories (within.free names))

theorem put_new (within : Within base l origin fs) {front : List Bytes} {name : Bytes} (split : names = front ++ [name])
    (vacancy : fs.Vacancy (l ++ front) name) (notLink : ∀ target, node ≠ .link target) :
    Within base l origin (fs.put (l ++ names) node) := by
  subst split
  have sound := within.sound.put_new vacancy node
  have vacant := vacancy.free
  rw [List.append_assoc] at sound vacant
  refine within.put (by simp) sound ?_ notLink
  intro directory
  rw [FileSystem.isDirectoryAt, vacant] at directory
  cases directory

theorem put_same (within : Within base l origin fs) (down : names ≠ []) {old : Node}
    (there : fs.node? (l ++ names) = some old) (kind : old.isDirectory = true → node.isDirectory = true)
    (notLink : ∀ target, node ≠ .link target) : Within base l origin (fs.put (l ++ names) node) := by
  refine within.put down (within.sound.put_same there kind) ?_ notLink
  intro directory
  rw [FileSystem.isDirectoryAt, there] at directory
  exact kind directory

theorem ensure (within : Within base l origin fs) (valid : AllNames names) :
    Within base l origin (fs.ensure l names).2 := by
  obtain ⟨sound, adds⟩ := within.sound.ensure within.leads.directory valid
  refine ⟨sound, adds.here.trans within.here, ?_, within.free.of_adds adds, within.leads.mono adds.keeps⟩
  intro m elsewhere
  rcases adds.nodes m with same | ⟨_, ⟨front, some, _, place⟩, _⟩
  · rw [same, within.outside m elsewhere]
  · exact absurd ⟨front, some, place⟩ elsewhere

theorem openToWrite (within : Within base l origin fs) (valid : AllNames names) (down : names ≠ []) {m : Location}
    {opened : FileSystem} (done : fs.openToWrite (base.descendant names) = .ok (m, opened)) :
    m = l ++ names ∧ Within base l origin opened := by
  obtain ⟨_, rfl, opens⟩ := within.leads.opens_below within.free valid down done
  refine ⟨rfl, ?_⟩
  cases opens with
  | new split vacancy => exact within.put_new split vacancy (by simp)
  | old atNode => exact within.put_same down atNode (by simp [Node.isDirectory]) (by simp)
  | device => exact within

theorem fill (within : Within base l origin fs) (down : names ≠ []) (data : Bytes) :
    Within base l origin (fs.fill (l ++ names) data) := by
  unfold FileSystem.fill
  split
  · rename_i atNode
    exact within.put_same down atNode (by simp [Node.isDirectory]) (by simp)
  · exact within

theorem changeMode (within : Within base l origin fs) (valid : AllNames names) (down : names ≠ []) {mode : Nat}
    {changed : FileSystem} (done : fs.changeMode (base.descendant names) mode = .ok changed) :
    Within base l origin changed := by
  obtain ⟨m, located, changes⟩ := changeMode_ok done
  obtain ⟨rfl, _, _⟩ := within.leads.locate_ok within.free valid down located
  cases changes with
  | file atNode => exact within.put_same down atNode (by simp [Node.isDirectory]) (by simp)
  | directory atNode => exact within.put_same down atNode (by simp [Node.isDirectory]) (by simp)
  | other _ => exact within

end Within

/-- Two file systems with the same nodes below a directory, each changed below it alone. -/
structure Twins (base : Path) (l : Location) (origin origin' fs fs' : FileSystem) : Prop where
  first : Within base l origin fs
  second : Within base l origin' fs'
  same : SameBelow l fs fs'

namespace Twins

variable {base : Path} {origin origin' fs' : FileSystem} {names : List Bytes}

theorem locate (twins : Twins base l origin origin' fs fs') (valid : AllNames names) (down : names ≠ [])
    (purpose : Purpose) :
    fs'.locate purpose (base.descendant names) = fs.locate purpose (base.descendant names) := by
  rw [twins.first.leads.locate_descendant twins.first.free valid down,
    twins.second.leads.locate_descendant twins.second.free valid down, twins.same.seek]

theorem makeDirectories (twins : Twins base l origin origin' fs fs') (valid : AllNames names) (down : names ≠ []) :
    (fs'.makeDirectories (base.descendant names)).1 = (fs.makeDirectories (base.descendant names)).1 ∧
      Twins base l origin origin' (fs.makeDirectories (base.descendant names)).2
        (fs'.makeDirectories (base.descendant names)).2 := by
  rw [makeDirectories_descendant twins.first.sound twins.first.leads twins.first.free valid down,
    makeDirectories_descendant twins.second.sound twins.second.leads twins.second.free valid down]
  cases (base.descendant names).fault? with
  | some fault => exact ⟨rfl, twins⟩
  | none =>
    have ensured := twins.same.ensure [] names
    rw [List.append_nil] at ensured
    exact ⟨ensured.1, twins.first.ensure valid, twins.second.ensure valid, ensured.2⟩

theorem changeMode (twins : Twins base l origin origin' fs fs') (valid : AllNames names) (down : names ≠ [])
    (mode : Nat) :
    match fs.changeMode (base.descendant names) mode, fs'.changeMode (base.descendant names) mode with
    | .ok changed, .ok changed' => Twins base l origin origin' changed changed'
    | .error fault, .error fault' => fault = fault'
    | _, _ => False := by
  have within : ∀ changed, fs.changeMode (base.descendant names) mode = .ok changed → Within base l origin changed :=
    fun _ => twins.first.changeMode valid down
  have within' : ∀ changed, fs'.changeMode (base.descendant names) mode = .ok changed → Within base l origin' changed :=
    fun _ => twins.second.changeMode valid down
  revert within within'
  unfold FileSystem.changeMode
  rw [twins.locate valid down]
  cases located : fs.locate .use (base.descendant names) with
  | error fault => exact fun _ _ => rfl
  | ok m =>
    obtain ⟨rfl, _, _⟩ := twins.first.leads.locate_ok twins.first.free valid down located
    simp only [bind, Except.bind, pure, Except.pure, twins.same names]
    cases fs.node? (l ++ names) with
    | none => exact fun within within' => ⟨within _ rfl, within' _ rfl, twins.same⟩
    | some node =>
      cases node with
      | file old data | directory old => exact fun within within' => ⟨within _ rfl, within' _ rfl, twins.same.put _ _⟩
      | link target | device => exact fun within within' => ⟨within _ rfl, within' _ rfl, twins.same⟩

theorem openToWrite (twins : Twins base l origin origin' fs fs') (valid : AllNames names) (down : names ≠ []) :
    match fs.openToWrite (base.descendant names), fs'.openToWrite (base.descendant names) with
    | .ok (m, opened), .ok (m', opened') =>
      m = l ++ names ∧ m' = l ++ names ∧ Twins base l origin origin' opened opened'
    | .error fault, .error fault' => fault = fault'
    | _, _ => False := by
  have within : ∀ m opened, fs.openToWrite (base.descendant names) = .ok (m, opened) →
      m = l ++ names ∧ Within base l origin opened := fun _ _ => twins.first.openToWrite valid down
  have within' : ∀ m opened, fs'.openToWrite (base.descendant names) = .ok (m, opened) →
      m = l ++ names ∧ Within base l origin' opened := fun _ _ => twins.second.openToWrite valid down
  revert within within'
  rw [twins.first.leads.openToWrite twins.first.free valid down,
    twins.second.leads.openToWrite twins.second.free valid down, twins.same.seek]
  cases (base.descendant names).checked (fs.seek l names) with
  | error fault => exact fun _ _ => rfl
  | ok spot =>
    cases spot with
    | free parent name slashed =>
      intro within within'
      obtain ⟨place, kept⟩ := within _ _ rfl
      obtain ⟨place', kept'⟩ := within' _ _ rfl
      exact ⟨rfl, rfl, kept, kept', twins.same.put _ _⟩
    | taken m =>
      simp only [twins.same names]
      cases fs.node? (l ++ names) with
      | none => exact fun _ _ => rfl
      | some node =>
        cases node with
        | file mode data =>
          intro within within'
          exact ⟨rfl, rfl, (within _ _ rfl).2, (within' _ _ rfl).2, twins.same.put _ _⟩
        | device device =>
          cases device with
          | terminal => exact fun _ _ => rfl
          | null | zeros | full | input | output | errors => exact fun _ _ => ⟨rfl, rfl, twins⟩
        | directory mode | link target => exact fun _ _ => rfl

theorem fill (twins : Twins base l origin origin' fs fs') (down : names ≠ []) (data : Bytes) :
    Twins base l origin origin' (fs.fill (l ++ names) data) (fs'.fill (l ++ names) data) :=
  ⟨twins.first.fill down data, twins.second.fill down data, twins.same.fill names data⟩

theorem write (twins : Twins base l origin origin' fs fs') (down : names ≠ []) (data : Bytes) :
    match fs.write (l ++ names) data, fs'.write (l ++ names) data with
    | .ok written, .ok written' => Twins base l origin origin' written written'
    | .error fault, .error fault' => fault = fault'
    | _, _ => False := by
  unfold FileSystem.write
  rw [twins.same names]
  by_cases refused : fs.node? (l ++ names) = some (.device .full) ∧ data ≠ []
  · rw [if_pos refused, if_pos refused]
  · rw [if_neg refused, if_neg refused]
    exact twins.fill down data

end Twins

end Unjar.FileSystem
