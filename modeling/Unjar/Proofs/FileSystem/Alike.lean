import Unjar.Proofs.FileSystem.Lineage
import Unjar.Proofs.FileSystem.Reach

/-!
File systems with the same nodes, however their tables are ordered. No operation tells them apart but
the listing of a directory. Where paths lead is the same already if the files hold something else.
-/

namespace Unjar.FileSystem

variable {fs fs' fs'' : FileSystem}

/-- What a look-up sees of a node. -/
def outline : Node → Node
  | .file _ _ => .file 0 []
  | .directory _ => .directory 0
  | node => node

/-- File systems that a look-up does not tell apart. -/
structure SameOutline (fs fs' : FileSystem) : Prop where
  here : fs'.here = fs.here
  nodes : ∀ l, (fs'.node? l).map outline = (fs.node? l).map outline

namespace SameOutline

theorem put {l : Location} {old node : Node} (there : fs.node? l = some old) (same : outline node = outline old) :
    fs.SameOutline (fs.put l node) := by
  refine ⟨rfl, fun m => ?_⟩
  rw [node?_put]
  split
  · rename_i here
    rw [here, there, Option.map_some, Option.map_some, same]
  · rfl

theorem follow (outlined : fs.SameOutline fs') {purpose : Purpose} {next next' : Location → List Step → Except Fault Spot}
    (onward : ∀ l steps, next' l steps = next l steps) (l : Location) (steps : List Step) :
    fs'.follow purpose next' l steps = fs.follow purpose next l steps := by
  induction steps generalizing l with
  | nil => rfl
  | cons step rest ih =>
    cases step with
    | stay | slashEnd | ascend => simp only [FileSystem.follow]; exact ih _
    | descend name =>
      have met : ∀ node' node : Option Node, node'.map outline = node.map outline →
          fs'.meet purpose next' l name rest node' = fs.meet purpose next l name rest node := by
        intro node' node same
        -- nodes with one outline are of one kind, and a link is the same link
        rcases node' with _ | ⟨_, _⟩ | _ | _ | _ <;> rcases node with _ | ⟨_, _⟩ | _ | _ | _ <;> cases same <;>
          simp only [meet, ih, onward]
      rw [follow_descend, follow_descend, met _ _ (outlined.nodes _)]

theorem find (outlined : fs.SameOutline fs') (purpose : Purpose) (p : Path) : fs'.find purpose p = fs.find purpose p := by
  have walked : ∀ links l steps, fs'.followLinks purpose links l steps = fs.followLinks purpose links l steps := by
    intro links
    induction links with
    | zero => exact fun l steps => outlined.follow (fun _ _ => rfl) l steps
    | succ links ih => exact fun l steps => outlined.follow ih l steps
  rw [find_eq, find_eq, walked, start, start, outlined.here]

theorem locate (outlined : fs.SameOutline fs') (purpose : Purpose) (p : Path) :
    fs'.locate purpose p = fs.locate purpose p := by
  rw [FileSystem.locate, FileSystem.locate, outlined.find]

end SameOutline

structure Alike (fs fs' : FileSystem) : Prop where
  here : fs'.here = fs.here
  nodes : ∀ l, fs'.node? l = fs.node? l

namespace Alike

theorem refl (fs : FileSystem) : fs.Alike fs := ⟨rfl, fun _ => rfl⟩

theorem symm (alike : fs.Alike fs') : fs'.Alike fs :=
  ⟨alike.here.symm, fun l => (alike.nodes l).symm⟩

theorem trans (first : fs.Alike fs') (second : fs'.Alike fs'') : fs.Alike fs'' :=
  ⟨second.here.trans first.here, fun l => (second.nodes l).trans (first.nodes l)⟩

theorem put (alike : fs.Alike fs') (l : Location) (node : Node) : (fs.put l node).Alike (fs'.put l node) := by
  refine ⟨alike.here, fun m => ?_⟩
  rw [node?_put, node?_put, alike.nodes]

theorem isDirectoryAt (alike : fs.Alike fs') (l : Location) : fs'.isDirectoryAt l = fs.isDirectoryAt l := by
  rw [FileSystem.isDirectoryAt, FileSystem.isDirectoryAt, alike.nodes]

theorem sameOutline (alike : fs.Alike fs') : fs.SameOutline fs' :=
  ⟨alike.here, fun l => by rw [alike.nodes]⟩

theorem find (alike : fs.Alike fs') (purpose : Purpose) (p : Path) : fs'.find purpose p = fs.find purpose p :=
  alike.sameOutline.find purpose p

theorem locate (alike : fs.Alike fs') (purpose : Purpose) (p : Path) : fs'.locate purpose p = fs.locate purpose p :=
  alike.sameOutline.locate purpose p

theorem stat? (alike : fs.Alike fs') (p : Path) : fs'.stat? p = fs.stat? p := by
  unfold FileSystem.stat?
  rw [alike.locate]
  cases fs.locate .use p with
  | ok l => exact alike.nodes l
  | error fault => rfl

theorem has (alike : fs.Alike fs') (p : Path) : fs'.has p = fs.has p := by
  rw [FileSystem.has, FileSystem.has, alike.stat?]

theorem isDirectory (alike : fs.Alike fs') (p : Path) : fs'.isDirectory p = fs.isDirectory p := by
  rw [FileSystem.isDirectory, FileSystem.isDirectory, alike.stat?]

theorem permits (alike : fs.Alike fs') (bit : Nat) (l : Location) : fs'.permits bit l = fs.permits bit l := by
  rw [FileSystem.permits, FileSystem.permits, alike.nodes]

theorem admitsFrom (alike : fs.Alike fs') {purpose : Purpose} {next next' : Location → List Step → Bool}
    (onward : ∀ l steps, next' l steps = next l steps) (l : Location) (steps : List Step) :
    fs'.admitsFrom purpose next' l steps = fs.admitsFrom purpose next l steps := by
  induction steps generalizing l with
  | nil => rfl
  | cons step rest ih =>
    cases step with
    | slashEnd => rw [FileSystem.admitsFrom, FileSystem.admitsFrom, ih]
    | stay | ascend => rw [FileSystem.admitsFrom, FileSystem.admitsFrom, alike.permits, ih]
    | descend name =>
      rw [FileSystem.admitsFrom, FileSystem.admitsFrom, alike.permits, alike.nodes]
      simp only [ih, onward]

theorem admitsLinks (alike : fs.Alike fs') {purpose : Purpose} (links : Nat) (l : Location) (steps : List Step) :
    fs'.admitsLinks purpose links l steps = fs.admitsLinks purpose links l steps := by
  induction links generalizing l steps with
  | zero => exact alike.admitsFrom (fun _ _ => rfl) l steps
  | succ links ih => exact alike.admitsFrom (fun l steps => ih l steps) l steps

theorem locateAdmitted (alike : fs.Alike fs') (purpose : Purpose) (p : Path) :
    fs'.locateAdmitted purpose p = fs.locateAdmitted purpose p := by
  rw [FileSystem.locateAdmitted, FileSystem.locateAdmitted, alike.locate, admits, admits, alike.admitsLinks, alike.here]

theorem openToRead (alike : fs.Alike fs') (p : Path) : fs'.openToRead p = fs.openToRead p := by
  unfold FileSystem.openToRead
  rw [alike.locateAdmitted]
  simp only [alike.nodes, alike.permits]

theorem contents (alike : fs.Alike fs') (l : Location) : fs'.contents l = fs.contents l := by
  rw [FileSystem.contents, FileSystem.contents, alike.nodes]

theorem fill (alike : fs.Alike fs') (l : Location) (data : Bytes) : (fs.fill l data).Alike (fs'.fill l data) := by
  unfold FileSystem.fill
  rw [alike.nodes]
  cases fs.node? l with
  | none => exact alike
  | some node => cases node <;> first | exact alike | exact alike.put _ _

end Alike

/-- Outcomes of one operation on two file systems that are alike. -/
def AlikeOutcomes {ε : Type} : Except ε FileSystem → Except ε FileSystem → Prop
  | .ok fs, .ok fs' => fs.Alike fs'
  | .error e, .error e' => e = e'
  | _, _ => False

theorem AlikeOutcomes.mapError {ε ε' : Type} {x y : Except ε FileSystem} (alike : AlikeOutcomes x y) (wrap : ε → ε') :
    AlikeOutcomes (x.mapError wrap) (y.mapError wrap) := by
  cases x with
  | error e =>
    cases y with
    | error e' => exact congrArg wrap alike
    | ok fs' => exact alike.elim
  | ok fs =>
    cases y with
    | error e' => exact alike.elim
    | ok fs' => exact alike

namespace Alike

theorem makeDirectory (alike : fs.Alike fs') (p : Path) : AlikeOutcomes (fs.makeDirectory p) (fs'.makeDirectory p) := by
  unfold FileSystem.makeDirectory makeNode
  rw [alike.find]
  cases fs.find .makeDirectory p with
  | error fault => rfl
  | ok spot =>
    cases spot with
    | taken l => rfl
    | free parent name slashed =>
      simp only [bind, Except.bind, AlikeOutcomes, modeBelow, alike.nodes]
      exact alike.put _ _

theorem makeDirectory_error (alike : fs.Alike fs') {p : Path} {fault : Fault} :
    fs'.makeDirectory p = .error fault ↔ fs.makeDirectory p = .error fault := by
  have attempt := alike.makeDirectory p
  revert attempt
  cases fs.makeDirectory p <;> cases fs'.makeDirectory p <;> simp +contextual [AlikeOutcomes]

theorem makeLast (alike : fs.Alike fs') (p : Path) :
    (fs'.makeLast p).1 = (fs.makeLast p).1 ∧ (fs.makeLast p).2.Alike (fs'.makeLast p).2 := by
  have attempt := alike.makeDirectory p
  cases made : fs.makeDirectory p with
  | ok result =>
    cases made' : fs'.makeDirectory p with
    | ok result' =>
      rw [made, made'] at attempt
      rw [makeLast_of_made made, makeLast_of_made made']
      exact ⟨rfl, attempt⟩
    | error fault =>
      rw [made, made'] at attempt
      cases attempt
  | error fault =>
    rw [makeLast_of_error made, makeLast_of_error (alike.makeDirectory_error.mpr made), alike.isDirectory]
    exact ⟨rfl, alike⟩

theorem makeLineage (alike : fs.Alike fs') (paths : List Path) :
    (FileSystem.makeLineage paths fs').1 = (FileSystem.makeLineage paths fs).1 ∧
      (FileSystem.makeLineage paths fs).2.Alike (FileSystem.makeLineage paths fs').2 := by
  induction paths generalizing fs fs' with
  | nil => exact ⟨rfl, alike⟩
  | cons p ancestors ih =>
    by_cases named : p.components = []
    · rw [makeLineage_unnamed named, makeLineage_unnamed named]
      exact ⟨rfl, alike⟩
    by_cases missing : fs.makeDirectory p = .error .notFound
    · rw [makeLineage_missing named missing, makeLineage_missing named (alike.makeDirectory_error.mpr missing)]
      obtain ⟨sameResult, sameRest⟩ := ih alike
      rcases above : FileSystem.makeLineage ancestors fs with ⟨result, prepared⟩
      rcases above' : FileSystem.makeLineage ancestors fs' with ⟨result', prepared'⟩
      rw [above, above'] at sameResult sameRest
      obtain rfl : result' = result := sameResult
      cases result' with
      | error fault => exact ⟨rfl, sameRest⟩
      | ok _ => exact sameRest.makeLast p
    · rw [makeLineage_tried named missing, makeLineage_tried named (mt alike.makeDirectory_error.mp missing)]
      exact alike.makeLast p

theorem makeDirectories (alike : fs.Alike fs') (p : Path) :
    (fs'.makeDirectories p).1 = (fs.makeDirectories p).1 ∧ (fs.makeDirectories p).2.Alike (fs'.makeDirectories p).2 :=
  alike.makeLineage (lineage p)

theorem openToWrite (alike : fs.Alike fs') (p : Path) :
    AlikeOutcomes ((fs.openToWrite p).map Prod.snd) ((fs'.openToWrite p).map Prod.snd) ∧
      (fs'.openToWrite p).map Prod.fst = (fs.openToWrite p).map Prod.fst := by
  unfold FileSystem.openToWrite openFile
  rw [alike.find]
  cases fs.find .openFile p with
  | error fault => exact ⟨rfl, rfl⟩
  | ok spot =>
    cases spot with
    | free parent name slashed =>
      cases slashed with
      | true => exact ⟨rfl, rfl⟩
      | false => exact ⟨alike.put _ _, rfl⟩
    | taken l =>
      simp only [bind, Except.bind, alike.nodes]
      cases fs.node? l with
      | none => exact ⟨rfl, rfl⟩
      | some node =>
        cases node with
        | file mode data => exact ⟨alike.put _ _, rfl⟩
        | device kind =>
          cases kind with
          | terminal => exact ⟨rfl, rfl⟩
          | null | zeros | full | input | output | errors => exact ⟨alike, rfl⟩
        | directory mode | link target => exact ⟨rfl, rfl⟩

theorem write (alike : fs.Alike fs') (l : Location) (data : Bytes) :
    AlikeOutcomes (fs.write l data) (fs'.write l data) := by
  unfold FileSystem.write
  rw [alike.nodes]
  by_cases refused : fs.node? l = some (.device .full) ∧ data ≠ []
  · rw [if_pos refused, if_pos refused]
    rfl
  · rw [if_neg refused, if_neg refused]
    exact alike.fill l data

theorem writeFile (alike : fs.Alike fs') (p : Path) (data : Bytes) :
    AlikeOutcomes (fs.writeFile p data) (fs'.writeFile p data) := by
  obtain ⟨left, place⟩ := alike.openToWrite p
  unfold FileSystem.writeFile
  revert left place
  cases fs.openToWrite p with
  | error fault =>
    cases fs'.openToWrite p with
    | error fault' => exact fun left _ => left
    | ok pair' => exact fun left => False.elim left
  | ok pair =>
    cases fs'.openToWrite p with
    | error fault' => exact fun left => False.elim left
    | ok pair' =>
      intro left place
      obtain ⟨m, opened⟩ := pair
      obtain ⟨m', opened'⟩ := pair'
      obtain rfl : m' = m := Except.ok.inj place
      exact left.write m' data

end Alike

end Unjar.FileSystem
