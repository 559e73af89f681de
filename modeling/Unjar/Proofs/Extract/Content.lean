import Unjar.Proofs.Extract.Steps
import Unjar.Proofs.FileSystem.Data

/-!
What an unpacked archive leaves below an empty destination: for every path that entries resolve to,
the file holds what the last of them holds.
-/

namespace Unjar

namespace Extract

open FileSystem

/-- The octets that an entry is unpacked to. -/
def unpacked (image : Bytes) (r : Archive.Record) : Bytes :=
  match r.dataStart image with
  | .ok start => (r.content image start).1
  | .error _ => []

/-- An entry for the file with these names below the destination. -/
def Fills (dest : Path) (names : List Bytes) (r : Archive.Record) : Prop :=
  r.isDirectory = false ∧ dest.resolveInside r.name = .ok (dest.clean.descendant names)

instance (dest : Path) (names : List Bytes) (r : Archive.Record) : Decidable (Fills dest names r) :=
  inferInstanceAs (Decidable (_ ∧ _))

/-- What the last entry for a file holds. -/
def lastData? (image : Bytes) (dest : Path) (records : List Archive.Record) (names : List Bytes) : Option Bytes :=
  (records.reverse.find? (Fills dest names ·)).map (unpacked image)

variable {image : Bytes} {dest : Path} {l jar : Location} {origin fs : FileSystem} {records done : List Archive.Record}
  {r : Archive.Record} {names : List Bytes} {w w' : World}

theorem lastData?_concat (image : Bytes) (dest : Path) (done : List Archive.Record) (r : Archive.Record)
    (names : List Bytes) : lastData? image dest (done ++ [r]) names =
      if Fills dest names r then some (unpacked image r) else lastData? image dest done names := by
  rw [lastData?, List.reverse_append, List.reverse_singleton, List.singleton_append, List.find?_cons]
  split
  · rename_i fills
    rw [if_pos (of_decide_eq_true fills)]
    rfl
  · rename_i other
    rw [if_neg (of_decide_eq_false other)]
    rfl

/-- What is below the destination when some entries are unpacked. -/
structure Unpacked (image : Bytes) (dest : Path) (l : Location) (origin : FileSystem) (done : List Archive.Record)
    (fs : FileSystem) : Prop where
  within : Within dest.clean l origin fs
  ordinary : fs.Ordinary l
  data : ∀ names, names ≠ [] → AllNames names → fs.data? (l ++ names) = lastData? image dest done names

theorem applyMode_ok {base : Path} {mode : Option Nat} {owner : Nat} (within : Within base l origin w.files)
    (valid : AllNames names) (down : names ≠ []) (ran : applyMode (base.descendant names) mode owner w = .ok () w') :
    Within base l origin w'.files ∧ SameData l w.files w'.files := by
  cases mode with
  | none =>
    cases ran
    exact ⟨within, .refl _⟩
  | some mode =>
    obtain ⟨changed, told, rfl⟩ := Task.change_ok.mp ran
    cases moded : w.files.changeMode (base.descendant names) (permissions mode owner) with
    | error fault => rw [moded] at told; cases told
    | ok fs' =>
      rw [moded] at told
      cases told
      exact ⟨within.changeMode valid down moded, .changeMode moded⟩

theorem makeDirectory_ok {base : Path} {mode : Option Nat} (within : Within base l origin w.files)
    (valid : AllNames names) (down : names ≠ []) (ran : makeDirectory (base.descendant names) mode w = .ok () w') :
    Within base l origin w'.files ∧ SameData l w.files w'.files := by
  obtain ⟨made, done, moded⟩ := makeDirectory_iff.mp ran
  obtain ⟨adds, within₁⟩ := within.makeDirectories_adds valid down
  rw [done] at adds within₁
  obtain ⟨within₂, same⟩ := applyMode_ok (w := { w with files := made }) within₁ valid down moded
  exact ⟨within₂, (SameData.of_adds adds).trans same⟩

/-- Making the directory that an entry is put into. -/
theorem makeEnclosing_ok {base : Path} (within : Within base l origin w.files) (valid : AllNames names)
    (ran : makeDirectory (base.enclosing names) none w = .ok () w') :
    Within base l origin w'.files ∧ SameData l w.files w'.files := by
  obtain ⟨made, done, moded⟩ := makeDirectory_iff.mp ran
  cases moded
  obtain ⟨within₁, adds, _⟩ := within.prepare valid done
  exact ⟨within₁, .of_adds adds⟩

theorem makeFile_ok {base : Path} {mode : Option Nat} {m : Location} (within : Within base l origin w.files)
    (ordinary : w.files.Ordinary l) (valid : AllNames names) (down : names ≠ [])
    (ran : makeFile (base.descendant names) mode w = .ok m w') :
    m = l ++ names ∧ Within base l origin w'.files ∧ w'.files.Ordinary l ∧
      ∀ m', w'.files.data? m' = if m' = l ++ names then some [] else w.files.data? m' := by
  obtain ⟨opened, opening, moded⟩ := makeFile_iff.mp ran
  obtain ⟨rfl, mode', rfl⟩ := within.openToWrite_empties ordinary valid down opening
  obtain ⟨_, within₁⟩ := within.openToWrite valid down opening
  obtain ⟨within₂, same⟩ := applyMode_ok (w := { w with files := _ }) within₁ valid down moded
  refine ⟨rfl, within₂, same.ordinary (ordinary.put (Or.inr rfl)), fun m' => ?_⟩
  rw [same.data m']
  exact data?_put _ _ _ _ _

/-- The archive can be read as before while nothing is done to it. -/
theorem contents_of_within {base : Path} {fs' : FileSystem} (within : Within base l origin fs)
    (within' : Within base l origin fs') (ordinary : fs.Ordinary l) (content : fs.contents jar = .ok image)
    (same : fs'.data? jar = fs.data? jar) : fs'.contents jar = .ok image := by
  by_cases inside : Below l jar
  · obtain ⟨names, down, rfl⟩ := inside
    exact contents_of_data? (same.trans (ordinary.data?_of_contents down content))
  · rw [within'.contents inside, ← within.contents inside, content]

/-- What an entry does to the files below the directory that it is unpacked into: it fills its own. -/
theorem entry_data (within : Within dest.clean l origin w.files) (ordinary : w.files.Ordinary l)
    (content : w.files.contents jar = .ok image) (spared : ∀ names, names ≠ [] → Fills dest names r → l ++ names ≠ jar)
    (confined : Confined dest records) (member : r ∈ records) {index : Nat}
    (ran : entry jar dest index r w = .ok () w') :
    Within dest.clean l origin w'.files ∧ w'.files.Ordinary l ∧ ∀ names, names ≠ [] → AllNames names →
      w'.files.data? (l ++ names) = if Fills dest names r then some (unpacked image r) else w.files.data? (l ++ names) := by
  obtain ⟨names, image', start, down, valid, accepted, content', begins, unpacks⟩ := unpacks_of_entry confined member ran
  rw [content] at content'
  cases content'
  cases unpacks with
  | directory isDirectory made =>
    -- a directory entry adds directories and sets a mode
    obtain ⟨within', same⟩ := makeDirectory_ok within valid down made
    refine ⟨within', same.ordinary ordinary, fun other downOther validOther => ?_⟩
    rw [same.data, if_neg]
    rintro ⟨isFile, _⟩
    rw [isDirectory] at isFile
    cases isFile
  | @file w₁ w₂ m image' data isFile enclosed made again out =>
    obtain ⟨within₁, same₁⟩ := makeEnclosing_ok within valid enclosed
    obtain ⟨rfl, within₂, ordinary₂, data₂⟩ := makeFile_ok within₁ (same₁.ordinary ordinary) valid down made
    have untouched : w₂.files.data? jar = w.files.data? jar := by
      rw [data₂, if_neg fun here => spared names down ⟨isFile, accepted⟩ here.symm, same₁.data]
    rw [contents_of_within within within₂ ordinary content untouched] at again
    cases again
    refine ⟨within₂.fill down _, ordinary₂.fill _ _, fun other downOther validOther => ?_⟩
    rw [data?_fill (by rw [data₂, if_pos rfl])]
    by_cases here : other = names
    · rw [here, if_pos rfl, if_pos ⟨isFile, accepted⟩, unpacked, begins]
      simp only [out]
    · have elsewhere : l ++ other ≠ l ++ names := fun same => here (List.append_cancel_left same)
      rw [if_neg elsewhere, data₂, if_neg elsewhere, same₁.data, if_neg]
      rintro ⟨_, same⟩
      rw [accepted] at same
      exact here (Path.descendant_injective dest.clean validOther valid (Except.ok.inj same).symm)

/-- One entry more is unpacked. -/
theorem entry_ok (so_far : Unpacked image dest l origin done w.files) (apart : ¬ Below l jar)
    (content : origin.contents jar = .ok image) (confined : Confined dest records) (member : r ∈ records) {index : Nat}
    (ran : entry jar dest index r w = .ok () w') : Unpacked image dest l origin (done ++ [r]) w'.files := by
  obtain ⟨within, ordinary, data⟩ := so_far
  have spared : ∀ names, names ≠ [] → Fills dest names r → l ++ names ≠ jar := by
    rintro names down _ rfl
    exact apart ⟨names, down, rfl⟩
  obtain ⟨within', ordinary', data'⟩ :=
    entry_data within ordinary ((within.contents apart).trans content) spared confined member ran
  refine ⟨within', ordinary', fun names down valid => ?_⟩
  rw [data' names down valid, lastData?_concat, data names down valid]

theorem entriesFrom_ok (so_far : Unpacked image dest l origin done w.files) (apart : ¬ Below l jar)
    (content : origin.contents jar = .ok image) (confined : Confined dest records) {index : Nat}
    (ran : entriesFrom jar dest index records w = .ok () w') :
    Unpacked image dest l origin (done ++ records) w'.files := by
  induction records generalizing index done w with
  | nil =>
    cases ran
    rwa [List.append_nil]
  | cons r rest ih =>
    obtain ⟨_, w₁, first, others⟩ := Task.bind_ok ran
    have later : Confined dest rest := fun other member => confined other (List.mem_cons_of_mem _ member)
    rw [List.append_cons]
    exact ih (entry_ok so_far apart content confined List.mem_cons_self first) later others

/-- What an archive is unpacked to below a destination that is empty. -/
theorem unpacked_of_extract {archive : Path} {count : Nat} (opened : openArchive archive w.files = .ok (jar, records))
    (content : w.files.contents jar = .ok image) (confined : Confined dest records)
    (within : Within dest.clean l w.files w.files) (there : w.files.isDirectory dest = true)
    (empty : ∀ names, names ≠ [] → w.files.node? (l ++ names) = none)
    (ran : extract archive dest w = .ok count w') : Unpacked image dest l w.files records w'.files := by
  obtain ⟨ready, made, ran, _⟩ := entries_of_extract opened ran
  rw [makeDirectories_of_isDirectory there] at made
  cases made
  have apart : ¬ Below l jar := by
    rintro ⟨names, down, rfl⟩
    rw [FileSystem.contents, empty names down] at content
    cases content
  have start : Unpacked image dest l w.files [] w.files := by
    refine ⟨within, ?_, fun names down _ => ?_⟩
    · intro names down node atNode
      rw [empty names down] at atNode
      cases atNode
    · rw [data?, empty names down]
      rfl
  exact entriesFrom_ok start apart content confined ran

end Extract

end Unjar
