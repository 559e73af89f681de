import Unjar.Proofs.ClassFile.Derivation
import Unjar.Proofs.Path.Same
import Unjar.Proofs.Walk.Order

/-!
What is told of a file by its path, for every spelling of the path. The mark of nested classes is looked for in the name
of the file only, and its output does not depend on the spelling. Nor does the name of a class, unless its file is
called `..class`: what is left of that without the ending is a dot or two, and which of them depends on what stands
behind.
-/

namespace Unjar.ClassFile

variable {p q : Path} {init : List Component}

/-! The mark of nested classes. -/

/-- A file is left out just if there is a `$` in its own name, whatever else is in it. -/
theorem isSynthetic_iff (p : Path) :
    isSynthetic p = true ↔ ∃ init name, p.components = init ++ [.name name] ∧ dollar ∈ name := by
  constructor
  · intro marked
    cases named : p.fileName with
    | none =>
      rw [isSynthetic, named] at marked
      cases marked
    | some name =>
      obtain ⟨init, split⟩ := Path.components_of_fileName named
      rw [isSynthetic_of_fileName named] at marked
      exact ⟨init, name, split, List.contains_iff_mem.mp marked⟩
  · rintro ⟨init, name, split, inName⟩
    rw [isSynthetic_of_fileName (Path.fileName_of_components split)]
    exact List.contains_iff_mem.mpr inName

/-- Octets that begin a character and do not end it leave the `$` behind them alone, and directories may have one. -/
example : isSynthetic ⟨ascii "A" ++ [0xE2, 0x82] ++ ascii "$.class"⟩ = true ∧
    isSynthetic ⟨ascii "$gen/A.class/."⟩ = false ∧ isSynthetic ⟨ascii "A$/.."⟩ = false := by decide

theorem isSynthetic_of_same (same : p.Same q) : isSynthetic p = isSynthetic q := by
  rw [isSynthetic, isSynthetic, same.fileName]

/-! The output. -/

theorem exchanged_of_same (same : p.Same q) :
    (if p.extension = some classExtension then p.setExtension sourceExtension else p).Same
      (if q.extension = some classExtension then q.setExtension sourceExtension else q) := by
  cases named : p.fileName with
  | none =>
    have plain : p.extension = none := by rw [Path.extension, named, Option.bind_none]
    rwa [← same.extension, plain, if_neg (by simp), if_neg (by simp)]
  | some name =>
    obtain ⟨init, split⟩ := Path.components_of_fileName named
    rw [Path.Same, components_exchanged split, components_exchanged (same ▸ split)]

theorem outputPath_of_same (same : p.Same q) (staging out : Path) :
    Option.Rel Path.Same (outputPath p staging out) (outputPath q staging out) := by
  have stripped := same.stripPrefix? staging
  unfold outputPath
  generalize p.stripPrefix? staging = relative at stripped ⊢
  generalize q.stripPrefix? staging = relative' at stripped ⊢
  cases stripped with
  | none => exact .none
  | some alike => exact .some (exchanged_of_same (alike.join out))

/-! The name of the class. -/

/-- Nothing stands behind the name that the path ends in. -/
def EndsInName (p : Path) : Prop :=
  p.segments.getLast? = p.fileName

instance (p : Path) : Decidable (EndsInName p) :=
  inferInstanceAs (Decidable (_ = _))

/-- Components that can be parts of the name of a class, or add nothing to it. -/
def Tellable (components : List Component) : Prop :=
  ∀ component ∈ components, component = .here ∨ ∃ part, component = .name part ∧ Utf8.valid part = true

theorem nameParts?_isSome_iff (components : List Component) :
    (nameParts? components).isSome = true ↔ Tellable components := by
  unfold Tellable
  induction components with
  | nil => simp [nameParts?]
  | cons component rest ih =>
    rw [List.forall_mem_cons, ← ih]
    cases component with
    | root | up | here => simp [nameParts?]
    | name part => cases valid : Utf8.valid part <;> simp [nameParts?, valid]

theorem endsInName_iff {name : Bytes} (split : p.components = init ++ [.name name]) :
    EndsInName p ↔ p.segments.getLast? = some name := by
  rw [EndsInName, Path.fileName_of_components split]

/-- A file that is not called `..class` is named alike however its path is spelled. -/
theorem derive_of_other (same : p.Same q)
    (other : ∀ init, p.components ≠ init ++ [.name (dot :: dot :: classExtension)]) : derive p = derive q := by
  by_cases ending : p.extension = some classExtension
  · obtain ⟨name, named, isClass⟩ := Option.bind_eq_some_iff.mp ending
    obtain ⟨init, split⟩ := Path.components_of_fileName named
    obtain ⟨stem, some, rfl⟩ := (Path.splitName_eq_some_iff (by decide)).mp isClass
    have split' : q.components = init ++ [.name (stem ++ dot :: classExtension)] := same ▸ split
    by_cases dots : stem = [dot, dot]
    · rw [derive_of_dots split (Or.inr dots), derive_of_dots split' (Or.inr dots)]
    · have notDot : stem ≠ [dot] := fun one => other init (by rw [split, one]; rfl)
      have isName := isName_of_split split some notDot dots
      have bare := Path.components_withoutExtension split isName (by decide)
      have bare' := Path.components_withoutExtension split' isName (by decide)
      rw [derive, derive, ← same.extension, bare, bare']
  · rw [derive, derive, ← same.extension, if_neg ending, if_neg ending]

/-- A file that is called `..class` gets a name just if something stands behind it and its directories can be told. -/
theorem derive_of_called (split : p.components = init ++ [.name (dot :: dot :: classExtension)]) :
    (derive p).isSome = true ↔ ¬ EndsInName p ∧ Tellable init := by
  rw [endsInName_iff split]
  by_cases last : p.segments.getLast? = some (dot :: dot :: classExtension)
  · rw [derive_of_dots split (Or.inl ⟨rfl, last⟩)]
    simp [last]
  · rw [derive_of_followed split last, Option.isSome_map, nameParts?_isSome_iff]
    exact (and_iff_right last).symm

theorem derive_eq_iff (same : p.Same q) : derive p = derive q ↔
    ∀ init, p.components = init ++ [.name (dot :: dot :: classExtension)] → Tellable init →
      (EndsInName p ↔ EndsInName q) := by
  by_cases called : ∃ init, p.components = init ++ [.name (dot :: dot :: classExtension)]
  · obtain ⟨init, split⟩ := called
    have split' : q.components = init ++ [.name (dot :: dot :: classExtension)] := same ▸ split
    have told := derive_of_called split
    have told' := derive_of_called split'
    constructor
    · intro equal init' split'' tellable
      obtain rfl : init' = init := List.append_cancel_right (split''.symm.trans split)
      rw [equal] at told
      have followed := told.symm.trans told'
      rwa [and_iff_left tellable, and_iff_left tellable, not_iff_not] at followed
    · intro alike
      -- one spelling gets a name just if the other does, and then the name is that of the directory
      by_cases some : (derive p).isSome = true
      · obtain ⟨followed, tellable⟩ := told.mp some
        have followed' := (not_congr (alike init split tellable)).mp followed
        rw [derive_of_followed split (mt (endsInName_iff split).mpr followed),
          derive_of_followed split' (mt (endsInName_iff split').mpr followed')]
      · have none : ¬ (derive q).isSome = true := by
          intro some'
          obtain ⟨followed, tellable⟩ := told'.mp some'
          exact some (told.mpr ⟨(not_congr (alike init split tellable)).mpr followed, tellable⟩)
        rw [Option.not_isSome_iff_eq_none.mp some, Option.not_isSome_iff_eq_none.mp none]
  · have other := not_exists.mp called
    exact iff_of_true (derive_of_other same other) fun init split => absurd split (other init)

/-- Two spellings of one path are both left out or neither, and their outputs are spellings of one path, or neither has
one. They name one class, or none, exactly if it is not so that the file is called `..class`, its directories can be
told, and just one of the spellings goes on behind it. -/
theorem spellings_agree (same : p.Same q) :
    isSynthetic p = isSynthetic q ∧
    (∀ staging out, Option.Rel Path.Same (outputPath p staging out) (outputPath q staging out)) ∧
    (derive p = derive q ↔ ∀ init, p.components = init ++ [.name (dot :: dot :: classExtension)] → Tellable init →
      (EndsInName p ↔ EndsInName q)) :=
  ⟨isSynthetic_of_same same, outputPath_of_same same, derive_eq_iff same⟩

/-- The file itself is no class, and with a slash behind it, it is one that is called like its directory. -/
theorem spellings_agree_sample :
    (Path.mk (ascii "a$//./..class")).Same ⟨ascii "a$/..class/"⟩ ∧
    isSynthetic ⟨ascii "a$//./..class"⟩ = isSynthetic ⟨ascii "a$/..class/"⟩ ∧
    (∀ staging out, Option.Rel Path.Same (outputPath ⟨ascii "a$//./..class"⟩ staging out)
      (outputPath ⟨ascii "a$/..class/"⟩ staging out)) ∧
    derive ⟨ascii "a$//./..class"⟩ ≠ derive ⟨ascii "a$/..class/"⟩ := by
  have same : (Path.mk (ascii "a$//./..class")).Same ⟨ascii "a$/..class/"⟩ := by decide
  obtain ⟨marked, placed, named⟩ := spellings_agree same
  refine ⟨same, marked, placed, fun equal => ?_⟩
  have split : (Path.mk (ascii "a$//./..class")).components =
      [.name (ascii "a$")] ++ [.name (dot :: dot :: classExtension)] := by decide
  have tellable : Tellable [.name (ascii "a$")] := by
    rw [← nameParts?_isSome_iff]
    decide +kernel
  exact absurd (named.mp equal _ split tellable) (by decide)

example : derive ⟨ascii "a/..class"⟩ = none ∧ derive ⟨ascii "a/..class/"⟩ = some (ascii "a") := by decide +kernel

end Unjar.ClassFile
