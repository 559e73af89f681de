import Unjar.Proofs.CommandLine.Spelling

/-!
What becomes of each argument when a command line is normalized. An argument keeps its place. It gets its second dash
if it is in the old spelling, stands before the first `--` and is UTF-8 throughout, and otherwise it stays as it is.
With two dashes it is in the old spelling no more, so a line that is normalized stays as it is, and its first `--` is
where it was.
-/

namespace Unjar.CommandLine

/-- An argument in the old spelling: an option that names a path behind one dash, alone or with a value attached. -/
inductive Old : Bytes → Prop
  | alone (setting : Setting) : Old (dash :: setting.name)
  | attached (setting : Setting) (value : Bytes) : Old (dash :: (setting.name ++ equals :: value))

variable {argument option : Bytes}

theorem contains_legacyNames {name : Bytes} : legacyNames.contains name = true ↔ ∃ setting : Setting, name = setting.name := by
  constructor
  · intro known
    have cases' : name = ascii "jar" ∨ name = ascii "out" ∨ name = ascii "cfr" := by simpa [legacyNames] using known
    rcases cases' with rfl | rfl | rfl
    · exact ⟨.jar, rfl⟩
    · exact ⟨.out, rfl⟩
    · exact ⟨.cfr, rfl⟩
  · rintro ⟨setting, rfl⟩
    cases setting <;> decide

/-- Up to the first `=` stands the name. -/
theorem old_iff : Old (dash :: option) ↔ ∃ setting : Setting, option.takeWhile (· ≠ equals) = setting.name := by
  constructor
  · rintro (⟨setting⟩ | ⟨setting, value⟩)
    · exact ⟨setting, by cases setting <;> rfl⟩
    · exact ⟨setting, setting.takeWhile_name value⟩
  · rintro ⟨setting, named⟩
    have whole := List.takeWhile_append_dropWhile (p := (· ≠ equals)) (l := option)
    rw [named] at whole
    cases rest : option.dropWhile (· ≠ equals) with
    | nil =>
      rw [rest, List.append_nil] at whole
      rw [← whole]
      exact .alone setting
    | cons octet value =>
      have same : octet = equals := by
        have head := List.head?_dropWhile_not (· ≠ equals) option
        rw [rest] at head
        simpa using head
      rw [rest, same] at whole
      rw [← whole]
      exact .attached setting value

theorem isLegacy_iff : isLegacy argument = true ↔ Old argument ∧ Utf8.valid argument = true := by
  cases argument with
  | nil => exact iff_of_false (by simp [isLegacy]) fun both => nomatch both.1
  | cons first option =>
    by_cases dashed : first = dash
    · subst dashed
      rw [isLegacy, old_iff, ← contains_legacyNames]
      simp [and_comm]
    · refine iff_of_false (by simp [isLegacy, dashed]) ?_
      rintro ⟨⟨_⟩ | ⟨_, _⟩, _⟩ <;> exact dashed rfl

theorem modernize_eq_self_iff : modernize argument = argument ↔ isLegacy argument = false := by
  unfold modernize
  cases isLegacy argument <;> simp

theorem modernize_terminator : modernize terminator = terminator :=
  modernize_eq_self_iff.mpr (by decide)

theorem length_normalize (arguments : List Bytes) : (normalize arguments).length = arguments.length := by
  induction arguments with
  | nil => rfl
  | cons argument rest ih =>
    rw [normalize]
    split
    · rfl
    · rw [List.length_cons, ih, List.length_cons]

theorem getElem?_normalize (arguments : List Bytes) (i : Nat) : (normalize arguments)[i]? =
    if terminator ∈ arguments.take i then arguments[i]? else arguments[i]?.map modernize := by
  induction arguments generalizing i with
  | nil => simp [normalize]
  | cons argument rest ih =>
    rw [normalize]
    cases i with
    | zero =>
      split
      · rename_i ends
        simp [ends, modernize_terminator]
      · simp
    | succ i =>
      split
      · rename_i ends
        simp [ends]
      · rename_i other
        rw [List.getElem?_cons_succ, ih, List.take_succ_cons, List.getElem?_cons_succ]
        simp only [List.mem_cons, Ne.symm other, false_or]

/-- Just the arguments in the old spelling that stand before the first `--` and are UTF-8 get one dash more, and every
other argument, and the place of each, is as it was. -/
theorem normalize_exactly (arguments : List Bytes) : (normalize arguments).length = arguments.length ∧
    ∀ i : Fin arguments.length,
      ((normalize arguments)[i.val]? = some (dash :: arguments[i]) ↔
        terminator ∉ arguments.take i ∧ Old arguments[i] ∧ Utf8.valid arguments[i] = true) ∧
      ((normalize arguments)[i.val]? = some (dash :: arguments[i]) ∨
        (normalize arguments)[i.val]? = some arguments[i]) := by
  refine ⟨length_normalize arguments, fun i => ?_⟩
  have there : arguments[i.val]? = some arguments[i] := List.getElem?_eq_getElem i.isLt
  rw [getElem?_normalize, there, ← isLegacy_iff]
  generalize arguments[i] = argument
  have differs : argument ≠ dash :: argument := fun same => by simpa using congrArg List.length same
  by_cases early : terminator ∈ arguments.take i
  · simp [early, differs]
  · cases legacy : isLegacy argument with
    | true => simp [early, modernize, legacy]
    | false => simp [early, modernize, legacy, differs]

/-- A value that is not UTF-8 keeps its option from being known. -/
example : normalize [ascii "-out=" ++ [0xFF], ascii "-out=a"] = [ascii "-out=" ++ [0xFF], ascii "--out=a"] := by decide

/-! A line that is normalized, and a line in two parts. -/

/-- What an argument becomes is neither in the old spelling nor `--`. -/
theorem kept_modernize (other : argument ≠ terminator) : Kept (modernize argument) := by
  unfold modernize
  split
  · rename_i legacy
    obtain ⟨old, _⟩ := isLegacy_iff.mp legacy
    cases old with
    | alone setting => exact kept_of_dashes (by simpa using setting.name_ne_nil [])
    | attached setting value => exact kept_of_dashes (setting.name_ne_nil _)
  · rename_i modern
    exact ⟨other, Bool.eq_false_iff.mpr modern⟩

theorem normalize_normalize (arguments : List Bytes) : normalize (normalize arguments) = normalize arguments := by
  induction arguments with
  | nil => rfl
  | cons argument rest ih =>
    by_cases ends : argument = terminator
    · rw [normalize, if_pos ends, normalize, if_pos ends]
    · have kept : ∀ word ∈ [modernize argument], Kept word := List.forall_mem_singleton.mpr (kept_modernize ends)
      have again := normalize_append_of_kept kept (normalize rest)
      rw [normalize, if_neg ends]
      rwa [ih] at again

theorem idxOf?_normalize (arguments : List Bytes) :
    (normalize arguments).idxOf? terminator = arguments.idxOf? terminator := by
  induction arguments with
  | nil => rfl
  | cons argument rest ih =>
    by_cases ends : argument = terminator
    · rw [normalize, if_pos ends]
    · rw [normalize, if_neg ends, List.idxOf?_cons, List.idxOf?_cons, if_neg (by simpa using (kept_modernize ends).1),
        if_neg (by simpa using ends), ih]

/-- A `--` in the front of a line keeps the rest of it from being looked at. -/
theorem normalize_append (front back : List Bytes) :
    normalize (front ++ back) = normalize front ++ if terminator ∈ front then back else normalize back := by
  induction front with
  | nil => simp [normalize]
  | cons argument rest ih =>
    rw [List.cons_append, normalize, normalize]
    by_cases ends : argument = terminator
    · simp [ends]
    · rw [if_neg ends, if_neg ends, ih]
      simp only [List.cons_append, List.mem_cons, Ne.symm ends, false_or]

theorem normalize_singleton (argument : Bytes) : normalize [argument] = [modernize argument] := by
  rw [normalize]
  split
  · rename_i ends
    rw [ends, modernize_terminator]
  · rfl

theorem modernize_eq_cons_iff : modernize argument = dash :: argument ↔ isLegacy argument = true := by
  have differs : argument ≠ dash :: argument := fun same => by simpa using congrArg List.length same
  unfold modernize
  cases isLegacy argument <;> simp [differs]

/-- Normalizing a line once more changes nothing, and its first `--` keeps its place. The parts of a line are normalized
each by itself, except that nothing behind a `--` is, and by itself an argument gets its second dash just if it is in
the old spelling and UTF-8. -/
theorem normalize_stable (arguments : List Bytes) :
    normalize (normalize arguments) = normalize arguments ∧
    (normalize arguments).idxOf? terminator = arguments.idxOf? terminator ∧
    (∀ front back, normalize (front ++ back) =
      normalize front ++ if terminator ∈ front then back else normalize back) ∧
    ∀ argument, normalize [argument] = [dash :: argument] ↔ Old argument ∧ Utf8.valid argument = true := by
  refine ⟨normalize_normalize arguments, idxOf?_normalize arguments, normalize_append, fun argument => ?_⟩
  rw [normalize_singleton, List.cons.injEq, and_iff_left rfl, modernize_eq_cons_iff, isLegacy_iff]

end Unjar.CommandLine
