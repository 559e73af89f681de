import Unjar.CommandLine.Arguments
import Unjar.Proofs.Text.Utf8

/-!
The spellings of a command line, item by item. The second dash that old spellings lack is given to them, and every
other argument stays as it is, whatever value it holds.
-/

namespace Unjar.CommandLine

/-- The options that name a path. -/
inductive Setting where
  | jar
  | out
  | cfr
  deriving DecidableEq

def Setting.name : Setting → Bytes
  | jar => ascii "jar"
  | out => ascii "out"
  | cfr => ascii "cfr"

/-- What a command line is made of. -/
inductive Item where
  | className (name : Bytes)
  | set (setting : Setting) (value : Bytes)
  | reuse
  | verbose
  deriving DecidableEq

/-- Items that can be told from options, and hold a value where one is needed. -/
def Item.Sound : Item → Prop
  | className name => name ≠ [] ∧ name.head? ≠ some dash ∧ Utf8.valid name = true
  | set _ value => value ≠ []
  | reuse | verbose => True

/-- The arguments that the grammar knows an item by. -/
inductive Modern : Item → List Bytes → Prop
  | className (name : Bytes) : Modern (.className name) [name]
  | apart (setting : Setting) {value : Bytes} : value.head? ≠ some dash →
      Modern (.set setting value) [dash :: dash :: setting.name, value]
  | attached (setting : Setting) (value : Bytes) :
      Modern (.set setting value) [dash :: dash :: (setting.name ++ equals :: value)]
  | reuse : Modern .reuse [ascii "--reuse-class-name"]
  | verbose : Modern .verbose [ascii "--verbose"]
  | letter : Modern .verbose [ascii "-v"]

/-- The arguments that an item may be spelled with: options that name a path may lack a dash. -/
inductive Spelled : Item → List Bytes → Prop
  | modern {item : Item} {words : List Bytes} : Modern item words → Spelled item words
  | apart (setting : Setting) {value : Bytes} : value.head? ≠ some dash →
      Spelled (.set setting value) [dash :: setting.name, value]
  | attached (setting : Setting) {value : Bytes} : Utf8.valid value = true →
      Spelled (.set setting value) [dash :: (setting.name ++ equals :: value)]

/-- Arguments that stay as they are, and let those behind them be looked at. -/
def Kept (argument : Bytes) : Prop :=
  argument ≠ terminator ∧ isLegacy argument = false

theorem kept_of_head {argument : Bytes} (value : argument.head? ≠ some dash) : Kept argument := by
  cases argument with
  | nil => exact ⟨by decide, rfl⟩
  | cons first rest =>
    have differs : first ≠ dash := fun same => value (by rw [same]; rfl)
    exact ⟨fun same => differs (List.cons.inj same).1, by simp [isLegacy, differs]⟩

theorem kept_of_dashes {option : Bytes} (some : option ≠ []) : Kept (dash :: dash :: option) := by
  refine ⟨fun same => some (List.cons.inj (List.cons.inj same).2).2, ?_⟩
  have unnamed : legacyNames.contains ((dash :: option).takeWhile (· ≠ equals)) = false := by
    rw [List.takeWhile_cons_of_pos (by decide)]
    simp [legacyNames, ascii, dash]
  rw [isLegacy, unnamed, Bool.and_false]

theorem normalize_append_of_kept {words : List Bytes} (kept : ∀ word ∈ words, Kept word) (rest : List Bytes) :
    normalize (words ++ rest) = words ++ normalize rest := by
  induction words with
  | nil => rfl
  | cons word words ih =>
    obtain ⟨other, modern⟩ := kept word List.mem_cons_self
    rw [List.cons_append, normalize, if_neg other, ih fun later member => kept later (List.mem_cons_of_mem _ member),
      modernize, if_neg (by simp [modern]), List.cons_append]

theorem normalize_legacy {option : Bytes} (legacy : isLegacy (dash :: option) = true) (rest : List Bytes) :
    normalize ((dash :: option) :: rest) = (dash :: dash :: option) :: normalize rest := by
  have other : dash :: option ≠ terminator := by
    rintro same
    rw [same] at legacy
    revert legacy
    decide
  rw [normalize, if_neg other, modernize, if_pos legacy]

theorem Setting.name_ne_nil (setting : Setting) (more : Bytes) : setting.name ++ more ≠ [] := by
  cases setting <;> exact List.cons_ne_nil _ _

theorem Setting.takeWhile_name (setting : Setting) (value : Bytes) :
    (setting.name ++ equals :: value).takeWhile (· ≠ equals) = setting.name := by
  cases setting <;> rfl

theorem Modern.kept {item : Item} {words : List Bytes} (modern : Modern item words) (sound : item.Sound) :
    ∀ word ∈ words, Kept word := by
  cases modern with
  | className name =>
    simp only [List.mem_singleton, forall_eq]
    exact kept_of_head sound.2.1
  | apart setting value =>
    simp only [List.mem_cons, List.not_mem_nil, or_false, forall_eq_or_imp, forall_eq]
    exact ⟨kept_of_dashes (by simpa using setting.name_ne_nil []), kept_of_head value⟩
  | attached setting value =>
    simp only [List.mem_singleton, forall_eq]
    exact kept_of_dashes (setting.name_ne_nil _)
  | reuse | verbose =>
    simp only [List.mem_singleton, forall_eq]
    exact kept_of_dashes (by decide)
  | letter =>
    simp only [List.mem_singleton, forall_eq]
    exact ⟨by decide, by decide⟩

/-- An option with a value attached is UTF-8 if the value is. -/
theorem Setting.valid_attached (setting : Setting) (value : Bytes) :
    Utf8.valid (dash :: (setting.name ++ equals :: value)) = Utf8.valid value := by
  have all : (dash :: (setting.name ++ [equals])).all (· < 0x80) = true := by
    cases setting <;> rfl
  have isAscii : ∀ octet ∈ dash :: (setting.name ++ [equals]), octet < 0x80 :=
    fun octet member => of_decide_eq_true (List.all_eq_true.mp all octet member)
  have front := Utf8.valid_append isAscii value
  rwa [List.cons_append, List.append_assoc] at front

theorem isLegacy_attached (setting : Setting) {value : Bytes} (valid : Utf8.valid value = true) :
    isLegacy (dash :: (setting.name ++ equals :: value)) = true := by
  have known : legacyNames.contains setting.name = true := by
    cases setting <;> decide
  rw [isLegacy, setting.valid_attached, valid, setting.takeWhile_name, known]
  rfl

/-- However an item is spelled, the grammar knows it when the line is normalized. -/
theorem Spelled.normalize {item : Item} {words : List Bytes} (spelled : Spelled item words) (sound : item.Sound) :
    ∃ words', Modern item words' ∧
      ∀ rest, CommandLine.normalize (words ++ rest) = words' ++ CommandLine.normalize rest := by
  cases spelled with
  | modern modern => exact ⟨words, modern, normalize_append_of_kept (modern.kept sound)⟩
  | @apart setting value bare =>
    refine ⟨_, .apart setting bare, fun rest => ?_⟩
    have legacy : isLegacy (dash :: setting.name) = true := by cases setting <;> decide
    have kept : ∀ word ∈ [value], Kept word := by simpa using kept_of_head bare
    rw [List.cons_append, normalize_legacy legacy, normalize_append_of_kept kept]
    rfl
  | attached setting valid =>
    exact ⟨_, .attached setting _, fun rest => normalize_legacy (isLegacy_attached setting valid) rest⟩

theorem normalize_spelled {items : List Item} {groups : List (List Bytes)} (sound : ∀ item ∈ items, item.Sound)
    (spelled : List.Forall₂ Spelled items groups) :
    ∃ groups', List.Forall₂ Modern items groups' ∧ normalize groups.flatten = groups'.flatten := by
  induction spelled with
  | nil => exact ⟨[], .nil, rfl⟩
  | cons first _ ih =>
    obtain ⟨words, modern, here⟩ := first.normalize (sound _ List.mem_cons_self)
    obtain ⟨groups', moderns, later⟩ := ih fun item member => sound item (List.mem_cons_of_mem _ member)
    exact ⟨words :: groups', .cons modern moderns, by rw [List.flatten_cons, here, later, List.flatten_cons]⟩

end Unjar.CommandLine
