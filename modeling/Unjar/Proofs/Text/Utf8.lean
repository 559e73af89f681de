import Mathlib.Data.List.Basic
import Unjar.Text.Utf8

/-!
ASCII characters in text that may be broken: they stand as they are, and the replacement of what is
broken brings none. In front of a text they do not bear on whether it is broken.
-/

namespace Unjar.Utf8

/-- A character under way holds no ASCII character, and none is to come next. -/
structure Unfinished.Beyond (u : Unfinished) : Prop where
  taken : ∀ octet ∈ u.taken, 0x80 ≤ octet
  low : 0x80 ≤ u.low

def Beyond (state : Option Unfinished) : Prop :=
  ∀ u ∈ state, u.Beyond

variable {octet b : UInt8} {state : Option Unfinished}

theorem following_cases (first : UInt8) :
    (first < 0x80 ∧ following first = some (0, 0, 0)) ∨ (0x80 ≤ first ∧ following first = none) ∨
      (0x80 ≤ first ∧ ∃ owed low high, owed ≠ 0 ∧ 0x80 ≤ low ∧ following first = some (owed, low, high)) := by
  by_cases isAscii : first < 0x80
  · exact Or.inl ⟨isAscii, if_pos isAscii⟩
  · have beyond := UInt8.not_lt.mp isAscii
    right
    unfold following
    rw [if_neg isAscii]
    split_ifs
    · exact Or.inl ⟨beyond, rfl⟩
    all_goals first
      | exact Or.inr ⟨beyond, _, _, _, by decide, by decide, rfl⟩
      | exact Or.inl ⟨beyond, rfl⟩

theorem notMem_of_beyond {octets : Bytes} (isAscii : octet < 0x80) (beyond : ∀ other ∈ octets, 0x80 ≤ other) :
    octet ∉ octets :=
  fun member => UInt8.not_lt.mpr (beyond octet member) isAscii

theorem notMem_replacement (isAscii : octet < 0x80) : octet ∉ replacement :=
  notMem_of_beyond isAscii (by decide +kernel)

theorem start_beyond (b : UInt8) : Beyond (start b).2 := by
  unfold start
  rcases following_cases b with ⟨_, found⟩ | ⟨_, found⟩ | ⟨high, owed, low, _, more, beyond, found⟩
  · rw [found]
    rintro u ⟨⟩
  · rw [found]
    rintro u ⟨⟩
  · rw [found]
    obtain ⟨owed, rfl⟩ := Nat.exists_eq_succ_of_ne_zero more
    rintro u ⟨⟩
    exact ⟨by simpa using high, beyond⟩

theorem mem_start (isAscii : octet < 0x80) : octet ∈ (start b).1.flatMap Piece.octets ↔ octet = b := by
  unfold start
  rcases following_cases b with ⟨_, found⟩ | ⟨high, found⟩ | ⟨high, owed, low, _, more, _, found⟩
  · rw [found]
    simp [Piece.octets]
  · rw [found]
    have differs : octet ≠ b := fun same => UInt8.not_lt.mpr high (same ▸ isAscii)
    simp [Piece.octets, notMem_replacement isAscii, differs]
  · rw [found]
    obtain ⟨owed, rfl⟩ := Nat.exists_eq_succ_of_ne_zero more
    have differs : octet ≠ b := fun same => UInt8.not_lt.mpr high (same ▸ isAscii)
    simp [differs]

theorem step_beyond (beyond : Beyond state) : Beyond (step state b).2 := by
  cases state with
  | none => exact start_beyond b
  | some u =>
    obtain ⟨taken, low⟩ := beyond u rfl
    rw [step]
    split_ifs with fits last
    · rintro u ⟨⟩
    · rintro u' ⟨⟩
      refine ⟨?_, UInt8.le_refl _⟩
      intro other member
      rcases List.mem_append.mp member with before | here
      · exact taken other before
      · exact List.mem_singleton.mp here ▸ UInt8.le_trans low fits.1
    · exact start_beyond b

theorem mem_step (isAscii : octet < 0x80) (beyond : Beyond state) :
    octet ∈ (step state b).1.flatMap Piece.octets ↔ octet = b := by
  cases state with
  | none => exact mem_start isAscii
  | some u =>
    obtain ⟨taken, low⟩ := beyond u rfl
    rw [step]
    split_ifs with fits last
    · have differs : octet ≠ b := fun same => UInt8.not_lt.mpr (UInt8.le_trans low fits.1) (same ▸ isAscii)
      simp [Piece.octets, notMem_of_beyond isAscii taken, differs]
    · have differs : octet ≠ b := fun same => UInt8.not_lt.mpr (UInt8.le_trans low fits.1) (same ▸ isAscii)
      simp [differs]
    · rw [List.flatMap_cons, List.mem_append, mem_start isAscii]
      simp [Piece.octets, notMem_replacement isAscii]

theorem mem_piecesFrom (isAscii : octet < 0x80) (bytes : Bytes) (beyond : Beyond state) :
    octet ∈ (piecesFrom state bytes).flatMap Piece.octets ↔ octet ∈ bytes := by
  induction bytes generalizing state with
  | nil =>
    cases state with
    | none => simp [piecesFrom]
    | some u => simp [piecesFrom, Piece.octets, notMem_replacement isAscii]
  | cons b rest ih =>
    rw [piecesFrom.eq_3, List.flatMap_append, List.mem_append, mem_step isAscii beyond, ih (step_beyond beyond),
      List.mem_cons]

/-- An ASCII character is in a text just if it is in it as it is shown. -/
theorem contains_lossy (isAscii : octet < 0x80) (bytes : Bytes) :
    (lossy bytes).contains octet = bytes.contains octet := by
  have same := @mem_piecesFrom octet none isAscii bytes (by rintro u ⟨⟩)
  rw [Bool.eq_iff_iff, List.contains_iff_mem, List.contains_iff_mem]
  exact same

/-- ASCII characters in front of a text do not bear on whether it is sound. -/
theorem valid_append {front : Bytes} (isAscii : ∀ octet ∈ front, octet < 0x80) (bytes : Bytes) :
    valid (front ++ bytes) = valid bytes := by
  induction front with
  | nil => rfl
  | cons octet rest ih =>
    have alone : step none octet = ([.scalar [octet]], none) := by
      rw [step, start, following, if_pos (isAscii octet List.mem_cons_self)]
      rfl
    rw [← ih fun other member => isAscii other (List.mem_cons_of_mem _ member), List.cons_append, valid, pieces,
      piecesFrom.eq_3, alone]
    rfl

/-- ASCII characters behind a text do not bear on whether it is sound: they continue no character. -/
theorem valid_append_ascii {back : Bytes} (isAscii : ∀ octet ∈ back, octet < 0x80) (bytes : Bytes) :
    valid (bytes ++ back) = valid bytes := by
  have goesOn : ∀ state, Beyond state →
      (piecesFrom state (bytes ++ back)).all Piece.isScalar = (piecesFrom state bytes).all Piece.isScalar := by
    induction bytes with
    | nil =>
      intro state beyond
      cases state with
      | none =>
        have alone := valid_append isAscii []
        rwa [List.append_nil] at alone
      | some u =>
        cases back with
        | nil => rfl
        | cons octet rest =>
          have unfit : ¬ (u.low ≤ octet ∧ octet ≤ u.high) := fun fits =>
            UInt8.not_lt.mpr (UInt8.le_trans (beyond u rfl).low fits.1) (isAscii octet List.mem_cons_self)
          rw [List.nil_append, piecesFrom.eq_3, step, if_neg unfit]
          rfl
    | cons octet rest ih =>
      intro state beyond
      rw [List.cons_append, piecesFrom.eq_3, piecesFrom.eq_3, List.all_append, List.all_append, ih _ (step_beyond beyond)]
  exact goesOn none (by rintro u ⟨⟩)

/-- An octet that leaves no character under way has put something into the text that is shown. -/
theorem octets_of_step (finished : (step state b).2 = none) : (step state b).1.flatMap Piece.octets ≠ [] := by
  have shown : ∀ pieces, (Piece.broken [] :: pieces).flatMap Piece.octets ≠ [] := fun pieces => by
    rw [List.flatMap_cons, Piece.octets, replacement]
    simp
  have started : (start b).2 = none → (start b).1.flatMap Piece.octets ≠ [] := by
    unfold start
    rcases following_cases b with ⟨_, found⟩ | ⟨_, found⟩ | ⟨_, owed, low, _, more, _, found⟩
    · rw [found]
      simp [Piece.octets]
    · rw [found]
      exact fun _ => shown []
    · obtain ⟨owed, rfl⟩ := Nat.exists_eq_succ_of_ne_zero more
      rw [found]
      rintro ⟨⟩
  cases state with
  | none => exact started finished
  | some u =>
    rw [step] at finished ⊢
    split_ifs at finished ⊢
    · simp [Piece.octets]
    · exact shown (start b).1

theorem eq_nil_of_octets {bytes : Bytes} (nothing : (piecesFrom state bytes).flatMap Piece.octets = []) :
    state = none ∧ bytes = [] := by
  induction bytes generalizing state with
  | nil =>
    cases state with
    | none => exact ⟨rfl, rfl⟩
    | some u => simp [piecesFrom, Piece.octets, replacement] at nothing
  | cons octet rest ih =>
    rw [piecesFrom.eq_3, List.flatMap_append, List.append_eq_nil_iff] at nothing
    exact absurd nothing.1 (octets_of_step (ih nothing.2).1)

/-- Text is shown as nothing only if it is nothing. -/
theorem lossy_ne_nil {bytes : Bytes} (some : bytes ≠ []) : lossy bytes ≠ [] :=
  fun nothing => some (eq_nil_of_octets nothing).2

end Unjar.Utf8
