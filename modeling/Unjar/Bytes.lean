namespace Unjar

/-- Octets as a program reads and writes them. Text is kept as its UTF-8 octets. -/
abbrev Bytes := List UInt8

/-- The octets of a text that holds ASCII characters only. -/
def ascii (text : String) : Bytes :=
  text.toList.map fun c => c.toNat.toUInt8

namespace Bytes

/-- The pieces between separators: one more than there are separators, possibly empty. -/
def splitOn (separator : UInt8) : Bytes → List Bytes
  | [] => [[]]
  | b :: rest =>
    if b = separator then [] :: splitOn separator rest
    else match splitOn separator rest with
      | [] => [[b]]
      | piece :: pieces => (b :: piece) :: pieces

def joinWith (separator : UInt8) : List Bytes → Bytes
  | [] => []
  | [piece] => piece
  | piece :: pieces => piece ++ separator :: joinWith separator pieces

theorem splitOn_ne_nil (separator : UInt8) (bytes : Bytes) : splitOn separator bytes ≠ [] := by
  cases bytes with
  | nil => simp [splitOn]
  | cons b rest =>
    simp only [splitOn]
    split
    · simp
    · split <;> simp

theorem joinWith_cons (separator : UInt8) (piece : Bytes) {pieces : List Bytes} (more : pieces ≠ []) :
    joinWith separator (piece :: pieces) = piece ++ separator :: joinWith separator pieces := by
  cases pieces with
  | nil => exact absurd rfl more
  | cons => rfl

theorem joinWith_splitOn (separator : UInt8) (bytes : Bytes) :
    joinWith separator (splitOn separator bytes) = bytes := by
  induction bytes with
  | nil => rfl
  | cons b rest ih =>
    have nonempty := splitOn_ne_nil separator rest
    simp only [splitOn]
    split
    next same => rw [joinWith_cons _ _ nonempty, ih, same]; rfl
    next =>
      split
      next none => exact absurd none nonempty
      next piece pieces some =>
        rw [some] at ih
        cases pieces with
        | nil => simpa [joinWith] using ih
        | cons => simpa [joinWith] using ih

theorem separator_notMem_of_mem_splitOn {separator : UInt8} {bytes piece : Bytes}
    (member : piece ∈ splitOn separator bytes) : separator ∉ piece := by
  induction bytes generalizing piece with
  | nil => simp [splitOn] at member; simp [member]
  | cons b rest ih =>
    simp only [splitOn] at member
    split at member
    next =>
      rcases List.mem_cons.1 member with rfl | later
      · simp
      · exact ih later
    next differs =>
      split at member
      next none => exact absurd none (splitOn_ne_nil _ _)
      next first pieces some =>
        rcases List.mem_cons.1 member with rfl | later
        · intro inside
          rcases List.mem_cons.1 inside with same | inside
          · exact differs same.symm
          · exact ih (by rw [some]; exact List.mem_cons_self) inside
        · exact ih (by rw [some]; exact List.mem_cons_of_mem _ later)

theorem splitOn_of_notMem {separator : UInt8} {piece : Bytes} (clean : separator ∉ piece) :
    splitOn separator piece = [piece] := by
  induction piece with
  | nil => rfl
  | cons b rest ih =>
    rw [List.mem_cons, not_or] at clean
    simp [splitOn, Ne.symm clean.1, ih clean.2]

theorem splitOn_append {separator : UInt8} {piece : Bytes} (clean : separator ∉ piece) (rest : Bytes) :
    splitOn separator (piece ++ separator :: rest) = piece :: splitOn separator rest := by
  induction piece with
  | nil => simp [splitOn]
  | cons b piece ih =>
    rw [List.mem_cons, not_or] at clean
    simp [splitOn, Ne.symm clean.1, ih clean.2]

theorem splitOn_joinWith {separator : UInt8} {pieces : List Bytes} (nonempty : pieces ≠ [])
    (clean : ∀ piece ∈ pieces, separator ∉ piece) :
    splitOn separator (joinWith separator pieces) = pieces := by
  induction pieces with
  | nil => exact absurd rfl nonempty
  | cons piece pieces ih =>
    have here := clean piece List.mem_cons_self
    by_cases last : pieces = []
    · subst last; exact splitOn_of_notMem here
    · rw [joinWith_cons _ _ last, splitOn_append here,
        ih last fun p member => clean p (List.mem_cons_of_mem _ member)]

/-- Names are ordered octet by octet. -/
def insertBy {α : Type} (key : α → Bytes) (x : α) : List α → List α
  | [] => [x]
  | y :: ys => if key x ≤ key y then x :: y :: ys else y :: insertBy key x ys

def sortBy {α : Type} (key : α → Bytes) (xs : List α) : List α :=
  xs.foldr (insertBy key) []

end Bytes

end Unjar
