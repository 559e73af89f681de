import Unjar.Bytes
import Unjar.Fault

/-!
Deflated data, expanded bit by bit into a window. What was expanded is handed over when the window is
full and when a chunk of the deflated data is used up, and what was not handed over is lost when the
data turns out to be corrupt. Data that just ends loses nothing.
-/

namespace Unjar.Deflate

def windowSize : Nat := 32768

/-- The reader asks for so many octets at once. A full window with less in it that is new is not
handed over before more is expanded, unless the chunk at hand is used up. -/
def requestSize : Nat := 8192

/-- The bits in one chunk of deflated data. -/
def chunkBits : Nat := 8192 * 8

inductive Failure where
  | exhausted
  | corrupt

structure State where
  bits : List Bool
  used : Nat := 0
  out : Array UInt8 := #[]
  /-- How many octets were handed over. -/
  handed : Nat := 0

abbrev Decoder := EStateM Failure State

def bitsOf (data : Bytes) : List Bool :=
  data.flatMap fun octet => (List.range 8).map octet.toNat.testBit

/-- The next bit. All is handed over before the first bit of a further chunk is looked for. -/
def bit : Decoder Bool := do
  let s ← get
  let handed := if s.used % chunkBits = 0 then s.out.size else s.handed
  match s.bits with
  | [] => throw .exhausted
  | b :: rest =>
    set { s with bits := rest, used := s.used + 1, handed }
    return b

/-- A number of `width` bits, the least significant first. -/
def number : Nat → Decoder Nat
  | 0 => return 0
  | width + 1 => do
    let low ← bit
    let high ← number width
    return low.toNat + 2 * high

/-- Whether no octet of the chunk at hand is untouched. -/
def State.chunkUsedUp (s : State) : Bool :=
  (s.used + 7) / 8 * 8 % chunkBits = 0 || s.bits.length < 8

/-- The window is full where the first of `count` more octets, or one behind it, would start it
anew. -/
def State.makeRoom (s : State) (count : Nat) : State :=
  let edge := (s.out.size + count - 1) / windowSize * windowSize
  if s.out.size ≤ edge ∧ (s.handed + requestSize ≤ edge ∨ s.chunkUsedUp) then
    { s with handed := max s.handed edge }
  else s

def emit (octet : UInt8) : Decoder Unit :=
  modify fun s =>
    let s := s.makeRoom 1
    { s with out := s.out.push octet }

def longestCode : Nat := 15

/-- A canonical prefix code: how many codes there are of each length from one on, and the symbols in
the order of their codes. -/
structure Code where
  counts : List Nat
  symbols : Array Nat

/-- The code with these code lengths, a length of zero being a symbol without a code. Every bit string
must start with a code or be the start of one, but a `lenient` code may also have no code at all, or
just one of a single bit. -/
def Code.ofLengths? (lenient : Bool) (lengths : List Nat) : Option Code :=
  let counts := (List.range longestCode).map fun l => lengths.count (l + 1)
  let space := counts.foldl (fun total count => (total + count) * 2) 0
  let used := counts.foldl (· + ·) 0
  let sparse := used = 0 ∨ (used = 1 ∧ counts.head? = some 1)
  if space ≠ 1 <<< (longestCode + 1) ∧ ¬ (lenient ∧ sparse) then none
  else
    let numbered := lengths.zipIdx
    let symbols := (List.range longestCode).flatMap fun l =>
      numbered.filterMap fun (length, symbol) => if length = l + 1 then some symbol else none
    let longest := max 1 (lengths.foldl max 0)
    some ⟨counts.take longest, symbols.toArray⟩

/-- Reads on through the lengths: `first` is the first code of the length at hand and `index` the
place of its symbol. No code is longer than the last of the lengths. -/
def Code.symbolFrom (symbols : Array Nat) : List Nat → (code first index : Nat) → Decoder Nat
  | [], _, _, _ => throw .corrupt
  | count :: counts, code, first, index => do
    let code := code + (← bit).toNat
    if code < first + count then
      match symbols[index + (code - first)]? with
      | some symbol => return symbol
      | none => throw .corrupt
    else Code.symbolFrom symbols counts (code * 2) ((first + count) * 2) (index + count)

def Code.symbol (c : Code) : Decoder Nat :=
  Code.symbolFrom c.symbols c.counts 0 0 0

def codeOf (lenient : Bool) (lengths : List Nat) : Decoder Code :=
  match Code.ofLengths? lenient lengths with
  | some code => return code
  | none => throw .corrupt

/-- Base length and extra bits of the symbols from 257 on. -/
def lengthTable : Array (Nat × Nat) := #[
  (3, 0), (4, 0), (5, 0), (6, 0), (7, 0), (8, 0), (9, 0), (10, 0), (11, 1), (13, 1), (15, 1), (17, 1),
  (19, 2), (23, 2), (27, 2), (31, 2), (35, 3), (43, 3), (51, 3), (59, 3), (67, 4), (83, 4), (99, 4),
  (115, 4), (131, 5), (163, 5), (195, 5), (227, 5), (258, 0)]

def distanceTable : Array (Nat × Nat) := #[
  (1, 0), (2, 0), (3, 0), (4, 0), (5, 1), (7, 1), (9, 2), (13, 2), (17, 3), (25, 3), (33, 4), (49, 4),
  (65, 5), (97, 5), (129, 6), (193, 6), (257, 7), (385, 7), (513, 8), (769, 8), (1025, 9), (1537, 9),
  (2049, 10), (3073, 10), (4097, 11), (6145, 11), (8193, 12), (12289, 12), (16385, 13), (24577, 13)]

def amount (table : Array (Nat × Nat)) (symbol : Nat) : Decoder Nat :=
  match table[symbol]? with
  | some (base, extra) => return base + (← number extra)
  | none => throw .corrupt

/-- Repeats what stands `distance` octets back. Before the first octet the window holds zeros. -/
def repeatBack (distance : Nat) : Nat → Array UInt8 → Array UInt8
  | 0, out => out
  | count + 1, out =>
    let octet := if distance ≤ out.size then out.getD (out.size - distance) 0 else 0
    repeatBack distance count (out.push octet)

/-- The symbols of a block up to its end. Every symbol takes a bit at least, so the number of bits
left bounds their number. -/
def symbols (literals distances : Code) : Nat → Decoder Unit
  | 0 => throw .exhausted
  | fuel + 1 => do
    let symbol ← literals.symbol
    if symbol < 256 then
      emit symbol.toUInt8
      symbols literals distances fuel
    else if symbol = 256 then return
    else
      let length ← amount lengthTable (symbol - 257)
      let distance ← amount distanceTable (← distances.symbol)
      modify fun s =>
        let s := s.makeRoom length
        { s with out := repeatBack distance length s.out }
      symbols literals distances fuel

def storedOctets : Nat → Decoder Unit
  | 0 => return
  | count + 1 => do
    emit (← number 8).toUInt8
    storedOctets count

def stored : Decoder Unit := do
  let _ ← number ((8 - (← get).used % 8) % 8)
  let length ← number 16
  let inverse ← number 16
  if length + inverse = 0xFFFF then storedOctets length else throw .corrupt

def fixedLiterals : List Nat :=
  List.replicate 144 8 ++ List.replicate 112 9 ++ List.replicate 24 7 ++ List.replicate 8 8

def fixedDistances : List Nat :=
  List.replicate 32 5

/-- The order in which the lengths of the code for code lengths are given. -/
def lengthOrder : List Nat :=
  [16, 17, 18, 0, 8, 7, 9, 6, 10, 5, 11, 4, 12, 3, 13, 2, 14, 1, 15]

def numbers (width : Nat) : Nat → Decoder (List Nat)
  | 0 => return []
  | count + 1 => do
    let first ← number width
    return first :: (← numbers width count)

/-- Code lengths, the latest first, until there are `total`. -/
def codeLengths (code : Code) (total : Nat) : Nat → List Nat → Decoder (List Nat)
  | 0, _ => throw .corrupt
  | fuel + 1, soFar => do
    if soFar.length = total then return soFar.reverse
    else if total < soFar.length then throw .corrupt
    else
      let symbol ← code.symbol
      if symbol < 16 then codeLengths code total fuel (symbol :: soFar)
      else if symbol = 16 then
        match soFar with
        | [] => throw .corrupt
        | last :: _ =>
          let count := 3 + (← number 2)
          codeLengths code total fuel (List.replicate count last ++ soFar)
      else
        let (least, width) := if symbol = 17 then (3, 3) else (11, 7)
        let count := least + (← number width)
        codeLengths code total fuel (List.replicate count 0 ++ soFar)

def dynamicCodes : Decoder (Code × Code) := do
  let literals := 257 + (← number 5)
  let distances := 1 + (← number 5)
  let count := 4 + (← number 4)
  if 286 < literals ∨ 30 < distances then throw .corrupt
  let ordered := lengthOrder.zip (← numbers 3 count)
  let code ← codeOf false ((List.range 19).map fun symbol => (ordered.lookup symbol).getD 0)
  let total := literals + distances
  let lengths ← codeLengths code total (total + 1) []
  return (← codeOf true (lengths.take literals), ← codeOf true (lengths.drop literals))

/-- The blocks of the data up to the last one. Every block takes three bits at least. -/
def blocks : Nat → Decoder Unit
  | 0 => throw .exhausted
  | fuel + 1 => do
    let last ← bit
    let kind ← number 2
    match kind with
    | 0 => stored
    | 1 => symbols (← codeOf true fixedLiterals) (← codeOf true fixedDistances) ((← get).bits.length + 1)
    | 2 =>
      let (literals, distances) ← dynamicCodes
      symbols literals distances ((← get).bits.length + 1)
    | _ => throw .corrupt
    if last then return else blocks fuel

/-- The expanded data as far as it is handed over, and the fault that ends it early. -/
def expand (data : Bytes) : Bytes × Option Fault :=
  let bits := bitsOf data
  match blocks (bits.length + 1) { bits } with
  | .ok _ s => (s.out.toList, none)
  | .error .exhausted s => (s.out.toList, some .incompleteDeflate)
  | .error .corrupt s => ((s.out.take s.handed).toList, some .corruptDeflate)

end Unjar.Deflate
