import Mathlib.Algebra.GroupWithZero.Nat
import Mathlib.Data.Char
import Mathlib.Data.List.Basic

/-!
# Lossy decoding of UTF-8

A byte string is read from left to right as characters and malformed sequences.  A malformed
sequence is the longest start of a character that cannot go on as one; each of them stands for one
replacement character.
-/

namespace Utf8Lossy

/-- What is read in one go: a character, or a malformed sequence of so many bytes. -/
inductive Piece where
  | scalar (char : Char)
  | malformed (size : Nat)
  deriving DecidableEq, Repr

namespace Piece

/-- The character that stands for the piece. -/
def toChar : Piece → Char
  | .scalar char => char
  | .malformed _ => '\uFFFD'

/-- The bytes the piece was read from. -/
def size : Piece → Nat
  | .scalar char => char.utf8Size
  | .malformed size => size

end Piece

/-- The bytes that may follow, as ranges. -/
def followers (lead : Nat) : Option (List (Nat × Nat)) :=
  if lead < 0x80 then some []
  else if lead < 0xC2 then none
  else if lead < 0xE0 then some [(0x80, 0xBF)]
  else if lead = 0xE0 then some [(0xA0, 0xBF), (0x80, 0xBF)]
  else if lead = 0xED then some [(0x80, 0x9F), (0x80, 0xBF)]
  else if lead < 0xF0 then some [(0x80, 0xBF), (0x80, 0xBF)]
  else if lead = 0xF0 then some [(0x90, 0xBF), (0x80, 0xBF), (0x80, 0xBF)]
  else if lead < 0xF4 then some [(0x80, 0xBF), (0x80, 0xBF), (0x80, 0xBF)]
  else if lead = 0xF4 then some [(0x80, 0x8F), (0x80, 0xBF), (0x80, 0xBF)]
  else none

/-- How many of the bytes are in the ranges, one after the other. -/
def taken : List (Nat × Nat) → List UInt8 → Nat
  | (low, high) :: ranges, byte :: bytes =>
      if low ≤ byte.toNat ∧ byte.toNat ≤ high then taken ranges bytes + 1 else 0
  | _, _ => 0

/-- The code point of a sequence. -/
def codePoint : List UInt8 → Nat
  | [first] => first.toNat
  | [first, second] => first.toNat % 32 * 64 + second.toNat % 64
  | [first, second, third] =>
      first.toNat % 16 * 4096 + second.toNat % 64 * 64 + third.toNat % 64
  | [first, second, third, fourth] =>
      first.toNat % 8 * 262144 + second.toNat % 64 * 4096 + third.toNat % 64 * 64 +
        fourth.toNat % 64
  | _ => 0

/-- The piece that starts with a byte, and how many of the bytes after it belong to it. -/
def piece (lead : UInt8) (bytes : List UInt8) : Piece × Nat :=
  match followers lead.toNat with
  | none => (.malformed 1, 0)
  | some ranges =>
      let count := taken ranges bytes
      if count = ranges.length then
        (.scalar (Char.ofNat (codePoint (lead :: bytes.take count))), count)
      else (.malformed (count + 1), count)

/-- The pieces of a byte string after some bytes to skip. -/
def piecesFrom : Nat → List UInt8 → List Piece
  | _, [] => []
  | skip + 1, _ :: bytes => piecesFrom skip bytes
  | 0, byte :: bytes => (piece byte bytes).1 :: piecesFrom (piece byte bytes).2 bytes

def pieces (bytes : List UInt8) : List Piece := piecesFrom 0 bytes

/-- The decoded text. -/
def decodeLossy (bytes : List UInt8) : List Char := (pieces bytes).map Piece.toChar

/-! ## Sizes -/

theorem taken_le (ranges : List (Nat × Nat)) (bytes : List UInt8) :
    taken ranges bytes ≤ bytes.length := by
  induction ranges generalizing bytes with
  | nil => exact Nat.zero_le _
  | cons range ranges induction =>
      cases bytes with
      | nil => exact Nat.zero_le _
      | cons byte bytes =>
          rw [taken]
          split
          · exact Nat.succ_le_succ (induction bytes)
          · exact Nat.zero_le _

/-- The bytes are in the ranges, one after the other. -/
inductive InRanges : List (Nat × Nat) → List UInt8 → Prop where
  | nil : InRanges [] []
  | cons {low high : Nat} {ranges : List (Nat × Nat)} {byte : UInt8} {bytes : List UInt8}
      (inside : low ≤ byte.toNat ∧ byte.toNat ≤ high) :
      InRanges ranges bytes → InRanges ((low, high) :: ranges) (byte :: bytes)

theorem inRanges_of_taken {ranges : List (Nat × Nat)} {bytes : List UInt8}
    (all : taken ranges bytes = ranges.length) : InRanges ranges (bytes.take ranges.length) := by
  induction ranges generalizing bytes with
  | nil => exact .nil
  | cons range ranges induction =>
      cases bytes with
      | nil => cases all
      | cons byte bytes =>
          rw [taken] at all
          split at all
          next inside => exact .cons inside (induction (Nat.succ.inj all))
          next => cases all

theorem utf8Size_ofNat {point : Nat} (valid : point.isValidChar) :
    (Char.ofNat point).utf8Size =
      if point ≤ 0x7F then 1 else if point ≤ 0x7FF then 2 else if point ≤ 0xFFFF then 3 else 4 := by
  have value : (Char.ofNat point).val.toNat = point := by
    rw [Char.ofNat, dif_pos valid]
    rfl
  rw [Char.utf8Size]
  simp only [UInt32.le_iff_toNat_le, value]
  rfl

section CodePoints

variable {first second third fourth : UInt8}

theorem utf8Size_two (lead : 0xC2 ≤ first.toNat ∧ first.toNat < 0xE0) :
    (Char.ofNat (codePoint [first, second])).utf8Size = 2 := by
  have low : 0x80 ≤ codePoint [first, second] := by
    simp only [codePoint]
    omega
  have high : codePoint [first, second] ≤ 0x7FF := by
    simp only [codePoint]
    omega
  rw [utf8Size_ofNat (.inl (by omega)), if_neg (by omega), if_pos high]

theorem utf8Size_three (lead : 0xE0 ≤ first.toNat ∧ first.toNat < 0xF0)
    (follows : 0x80 ≤ second.toNat ∧ second.toNat ≤ 0xBF)
    (long : first.toNat = 0xE0 → 0xA0 ≤ second.toNat)
    (surrogate : first.toNat = 0xED → second.toNat ≤ 0x9F) :
    (Char.ofNat (codePoint [first, second, third])).utf8Size = 3 := by
  have low : 0x800 ≤ codePoint [first, second, third] := by
    simp only [codePoint]
    omega
  have high : codePoint [first, second, third] ≤ 0xFFFF := by
    simp only [codePoint]
    omega
  have valid : (codePoint [first, second, third]).isValidChar := by
    by_cases below : first.toNat ≤ 0xED
    · refine .inl ?_
      simp only [codePoint]
      omega
    · refine .inr ⟨?_, by omega⟩
      simp only [codePoint]
      omega
  rw [utf8Size_ofNat valid, if_neg (by omega), if_neg (by omega), if_pos high]

theorem utf8Size_four (lead : 0xF0 ≤ first.toNat ∧ first.toNat ≤ 0xF4)
    (follows : 0x80 ≤ second.toNat ∧ second.toNat ≤ 0xBF)
    (long : first.toNat = 0xF0 → 0x90 ≤ second.toNat)
    (last : first.toNat = 0xF4 → second.toNat ≤ 0x8F) :
    (Char.ofNat (codePoint [first, second, third, fourth])).utf8Size = 4 := by
  have low : 0x10000 ≤ codePoint [first, second, third, fourth] := by
    simp only [codePoint]
    omega
  have high : codePoint [first, second, third, fourth] < 0x110000 := by
    simp only [codePoint]
    omega
  rw [utf8Size_ofNat (.inr ⟨by omega, high⟩), if_neg (by omega), if_neg (by omega),
    if_neg (by omega)]

end CodePoints

section Sequences

variable {lead : UInt8} {low high : Nat} {third fourth : Nat × Nat} {bytes : List UInt8}

theorem InRanges.two (inside : InRanges [(low, high)] bytes)
    (range : 0xC2 ≤ lead.toNat ∧ lead.toNat < 0xE0) :
    (Char.ofNat (codePoint (lead :: bytes))).utf8Size = 2 := by
  cases inside with
  | cons _ none =>
      cases none
      exact utf8Size_two range

theorem InRanges.three (inside : InRanges [(low, high), third] bytes)
    (range : 0xE0 ≤ lead.toNat ∧ lead.toNat < 0xF0) (within : 0x80 ≤ low ∧ high ≤ 0xBF)
    (long : lead.toNat = 0xE0 → 0xA0 ≤ low) (surrogate : lead.toNat = 0xED → high ≤ 0x9F) :
    (Char.ofNat (codePoint (lead :: bytes))).utf8Size = 3 := by
  cases inside with
  | cons second inside =>
      cases inside with
      | cons _ none =>
          cases none
          exact utf8Size_three range (by omega) (by omega) (by omega)

theorem InRanges.four (inside : InRanges [(low, high), third, fourth] bytes)
    (range : 0xF0 ≤ lead.toNat ∧ lead.toNat ≤ 0xF4) (within : 0x80 ≤ low ∧ high ≤ 0xBF)
    (long : lead.toNat = 0xF0 → 0x90 ≤ low) (last : lead.toNat = 0xF4 → high ≤ 0x8F) :
    (Char.ofNat (codePoint (lead :: bytes))).utf8Size = 4 := by
  cases inside with
  | cons second inside =>
      cases inside with
      | cons _ inside =>
          cases inside with
          | cons _ none =>
              cases none
              exact utf8Size_four range (by omega) (by omega) (by omega)

end Sequences

/-- A well-formed sequence is as long as the encoding of its character. -/
theorem utf8Size_codePoint {lead : UInt8} {ranges : List (Nat × Nat)} {bytes : List UInt8}
    (known : followers lead.toNat = some ranges) (all : taken ranges bytes = ranges.length) :
    (Char.ofNat (codePoint (lead :: bytes.take ranges.length))).utf8Size = ranges.length + 1 := by
  have inside := inRanges_of_taken all
  generalize bytes.take ranges.length = tail at inside ⊢
  unfold followers at known
  split at known
  · obtain rfl := Option.some.inj known
    cases inside
    rw [codePoint, utf8Size_ofNat (.inl (by omega)), if_pos (by omega)]
    rfl
  split at known
  · cases known
  split at known
  · obtain rfl := Option.some.inj known
    exact inside.two (by omega)
  split at known
  · obtain rfl := Option.some.inj known
    exact inside.three (by omega) (by omega) (by omega) (by omega)
  split at known
  · obtain rfl := Option.some.inj known
    exact inside.three (by omega) (by omega) (by omega) (by omega)
  split at known
  · obtain rfl := Option.some.inj known
    exact inside.three (by omega) (by omega) (by omega) (by omega)
  split at known
  · obtain rfl := Option.some.inj known
    exact inside.four (by omega) (by omega) (by omega) (by omega)
  split at known
  · obtain rfl := Option.some.inj known
    exact inside.four (by omega) (by omega) (by omega) (by omega)
  split at known
  · obtain rfl := Option.some.inj known
    exact inside.four (by omega) (by omega) (by omega) (by omega)
  · cases known

theorem piece_size (lead : UInt8) (bytes : List UInt8) :
    (piece lead bytes).1.size = (piece lead bytes).2 + 1 ∧ (piece lead bytes).2 ≤ bytes.length := by
  unfold piece
  cases known : followers lead.toNat with
  | none => exact ⟨rfl, Nat.zero_le _⟩
  | some ranges =>
      dsimp only
      split
      next all =>
        refine ⟨?_, taken_le ..⟩
        rw [all]
        exact utf8Size_codePoint known all
      next => exact ⟨rfl, taken_le ..⟩

theorem taken_le_three {lead : Nat} {ranges : List (Nat × Nat)}
    (known : followers lead = some ranges) : ranges.length ≤ 3 := by
  unfold followers at known
  repeat' split at known
  all_goals first | (obtain rfl := Option.some.inj known; decide) | cases known

theorem taken_le_length (ranges : List (Nat × Nat)) (bytes : List UInt8) :
    taken ranges bytes ≤ ranges.length := by
  induction ranges generalizing bytes with
  | nil => exact Nat.le_refl 0
  | cons range ranges induction =>
      cases bytes with
      | nil => exact Nat.zero_le _
      | cons byte bytes =>
          rw [taken]
          split
          · exact Nat.succ_le_succ (induction bytes)
          · exact Nat.zero_le _

/-- No piece takes more bytes than the character that stands for it. -/
theorem piece_size_le (lead : UInt8) (bytes : List UInt8) :
    (piece lead bytes).1.size ≤ (piece lead bytes).1.toChar.utf8Size := by
  have replacement : (Piece.malformed 0).toChar.utf8Size = 3 := by decide
  unfold piece
  cases known : followers lead.toNat with
  | none => exact replacement.symm ▸ (by decide : (1 : Nat) ≤ 3)
  | some ranges =>
      dsimp only
      split
      next => exact Nat.le_refl _
      next short =>
        have few := taken_le_three known
        have within := taken_le_length ranges bytes
        change taken ranges bytes + 1 ≤ (Piece.malformed 0).toChar.utf8Size
        omega

theorem size_le_of_mem_piecesFrom (skip : Nat) (bytes : List UInt8) :
    ∀ piece ∈ piecesFrom skip bytes, piece.size ≤ piece.toChar.utf8Size := by
  induction bytes generalizing skip with
  | nil => simp [piecesFrom]
  | cons byte bytes induction =>
      cases skip with
      | succ skip => exact induction skip
      | zero =>
          rw [piecesFrom]
          intro piece member
          obtain rfl | later := List.mem_cons.mp member
          · exact piece_size_le byte bytes
          · exact induction _ piece later

theorem piecesFrom_size (skip : Nat) (bytes : List UInt8) (inside : skip ≤ bytes.length) :
    ((piecesFrom skip bytes).map Piece.size).sum + skip = bytes.length := by
  induction bytes generalizing skip with
  | nil =>
      obtain rfl : skip = 0 := Nat.le_zero.mp inside
      rfl
  | cons byte bytes induction =>
      cases skip with
      | succ skip =>
          rw [piecesFrom, List.length_cons, ← induction skip (Nat.le_of_succ_le_succ inside)]
          omega
      | zero =>
          obtain ⟨size, fits⟩ := piece_size byte bytes
          have rest := induction (piece byte bytes).2 fits
          rw [piecesFrom, List.map_cons, List.sum_cons, size, List.length_cons]
          omega

/-- The pieces cover the byte string. -/
theorem pieces_size (bytes : List UInt8) : ((pieces bytes).map Piece.size).sum = bytes.length :=
  piecesFrom_size 0 bytes (Nat.zero_le _)

end Utf8Lossy
