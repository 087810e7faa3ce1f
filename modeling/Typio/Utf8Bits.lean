import Typio.Utf8Scan
import Mathlib.Algebra.Group.Nat.Defs
import Mathlib.Data.List.TakeWhile

/-!
# The bits of UTF-8

A byte continues a character if its two high bits are `10`.  The first byte of an encoded character
does not, and all others do, so that the bytes tell where the characters begin.
-/

namespace Utf8Bits

open Utf8Scan

/-- The byte continues a character. -/
def IsContinuation (byte : UInt8) : Prop := byte &&& 0xC0 = 0x80

instance (byte : UInt8) : Decidable (IsContinuation byte) :=
  inferInstanceAs (Decidable (byte &&& 0xC0 = 0x80))

theorem isContinuation_iff (byte : UInt8) :
    IsContinuation byte ↔ 0x80 ≤ byte.toNat ∧ byte.toNat < 0xC0 := by
  have every : ∀ code : Fin 256, IsContinuation (UInt8.ofNat code) ↔
      0x80 ≤ (UInt8.ofNat code).toNat ∧ (UInt8.ofNat code).toNat < 0xC0 := by
    decide +kernel
  simpa using every ⟨byte.toNat, byte.toNat_lt⟩

theorem isContinuation_follow (bits : Nat) : IsContinuation (UInt8.ofNat (bits % 0x40 + 0x80)) := by
  rw [isContinuation_iff, UInt8.toNat_ofNat']
  omega

/-- The first byte of a character is none which continues one, and all others are. -/
theorem encodeChar_shape (char : Char) :
    ∃ lead rest, String.utf8EncodeChar char = lead :: rest ∧ ¬ IsContinuation lead ∧
      ∀ byte ∈ rest, IsContinuation byte := by
  have beyond : ∀ {code : Nat}, code < 0x80 ∨ 0xC0 ≤ code % 0x100 →
      ¬ IsContinuation (UInt8.ofNat code) := by
    intro code outside
    rw [isContinuation_iff, UInt8.toNat_ofNat']
    omega
  rw [String.utf8EncodeChar]
  split
  · exact ⟨_, [], rfl, beyond (.inl (by omega)), nofun⟩
  · split
    · refine ⟨_, _, rfl, beyond (.inr (by omega)), ?_⟩
      simp only [List.forall_mem_cons, isContinuation_follow, true_and]
      exact nofun
    · split
      · refine ⟨_, _, rfl, beyond (.inr (by omega)), ?_⟩
        simp only [List.forall_mem_cons, isContinuation_follow, true_and]
        exact nofun
      · refine ⟨_, _, rfl, beyond (.inr (by omega)), ?_⟩
        simp only [List.forall_mem_cons, isContinuation_follow, true_and]
        exact nofun

/-! ## Texts -/

theorem encodeChar_ne_zero {char : Char} (nonzero : char ≠ '\x00') :
    ∀ byte ∈ String.utf8EncodeChar char, byte ≠ 0 :=
  @encodeChar_ne char '\x00' (by decide) nonzero

theorem zero_not_mem_encode {text : List Char} (terminated : '\x00' ∉ text) :
    0 ∉ encode text := by
  induction text with
  | nil => exact List.not_mem_nil
  | cons char text induction =>
      obtain ⟨differs, rest⟩ := not_or.mp (List.mem_cons.not.mp terminated)
      rw [encode_cons, List.mem_append, not_or]
      refine ⟨fun zero => ?_, induction rest⟩
      exact encodeChar_ne_zero (Ne.symm differs) _ zero rfl

/-- A text has as many characters as bytes which begin one. -/
theorem countP_encode (text : List Char) :
    (encode text).countP (¬ IsContinuation ·) = text.length := by
  induction text with
  | nil => rfl
  | cons char text induction =>
      obtain ⟨lead, rest, shape, begins, continues⟩ := encodeChar_shape char
      have none_begins : rest.countP (¬ IsContinuation ·) = 0 := by
        simpa using continues
      rw [encode_cons, List.countP_append, shape, List.countP_cons_of_pos (by simpa using begins),
        none_begins, induction, List.length_cons]
      omega

/-- The bytes which continue the character are those in front of the next one. -/
theorem takeWhile_continuation {rest : List UInt8} (continues : ∀ byte ∈ rest, IsContinuation byte)
    (text : List Char) : (rest ++ encode text).takeWhile (IsContinuation ·) = rest := by
  have all : rest.takeWhile (IsContinuation ·) = rest := by
    rw [List.takeWhile_eq_self_iff]
    simpa using continues
  rw [List.takeWhile_append_of_pos (by simpa using continues)]
  cases text with
  | nil => simp
  | cons char text =>
      obtain ⟨lead, others, shape, begins, -⟩ := encodeChar_shape char
      rw [encode_cons, shape, List.cons_append, List.takeWhile_cons_of_neg (by simpa using begins),
        List.append_nil]

/-- A character inside a text: its first byte, and those which continue it. -/
theorem encode_shape (front back : List Char) (char : Char) :
    ∃ lead rest, encode (front ++ char :: back) = encode front ++ lead :: (rest ++ encode back) ∧
      (encode (front ++ [char])).length = (encode front).length + 1 + rest.length ∧
      ¬ IsContinuation lead ∧ (∀ byte ∈ rest, IsContinuation byte) ∧
      (char ≠ '\x00' → lead ≠ 0) := by
  obtain ⟨lead, rest, shape, begins, continues⟩ := encodeChar_shape char
  refine ⟨lead, rest, ?_, ?_, begins, continues, ?_⟩
  · rw [encode_append, encode_cons, shape, List.cons_append]
  · rw [encode_append, encode_cons, shape, encode_nil, List.append_nil, List.length_append,
      List.length_cons]
    omega
  · rintro nonzero rfl
    exact encodeChar_ne_zero nonzero 0 (shape ▸ .head _) rfl

/-! ## Arithmetic -/

/-- A mark has its bits above those it is put on. -/
theorem mark_or {bits width mark : Nat} (high : mark % 2 ^ width = 0) (small : bits < 2 ^ width) :
    mark ||| bits = mark + bits := by
  obtain ⟨part, rfl⟩ := Nat.dvd_of_mod_eq_zero high
  exact (Nat.two_pow_add_eq_or_of_lt small part).symm

/-- A mark on few bits, as a byte. -/
theorem mark_byte {mark bits : UInt32} (width : Nat) (high : mark.toNat % 2 ^ width = 0)
    (small : bits.toNat < 2 ^ width) :
    (mark ||| bits).toUInt8 = UInt8.ofNat (bits.toNat % 2 ^ width + mark.toNat) := by
  apply UInt8.toNat_inj.mp
  rw [UInt32.toNat_toUInt8, UInt32.toNat_or, mark_or high small, UInt8.toNat_ofNat', Nat.add_comm,
    Nat.mod_eq_of_lt small]

theorem shift_toNat (bits places : UInt32) (few : places.toNat < 32) :
    (bits >>> places).toNat = bits.toNat / 2 ^ places.toNat := by
  rw [UInt32.toNat_shiftRight, Nat.shiftRight_eq_div_pow, Nat.mod_eq_of_lt few]

theorem low_toNat (bits : UInt32) : (bits &&& 0x3F).toNat = bits.toNat % 0x40 := by
  rw [UInt32.toNat_and]
  exact Nat.and_two_pow_sub_one_eq_mod _ 6

/-- The byte which continues a character with the six low bits. -/
theorem follow_eq (bits : UInt32) :
    ((0x80 : UInt32) ||| (bits &&& 0x3F)).toUInt8 = UInt8.ofNat (bits.toNat % 0x40 + 0x80) := by
  have low := low_toNat bits
  have small : (bits &&& 0x3F).toNat < 2 ^ 6 := by omega
  rw [mark_byte 6 (by decide) small, Nat.mod_eq_of_lt small, low]
  rfl

/-- The first byte of a character with the bits from a place on. -/
theorem lead_eq {mark bits places : UInt32} (width : Nat) (few : places.toNat < 32)
    (high : mark.toNat % 2 ^ width = 0) (small : bits.toNat < 2 ^ (places.toNat + width)) :
    (mark ||| bits >>> places).toUInt8 =
      UInt8.ofNat (bits.toNat / 2 ^ places.toNat % 2 ^ width + mark.toNat) := by
  rw [Nat.pow_add] at small
  have shifted := Nat.div_lt_of_lt_mul small
  rw [← shift_toNat bits places few] at shifted ⊢
  exact mark_byte width high shifted

/-- The high bits of a first byte tell the length of the character. -/
theorem lead_iff (byte : UInt8) :
    (byte &&& 0xE0 = 0xC0 ↔ 0xC0 ≤ byte.toNat ∧ byte.toNat < 0xE0) ∧
      (byte &&& 0xF0 = 0xE0 ↔ 0xE0 ≤ byte.toNat ∧ byte.toNat < 0xF0) ∧
      (byte &&& 0xF8 = 0xF0 ↔ 0xF0 ≤ byte.toNat ∧ byte.toNat < 0xF8) := by
  have every : ∀ code : Fin 256,
      (UInt8.ofNat code &&& 0xE0 = 0xC0 ↔ 0xC0 ≤ code.val ∧ code.val < 0xE0) ∧
        (UInt8.ofNat code &&& 0xF0 = 0xE0 ↔ 0xE0 ≤ code.val ∧ code.val < 0xF0) ∧
        (UInt8.ofNat code &&& 0xF8 = 0xF0 ↔ 0xF0 ≤ code.val ∧ code.val < 0xF8) := by
    decide +kernel
  simpa using every ⟨byte.toNat, byte.toNat_lt⟩

/-- A byte without its high bits, as a number. -/
theorem low_byte {bits : Nat} (width : Nat) {mask : UInt32} (byte : UInt8)
    (is_mask : mask.toNat = 2 ^ width - 1) (rest : byte.toNat % 2 ^ width = bits) :
    byte.toUInt32 &&& mask = UInt32.ofNat bits := by
  apply UInt32.toNat_inj.mp
  have bound : byte.toNat < 2 ^ 8 := byte.toNat_lt
  have small : bits < 2 ^ 32 := by
    have le := Nat.mod_le byte.toNat (2 ^ width)
    omega
  rw [UInt32.toNat_and, is_mask, Nat.and_two_pow_sub_one_eq_mod, UInt8.toNat_toUInt32, rest,
    UInt32.toNat_ofNat', Nat.mod_eq_of_lt small]

/-- Six more bits are read. -/
theorem append_bits {result bits : Nat} (few : result < 2 ^ 26) (byte : UInt8)
    (rest : byte.toNat % 0x40 = bits) :
    UInt32.ofNat result <<< 6 ||| (byte &&& 0x3F).toUInt32 = UInt32.ofNat (result * 0x40 + bits) := by
  apply UInt32.toNat_inj.mp
  have low : (byte &&& 0x3F).toNat = bits := by
    rw [UInt8.toNat_and, ← rest]
    exact Nat.and_two_pow_sub_one_eq_mod _ 6
  have small : bits < 2 ^ 6 := by omega
  have shifted : (UInt32.ofNat result <<< 6).toNat = result * 0x40 := by
    have whole : result % 2 ^ 32 = result := Nat.mod_eq_of_lt (by omega)
    have fits : result * 0x40 < 2 ^ 32 := by omega
    rw [UInt32.toNat_shiftLeft, UInt32.toNat_ofNat', whole, Nat.shiftLeft_eq]
    exact Nat.mod_eq_of_lt fits
  rw [UInt32.toNat_or, UInt8.toNat_toUInt32, low, shifted, mark_or (by omega) small,
    UInt32.toNat_ofNat', Nat.mod_eq_of_lt (by omega)]

end Utf8Bits
