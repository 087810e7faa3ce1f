import Typio.Core.Utf8Helpers
import Typio.Engines.Basic

/-!
# The encoders of the basic engine

The engine and its compose module have an encoder each, which also ends the string.  For every code
point they write what the helper of the core writes.
-/

namespace Typio

namespace Engines

open Typio.Core Utf8Scan

/-! ## The encoders -/

/-- What is written to a buffer of five bytes. -/
def encodeTerminated (codepoint : UInt32) : Encoded :=
  if codepoint ≤ 0x7F then ⟨[codepoint.toUInt8, 0], 1⟩
  else if codepoint ≤ 0x7FF then
    ⟨[((0xC0 : UInt32) ||| codepoint >>> 6).toUInt8,
      ((0x80 : UInt32) ||| (codepoint &&& 0x3F)).toUInt8, 0], 2⟩
  else if codepoint ≤ 0xFFFF then
    ⟨[((0xE0 : UInt32) ||| codepoint >>> 12).toUInt8,
      ((0x80 : UInt32) ||| (codepoint >>> 6 &&& 0x3F)).toUInt8,
      ((0x80 : UInt32) ||| (codepoint &&& 0x3F)).toUInt8, 0], 3⟩
  else if codepoint ≤ 0x10FFFF then
    ⟨[((0xF0 : UInt32) ||| codepoint >>> 18).toUInt8,
      ((0x80 : UInt32) ||| (codepoint >>> 12 &&& 0x3F)).toUInt8,
      ((0x80 : UInt32) ||| (codepoint >>> 6 &&& 0x3F)).toUInt8,
      ((0x80 : UInt32) ||| (codepoint &&& 0x3F)).toUInt8, 0], 4⟩
  else ⟨[0], 0⟩

/-- `encode_utf8`. -/
def composeEncodeUtf8 (codepoint : UInt32) : Encoded := encodeTerminated codepoint

/-- `basic_encode_utf8`. -/
def basicEncodeUtf8 (codepoint : UInt32) : Encoded := encodeTerminated codepoint

/-! ## Their agreement -/

/-- A strict bound of the core is the bound of the engine and one more. -/
theorem bounds_agree (codepoint : UInt32) :
    (codepoint ≤ 0x7F ↔ codepoint < 0x80) ∧ (codepoint ≤ 0x7FF ↔ codepoint < 0x800) ∧
      (codepoint ≤ 0xFFFF ↔ codepoint < 0x10000) ∧
      (codepoint ≤ 0x10FFFF ↔ codepoint < 0x110000) := by
  simp only [UInt32.le_iff_toNat_le, UInt32.lt_iff_toNat_lt, UInt32.reduceToNat]
  omega

theorem encodeTerminated_eq (codepoint : UInt32) :
    encodeTerminated codepoint =
      ⟨(typioUtf8Encode codepoint).out ++ [0], (typioUtf8Encode codepoint).size⟩ := by
  obtain ⟨one, two, three, four⟩ := bounds_agree codepoint
  rw [encodeTerminated, typioUtf8Encode]
  simp only [one, two, three, four]
  split
  · rfl
  · split
    · rfl
    · split
      · rfl
      · split <;> rfl

theorem typioUtf8Encode_size (codepoint : UInt32) :
    (typioUtf8Encode codepoint).size = (typioUtf8Encode codepoint).out.length := by
  rw [typioUtf8Encode]
  split
  · rfl
  · split
    · rfl
    · split
      · rfl
      · split <;> rfl

/-- The encoders write the same bytes for every code point, scalar value or not. -/
theorem bytes_encodeTerminated (codepoint : UInt32) :
    (encodeTerminated codepoint).bytes = (typioUtf8Encode codepoint).bytes := by
  rw [encodeTerminated_eq, Encoded.bytes, Encoded.bytes, typioUtf8Encode_size, List.take_left,
    List.take_length]

/-- The bytes with which a composition is shown and committed. -/
theorem encodeUtf8_eq (codepoint : UInt32) :
    encodeUtf8 codepoint = (composeEncodeUtf8 codepoint).bytes := by
  rw [encodeUtf8, composeEncodeUtf8, encodeTerminated]
  split
  · rfl
  · split
    · rfl
    · split
      · rfl
      · split <;> rfl

theorem bytes_typioUtf8Encode (char : Char) :
    (typioUtf8Encode char.val).bytes = String.utf8EncodeChar char := by
  rw [typioUtf8Encode_eq, Encoded.bytes, List.take_length]

/-- The three encoders agree on every scalar value and the decoder undoes them; in every text the
number of characters is that of the steps to the end, and the cursors undo each other at every
character. -/
theorem utf8_helpers_agree :
    (∀ char : Char,
      (composeEncodeUtf8 char.val).bytes = (typioUtf8Encode char.val).bytes ∧
      (basicEncodeUtf8 char.val).bytes = (typioUtf8Encode char.val).bytes ∧
      ∀ back, typioUtf8GetChar ((typioUtf8Encode char.val).bytes ++ back) (some 0) = char.val) ∧
    ∀ text : List Char, '\x00' ∉ text →
      IsLeast {steps | (typioUtf8Next (encode text))^[steps] (some 0) = some (encode text).length}
        (typioUtf8Strlen (encode text) (some 0)) ∧
      ∀ front char back, text = front ++ char :: back → ∀ start ≤ (encode front).length,
        typioUtf8Next (encode text) (some (encode front).length) =
            some (encode (front ++ [char])).length ∧
          typioUtf8Prev (encode text) (some (encode (front ++ [char])).length) (some start) =
            some (encode front).length := by
  refine ⟨fun char => ⟨bytes_encodeTerminated _, bytes_encodeTerminated _, fun back => ?_⟩, ?_⟩
  · rw [bytes_typioUtf8Encode, getChar_encode]
  · intro text terminated
    refine ⟨typioUtf8Strlen_isLeast [] terminated, ?_⟩
    rintro front char back rfl start inside
    have nonzero : char ≠ '\x00' := by
      rintro rfl
      exact terminated (by simp)
    exact ⟨typioUtf8Next_eq front back nonzero, typioUtf8Prev_eq front back inside⟩

/-- A text with a character of each length. -/
theorem utf8_helpers_agree_lengths :
    IsLeast {steps | (typioUtf8Next (encode ['a', 'é', '€', '😀']))^[steps] (some 0) = some 10}
        (typioUtf8Strlen (encode ['a', 'é', '€', '😀']) (some 0)) ∧
      typioUtf8Prev (encode ['a', 'é', '€', '😀']) (some 6) (some 0) = some 3 :=
  have agreed := utf8_helpers_agree.2 ['a', 'é', '€', '😀'] (by decide)
  ⟨agreed.1, (agreed.2 ['a', 'é'] '€' ['😀'] rfl 0 (Nat.zero_le _)).2⟩

end Engines

end Typio
