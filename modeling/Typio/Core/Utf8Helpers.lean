import Typio.Utf8Bits
import Mathlib.Order.Bounds.Basic

/-!
# The UTF-8 helpers

Pointers into a C string are offsets into its bytes; there is a zero byte behind the last one.
-/

namespace Typio

namespace Core

open Utf8Scan Utf8Bits

/-! ## The helpers -/

/-- The bytes an encoder writes out and the number it returns. -/
structure Encoded where
  out : List UInt8
  size : Nat

/-- The bytes of the character; what follows them in `out` ends the string. -/
def Encoded.bytes (encoded : Encoded) : List UInt8 := encoded.out.take encoded.size

/-- `typio_utf8_encode`, for a buffer which is not null. -/
def typioUtf8Encode (codepoint : UInt32) : Encoded :=
  if codepoint < 0x80 then ⟨[codepoint.toUInt8], 1⟩
  else if codepoint < 0x800 then
    ⟨[((0xC0 : UInt32) ||| codepoint >>> 6).toUInt8,
      ((0x80 : UInt32) ||| (codepoint &&& 0x3F)).toUInt8], 2⟩
  else if codepoint < 0x10000 then
    ⟨[((0xE0 : UInt32) ||| codepoint >>> 12).toUInt8,
      ((0x80 : UInt32) ||| (codepoint >>> 6 &&& 0x3F)).toUInt8,
      ((0x80 : UInt32) ||| (codepoint &&& 0x3F)).toUInt8], 3⟩
  else if codepoint < 0x110000 then
    ⟨[((0xF0 : UInt32) ||| codepoint >>> 18).toUInt8,
      ((0x80 : UInt32) ||| (codepoint >>> 12 &&& 0x3F)).toUInt8,
      ((0x80 : UInt32) ||| (codepoint >>> 6 &&& 0x3F)).toUInt8,
      ((0x80 : UInt32) ||| (codepoint &&& 0x3F)).toUInt8], 4⟩
  else ⟨[], 0⟩

/-- `*str`. -/
def byteAt (text : List UInt8) (offset : Nat) : UInt8 := text.getD offset 0

/-- `typio_utf8_strlen`. -/
def typioUtf8Strlen (text : List UInt8) : Option Nat → Nat
  | none => 0
  | some offset => ((text.drop offset).takeWhile (· ≠ 0)).countP (¬ IsContinuation ·)

/-- `typio_utf8_next`. -/
def typioUtf8Next (text : List UInt8) : Option Nat → Option Nat
  | none => none
  | some offset =>
      if byteAt text offset = 0 then some offset
      else
        some (offset + 1 + ((text.drop (offset + 1)).takeWhile
          fun byte => byte ≠ 0 ∧ IsContinuation byte).length)

/-- The loop of `typio_utf8_prev`. -/
def prevFrom (text : List UInt8) (start : Nat) : Nat → Nat
  | 0 => 0
  | offset + 1 =>
      if start < offset + 1 ∧ IsContinuation (byteAt text (offset + 1)) then
        prevFrom text start offset
      else offset + 1

/-- `typio_utf8_prev`. -/
def typioUtf8Prev (text : List UInt8) : Option Nat → Option Nat → Option Nat
  | some offset, some start =>
      if offset ≤ start then some start else some (prevFrom text start (offset - 1))
  | none, start => start
  | some _, none => none

/-- The loop of `typio_utf8_get_char`. -/
def getCharLoop (text : List UInt8) : (remaining offset : Nat) → (result : UInt32) → UInt32
  | 0, _, result => result
  | remaining + 1, offset, result =>
      let byte := byteAt text offset
      if byte = 0 ∨ ¬ IsContinuation byte then 0xFFFD
      else getCharLoop text remaining (offset + 1) (result <<< 6 ||| (byte &&& 0x3F).toUInt32)

/-- `typio_utf8_get_char`. -/
def typioUtf8GetChar (text : List UInt8) : Option Nat → UInt32
  | none => 0
  | some offset =>
      let byte := byteAt text offset
      if byte = 0 then 0
      else if byte < 0x80 then byte.toUInt32
      else if byte &&& 0xE0 = 0xC0 then
        getCharLoop text 1 (offset + 1) (byte.toUInt32 &&& 0x1F)
      else if byte &&& 0xF0 = 0xE0 then
        getCharLoop text 2 (offset + 1) (byte.toUInt32 &&& 0x0F)
      else if byte &&& 0xF8 = 0xF0 then
        getCharLoop text 3 (offset + 1) (byte.toUInt32 &&& 0x07)
      else 0xFFFD

/-! ## The encoder and the decoder -/

theorem scalar_lt (char : Char) : char.val.toNat < 0x110000 := by
  have valid := char.valid
  simp only [UInt32.isValidChar, Nat.isValidChar] at valid
  omega

/-- A scalar value is encoded as the bytes of its character. -/
theorem typioUtf8Encode_eq (char : Char) :
    typioUtf8Encode char.val =
      ⟨String.utf8EncodeChar char, (String.utf8EncodeChar char).length⟩ := by
  have valid := scalar_lt char
  have shift6 : (char.val >>> 6).toNat = char.val.toNat / 0x40 := shift_toNat _ 6 (by decide)
  have shift12 : (char.val >>> 12).toNat = char.val.toNat / 0x1000 := shift_toNat _ 12 (by decide)
  rw [String.utf8EncodeChar, typioUtf8Encode]
  simp only [UInt32.lt_iff_toNat_lt, UInt32.reduceToNat, follow_eq, shift6, shift12]
  by_cases one : char.val.toNat < 0x80
  · rw [if_pos one, if_pos (by omega), UInt8.ofNat_uInt32ToNat]
    rfl
  by_cases two : char.val.toNat < 0x800
  · have lead : ((0xC0 : UInt32) ||| char.val >>> 6).toUInt8 =
        UInt8.ofNat (char.val.toNat / 0x40 % 0x20 + 0xC0) :=
      lead_eq 5 (by decide) (by decide) two
    rw [if_neg one, if_pos two, if_neg (by omega), if_pos (by omega), lead]
    rfl
  by_cases three : char.val.toNat < 0x10000
  · have lead : ((0xE0 : UInt32) ||| char.val >>> 12).toUInt8 =
        UInt8.ofNat (char.val.toNat / 0x1000 % 0x10 + 0xE0) :=
      lead_eq 4 (by decide) (by decide) three
    rw [if_neg one, if_neg two, if_pos three, if_neg (by omega), if_neg (by omega),
      if_pos (by omega), lead]
    rfl
  · have lead : ((0xF0 : UInt32) ||| char.val >>> 18).toUInt8 =
        UInt8.ofNat (char.val.toNat / 0x40000 % 0x08 + 0xF0) :=
      lead_eq 3 (by decide) (by decide) (valid.trans (by decide))
    rw [if_neg one, if_neg two, if_neg three, if_pos valid, if_neg (by omega), if_neg (by omega),
      if_neg (by omega), lead]
    rfl

@[simp] theorem byteAt_append (front back : List UInt8) (offset : Nat) :
    byteAt (front ++ back) (front.length + offset) = byteAt back offset := by
  simp [byteAt, List.getElem?_append_right]

theorem getCharLoop_follow {text : List UInt8} {remaining offset result bits : Nat}
    (few : result < 2 ^ 26)
    (byte : byteAt text offset = UInt8.ofNat (bits % 0x40 + 0x80)) :
    getCharLoop text (remaining + 1) offset (UInt32.ofNat result) =
      getCharLoop text remaining (offset + 1) (UInt32.ofNat (result * 0x40 + bits % 0x40)) := by
  have continues := isContinuation_follow bits
  have code : (UInt8.ofNat (bits % 0x40 + 0x80)).toNat = bits % 0x40 + 0x80 := by
    rw [UInt8.toNat_ofNat']
    omega
  have nonzero : UInt8.ofNat (bits % 0x40 + 0x80) ≠ 0 := by
    intro zero
    rw [zero] at code
    exact absurd code.symm (Nat.add_one_ne_zero _)
  have low : (UInt8.ofNat (bits % 0x40 + 0x80)).toNat % 0x40 = bits % 0x40 := by omega
  rw [getCharLoop, byte, if_neg (not_or.mpr ⟨nonzero, not_not.mpr continues⟩),
    append_bits few _ low]

/-- The decoder by the value of the first byte. -/
theorem getChar_lead (lead : UInt8) (rest : List UInt8) :
    typioUtf8GetChar (lead :: rest) (some 0) =
      if lead.toNat < 0x80 then lead.toUInt32
      else if lead.toNat < 0xC0 then 0xFFFD
      else if lead.toNat < 0xE0 then
        getCharLoop (lead :: rest) 1 1 (UInt32.ofNat (lead.toNat - 0xC0))
      else if lead.toNat < 0xF0 then
        getCharLoop (lead :: rest) 2 1 (UInt32.ofNat (lead.toNat - 0xE0))
      else if lead.toNat < 0xF8 then
        getCharLoop (lead :: rest) 3 1 (UInt32.ofNat (lead.toNat - 0xF0))
      else 0xFFFD := by
  obtain ⟨two, three, four⟩ := lead_iff lead
  have here : byteAt (lead :: rest) 0 = lead := rfl
  have ascii : lead < 0x80 ↔ lead.toNat < 0x80 := UInt8.lt_iff_toNat_lt
  simp only [typioUtf8GetChar, here, Nat.zero_add, two, three, four, ascii]
  by_cases zero : lead = 0
  · subst zero
    rfl
  rw [if_neg zero]
  by_cases one : lead.toNat < 0x80
  · rw [if_pos one, if_pos one]
  rw [if_neg one, if_neg one]
  by_cases continues : lead.toNat < 0xC0
  · rw [if_pos continues, if_neg (by omega), if_neg (by omega), if_neg (by omega)]
  rw [if_neg continues]
  by_cases below : lead.toNat < 0xE0
  · have low : lead.toUInt32 &&& 0x1F = UInt32.ofNat (lead.toNat - 0xC0) :=
      low_byte 5 lead (by decide) (by omega)
    rw [if_pos below, if_pos (by omega), low]
  rw [if_neg below, if_neg (by omega)]
  by_cases third : lead.toNat < 0xF0
  · have low : lead.toUInt32 &&& 0x0F = UInt32.ofNat (lead.toNat - 0xE0) :=
      low_byte 4 lead (by decide) (by omega)
    rw [if_pos third, if_pos (by omega), low]
  rw [if_neg third, if_neg (by omega)]
  by_cases fourth : lead.toNat < 0xF8
  · have low : lead.toUInt32 &&& 0x07 = UInt32.ofNat (lead.toNat - 0xF0) :=
      low_byte 3 lead (by decide) (by omega)
    rw [if_pos fourth, if_pos (by omega), low]
  · rw [if_neg fourth, if_neg (by omega)]

/-- The decoder reads the character of which these are the bytes. -/
theorem getChar_encode (char : Char) (back : List UInt8) :
    typioUtf8GetChar (String.utf8EncodeChar char ++ back) (some 0) = char.val := by
  have valid := scalar_lt char
  have read : ∀ code, code = char.val.toNat → UInt32.ofNat code = char.val := by
    rintro _ rfl
    exact UInt32.ofNat_toNat
  rw [String.utf8EncodeChar]
  by_cases one : char.val.toNat < 0x80
  · have lead : (UInt8.ofNat char.val.toNat).toNat = char.val.toNat := by
      rw [UInt8.toNat_ofNat']
      omega
    rw [if_pos (by omega), List.cons_append, getChar_lead, lead, if_pos one]
    apply UInt32.toNat_inj.mp
    rw [UInt8.toNat_toUInt32, lead]
  by_cases two : char.val.toNat < 0x800
  · have lead : (UInt8.ofNat (char.val.toNat / 0x40 % 0x20 + 0xC0)).toNat =
        char.val.toNat / 0x40 % 0x20 + 0xC0 := by
      rw [UInt8.toNat_ofNat']
      omega
    rw [if_neg (by omega), if_pos (by omega), List.cons_append, getChar_lead, lead,
      if_neg (by omega), if_neg (by omega), if_pos (by omega), getCharLoop_follow (by omega) rfl,
      getCharLoop]
    exact read _ (by omega)
  by_cases three : char.val.toNat < 0x10000
  · have lead : (UInt8.ofNat (char.val.toNat / 0x1000 % 0x10 + 0xE0)).toNat =
        char.val.toNat / 0x1000 % 0x10 + 0xE0 := by
      rw [UInt8.toNat_ofNat']
      omega
    rw [if_neg (by omega), if_neg (by omega), if_pos (by omega), List.cons_append, getChar_lead,
      lead, if_neg (by omega), if_neg (by omega), if_neg (by omega), if_pos (by omega),
      getCharLoop_follow (by omega) rfl, getCharLoop_follow (by omega) rfl, getCharLoop]
    exact read _ (by omega)
  · have lead : (UInt8.ofNat (char.val.toNat / 0x40000 % 0x08 + 0xF0)).toNat =
        char.val.toNat / 0x40000 % 0x08 + 0xF0 := by
      rw [UInt8.toNat_ofNat']
      omega
    rw [if_neg (by omega), if_neg (by omega), if_neg (by omega), List.cons_append, getChar_lead,
      lead, if_neg (by omega), if_neg (by omega), if_neg (by omega), if_neg (by omega),
      if_pos (by omega), getCharLoop_follow (by omega) rfl, getCharLoop_follow (by omega) rfl,
      getCharLoop_follow (by omega) rfl, getCharLoop]
    exact read _ (by omega)

/-! ## The cursors -/

section Cursors

variable {front back : List Char} {char : Char}

theorem typioUtf8Strlen_eq (front : List Char) (terminated : '\x00' ∉ back) :
    typioUtf8Strlen (encode (front ++ back)) (some (encode front).length) = back.length := by
  have whole : (encode back).takeWhile (· ≠ 0) = encode back := by
    rw [List.takeWhile_eq_self_iff]
    intro byte member
    have nonzero : byte ≠ 0 := fun zero => zero_not_mem_encode terminated (zero ▸ member)
    simpa using nonzero
  rw [typioUtf8Strlen, encode_append, List.drop_left, whole, countP_encode]

/-- From the start of a character the cursor goes to the start of the next one. -/
theorem typioUtf8Next_eq (front back : List Char) (nonzero : char ≠ '\x00') :
    typioUtf8Next (encode (front ++ char :: back)) (some (encode front).length) =
      some (encode (front ++ [char])).length := by
  obtain ⟨lead, rest, text, width, -, continues, lead_nonzero⟩ := encode_shape front back char
  have wanted : (fun byte : UInt8 => decide (byte ≠ 0 ∧ IsContinuation byte)) =
      fun byte => decide (IsContinuation byte) := by
    funext byte
    have marked : IsContinuation byte → byte ≠ 0 := by
      rintro continued rfl
      exact absurd continued (by decide)
    exact decide_eq_decide.mpr ⟨And.right, fun continued => ⟨marked continued, continued⟩⟩
  have here : byteAt (encode front ++ lead :: (rest ++ encode back)) (encode front).length = lead :=
    byteAt_append (encode front) (lead :: (rest ++ encode back)) 0
  have behind : (encode front ++ lead :: (rest ++ encode back)).drop ((encode front).length + 1) =
      rest ++ encode back := by
    rw [List.drop_append, Nat.add_sub_cancel_left, List.drop_succ_cons]
    simp
  rw [text, typioUtf8Next, here, if_neg (lead_nonzero nonzero), behind, wanted,
    takeWhile_continuation continues, width]

/-- The loop steps back over the bytes which continue the character. -/
theorem prevFrom_eq {text rest : List UInt8} {start offset : Nat} (inside : start ≤ offset)
    (lead : ¬ IsContinuation (byteAt text offset))
    (continues : ∀ place < rest.length, IsContinuation (byteAt text (offset + 1 + place))) :
    prevFrom text start (offset + rest.length) = offset := by
  induction rest with
  | nil =>
      cases offset with
      | zero => rfl
      | succ offset => exact if_neg fun both => lead both.2
  | cons byte rest induction =>
      rw [List.length_cons] at continues ⊢
      have last := continues rest.length (Nat.lt_succ_self _)
      rw [← Nat.add_assoc, prevFrom, if_pos ⟨by omega, by rwa [Nat.add_right_comm] at last⟩]
      exact induction fun place before => continues place (by omega)

/-- From the end of a character the cursor goes back to its start. -/
theorem typioUtf8Prev_eq (front back : List Char) {start : Nat}
    (inside : start ≤ (encode front).length) :
    typioUtf8Prev (encode (front ++ char :: back)) (some (encode (front ++ [char])).length)
      (some start) = some (encode front).length := by
  obtain ⟨lead, rest, text, width, begins, continues, -⟩ := encode_shape front back char
  have here : byteAt (encode front ++ lead :: (rest ++ encode back)) (encode front).length = lead :=
    byteAt_append (encode front) (lead :: (rest ++ encode back)) 0
  have stepped : prevFrom (encode front ++ lead :: (rest ++ encode back)) start
      ((encode front).length + rest.length) = (encode front).length := by
    refine prevFrom_eq inside (here.symm ▸ begins) fun place before => ?_
    rw [Nat.add_assoc, byteAt_append, Nat.add_comm 1 place]
    have member : byteAt (lead :: (rest ++ encode back)) (place + 1) = rest[place] := by
      simp [byteAt, List.getElem?_append_left before, before]
    exact member ▸ continues _ (List.getElem_mem before)
  rw [text, typioUtf8Prev, if_neg (by omega), width,
    show (encode front).length + 1 + rest.length - 1 = (encode front).length + rest.length by omega,
    stepped]

theorem typioUtf8Next_iterate (front middle back : List Char) (terminated : '\x00' ∉ middle) :
    (typioUtf8Next (encode (front ++ middle ++ back)))^[middle.length] (some (encode front).length) =
      some (encode (front ++ middle)).length := by
  induction middle generalizing front with
  | nil => simp
  | cons char middle induction =>
      obtain ⟨nonzero, rest⟩ := not_or.mp (List.mem_cons.not.mp terminated)
      have stepped := typioUtf8Next_eq front (middle ++ back) (Ne.symm nonzero)
      have further := induction (front ++ [char]) rest
      rw [List.append_assoc, List.append_assoc, List.singleton_append] at further
      rw [List.length_cons, Function.iterate_succ_apply, List.append_assoc, List.cons_append,
        stepped, further, List.append_assoc, List.singleton_append]

/-- A string has as many characters as steps to its end. -/
theorem typioUtf8Strlen_isLeast (front : List Char) {back : List Char}
    (terminated : '\x00' ∉ back) :
    IsLeast {steps | (typioUtf8Next (encode (front ++ back)))^[steps] (some (encode front).length) =
        some (encode (front ++ back)).length}
      (typioUtf8Strlen (encode (front ++ back)) (some (encode front).length)) := by
  rw [typioUtf8Strlen_eq front terminated]
  constructor
  · have all := typioUtf8Next_iterate front back [] terminated
    rwa [List.append_nil] at all
  · intro steps reached
    by_contra few
    rw [not_le] at few
    have width : (back.take steps).length = steps := List.length_take_of_le few.le
    have early := typioUtf8Next_iterate front (back.take steps) (back.drop steps)
      fun member => terminated (List.mem_of_mem_take member)
    rw [List.append_assoc, List.take_append_drop, width] at early
    have same := Option.some.inj (reached.symm.trans early)
    have lengths : (encode (front ++ back)).length =
        (encode (front ++ back.take steps)).length + (encode (back.drop steps)).length := by
      rw [← List.length_append, ← encode_append, List.append_assoc, List.take_append_drop]
    have remaining : back.drop steps ≠ [] := by
      rw [ne_eq, List.drop_eq_nil_iff]
      omega
    obtain ⟨char, rest, behind⟩ := List.exists_cons_of_ne_nil remaining
    have positive : 0 < (String.utf8EncodeChar char).length :=
      List.length_pos_iff.mpr String.utf8EncodeChar_ne_nil
    rw [behind, encode_cons, List.length_append] at lengths
    omega

end Cursors

end Core

end Typio
