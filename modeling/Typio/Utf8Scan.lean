import Mathlib.Data.List.TakeWhile

/-!
# Scanning UTF-8 byte by byte

A scanner of bytes and a scanner of characters stop at the same place if they ask for the same: a
character that is wanted has only bytes that are wanted, and one that is not starts with a byte that
is not.
-/

namespace Utf8Scan

/-- The bytes of a text. -/
def encode (text : List Char) : List UInt8 := text.flatMap String.utf8EncodeChar

@[simp] theorem encode_nil : encode [] = [] := rfl

@[simp] theorem encode_cons (char : Char) (text : List Char) :
    encode (char :: text) = String.utf8EncodeChar char ++ encode text := rfl

@[simp] theorem encode_append (left right : List Char) :
    encode (left ++ right) = encode left ++ encode right := List.flatMap_append

/-- The text of which these are the bytes. -/
def decode (bytes : List UInt8) : Option (List Char) :=
  (bytes.toByteArray.utf8Decode?).map Array.toList

theorem toByteArray_injective {bytes others : List UInt8}
    (same : bytes.toByteArray = others.toByteArray) : bytes = others := by
  have arrays := congrArg (fun bytes : ByteArray => bytes.data.toList) same
  simpa using arrays

theorem encode_of_decode {bytes : List UInt8} {text : List Char}
    (decoded : decode bytes = some text) : encode text = bytes := by
  obtain ⟨chars, found, rfl⟩ := Option.map_eq_some_iff.mp decoded
  have back := @ByteArray.utf8Encode_get_utf8Decode? bytes.toByteArray
    (Option.isSome_iff_exists.mpr ⟨chars, found⟩)
  simp only [found, Option.get_some] at back
  exact toByteArray_injective back

theorem decode_encode (text : List Char) : decode (encode text) = some text := by
  have back := @List.utf8Decode?_utf8Encode text
  rw [List.utf8Encode] at back
  rw [decode, encode, back, Option.map_some]

theorem encode_injective {text other : List Char} (same : encode text = encode other) :
    text = other := by
  have decoded := decode_encode text
  rw [same, decode_encode] at decoded
  exact (Option.some.inj decoded).symm

/-! ## The bytes of a character -/

theorem encodeChar_ascii {char : Char} (ascii : char.toNat < 0x80) :
    String.utf8EncodeChar char = [UInt8.ofNat char.toNat] := by
  have small : char.val.toNat ≤ 0x7f := Nat.le_of_lt_succ ascii
  rw [String.utf8EncodeChar]
  exact if_pos small

theorem encodeChar_high {char : Char} (high : 0x80 ≤ char.toNat) :
    ∀ byte ∈ String.utf8EncodeChar char, 0x80 ≤ byte.toNat := by
  have large : ¬ char.val.toNat ≤ 0x7f := Nat.not_le.mpr high
  rw [String.utf8EncodeChar]
  simp only [large, if_false]
  split
  · simp only [List.forall_mem_cons, List.not_mem_nil, false_implies, implies_true, and_true,
        UInt8.toNat_ofNat']
    omega
  · split
    · simp only [List.forall_mem_cons, List.not_mem_nil, false_implies, implies_true, and_true,
        UInt8.toNat_ofNat']
      omega
    · simp only [List.forall_mem_cons, List.not_mem_nil, false_implies, implies_true, and_true,
        UInt8.toNat_ofNat']
      omega

/-- The byte of an ASCII character is in no other character. -/
theorem encodeChar_ne {char other : Char} (ascii : other.toNat < 0x80) (different : char ≠ other) :
    ∀ byte ∈ String.utf8EncodeChar char, byte ≠ UInt8.ofNat other.toNat := by
  have code : (UInt8.ofNat other.toNat).toNat = other.toNat := by
    rw [UInt8.toNat_ofNat']
    exact Nat.mod_eq_of_lt (by omega)
  rintro byte member rfl
  by_cases low : char.toNat < 0x80
  · rw [encodeChar_ascii low, List.mem_singleton] at member
    have codes := congrArg UInt8.toNat member
    rw [code, UInt8.toNat_ofNat', Nat.mod_eq_of_lt (by omega)] at codes
    exact different (Char.toNat_inj.mp codes.symm)
  · have high := encodeChar_high (Nat.not_lt.mp low) _ member
    rw [code] at high
    omega

theorem head?_encode_iff {char : Char} (ascii : char.toNat < 0x80) {text : List Char} :
    (encode text).head? = some (UInt8.ofNat char.toNat) ↔ text.head? = some char := by
  cases text with
  | nil => exact ⟨nofun, nofun⟩
  | cons other text =>
      obtain ⟨first, rest, bytes⟩ :=
        List.exists_cons_of_ne_nil (@String.utf8EncodeChar_ne_nil other)
      rw [encode_cons, bytes, List.cons_append, List.head?_cons, List.head?_cons, Option.some_inj,
        Option.some_inj]
      constructor
      · intro same
        by_contra different
        exact encodeChar_ne ascii different first (bytes ▸ List.mem_cons_self) same
      · rintro rfl
        rw [encodeChar_ascii ascii] at bytes
        exact (List.cons.inj bytes).1.symm

/-! ## Scanners -/

/-- The bytes that are wanted and the characters that are wanted are the same. -/
structure Scans (wantsByte : UInt8 → Bool) (wants : Char → Bool) : Prop where
  wanted : ∀ char, wants char = true → ∀ byte ∈ String.utf8EncodeChar char, wantsByte byte = true
  unwanted : ∀ char, wants char = false →
    ∀ byte ∈ (String.utf8EncodeChar char).head?, wantsByte byte = false

variable {wantsByte : UInt8 → Bool} {wants : Char → Bool}

theorem Scans.takeWhile (scans : Scans wantsByte wants) (text : List Char) :
    (encode text).takeWhile wantsByte = encode (text.takeWhile wants) := by
  induction text with
  | nil => rfl
  | cons char text induction =>
      rw [encode_cons]
      cases wanted : wants char with
      | true =>
          rw [List.takeWhile_append_of_pos (scans.wanted char wanted), induction,
            List.takeWhile_cons_of_pos wanted, encode_cons]
      | false =>
          obtain ⟨first, rest, bytes⟩ :=
            List.exists_cons_of_ne_nil (@String.utf8EncodeChar_ne_nil char)
          have other := scans.unwanted char wanted first (by rw [bytes]; rfl)
          rw [bytes, List.cons_append, List.takeWhile_cons_of_neg (by simp [other]),
            List.takeWhile_cons_of_neg (by simp [wanted]), encode_nil]

theorem Scans.dropWhile (scans : Scans wantsByte wants) (text : List Char) :
    (encode text).dropWhile wantsByte = encode (text.dropWhile wants) := by
  have bytes : (encode text).takeWhile wantsByte ++ (encode text).dropWhile wantsByte = _ :=
    List.takeWhile_append_dropWhile
  have chars : text.takeWhile wants ++ text.dropWhile wants = text :=
    List.takeWhile_append_dropWhile
  have parts := congrArg encode chars
  rw [encode_append] at parts
  rw [scans.takeWhile] at bytes
  exact List.append_cancel_left (bytes.trans parts.symm)

/-- Both look at the first place alike. -/
theorem Scans.head (scans : Scans wantsByte wants) (text : List Char) :
    (encode text).head?.any wantsByte = text.head?.any wants := by
  cases text with
  | nil => rfl
  | cons char text =>
      obtain ⟨first, rest, bytes⟩ :=
        List.exists_cons_of_ne_nil (@String.utf8EncodeChar_ne_nil char)
      rw [encode_cons, bytes]
      cases wanted : wants char with
      | true =>
          have here := scans.wanted char wanted first (bytes ▸ List.mem_cons_self)
          simp [wanted, here]
      | false =>
          have here := scans.unwanted char wanted first (by rw [bytes]; rfl)
          simp [wanted, here]

/-- Scanners that want ASCII only and agree on it. -/
theorem scans_ascii (low : ∀ char, char.toNat < 0x80 →
      wantsByte (UInt8.ofNat char.toNat) = wants char)
    (high : ∀ char, 0x80 ≤ char.toNat → wants char = false)
    (high_byte : ∀ byte, 0x80 ≤ byte.toNat → wantsByte byte = false) : Scans wantsByte wants where
  wanted char wanted byte member := by
    by_cases ascii : char.toNat < 0x80
    · rw [encodeChar_ascii ascii, List.mem_singleton] at member
      rw [member, low char ascii, wanted]
    · rw [high char (Nat.not_lt.mp ascii)] at wanted
      cases wanted
  unwanted char unwanted byte member := by
    by_cases ascii : char.toNat < 0x80
    · rw [encodeChar_ascii ascii] at member
      obtain rfl := Option.some.inj member
      rw [low char ascii, unwanted]
    · exact high_byte byte
        (encodeChar_high (Nat.not_lt.mp ascii) byte (List.mem_of_mem_head? member))

/-- Scanners that want everything but an ASCII character. -/
theorem scans_ne {char : Char} (ascii : char.toNat < 0x80) {byte : UInt8}
    (same : byte = UInt8.ofNat char.toNat) :
    Scans (fun other => decide (other ≠ byte)) (fun other => decide (other ≠ char)) where
  wanted other wanted first member := by
    subst same
    exact decide_eq_true (encodeChar_ne ascii (of_decide_eq_true wanted) first member)
  unwanted other unwanted first member := by
    obtain rfl : other = char := by simpa using unwanted
    rw [encodeChar_ascii ascii] at member
    obtain rfl := Option.some.inj member
    simp [same]

end Utf8Scan
