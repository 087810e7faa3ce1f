import Mathlib.Algebra.GroupWithZero.Nat
import Mathlib.Data.List.Basic

/-!
# JSON texts

The grammar of JSON over the bytes of a text.  A `JsonText` is a syntax tree which carries every
choice the grammar leaves open: white space, the spelling of characters in strings, the form of
numbers.  Every tree renders to a text, and every well-formed text is the rendering of a tree; its
value forgets the choices.  Bytes outside the ASCII range may stand in strings only, where they
stand for themselves.
-/

/-- The values of JSON; a number is a mantissa and a power of ten. -/
inductive Json where
  | null
  | bool (value : Bool)
  | number (mantissa : Int) (exponent : Int)
  | string (bytes : List UInt8)
  | array (elements : List Json)
  | object (members : List (List UInt8 × Json))
  deriving Repr

namespace Json

/-- The member of that name; of several the last one. -/
def get? (name : List UInt8) : Json → Option Json
  | object members => members.reverse.lookup name
  | _ => none

def asString? : Json → Option (List UInt8)
  | string bytes => some bytes
  | _ => none

end Json

namespace JsonText

/-! ## Bytes -/

/-- The bytes of an ASCII text. -/
def ascii (text : String) : List UInt8 := text.toList.map fun c => UInt8.ofNat c.toNat

abbrev quote : UInt8 := 34

abbrev backslash : UInt8 := 92

abbrev comma : UInt8 := 44

abbrev colon : UInt8 := 58

abbrev leftBrace : UInt8 := 123

abbrev rightBrace : UInt8 := 125

abbrev leftBracket : UInt8 := 91

abbrev rightBracket : UInt8 := 93

/-! ## White space -/

inductive Space where
  | space
  | tab
  | lineFeed
  | carriageReturn
  deriving DecidableEq, Repr

namespace Space

def byte : Space → UInt8
  | .space => 32
  | .tab => 9
  | .lineFeed => 10
  | .carriageReturn => 13

def ofByte? : UInt8 → Option Space
  | 32 => some .space
  | 9 => some .tab
  | 10 => some .lineFeed
  | 13 => some .carriageReturn
  | _ => none

@[simp] theorem ofByte?_byte (white : Space) : ofByte? white.byte = some white := by
  cases white <;> rfl

end Space

def renderSpaces (spaces : List Space) : List UInt8 := spaces.map Space.byte

@[simp] theorem renderSpaces_nil : renderSpaces [] = [] := rfl

/-! ## Strings -/

/-- The two-character escapes. -/
inductive Escape where
  | quote
  | backslash
  | slash
  | backspace
  | formFeed
  | lineFeed
  | carriageReturn
  | tab
  deriving DecidableEq, Repr

namespace Escape

/-- The byte after the backslash. -/
def letter : Escape → UInt8
  | .quote => 34
  | .backslash => 92
  | .slash => 47
  | .backspace => 98
  | .formFeed => 102
  | .lineFeed => 110
  | .carriageReturn => 114
  | .tab => 116

/-- The byte the escape stands for. -/
def byte : Escape → UInt8
  | .quote => 34
  | .backslash => 92
  | .slash => 47
  | .backspace => 8
  | .formFeed => 12
  | .lineFeed => 10
  | .carriageReturn => 13
  | .tab => 9

def ofLetter? : UInt8 → Option Escape
  | 34 => some .quote
  | 92 => some .backslash
  | 47 => some .slash
  | 98 => some .backspace
  | 102 => some .formFeed
  | 110 => some .lineFeed
  | 114 => some .carriageReturn
  | 116 => some .tab
  | _ => none

@[simp] theorem ofLetter?_letter (code : Escape) : ofLetter? code.letter = some code := by
  cases code <;> rfl

end Escape

-- Named, so that the numerals of the digits carry no proof of their own.
instance ten_neZero : NeZero 10 := ⟨by decide⟩

instance six_neZero : NeZero 6 := ⟨by decide⟩

/-- A hexadecimal digit; the letters may be in upper case. -/
inductive HexDigit where
  | decimal (value : Fin 10)
  | lower (value : Fin 6)
  | upper (value : Fin 6)
  deriving DecidableEq, Repr

namespace HexDigit

def byte : HexDigit → UInt8
  | .decimal value => 48 + UInt8.ofNat value
  | .lower value => 97 + UInt8.ofNat value
  | .upper value => 65 + UInt8.ofNat value

def value : HexDigit → Nat
  | .decimal value => value
  | .lower value | .upper value => 10 + value

def ofByte? (byte : UInt8) : Option HexDigit :=
  if h : 48 ≤ byte.toNat ∧ byte.toNat < 58 then some (.decimal ⟨byte.toNat - 48, by omega⟩)
  else if h : 97 ≤ byte.toNat ∧ byte.toNat < 103 then some (.lower ⟨byte.toNat - 97, by omega⟩)
  else if h : 65 ≤ byte.toNat ∧ byte.toNat < 71 then some (.upper ⟨byte.toNat - 65, by omega⟩)
  else none

@[simp] theorem ofByte?_byte (digit : HexDigit) : ofByte? digit.byte = some digit := by
  cases digit with
  | decimal value => revert value; decide
  | lower value => revert value; decide
  | upper value => revert value; decide

end HexDigit

/-- Four hexadecimal digits, a UTF-16 code unit. -/
structure CodeUnit where
  first : HexDigit
  second : HexDigit
  third : HexDigit
  fourth : HexDigit
  deriving DecidableEq, Repr

namespace CodeUnit

def value (unit : CodeUnit) : Nat :=
  ((unit.first.value * 16 + unit.second.value) * 16 + unit.third.value) * 16 + unit.fourth.value

def render (unit : CodeUnit) : List UInt8 :=
  [unit.first.byte, unit.second.byte, unit.third.byte, unit.fourth.byte]

def isHigh (unit : CodeUnit) : Bool := 0xD800 ≤ unit.value && unit.value < 0xDC00

def isLow (unit : CodeUnit) : Bool := 0xDC00 ≤ unit.value && unit.value < 0xE000

end CodeUnit

/-- The bytes that stand for themselves in a string. -/
def IsPlain (byte : UInt8) : Prop := 32 ≤ byte.toNat ∧ byte ≠ quote ∧ byte ≠ backslash

instance (byte : UInt8) : Decidable (IsPlain byte) := by
  unfold IsPlain
  infer_instance

/-- The bytes inside a string: the control characters, the two delimiters and the plain ones. -/
theorem byte_cases {property : UInt8 → Prop} (control : ∀ n : Fin 32, property (UInt8.ofNat n))
    (atQuote : property quote) (atBackslash : property backslash)
    (plain : ∀ byte, IsPlain byte → property byte) (byte : UInt8) : property byte := by
  by_cases hidden : byte.toNat < 32
  · simpa using control ⟨byte.toNat, hidden⟩
  by_cases isQuote : byte = quote
  · exact isQuote ▸ atQuote
  by_cases isBackslash : byte = backslash
  · exact isBackslash ▸ atBackslash
  exact plain byte ⟨Nat.le_of_not_lt hidden, isQuote, isBackslash⟩

/-- One character, or part of one, in a string. -/
inductive Piece where
  | plain (byte : UInt8) (isPlain : IsPlain byte)
  | escape (code : Escape)
  | unicode (unit : CodeUnit)
  deriving DecidableEq

namespace Piece

def render : Piece → List UInt8
  | .plain byte _ => [byte]
  | .escape code => [backslash, code.letter]
  | .unicode unit => backslash :: 117 :: unit.render

end Piece

/-- The UTF-8 encoding of a code point; a surrogate is replaced. -/
def utf8 (point : Nat) : List UInt8 :=
  String.utf8EncodeChar (if point.isValidChar then Char.ofNat point else Char.ofNat 0xFFFD)

/-- The content of a string as it stands in the text. -/
def renderPieces (pieces : List Piece) : List UInt8 := pieces.flatMap Piece.render

@[simp] theorem renderPieces_nil : renderPieces [] = [] := rfl

@[simp] theorem renderPieces_cons (piece : Piece) (pieces : List Piece) :
    renderPieces (piece :: pieces) = piece.render ++ renderPieces pieces := rfl

@[simp] theorem renderPieces_append (first second : List Piece) :
    renderPieces (first ++ second) = renderPieces first ++ renderPieces second := by
  simp [renderPieces]

/-- The bytes a string stands for; two surrogates make up one character. -/
def decodePieces : List Piece → List UInt8
  | [] => []
  | .plain byte _ :: pieces => byte :: decodePieces pieces
  | .escape code :: pieces => code.byte :: decodePieces pieces
  | .unicode high :: .unicode low :: pieces =>
      if high.isHigh && low.isLow then
        utf8 (0x10000 + (high.value - 0xD800) * 0x400 + (low.value - 0xDC00)) ++
          decodePieces pieces
      else utf8 high.value ++ decodePieces (.unicode low :: pieces)
  | .unicode unit :: pieces => utf8 unit.value ++ decodePieces pieces

def renderString (pieces : List Piece) : List UInt8 := quote :: renderPieces pieces ++ [quote]

/-! ## Numbers -/

/-- A decimal digit. -/
abbrev Digit := Fin 10

def Digit.byte (digit : Digit) : UInt8 := 48 + UInt8.ofNat digit

def renderDigits (digits : List Digit) : List UInt8 := digits.map Digit.byte

/-- The number a sequence of digits stands for. -/
def digitsValue (digits : List Digit) : Nat :=
  digits.foldl (fun value digit => value * 10 + digit.val) 0

theorem digitsValue_append (digits : List Digit) (digit : Digit) :
    digitsValue (digits ++ [digit]) = digitsValue digits * 10 + digit := by
  simp [digitsValue]

/-- A whole number without leading zeros. -/
inductive Whole where
  | zero
  | positive (lead : Digit) (nonzero : lead ≠ 0) (rest : List Digit)
  deriving DecidableEq

namespace Whole

def digits : Whole → List Digit
  | .zero => [0]
  | .positive lead _ rest => lead :: rest

/-- One more digit at the end. -/
def snoc (whole : Whole) (digit : Digit) : Whole :=
  match whole with
  | .zero => if nonzero : digit ≠ 0 then .positive digit nonzero [] else .zero
  | .positive lead nonzero rest => .positive lead nonzero (rest ++ [digit])

/-- The decimal digits of a number. -/
def ofNat (n : Nat) : Whole :=
  if n = 0 then .zero else (ofNat (n / 10)).snoc (Fin.ofNat 10 n)

theorem snoc_value (whole : Whole) (digit : Digit) :
    digitsValue (whole.snoc digit).digits = digitsValue whole.digits * 10 + digit := by
  unfold snoc
  split
  · split
    · simp [digits, digitsValue]
    · next zero =>
        simp only [ne_eq, not_not] at zero
        simp [digits, digitsValue, zero]
  · next lead nonzero rest =>
      exact digitsValue_append (lead :: rest) digit

theorem ofNat_value (n : Nat) : digitsValue (ofNat n).digits = n := by
  induction n using ofNat.induct with
  | case1 => simp [ofNat, digits, digitsValue]
  | case2 n nonzero ih =>
      rw [ofNat, if_neg nonzero, snoc_value, ih, Fin.val_ofNat]
      omega

end Whole

/-- The exponent of a number, with its sign if one is written. -/
structure Exponent where
  upper : Bool
  sign : Option Bool
  lead : Digit
  rest : List Digit
  deriving DecidableEq, Repr

/-- A number as the grammar writes it. -/
structure NumberText where
  negative : Bool
  whole : Whole
  fraction : Option (Digit × List Digit)
  exponent : Option Exponent
  deriving DecidableEq

namespace NumberText

def renderFraction : Option (Digit × List Digit) → List UInt8
  | none => []
  | some (lead, rest) => 46 :: renderDigits (lead :: rest)

def renderSign : Option Bool → List UInt8
  | none => []
  | some true => [45]
  | some false => [43]

def renderExponent : Option Exponent → List UInt8
  | none => []
  | some exponent =>
      (if exponent.upper then 69 else 101) :: renderSign exponent.sign ++
        renderDigits (exponent.lead :: exponent.rest)

def render (number : NumberText) : List UInt8 :=
  (if number.negative then [45] else []) ++ renderDigits number.whole.digits ++
    renderFraction number.fraction ++ renderExponent number.exponent

def fractionDigits : Option (Digit × List Digit) → List Digit
  | none => []
  | some (lead, rest) => lead :: rest

def exponentValue : Option Exponent → Int
  | none => 0
  | some exponent =>
      let magnitude : Int := digitsValue (exponent.lead :: exponent.rest)
      if exponent.sign = some true then -magnitude else magnitude

def value (number : NumberText) : Json :=
  let fraction := fractionDigits number.fraction
  let magnitude : Int := digitsValue (number.whole.digits ++ fraction)
  .number (if number.negative then -magnitude else magnitude)
    (exponentValue number.exponent - fraction.length)

/-- An integer in decimal. -/
def ofInt (n : Int) : NumberText where
  negative := n < 0
  whole := Whole.ofNat n.natAbs
  fraction := none
  exponent := none

@[simp] theorem value_ofInt (n : Int) : (ofInt n).value = .number n 0 := by
  have magnitude := Whole.ofNat_value n.natAbs
  simp only [value, ofInt, fractionDigits, List.append_nil, magnitude, exponentValue,
    List.length_nil]
  congr 1
  by_cases negative : n < 0
  · rw [if_pos (decide_eq_true negative)]
    omega
  · rw [if_neg (by simpa using negative)]
    omega

end NumberText

end JsonText

/-! ## Values -/

mutual

/-- The syntax tree of a value. -/
inductive JsonText where
  | null
  | bool (value : Bool)
  | number (literal : JsonText.NumberText)
  | string (pieces : List JsonText.Piece)
  | emptyArray (spaces : List JsonText.Space)
  | array (elements : ElementsText)
  | emptyObject (spaces : List JsonText.Space)
  | object (members : MembersText)

/-- The elements of an array, each with the white space around it. -/
inductive ElementsText where
  | last (before : List JsonText.Space) (value : JsonText) (after : List JsonText.Space)
  | more (before : List JsonText.Space) (value : JsonText) (after : List JsonText.Space)
      (later : ElementsText)

/-- The members of an object, with the white space around their keys and values. -/
inductive MembersText where
  | last (before : List JsonText.Space) (key : List JsonText.Piece)
      (beforeColon afterColon : List JsonText.Space) (value : JsonText)
      (after : List JsonText.Space)
  | more (before : List JsonText.Space) (key : List JsonText.Piece)
      (beforeColon afterColon : List JsonText.Space) (value : JsonText)
      (after : List JsonText.Space) (later : MembersText)

end

namespace JsonText

mutual

/-- The text of a value. -/
def render : JsonText → List UInt8
  | .null => ascii "null"
  | .bool true => ascii "true"
  | .bool false => ascii "false"
  | .number literal => literal.render
  | .string pieces => renderString pieces
  | .emptyArray spaces => leftBracket :: renderSpaces spaces ++ [rightBracket]
  | .array elements => leftBracket :: renderElements elements ++ [rightBracket]
  | .emptyObject spaces => leftBrace :: renderSpaces spaces ++ [rightBrace]
  | .object members => leftBrace :: renderMembers members ++ [rightBrace]

def renderElements : ElementsText → List UInt8
  | .last before value after => renderSpaces before ++ render value ++ renderSpaces after
  | .more before value after later =>
      renderSpaces before ++ render value ++ renderSpaces after ++ comma :: renderElements later

def renderMembers : MembersText → List UInt8
  | .last before key beforeColon afterColon value after =>
      renderSpaces before ++ renderString key ++ renderSpaces beforeColon ++
        colon :: renderSpaces afterColon ++ render value ++ renderSpaces after
  | .more before key beforeColon afterColon value after later =>
      renderSpaces before ++ renderString key ++ renderSpaces beforeColon ++
        colon :: renderSpaces afterColon ++ render value ++ renderSpaces after ++
        comma :: renderMembers later

end

mutual

/-- The value a text stands for. -/
def value : JsonText → Json
  | .null => .null
  | .bool value => .bool value
  | .number literal => literal.value
  | .string pieces => .string (decodePieces pieces)
  | .emptyArray _ => .array []
  | .array elements => .array (elementValues elements)
  | .emptyObject _ => .object []
  | .object members => .object (memberValues members)

def elementValues : ElementsText → List Json
  | .last _ element _ => [value element]
  | .more _ element _ later => value element :: elementValues later

def memberValues : MembersText → List (List UInt8 × Json)
  | .last _ key _ _ member _ => [(decodePieces key, value member)]
  | .more _ key _ _ member _ later => (decodePieces key, value member) :: memberValues later

end

end JsonText
