import Typio.JsonText

/-!
# JSON texts are read in one way

A text which follows the grammar has one syntax tree, and the tree ends where the grammar says it
does: of two trees which render to the beginnings of one text, followed by bytes that do not
continue a number, both are the same.
-/

namespace JsonText

/-- The rest of a text does not begin with a marked byte. -/
def Avoids (marked : UInt8 → Prop) (rest : List UInt8) : Prop := ∀ byte ∈ rest.head?, ¬ marked byte

@[simp] theorem avoids_nil (marked : UInt8 → Prop) : Avoids marked [] := by simp [Avoids]

@[simp] theorem avoids_cons (marked : UInt8 → Prop) (byte : UInt8) (rest : List UInt8) :
    Avoids marked (byte :: rest) ↔ ¬ marked byte := by simp [Avoids]

theorem Avoids.mono {marked narrow : UInt8 → Prop} {rest : List UInt8} (avoids : Avoids marked rest)
    (within : ∀ byte, narrow byte → marked byte) : Avoids narrow rest := fun byte head is =>
  avoids byte head (within byte is)

/-- A run of coded symbols which no marked byte follows is read in one way. -/
theorem map_append_inj {α : Type*} {code : α → UInt8} (injective : Function.Injective code)
    {marked : UInt8 → Prop} (marks : ∀ symbol, marked (code symbol)) :
    ∀ {first second : List α} {rest other : List UInt8}, Avoids marked rest →
      Avoids marked other → first.map code ++ rest = second.map code ++ other →
        first = second ∧ rest = other
  | [], [], _, _, _, _, same => ⟨rfl, by simpa using same⟩
  | [], symbol :: _, _, _, avoids, _, same => by
      simp only [List.map_nil, List.nil_append, List.map_cons, List.cons_append] at same
      exact absurd (marks symbol) (by simpa [same] using avoids)
  | symbol :: _, [], _, _, _, avoids, same => by
      simp only [List.map_nil, List.nil_append, List.map_cons, List.cons_append] at same
      exact absurd (marks symbol) (by simpa [← same] using avoids)
  | symbol :: first, other :: second, _, _, avoids, avoids', same => by
      simp only [List.map_cons, List.cons_append, List.cons.injEq] at same
      obtain ⟨rfl, restSame⟩ := map_append_inj injective marks avoids avoids' same.2
      exact ⟨by rw [injective same.1], restSame⟩

/-! ## White space -/

def IsSpace (byte : UInt8) : Prop := (Space.ofByte? byte).isSome

instance (byte : UInt8) : Decidable (IsSpace byte) := by
  unfold IsSpace
  infer_instance

theorem Space.byte_isSpace (white : Space) : IsSpace white.byte := by simp [IsSpace]

theorem Space.byte_injective : Function.Injective Space.byte := fun first second same => by
  simpa using congrArg Space.ofByte? same

theorem renderSpaces_inj {first second : List Space} {rest other : List UInt8}
    (solid : Avoids IsSpace rest) (solid' : Avoids IsSpace other)
    (same : renderSpaces first ++ rest = renderSpaces second ++ other) :
    first = second ∧ rest = other :=
  map_append_inj Space.byte_injective Space.byte_isSpace solid solid' same

/-! ## Strings -/

theorem Escape.letter_injective : Function.Injective Escape.letter := fun first second same => by
  simpa using congrArg Escape.ofLetter? same

theorem Escape.letter_ne_u (code : Escape) : code.letter ≠ 117 := by cases code <;> decide

theorem HexDigit.byte_injective : Function.Injective HexDigit.byte := fun first second same => by
  simpa using congrArg HexDigit.ofByte? same

theorem CodeUnit.render_inj {first second : CodeUnit} {rest other : List UInt8}
    (same : first.render ++ rest = second.render ++ other) : first = second ∧ rest = other := by
  cases first
  cases second
  simp only [CodeUnit.render, List.cons_append, List.nil_append, List.cons.injEq] at same
  obtain ⟨one, two, three, four, same⟩ := same
  simp [HexDigit.byte_injective one, HexDigit.byte_injective two, HexDigit.byte_injective three,
    HexDigit.byte_injective four, same]

theorem Piece.render_inj {first second : Piece} {rest other : List UInt8}
    (same : first.render ++ rest = second.render ++ other) : first = second ∧ rest = other := by
  cases first with
  | plain byte isPlain =>
      cases second with
      | plain byte' isPlain' => simpa [render] using same
      | escape code =>
          simp only [render, List.cons_append, List.cons.injEq] at same
          exact absurd same.1 isPlain.2.2
      | unicode unit =>
          simp only [render, List.cons_append, List.cons.injEq] at same
          exact absurd same.1 isPlain.2.2
  | escape code =>
      cases second with
      | plain byte' isPlain' =>
          simp only [render, List.cons_append, List.cons.injEq] at same
          exact absurd same.1.symm isPlain'.2.2
      | escape code' =>
          simp only [render, List.cons_append, List.nil_append, List.cons.injEq, true_and] at same
          exact ⟨by rw [Escape.letter_injective same.1], same.2⟩
      | unicode unit =>
          simp only [render, List.cons_append, List.cons.injEq, true_and] at same
          exact absurd same.1 code.letter_ne_u
  | unicode unit =>
      cases second with
      | plain byte' isPlain' =>
          simp only [render, List.cons_append, List.cons.injEq] at same
          exact absurd same.1.symm isPlain'.2.2
      | escape code =>
          simp only [render, List.cons_append, List.cons.injEq, true_and] at same
          exact absurd same.1.symm code.letter_ne_u
      | unicode unit' =>
          simp only [render, List.cons_append, List.cons.injEq, true_and] at same
          obtain ⟨rfl, restSame⟩ := CodeUnit.render_inj same
          exact ⟨rfl, restSame⟩

/-- No piece of a string begins with the quote that closes it. -/
theorem Piece.render_ne_quote (piece : Piece) (rest other : List UInt8) :
    piece.render ++ rest ≠ quote :: other := by
  cases piece with
  | plain byte isPlain =>
      intro same
      simp only [render, List.cons_append, List.cons.injEq] at same
      exact isPlain.2.1 same.1
  | escape code => simp [render, show backslash ≠ quote by decide]
  | unicode unit => simp [render, show backslash ≠ quote by decide]

theorem renderPieces_inj : ∀ {first second : List Piece} {rest other : List UInt8},
    renderPieces first ++ quote :: rest = renderPieces second ++ quote :: other →
      first = second ∧ rest = other
  | [], [], _, _, same => by simpa using same
  | [], piece :: second, _, _, same => by
      rw [renderPieces_cons, List.append_assoc] at same
      exact absurd same.symm (piece.render_ne_quote _ _)
  | piece :: first, [], _, _, same => by
      rw [renderPieces_cons, List.append_assoc] at same
      exact absurd same (piece.render_ne_quote _ _)
  | piece :: first, piece' :: second, _, _, same => by
      rw [renderPieces_cons, renderPieces_cons, List.append_assoc, List.append_assoc] at same
      obtain ⟨rfl, later⟩ := Piece.render_inj same
      obtain ⟨rfl, restSame⟩ := renderPieces_inj later
      exact ⟨rfl, restSame⟩

theorem renderString_inj {first second : List Piece} {rest other : List UInt8}
    (same : renderString first ++ rest = renderString second ++ other) :
    first = second ∧ rest = other := by
  simp only [renderString, List.cons_append, List.append_assoc, List.cons.injEq, true_and,
    List.nil_append] at same
  exact renderPieces_inj same

/-! ## Numbers -/

def IsDigit (byte : UInt8) : Prop := 48 ≤ byte.toNat ∧ byte.toNat < 58

/-- The bytes that may continue a number. -/
def ContinuesNumber (byte : UInt8) : Prop :=
  IsDigit byte ∨ byte = 43 ∨ byte = 45 ∨ byte = 46 ∨ byte = 69 ∨ byte = 101

instance (byte : UInt8) : Decidable (IsDigit byte) := by
  unfold IsDigit
  infer_instance

instance (byte : UInt8) : Decidable (ContinuesNumber byte) := by
  unfold ContinuesNumber
  infer_instance

theorem Digit.byte_isDigit (digit : Digit) : IsDigit digit.byte := by revert digit; decide

theorem Digit.byte_injective : Function.Injective Digit.byte := by
  intro first second
  revert first second
  decide

theorem renderDigits_inj {first second : List Digit} {rest other : List UInt8}
    (ends : Avoids IsDigit rest) (ends' : Avoids IsDigit other)
    (same : renderDigits first ++ rest = renderDigits second ++ other) :
    first = second ∧ rest = other :=
  map_append_inj Digit.byte_injective Digit.byte_isDigit ends ends' same

theorem Avoids.noDigit {rest : List UInt8} (ends : Avoids ContinuesNumber rest) :
    Avoids IsDigit rest := ends.mono fun _ => Or.inl

theorem Whole.digits_injective : Function.Injective Whole.digits := by
  intro first second same
  match first, second with
  | .zero, .zero => rfl
  | .zero, .positive lead nonzero rest => exact absurd (List.head_eq_of_cons_eq same).symm nonzero
  | .positive lead nonzero rest, .zero => exact absurd (List.head_eq_of_cons_eq same) nonzero
  | .positive lead nonzero rest, .positive lead' nonzero' rest' =>
      simp only [Whole.digits, List.cons.injEq] at same
      obtain ⟨rfl, rfl⟩ := same
      rfl

namespace NumberText

theorem renderExponent_ends (exponent : Option Exponent) {rest : List UInt8}
    (ends : Avoids ContinuesNumber rest) :
    Avoids (fun byte => IsDigit byte ∨ byte = 46) (renderExponent exponent ++ rest) := by
  cases exponent with
  | none => exact ends.mono fun byte => by rintro (digit | rfl) <;> simp [ContinuesNumber, *]
  | some exponent =>
      simp only [renderExponent, List.cons_append, avoids_cons]
      split <;> decide

theorem renderFraction_ends (fraction : Option (Digit × List Digit)) {rest : List UInt8}
    (ends : Avoids IsDigit rest) : Avoids IsDigit (renderFraction fraction ++ rest) := by
  cases fraction with
  | none => exact ends
  | some fraction =>
      simp only [renderFraction, List.cons_append, avoids_cons]
      decide

theorem renderMinus_inj {first second : Bool} {whole other : Whole} {rest rest' : List UInt8}
    (same : (if first then [45] else []) ++ (renderDigits whole.digits ++ rest) =
      (if second then [45] else []) ++ (renderDigits other.digits ++ rest')) :
    first = second ∧ renderDigits whole.digits ++ rest = renderDigits other.digits ++ rest' := by
  have notMinus (whole : Whole) (rest later : List UInt8) :
      renderDigits whole.digits ++ rest ≠ 45 :: later := by
    have digitNot (digit : Digit) : digit.byte ≠ 45 := by revert digit; decide
    cases whole <;> simp [Whole.digits, renderDigits, digitNot]
  cases first with
  | true =>
      cases second with
      | true => exact ⟨rfl, List.tail_eq_of_cons_eq same⟩
      | false => exact absurd same.symm (notMinus other _ _)
  | false =>
      cases second with
      | true => exact absurd same (notMinus whole _ _)
      | false => exact ⟨rfl, same⟩

theorem renderSign_inj {first second : Option Bool} {lead other : Digit}
    {rest rest' : List UInt8}
    (same : renderSign first ++ lead.byte :: rest = renderSign second ++ other.byte :: rest') :
    first = second ∧ lead.byte :: rest = other.byte :: rest' := by
  have notSign (digit : Digit) : digit.byte ≠ 45 ∧ digit.byte ≠ 43 := by revert digit; decide
  match first, second with
  | none, none => exact ⟨rfl, same⟩
  | some true, some true | some false, some false => exact ⟨rfl, List.tail_eq_of_cons_eq same⟩
  | some true, some false | some false, some true => simp [renderSign] at same
  | none, some true =>
      simp only [renderSign, List.nil_append, List.cons_append, List.cons.injEq] at same
      exact absurd same.1 (notSign lead).1
  | none, some false =>
      simp only [renderSign, List.nil_append, List.cons_append, List.cons.injEq] at same
      exact absurd same.1 (notSign lead).2
  | some true, none =>
      simp only [renderSign, List.nil_append, List.cons_append, List.cons.injEq] at same
      exact absurd same.1.symm (notSign other).1
  | some false, none =>
      simp only [renderSign, List.nil_append, List.cons_append, List.cons.injEq] at same
      exact absurd same.1.symm (notSign other).2

theorem renderExponent_inj {first second : Option Exponent} {rest other : List UInt8}
    (ends : Avoids ContinuesNumber rest) (ends' : Avoids ContinuesNumber other)
    (same : renderExponent first ++ rest = renderExponent second ++ other) :
    first = second ∧ rest = other := by
  have begins (exponent : Exponent) :
      ContinuesNumber (if exponent.upper then 69 else 101) := by split <;> decide
  match first, second with
  | none, none => exact ⟨rfl, same⟩
  | none, some exponent =>
      simp only [renderExponent, List.nil_append, List.cons_append] at same
      exact absurd (begins exponent) (by simpa [same] using ends)
  | some exponent, none =>
      simp only [renderExponent, List.nil_append, List.cons_append] at same
      exact absurd (begins exponent) (by simpa [← same] using ends')
  | some ⟨upper, sign, lead, digits⟩, some ⟨upper', sign', lead', digits'⟩ =>
      simp only [renderExponent, List.cons_append, List.append_assoc, List.cons.injEq] at same
      have sameLetter : upper = upper' := by
        revert same
        cases upper <;> cases upper' <;> simp
      obtain ⟨rfl, sameDigits⟩ := renderSign_inj same.2
      obtain ⟨sameDigits, restSame⟩ := @renderDigits_inj (lead :: digits) (lead' :: digits') _ _
        ends.noDigit ends'.noDigit sameDigits
      simp only [List.cons.injEq] at sameDigits
      exact ⟨by rw [sameLetter, sameDigits.1, sameDigits.2], restSame⟩

theorem renderFraction_inj {first second : Option (Digit × List Digit)} {rest other : List UInt8}
    (ends : Avoids (fun byte => IsDigit byte ∨ byte = 46) rest)
    (ends' : Avoids (fun byte => IsDigit byte ∨ byte = 46) other)
    (same : renderFraction first ++ rest = renderFraction second ++ other) :
    first = second ∧ rest = other := by
  match first, second with
  | none, none => exact ⟨rfl, same⟩
  | none, some fraction =>
      simp only [renderFraction, List.nil_append, List.cons_append] at same
      simp [same] at ends
  | some fraction, none =>
      simp only [renderFraction, List.nil_append, List.cons_append] at same
      simp [← same] at ends'
  | some (lead, digits), some (lead', digits') =>
      simp only [renderFraction, List.cons_append, List.cons.injEq, true_and] at same
      obtain ⟨sameDigits, restSame⟩ := renderDigits_inj (ends.mono fun _ => Or.inl)
        (ends'.mono fun _ => Or.inl) same
      simp only [List.cons.injEq] at sameDigits
      exact ⟨by rw [sameDigits.1, sameDigits.2], restSame⟩

theorem render_inj {first second : NumberText} {rest other : List UInt8}
    (ends : Avoids ContinuesNumber rest) (ends' : Avoids ContinuesNumber other)
    (same : first.render ++ rest = second.render ++ other) : first = second ∧ rest = other := by
  obtain ⟨negative, whole, fraction, exponent⟩ := first
  obtain ⟨negative', whole', fraction', exponent'⟩ := second
  simp only [render, List.append_assoc] at same
  obtain ⟨sameSign, same⟩ := renderMinus_inj same
  have tail := renderExponent_ends exponent ends
  have tail' := renderExponent_ends exponent' ends'
  obtain ⟨sameWhole, same⟩ := renderDigits_inj
    (renderFraction_ends fraction (tail.mono fun _ => Or.inl))
    (renderFraction_ends fraction' (tail'.mono fun _ => Or.inl)) same
  obtain ⟨sameFraction, same⟩ := renderFraction_inj tail tail' same
  obtain ⟨sameExponent, restSame⟩ := renderExponent_inj ends ends' same
  exact ⟨by rw [sameSign, Whole.digits_injective sameWhole, sameFraction, sameExponent], restSame⟩

end NumberText

/-! ## Values -/

/-- What the first byte of a value tells about it. -/
inductive Kind where
  | null
  | bool (value : Bool)
  | number
  | string
  | array
  | object
  deriving DecidableEq

def Kind.ofByte? : UInt8 → Option Kind
  | 110 => some .null
  | 116 => some (.bool true)
  | 102 => some (.bool false)
  | 34 => some .string
  | 91 => some .array
  | 123 => some .object
  | byte => if IsDigit byte ∨ byte = 45 then some .number else none

def kind : JsonText → Kind
  | .null => .null
  | .bool value => .bool value
  | .number _ => .number
  | .string _ => .string
  | .emptyArray _ | .array _ => .array
  | .emptyObject _ | .object _ => .object

theorem NumberText.render_starts (literal : NumberText) :
    ∃ byte rest, literal.render = byte :: rest ∧ Kind.ofByte? byte = some .number := by
  have digitStarts (digit : Digit) : Kind.ofByte? digit.byte = some .number := by
    revert digit
    decide
  obtain ⟨negative, whole, fraction, exponent⟩ := literal
  cases negative with
  | true => exact ⟨45, _, rfl, rfl⟩
  | false =>
      cases whole with
      | zero => exact ⟨Digit.byte 0, _, rfl, digitStarts 0⟩
      | positive lead nonzero digits => exact ⟨lead.byte, _, rfl, digitStarts lead⟩

theorem render_starts (text : JsonText) :
    ∃ byte rest, text.render = byte :: rest ∧ Kind.ofByte? byte = some text.kind := by
  cases text with
  | null => exact ⟨110, _, rfl, rfl⟩
  | bool value => cases value <;> exact ⟨_, _, rfl, rfl⟩
  | number literal =>
      rw [render]
      exact literal.render_starts
  | string pieces => exact ⟨quote, _, by rw [render]; rfl, rfl⟩
  | emptyArray spaces => exact ⟨leftBracket, _, by rw [render]; rfl, rfl⟩
  | array elements => exact ⟨leftBracket, _, by rw [render]; rfl, rfl⟩
  | emptyObject spaces => exact ⟨leftBrace, _, by rw [render]; rfl, rfl⟩
  | object members => exact ⟨leftBrace, _, by rw [render]; rfl, rfl⟩

theorem kind_eq {first second : JsonText} {rest other : List UInt8}
    (same : first.render ++ rest = second.render ++ other) : first.kind = second.kind := by
  obtain ⟨byte, tail, renders, starts⟩ := first.render_starts
  obtain ⟨byte', tail', renders', starts'⟩ := second.render_starts
  rw [renders, renders', List.cons_append, List.cons_append, List.cons.injEq] at same
  rw [same.1, starts', Option.some.injEq] at starts
  exact starts.symm

/-- The bytes which separate values and close what holds them. -/
def IsDelimiter (byte : UInt8) : Prop :=
  IsSpace byte ∨ byte = comma ∨ byte = rightBracket ∨ byte = rightBrace

instance (byte : UInt8) : Decidable (IsDelimiter byte) := by
  unfold IsDelimiter
  infer_instance

theorem Kind.ofByte?_delimiter {byte : UInt8} (delimits : IsDelimiter byte) :
    Kind.ofByte? byte = none := by
  obtain spaces | rfl | rfl | rfl := delimits
  · obtain ⟨white, found⟩ := Option.isSome_iff_exists.mp spaces
    have : byte = white.byte := by
      unfold Space.ofByte? at found
      split at found <;> simp_all <;> subst found <;> rfl
    subst this
    cases white <;> rfl
  all_goals rfl

theorem render_avoids (text : JsonText) (rest : List UInt8) :
    Avoids IsDelimiter (text.render ++ rest) := by
  obtain ⟨byte, tail, renders, starts⟩ := text.render_starts
  rw [renders, List.cons_append, avoids_cons]
  intro delimits
  rw [Kind.ofByte?_delimiter delimits] at starts
  simp at starts

theorem render_solid (text : JsonText) (rest : List UInt8) :
    Avoids IsSpace (text.render ++ rest) := (text.render_avoids rest).mono fun _ => Or.inl

theorem renderSpaces_avoids (spaces : List Space) {marked : UInt8 → Prop} {rest : List UInt8}
    (avoids : Avoids marked rest) (unmarked : ∀ white : Space, ¬ marked white.byte) :
    Avoids marked (renderSpaces spaces ++ rest) := by
  cases spaces with
  | nil => exact avoids
  | cons white spaces => exact (avoids_cons ..).mpr (unmarked white)

theorem Space.byte_ends (white : Space) : ¬ ContinuesNumber white.byte := by
  cases white <;> decide

theorem closes_solid {rest : List UInt8} : Avoids IsSpace ([rightBracket] ++ rest) := by
  simp only [List.cons_append, avoids_cons]
  decide

theorem shuts_solid {rest : List UInt8} : Avoids IsSpace ([rightBrace] ++ rest) := by
  simp only [List.cons_append, avoids_cons]
  decide

/-- What follows an element or a member, after white space. -/
theorem delimited (spaces : List Space) {byte : UInt8} {rest : List UInt8}
    (delimits : byte = comma ∨ byte = rightBracket ∨ byte = rightBrace) :
    Avoids ContinuesNumber (renderSpaces spaces ++ byte :: rest) := by
  refine renderSpaces_avoids spaces ?_ Space.byte_ends
  rw [avoids_cons]
  obtain rfl | rfl | rfl := delimits <;> decide

theorem delimiter_solid {byte : UInt8} {rest : List UInt8}
    (delimits : byte = comma ∨ byte = rightBracket ∨ byte = rightBrace) :
    Avoids IsSpace (byte :: rest) := by
  rw [avoids_cons]
  obtain rfl | rfl | rfl := delimits <;> decide

/-- An opening bracket with nothing but white space inside is not the beginning of an element. -/
theorem spaces_ne_elements (elements : ElementsText) (spaces : List Space)
    (rest tail : List UInt8) :
    renderSpaces spaces ++ ([rightBracket] ++ rest) ≠ renderElements elements ++ tail := by
  intro same
  have shut (before : List Space) (text : JsonText) (later : List UInt8)
      (same : renderSpaces spaces ++ ([rightBracket] ++ rest) =
        renderSpaces before ++ (text.render ++ later)) : False := by
    have starts := text.render_avoids later
    rw [← (renderSpaces_inj closes_solid (text.render_solid later) same).2] at starts
    revert starts
    simp only [List.cons_append, avoids_cons]
    decide
  cases elements with
  | last before value after =>
      simp only [renderElements, List.append_assoc] at same
      exact shut before value _ same
  | more before value after later =>
      simp only [renderElements, List.append_assoc] at same
      exact shut before value _ same

theorem key_solid (key : List Piece) (rest : List UInt8) :
    Avoids IsSpace (renderString key ++ rest) := by
  simp only [renderString, List.cons_append, avoids_cons]
  decide

theorem colon_solid (rest : List UInt8) : Avoids IsSpace (colon :: rest) := by
  rw [avoids_cons]
  decide

theorem spaces_ne_members (members : MembersText) (spaces : List Space)
    (rest tail : List UInt8) :
    renderSpaces spaces ++ ([rightBrace] ++ rest) ≠ renderMembers members ++ tail := by
  intro same
  have shut (before : List Space) (key : List Piece) (later : List UInt8)
      (same : renderSpaces spaces ++ ([rightBrace] ++ rest) =
        renderSpaces before ++ (renderString key ++ later)) : False := by
    have quoted := (renderSpaces_inj shuts_solid (key_solid key later) same).2
    simp [renderString, show rightBrace ≠ quote by decide] at quoted
  cases members with
  | last before key beforeColon afterColon value after =>
      simp only [renderMembers, List.append_assoc] at same
      exact shut before key _ same
  | more before key beforeColon afterColon value after later =>
      simp only [renderMembers, List.append_assoc] at same
      exact shut before key _ same

/-- An element is read in one way when its value is. -/
theorem element_inj {value value' : JsonText} {before before' after after' : List Space}
    {byte byte' : UInt8} {rest other : List UInt8}
    (delimits : byte = comma ∨ byte = rightBracket ∨ byte = rightBrace)
    (delimits' : byte' = comma ∨ byte' = rightBracket ∨ byte' = rightBrace)
    (valueInj : ∀ {rest other : List UInt8}, (value.kind = .number → Avoids ContinuesNumber rest) →
      (value'.kind = .number → Avoids ContinuesNumber other) →
        value.render ++ rest = value'.render ++ other → value = value' ∧ rest = other)
    (same : renderSpaces before ++ (value.render ++ (renderSpaces after ++ byte :: rest)) =
      renderSpaces before' ++ (value'.render ++ (renderSpaces after' ++ byte' :: other))) :
    before = before' ∧ value = value' ∧ after = after' ∧ byte :: rest = byte' :: other := by
  obtain ⟨sameBefore, same⟩ := renderSpaces_inj (render_solid _ _) (render_solid _ _) same
  obtain ⟨sameValue, same⟩ := valueInj (fun _ => delimited after delimits)
    (fun _ => delimited after' delimits') same
  obtain ⟨sameAfter, ends⟩ := renderSpaces_inj (delimiter_solid delimits)
    (delimiter_solid delimits') same
  exact ⟨sameBefore, sameValue, sameAfter, ends⟩

theorem member_inj {value value' : JsonText} {key key' : List Piece}
    {before before' beforeColon beforeColon' afterColon afterColon' after after' : List Space}
    {byte byte' : UInt8} {rest other : List UInt8}
    (delimits : byte = comma ∨ byte = rightBracket ∨ byte = rightBrace)
    (delimits' : byte' = comma ∨ byte' = rightBracket ∨ byte' = rightBrace)
    (valueInj : ∀ {rest other : List UInt8}, (value.kind = .number → Avoids ContinuesNumber rest) →
      (value'.kind = .number → Avoids ContinuesNumber other) →
        value.render ++ rest = value'.render ++ other → value = value' ∧ rest = other)
    (same : renderSpaces before ++ (renderString key ++ (renderSpaces beforeColon ++
        colon :: (renderSpaces afterColon ++ (value.render ++
          (renderSpaces after ++ byte :: rest))))) =
      renderSpaces before' ++ (renderString key' ++ (renderSpaces beforeColon' ++
        colon :: (renderSpaces afterColon' ++ (value'.render ++
          (renderSpaces after' ++ byte' :: other)))))) :
    before = before' ∧ key = key' ∧ beforeColon = beforeColon' ∧ afterColon = afterColon' ∧
      value = value' ∧ after = after' ∧ byte :: rest = byte' :: other := by
  obtain ⟨sameBefore, same⟩ := renderSpaces_inj (key_solid _ _) (key_solid _ _) same
  obtain ⟨sameKey, same⟩ := renderString_inj same
  obtain ⟨sameColon, same⟩ := renderSpaces_inj (colon_solid _) (colon_solid _) same
  obtain ⟨sameAfterColon, sameValue, sameAfter, ends⟩ := element_inj delimits delimits' valueInj
    (List.tail_eq_of_cons_eq same)
  exact ⟨sameBefore, sameKey, sameColon, sameAfterColon, sameValue, sameAfter, ends⟩

mutual

/-- A text has one syntax tree; of a number one must know where it ends. -/
theorem render_inj : ∀ {first second : JsonText} {rest other : List UInt8},
    (first.kind = .number → Avoids ContinuesNumber rest) →
      (second.kind = .number → Avoids ContinuesNumber other) →
        first.render ++ rest = second.render ++ other → first = second ∧ rest = other := by
  intro first second rest other ends ends' same
  have sameKind := kind_eq same
  cases first with
  | null => cases second <;> simp_all [kind]
  | bool value =>
      cases second <;> simp [kind] at sameKind
      subst sameKind
      exact ⟨rfl, List.append_cancel_left same⟩
  | number literal =>
      cases second <;> simp [kind] at sameKind
      simp only [render] at same
      obtain ⟨rfl, restSame⟩ := NumberText.render_inj (ends rfl) (ends' rfl) same
      exact ⟨rfl, restSame⟩
  | string pieces =>
      cases second <;> simp [kind] at sameKind
      simp only [render] at same
      obtain ⟨rfl, restSame⟩ := renderString_inj same
      exact ⟨rfl, restSame⟩
  | emptyArray spaces =>
      cases second <;> simp [kind] at sameKind
      case emptyArray spaces' =>
        simp only [render, List.cons_append, List.append_assoc, List.cons.injEq, true_and] at same
        obtain ⟨rfl, closes⟩ := renderSpaces_inj closes_solid closes_solid same
        exact ⟨rfl, List.tail_eq_of_cons_eq closes⟩
      case array elements =>
        simp only [render, List.cons_append, List.append_assoc, List.cons.injEq, true_and] at same
        exact absurd same (spaces_ne_elements elements spaces _ _)
  | array elements =>
      cases second <;> simp [kind] at sameKind
      case emptyArray spaces =>
        simp only [render, List.cons_append, List.append_assoc, List.cons.injEq, true_and] at same
        exact absurd same.symm (spaces_ne_elements elements spaces _ _)
      case array elements' =>
        simp only [render, List.cons_append, List.append_assoc, List.cons.injEq, true_and] at same
        obtain ⟨rfl, restSame⟩ := renderElements_inj same
        exact ⟨rfl, restSame⟩
  | emptyObject spaces =>
      cases second <;> simp [kind] at sameKind
      case emptyObject spaces' =>
        simp only [render, List.cons_append, List.append_assoc, List.cons.injEq, true_and] at same
        obtain ⟨rfl, closes⟩ := renderSpaces_inj shuts_solid shuts_solid same
        exact ⟨rfl, List.tail_eq_of_cons_eq closes⟩
      case object members =>
        simp only [render, List.cons_append, List.append_assoc, List.cons.injEq, true_and] at same
        exact absurd same (spaces_ne_members members spaces _ _)
  | object members =>
      cases second <;> simp [kind] at sameKind
      case emptyObject spaces =>
        simp only [render, List.cons_append, List.append_assoc, List.cons.injEq, true_and] at same
        exact absurd same.symm (spaces_ne_members members spaces _ _)
      case object members' =>
        simp only [render, List.cons_append, List.append_assoc, List.cons.injEq, true_and] at same
        obtain ⟨rfl, restSame⟩ := renderMembers_inj same
        exact ⟨rfl, restSame⟩

theorem renderElements_inj : ∀ {first second : ElementsText} {rest other : List UInt8},
    renderElements first ++ ([rightBracket] ++ rest) =
        renderElements second ++ ([rightBracket] ++ other) →
      first = second ∧ rest = other
  | .last before value after, .last before' value' after', rest, other, same => by
      obtain ⟨rfl, rfl, rfl, ends⟩ := element_inj (.inr (.inl rfl)) (.inr (.inl rfl)) render_inj
        (by simpa only [renderElements, List.append_assoc, List.cons_append] using same)
      exact ⟨rfl, by simpa using ends⟩
  | .last before value after, .more before' value' after' later, rest, other, same => by
      obtain ⟨-, -, -, ends⟩ := element_inj (.inr (.inl rfl)) (.inl rfl) render_inj
        (by simpa only [renderElements, List.append_assoc, List.cons_append] using same)
      exact absurd (List.head_eq_of_cons_eq ends) (by decide)
  | .more before value after later, .last before' value' after', rest, other, same => by
      obtain ⟨-, -, -, ends⟩ := element_inj (.inl rfl) (.inr (.inl rfl)) render_inj
        (by simpa only [renderElements, List.append_assoc, List.cons_append] using same)
      exact absurd (List.head_eq_of_cons_eq ends) (by decide)
  | .more before value after later, .more before' value' after' later', rest, other, same => by
      obtain ⟨rfl, rfl, rfl, ends⟩ := element_inj (.inl rfl) (.inl rfl) render_inj
        (by simpa only [renderElements, List.append_assoc, List.cons_append] using same)
      obtain ⟨rfl, restSame⟩ := renderElements_inj (List.tail_eq_of_cons_eq ends)
      exact ⟨rfl, restSame⟩

theorem renderMembers_inj : ∀ {first second : MembersText} {rest other : List UInt8},
    renderMembers first ++ ([rightBrace] ++ rest) =
        renderMembers second ++ ([rightBrace] ++ other) →
      first = second ∧ rest = other
  | .last before key beforeColon afterColon value after,
      .last before' key' beforeColon' afterColon' value' after', rest, other, same => by
      obtain ⟨rfl, rfl, rfl, rfl, rfl, rfl, ends⟩ := member_inj (.inr (.inr rfl)) (.inr (.inr rfl))
        render_inj (by simpa only [renderMembers, List.append_assoc, List.cons_append] using same)
      exact ⟨rfl, by simpa using ends⟩
  | .last before key beforeColon afterColon value after,
      .more before' key' beforeColon' afterColon' value' after' later, rest, other, same => by
      obtain ⟨-, -, -, -, -, -, ends⟩ := member_inj (.inr (.inr rfl)) (.inl rfl)
        render_inj (by simpa only [renderMembers, List.append_assoc, List.cons_append] using same)
      exact absurd (List.head_eq_of_cons_eq ends) (by decide)
  | .more before key beforeColon afterColon value after later,
      .last before' key' beforeColon' afterColon' value' after', rest, other, same => by
      obtain ⟨-, -, -, -, -, -, ends⟩ := member_inj (.inl rfl) (.inr (.inr rfl))
        render_inj (by simpa only [renderMembers, List.append_assoc, List.cons_append] using same)
      exact absurd (List.head_eq_of_cons_eq ends) (by decide)
  | .more before key beforeColon afterColon value after later,
      .more before' key' beforeColon' afterColon' value' after' later', rest, other, same => by
      obtain ⟨rfl, rfl, rfl, rfl, rfl, rfl, ends⟩ := member_inj (.inl rfl) (.inl rfl)
        render_inj (by simpa only [renderMembers, List.append_assoc, List.cons_append] using same)
      obtain ⟨rfl, restSame⟩ := renderMembers_inj (List.tail_eq_of_cons_eq ends)
      exact ⟨rfl, restSame⟩

end

end JsonText
