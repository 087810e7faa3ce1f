import Mathlib.Tactic.Ring
import Typio.JsonUnambiguous

/-!
# The compact text of a value

Every value has a text without white space, in which each byte of a string is written in the
shortest way.  A document is a text with white space around it; it denotes one value.
-/

namespace JsonText

/-! ## Strings -/

/-- A byte as JSON writes it inside a string. -/
def Piece.ofByte (byte : UInt8) : Piece :=
  match byte with
  | 34 => .escape .quote
  | 92 => .escape .backslash
  | 8 => .escape .backspace
  | 12 => .escape .formFeed
  | 10 => .escape .lineFeed
  | 13 => .escape .carriageReturn
  | 9 => .escape .tab
  | byte =>
      if isPlain : IsPlain byte then .plain byte isPlain
      else .unicode ⟨.decimal 0, .decimal 0, .decimal (Fin.ofNat 10 (byte.toNat / 16)),
        if byte.toNat % 16 < 10 then .decimal (Fin.ofNat 10 (byte.toNat % 16))
        else .lower (Fin.ofNat 6 (byte.toNat % 16 - 10))⟩

/-- The pieces which write the bytes of a string. -/
def piecesOf (bytes : List UInt8) : List Piece := bytes.map Piece.ofByte

/-- A piece which is not half of a surrogate pair is decoded on its own. -/
def Piece.IsAlone : Piece → Prop
  | .unicode unit => unit.isHigh = false
  | _ => True

instance (piece : Piece) : Decidable piece.IsAlone := by
  unfold Piece.IsAlone
  split <;> infer_instance

theorem Piece.ofByte_of_plain {byte : UInt8} (isPlain : IsPlain byte) :
    Piece.ofByte byte = .plain byte isPlain := by
  have ⟨shown, notQuote, notBackslash⟩ := isPlain
  unfold Piece.ofByte
  split
  · exact absurd rfl notQuote
  · exact absurd rfl notBackslash
  iterate 5 exact absurd shown (by decide)
  exact dif_pos isPlain

theorem Piece.ofByte_isAlone : ∀ byte, (Piece.ofByte byte).IsAlone := by
  refine byte_cases (by decide) (by decide) (by decide) fun byte isPlain => ?_
  rw [ofByte_of_plain isPlain]
  trivial

theorem decodePieces_ofByte : ∀ byte, decodePieces [Piece.ofByte byte] = [byte] := by
  refine byte_cases (by decide) (by decide) (by decide) fun byte isPlain => ?_
  rw [Piece.ofByte_of_plain isPlain]
  rfl

theorem decodePieces_cons {piece : Piece} (alone : piece.IsAlone) (pieces : List Piece) :
    decodePieces (piece :: pieces) = decodePieces [piece] ++ decodePieces pieces := by
  cases piece with
  | plain byte isPlain => rfl
  | escape code => rfl
  | unicode unit =>
      have low : unit.isHigh = false := alone
      cases pieces with
      | nil => simp [decodePieces]
      | cons next pieces => cases next <;> simp [decodePieces, low]

@[simp] theorem decodePieces_piecesOf (bytes : List UInt8) :
    decodePieces (piecesOf bytes) = bytes := by
  induction bytes with
  | nil => rfl
  | cons byte bytes ih =>
      rw [piecesOf, List.map_cons, decodePieces_cons (Piece.ofByte_isAlone byte),
        decodePieces_ofByte, ← piecesOf, ih, List.singleton_append]

/-! ## Numbers -/

theorem digitsValue_foldl (digits : List Digit) (start : Nat) :
    digits.foldl (fun value digit => value * 10 + digit.val) start =
      start * 10 ^ digits.length + digitsValue digits := by
  induction digits generalizing start with
  | nil => simp [digitsValue]
  | cons digit digits ih =>
      rw [digitsValue, List.foldl_cons, List.foldl_cons, ih, ih (0 * 10 + digit.val),
        List.length_cons, pow_succ]
      ring

theorem digitsValue_append_digits (first second : List Digit) :
    digitsValue (first ++ second) = digitsValue first * 10 ^ second.length + digitsValue second := by
  rw [digitsValue, List.foldl_append, digitsValue_foldl]
  rfl

theorem digitsValue_lt (digits : List Digit) : digitsValue digits < 10 ^ digits.length := by
  induction digits with
  | nil => simp [digitsValue]
  | cons digit digits ih =>
      rw [digitsValue, List.foldl_cons, digitsValue_foldl, List.length_cons, pow_succ]
      have lead := Nat.mul_le_mul_right (10 ^ digits.length) (Nat.le_of_lt_succ digit.isLt)
      simp only [Nat.zero_mul, Nat.zero_add]
      omega

namespace NumberText

def wholeParts : Whole → Digit × List Digit
  | .zero => (0, [])
  | .positive lead _ rest => (lead, rest)

/-- A number as a whole mantissa, with an exponent unless that is zero. -/
def ofScaled (mantissa exponent : Int) : NumberText :=
  { ofInt mantissa with
    exponent :=
      if exponent = 0 then none
      else
        let (lead, rest) := wholeParts (Whole.ofNat exponent.natAbs)
        some { upper := false, sign := if exponent < 0 then some true else none, lead, rest } }

theorem wholeParts_digits (whole : Whole) :
    (wholeParts whole).1 :: (wholeParts whole).2 = whole.digits := by
  cases whole <;> rfl

theorem value_ofScaled (mantissa exponent : Int) :
    (ofScaled mantissa exponent).value = .number mantissa exponent := by
  have scale : exponentValue (ofScaled mantissa exponent).exponent = exponent := by
    unfold ofScaled
    split
    · next zero => simp [exponentValue, zero]
    · simp only [exponentValue, wholeParts_digits, Whole.ofNat_value]
      by_cases negative : exponent < 0
      · simp only [negative, if_true]
        exact (Int.ofNat_natAbs_of_nonpos negative.le).symm ▸ Int.neg_neg exponent
      · simp only [negative, if_false]
        exact Int.natAbs_of_nonneg (Int.not_lt.mp negative)
  have plain := value_ofInt mantissa
  simp only [value, Json.number.injEq] at plain ⊢
  refine ⟨plain.1, ?_⟩
  rw [scale]
  simp [ofScaled, ofInt, fractionDigits]

end NumberText

/-! ## Values -/

def elementsOf (element : JsonText) : List JsonText → ElementsText
  | [] => .last [] element []
  | next :: later => .more [] element [] (elementsOf next later)

/-- An array without white space. -/
def arrayOf : List JsonText → JsonText
  | [] => .emptyArray []
  | element :: later => .array (elementsOf element later)

def membersOf (member : List UInt8 × JsonText) : List (List UInt8 × JsonText) → MembersText
  | [] => .last [] (piecesOf member.1) [] [] member.2 []
  | next :: later => .more [] (piecesOf member.1) [] [] member.2 [] (membersOf next later)

/-- An object without white space. -/
def objectOf : List (List UInt8 × JsonText) → JsonText
  | [] => .emptyObject []
  | member :: later => .object (membersOf member later)

theorem renderElements_elementsOf (element : JsonText) (later : List JsonText) :
    renderElements (elementsOf element later) =
      [comma].intercalate ((element :: later).map render) := by
  induction later generalizing element with
  | nil => simp [elementsOf, renderElements]
  | cons next later ih =>
      rw [elementsOf, renderElements, ih]
      simp [List.intercalate]

theorem render_arrayOf (elements : List JsonText) :
    (arrayOf elements).render =
      leftBracket :: [comma].intercalate (elements.map render) ++ [rightBracket] := by
  cases elements with
  | nil => simp [arrayOf, render]
  | cons element later => rw [arrayOf, render, renderElements_elementsOf]

def renderMember (member : List UInt8 × JsonText) : List UInt8 :=
  renderString (piecesOf member.1) ++ colon :: member.2.render

theorem renderMembers_membersOf (member : List UInt8 × JsonText)
    (later : List (List UInt8 × JsonText)) :
    renderMembers (membersOf member later) =
      [comma].intercalate ((member :: later).map renderMember) := by
  induction later generalizing member with
  | nil => simp [membersOf, renderMembers, renderMember]
  | cons next later ih =>
      rw [membersOf, renderMembers, ih]
      simp [List.intercalate, renderMember]

theorem render_objectOf (members : List (List UInt8 × JsonText)) :
    (objectOf members).render =
      leftBrace :: [comma].intercalate (members.map renderMember) ++ [rightBrace] := by
  cases members with
  | nil => simp [objectOf, render]
  | cons member later => rw [objectOf, render, renderMembers_membersOf]

mutual

/-- The compact text of a value. -/
def compact : Json → JsonText
  | .null => .null
  | .bool value => .bool value
  | .number mantissa exponent => .number (.ofScaled mantissa exponent)
  | .string bytes => .string (piecesOf bytes)
  | .array elements => arrayOf (compactElements elements)
  | .object members => objectOf (compactMembers members)

def compactElements : List Json → List JsonText
  | [] => []
  | element :: later => compact element :: compactElements later

def compactMembers : List (List UInt8 × Json) → List (List UInt8 × JsonText)
  | [] => []
  | member :: later => compactMember member :: compactMembers later

def compactMember : List UInt8 × Json → List UInt8 × JsonText
  | (key, value) => (key, compact value)

end

theorem elementValues_elementsOf (element : JsonText) (later : List JsonText) :
    elementValues (elementsOf element later) = (element :: later).map value := by
  induction later generalizing element with
  | nil => rfl
  | cons next later ih => rw [elementsOf, elementValues, ih, List.map_cons]; rfl

@[simp] theorem value_arrayOf (elements : List JsonText) :
    (arrayOf elements).value = .array (elements.map value) := by
  cases elements with
  | nil => rfl
  | cons element later => rw [arrayOf, value, elementValues_elementsOf]

theorem memberValues_membersOf (member : List UInt8 × JsonText)
    (later : List (List UInt8 × JsonText)) :
    memberValues (membersOf member later) =
      (member :: later).map fun (key, text) => (key, text.value) := by
  induction later generalizing member with
  | nil => simp [membersOf, memberValues]
  | cons next later ih => rw [membersOf, memberValues, ih]; simp

@[simp] theorem value_objectOf (members : List (List UInt8 × JsonText)) :
    (objectOf members).value = .object (members.map fun (key, text) => (key, text.value)) := by
  cases members with
  | nil => rfl
  | cons member later => rw [objectOf, value, memberValues_membersOf]

mutual

/-- The compact text has the value it was made from. -/
theorem value_compact : ∀ json, (compact json).value = json
  | .null => rfl
  | .bool _ => rfl
  | .number mantissa exponent => NumberText.value_ofScaled mantissa exponent
  | .string bytes => congrArg Json.string (decodePieces_piecesOf bytes)
  | .array elements => by rw [compact, value_arrayOf, values_compactElements]
  | .object members => by rw [compact, value_objectOf, values_compactMembers]

theorem values_compactElements : ∀ elements, (compactElements elements).map value = elements
  | [] => rfl
  | element :: later => by
      rw [compactElements, List.map_cons, value_compact, values_compactElements]

theorem values_compactMembers : ∀ members,
    ((compactMembers members).map fun (key, text) => (key, text.value)) = members
  | [] => rfl
  | member :: later => by
      rw [compactMembers, List.map_cons, values_compactMembers]
      exact congrArg (· :: later) (value_compactMember member)

theorem value_compactMember : ∀ member : List UInt8 × Json,
    ((compactMember member).1, (compactMember member).2.value) = member
  | (key, value) => by rw [compactMember, value_compact]

end

theorem compactElements_eq_map (elements : List Json) :
    compactElements elements = elements.map compact := by
  induction elements with
  | nil => rfl
  | cons element later ih => rw [compactElements, ih, List.map_cons]

theorem compactMembers_eq_map (members : List (List UInt8 × Json)) :
    compactMembers members = members.map compactMember := by
  induction members with
  | nil => rfl
  | cons member later ih => rw [compactMembers, ih, List.map_cons]

/-- A member with its value, without white space. -/
def compactMemberText (member : List UInt8 × Json) : List UInt8 :=
  renderString (piecesOf member.1) ++ colon :: (compact member.2).render

theorem render_compact_array (elements : List Json) :
    (compact (.array elements)).render =
      leftBracket :: [comma].intercalate (elements.map fun element => (compact element).render) ++
        [rightBracket] := by
  rw [compact, render_arrayOf, compactElements_eq_map, List.map_map]
  rfl

theorem render_compact_object (members : List (List UInt8 × Json)) :
    (compact (.object members)).render =
      leftBrace :: [comma].intercalate (members.map compactMemberText) ++ [rightBrace] := by
  have each : renderMember ∘ compactMember = compactMemberText := by
    funext ⟨key, value⟩
    simp [renderMember, compactMember, compactMemberText]
  rw [compact, render_objectOf, compactMembers_eq_map, List.map_map, each]

/-- Every part but the first has a comma in front. -/
theorem intercalate_cons_flatMap (part : List UInt8) (later : List (List UInt8)) :
    [comma].intercalate (part :: later) = part ++ later.flatMap (comma :: ·) := by
  induction later generalizing part with
  | nil => simp
  | cons next later ih => rw [List.intercalate_cons_cons, ih]; simp

theorem mem_of_get? {name : List UInt8} {members : List (List UInt8 × Json)} {found : Json}
    (get : (Json.object members).get? name = some found) : (name, found) ∈ members := by
  obtain ⟨before, after, split, -⟩ := List.lookup_eq_some_iff.mp get
  rw [← List.mem_reverse, split]
  simp

/-! ## Documents -/

/-- A text with one value and white space around it. -/
def Denotes (text : List UInt8) (json : Json) : Prop :=
  ∃ (before : List Space) (tree : JsonText) (after : List Space),
    text = renderSpaces before ++ (tree.render ++ renderSpaces after) ∧ tree.value = json

theorem denotes_render (tree : JsonText) : Denotes tree.render tree.value :=
  ⟨[], tree, [], by simp, rfl⟩

/-- A text denotes one value at most. -/
theorem Denotes.unique {text : List UInt8} {first second : Json} (denotes : Denotes text first)
    (denotes' : Denotes text second) : first = second := by
  obtain ⟨before, tree, after, rfl, rfl⟩ := denotes
  obtain ⟨before', tree', after', same, rfl⟩ := denotes'
  obtain ⟨-, same⟩ := renderSpaces_inj (tree.render_solid _) (tree'.render_solid _) same
  have ends (spaces : List Space) : Avoids ContinuesNumber (renderSpaces spaces) := by
    simpa using renderSpaces_avoids spaces (avoids_nil _) Space.byte_ends
  rw [(render_inj (fun _ => ends after) (fun _ => ends after') same).1]

end JsonText
