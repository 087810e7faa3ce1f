import Typio.Config.IniReading

/-!
# Written values as an INI file has them

The INI reader takes what stands between two quotes as it is, and cuts an array at each comma.  So a
string comes back if no character of it is escaped, and an array of strings if moreover it has an
item and no item has a comma.
-/

namespace Typio

namespace Config

open StrSlice

variable {Float : Type} (parseF64 : Str → Option Float) (floatText : Float → Str)

/-! ## Scalars -/

theorem parseIniValue_scalar {value : Str} (plain : isBracketed (trim value) = false)
    (no_true : (trim value).map Char.toLower ≠ "true".toList)
    (no_false : (trim value).map Char.toLower ≠ "false".toList)
    (no_quotes : isQuotedBy '"' (trim value) = false ∧ isQuotedBy '\'' (trim value) = false) :
    parseIniValue parseF64 value = .ok (parseIniScalar parseF64 (trim value)) := by
  rw [parseIniValue, if_neg (by simp [plain]), if_neg no_true, if_neg no_false,
    if_neg (by simp [no_quotes])]

theorem parseDigits_toDigits (number : Nat) :
    parseDigits (Nat.toDigits 10 number) = some number := by
  have digits : (Nat.toDigits 10 number).all isAsciiDigit = true := by
    rw [List.all_eq_true]
    intro char member
    have range := isDigit_range (Nat.isDigit_of_mem_toDigits (by decide) (by decide) member)
    rw [isAsciiDigit, decide_eq_true_eq]
    exact ⟨Char.le_def.mpr (UInt32.le_iff_toNat_le.mpr range.1),
      Char.le_def.mpr (UInt32.le_iff_toNat_le.mpr range.2)⟩
  have value : digitsValue (Nat.toDigits 10 number) = number := by
    have read := @Nat.ofDigitChars_ten_toDigits number
    rw [Nat.ofDigitChars_eq_foldl] at read
    simpa only [digitsValue, Nat.mul_comm] using read
  rw [parseDigits, if_pos ⟨Nat.toDigits_ne_nil, digits⟩, value]

theorem inRange (value : Int32) :
    decide (-2 ^ 31 ≤ value.toInt ∧ value.toInt < 2 ^ 31) = true :=
  decide_eq_true ⟨Int32.le_toInt value, Int32.toInt_lt value⟩

/-- A number which is written is read. -/
theorem parseI32_decimal (value : Int32) : parseI32 (decimal value.toInt) = some value.toInt := by
  rw [decimal]
  split
  next negative =>
    have opposite : -(value.toInt.natAbs : Int) = value.toInt := by omega
    rw [parseI32, parseDigits_toDigits]
    change (some (-(value.toInt.natAbs : Int))).filter _ = _
    rw [opposite]
    exact if_pos (inRange value)
  next positive =>
    have same : (value.toInt.natAbs : Int) = value.toInt := by omega
    obtain ⟨first, rest, digits⟩ :=
      List.exists_cons_of_ne_nil (@Nat.toDigits_ne_nil value.toInt.natAbs 10)
    have digit : first.isDigit = true :=
      Nat.isDigit_of_mem_toDigits (by decide) (by decide) (digits ▸ List.mem_cons_self)
    have unsigned : ∀ sign, sign.isDigit = false → ∀ others, first :: rest ≠ sign :: others := by
      rintro sign no_digit others together
      obtain ⟨rfl, -⟩ := List.cons.inj together
      rw [digit] at no_digit
      cases no_digit
    rw [digits, parseI32.eq_3 _ (unsigned '-' rfl) (unsigned '+' rfl), ← digits,
      parseDigits_toDigits]
    change (some (value.toInt.natAbs : Int)).filter _ = _
    rw [same]
    exact if_pos (inRange value)

theorem toLower_decimal {char : Char} (number : char = '-' ∨ char.isDigit = true) :
    char.toLower = char := by
  obtain rfl | digit := number
  · rfl
  · have range := isDigit_range digit
    have code : char.val.toNat = char.toNat := rfl
    have first : 'A'.val.toNat = 0x41 := rfl
    have no_upper : ¬ ('A'.val ≤ char.val ∧ char.val ≤ 'Z'.val) := by
      simp only [UInt32.le_iff_toNat_le]
      omega
    delta Char.toLower
    exact dif_neg no_upper

/-- No number starts with another character than a digit or a minus sign. -/
theorem decimal_ne_cons (value : Int) {char : Char} (other : char ≠ '-')
    (no_digit : char.isDigit = false) (rest : Str) : decimal value ≠ char :: rest := by
  intro same
  obtain rfl | digit := decimal_chars value char (same ▸ List.mem_cons_self)
  · exact other rfl
  · rw [no_digit] at digit
    cases digit

theorem parseIniValue_int (value : Int32) :
    parseIniValue parseF64 (decimal value.toInt) = .ok (.int value) := by
  have whole := trim_of_edged (isLineText_decimal value.toInt).edged
  have lower : (decimal value.toInt).map Char.toLower = decimal value.toInt := by
    have each := List.map_congr_left fun char member =>
      toLower_decimal (decimal_chars value.toInt char member)
    rw [each, List.map_id']
  have starts : ∀ char, char ≠ '-' → char.isDigit = false →
      startsWith (decimal value.toInt) char = false := by
    intro char other no_digit
    rw [← Bool.not_eq_true, startsWith_iff]
    rintro ⟨rest, same⟩
    exact decimal_ne_cons value.toInt other no_digit rest same
  rw [parseIniValue_scalar, whole, parseIniScalar, parseI32_decimal]
  · simp only [Int32.ofInt_toInt]
  · rw [whole, isBracketed, starts '[' (by decide) (by decide), Bool.false_and]
  · rw [whole, lower]
    exact decimal_ne_cons value.toInt (by decide) (by decide) _
  · rw [whole, lower]
    exact decimal_ne_cons value.toInt (by decide) (by decide) _
  · rw [whole, isQuotedBy, isQuotedBy, starts '"' (by decide) (by decide),
      starts '\'' (by decide) (by decide), Bool.false_and, Bool.false_and]
    exact ⟨rfl, rfl⟩

theorem parseIniValue_bool (value : Bool) :
    parseIniValue parseF64 (writeValue floatText (.bool value)) = .ok (.bool value) := by
  cases value with
  | true =>
      rw [writeValue, parseIniValue]
      rfl
  | false =>
      rw [writeValue, parseIniValue]
      rfl

/-! ## Strings -/

theorem edged_quoted (inner : Str) : Edged ('"' :: inner ++ ['"']) where
  first char member := by
    obtain rfl := Option.some.inj member
    decide
  last char member := by
    rw [List.getLast?_concat] at member
    obtain rfl := Option.some.inj member
    decide

/-- What stands between two quotes is taken as it is. -/
theorem parseIniValue_quoted {inner : Str} (terminated : '\x00' ∉ inner) :
    parseIniValue parseF64 ('"' :: inner ++ ['"']) = .ok (.string (.utf8 inner)) := by
  have whole := trim_of_edged (edged_quoted inner)
  have no_word : ∀ word : Str, word.head? ≠ some '"' →
      ('"' :: inner ++ ['"']).map Char.toLower ≠ word := by
    rintro word differs rfl
    exact differs rfl
  have quoted : isQuotedBy '"' ('"' :: inner ++ ['"']) = true :=
    startsWith_endsWith_iff.mpr (.inr ⟨inner, rfl⟩)
  have inside : stripEnds ('"' :: inner ++ ['"']) = .ok inner :=
    slice_between (by decide) (by decide) inner
  rw [parseIniValue]
  simp only [whole]
  rw [if_neg (by simp [isBracketed, startsWith]),
    if_neg (no_word _ (by decide)), if_neg (no_word _ (by decide)),
    if_pos (by rw [quoted]; rfl), inside]
  change Except.ok (ConfigValue.string (CString.new inner)) = _
  rw [CString.new, if_neg terminated]

theorem parseIniValue_escaped {text : Str} (terminated : '\x00' ∉ text) :
    parseIniValue parseF64 (writeEscapedString text) =
      .ok (.string (.utf8 (text.flatMap escapeChar))) := by
  refine parseIniValue_quoted parseF64 fun member => ?_
  have inside : '\x00' ∈ writeEscapedString text :=
    List.mem_append_left _ (List.mem_cons_of_mem _ member)
  exact ((isLineText_quoted terminated).clean _ inside).2.2 rfl

theorem length_le_flatMap_escapeChar (text : Str) :
    text.length ≤ (text.flatMap escapeChar).length := by
  induction text with
  | nil => exact Nat.le_refl _
  | cons char text induction =>
      rw [List.flatMap_cons, List.length_append, List.length_cons]
      by_cases escaped : IsEscaped char
      · obtain ⟨mark, -, same⟩ := escapeChar_escaped escaped
        rw [same, List.length_cons, List.length_singleton]
        omega
      · rw [escapeChar_plain escaped, List.length_singleton]
        omega

/-- Escaping changes every text with a character to escape. -/
theorem flatMap_escapeChar_eq_iff {text : Str} :
    text.flatMap escapeChar = text ↔ ∀ char ∈ text, ¬ IsEscaped char := by
  induction text with
  | nil => exact iff_of_true rfl (List.forall_mem_nil _)
  | cons char text induction =>
      rw [List.flatMap_cons, List.forall_mem_cons]
      by_cases escaped : IsEscaped char
      · refine iff_of_false (fun same => ?_) fun plain => plain.1 escaped
        obtain ⟨mark, -, two⟩ := escapeChar_escaped escaped
        have lengths := congrArg List.length same
        have longer := length_le_flatMap_escapeChar text
        rw [two, List.length_append] at lengths
        simp only [List.length_cons, List.length_nil] at lengths
        omega
      · rw [escapeChar_plain escaped, List.singleton_append, List.cons_inj_right, induction]
        simp [escaped]

/-- The string is read back from an INI file. -/
def CString.IniSafe (text : CString) : Prop :=
  text.IsUtf8 ∧ ∀ char ∈ text.written, ¬ IsEscaped char

theorem escaped_eq_iff {text : CString} :
    CString.utf8 (text.written.flatMap escapeChar) = text ↔ text.IniSafe := by
  cases text with
  | utf8 text =>
      rw [CString.written, CString.utf8.injEq, flatMap_escapeChar_eq_iff]
      exact ⟨fun plain => ⟨trivial, plain⟩, fun safe => safe.2⟩
  | other bytes =>
      refine iff_of_false (fun same => ?_) fun safe => safe.1
      cases same

/-! ## Arrays -/

theorem comma_mem_quoted_iff {text : Str} : ',' ∈ writeEscapedString text ↔ ',' ∈ text := by
  have escape : ∀ char, ',' ∈ escapeChar char ↔ char = ',' := by
    intro char
    by_cases escaped : IsEscaped char
    · obtain ⟨mark, marks, same⟩ := escapeChar_escaped escaped
      have other : ∀ mark ∈ ['\\', '"', 'n', 'r', 't'], ',' ≠ mark := forall_of_all (by decide)
      rw [same]
      refine iff_of_false (by simpa using other mark marks) ?_
      rintro rfl
      exact absurd escaped (by decide)
    · rw [escapeChar_plain escaped, List.mem_singleton, eq_comm]
  rw [writeEscapedString]
  simp [escape]

theorem length_splitOn (separator : Char) (text : Str) :
    (text.splitOn separator).length = text.count separator + 1 := by
  induction text with
  | nil => rfl
  | cons char text induction =>
      rw [List.splitOn_cons_eq_if_modifyHead, List.count_cons]
      split
      next same => rw [List.length_cons, induction]
      next other => rw [List.length_modifyHead, induction, Nat.add_zero]

theorem length_mapM {α β : Type} {function : α → Except Panic β} {items : List α}
    {results : List β} (mapped : items.mapM function = .ok results) :
    results.length = items.length := by
  induction items generalizing results with
  | nil =>
      obtain rfl := Except.ok.inj mapped
      rfl
  | cons item items induction =>
      rw [List.mapM_cons] at mapped
      cases here : function item with
      | error panic =>
          rw [here] at mapped
          cases mapped
      | ok result =>
          cases later : items.mapM function with
          | error panic =>
              rw [here, later] at mapped
              cases mapped
          | ok rest =>
              rw [here, later] at mapped
              obtain rfl := Except.ok.inj mapped
              rw [List.length_cons, List.length_cons, induction later]

theorem mapM_ok {α β : Type} {function : α → Except Panic β} {value : α → β} {items : List α}
    (each : ∀ item ∈ items, function item = .ok (value item)) :
    items.mapM function = .ok (items.map value) := by
  induction items with
  | nil => rfl
  | cons item items induction =>
      obtain ⟨here, later⟩ := List.forall_mem_cons.mp each
      rw [List.mapM_cons, here, induction later]
      rfl

theorem count_flatMap (pieces : List Str) :
    (pieces.flatMap ([',', ' '] ++ ·)).count ',' =
      pieces.length + (pieces.map (List.count ',')).sum := by
  induction pieces with
  | nil => rfl
  | cons piece pieces induction =>
      rw [List.flatMap_cons, List.count_append, List.count_append, induction, List.map_cons,
        List.sum_cons, List.length_cons]
      have one : [',', ' '].count ',' = 1 := by decide
      omega

/-- The pieces of an array are the items and the commas inside of them. -/
theorem length_splitOn_items (first : Str) (pieces : List Str) :
    (([',', ' '].intercalate (first :: pieces)).splitOn ',').length =
      (first :: pieces).length + ((first :: pieces).map (List.count ',')).sum := by
  rw [length_splitOn, intercalate_cons_eq, List.count_append, count_flatMap, List.map_cons,
    List.sum_cons, List.length_cons]
  omega

theorem splitOn_items {first : Str} {pieces : List Str}
    (no_comma : ∀ piece ∈ first :: pieces, ',' ∉ piece) :
    ([',', ' '].intercalate (first :: pieces)).splitOn ',' =
      first :: pieces.map (' ' :: ·) := by
  have joined : [',', ' '].intercalate (first :: pieces) =
      [','].intercalate (first :: pieces.map (' ' :: ·)) := by
    rw [intercalate_cons_eq, intercalate_cons_eq, List.flatMap_map]
    rfl
  obtain ⟨here, later⟩ := List.forall_mem_cons.mp no_comma
  rw [joined]
  refine List.splitOn_intercalate ',' ?_ (List.cons_ne_nil _ _)
  rw [List.forall_mem_cons, List.forall_mem_map]
  exact ⟨here, fun piece member => by simp [later piece member]⟩

/-- The text of an array which the setters make. -/
abbrev arrayInner (texts : List CString) : Str :=
  [',', ' '].intercalate (texts.map fun text => writeEscapedString text.written)

theorem parseIniValue_writtenArray (texts : List CString) :
    parseIniValue parseF64 (writeValue floatText (.array (texts.map .string))) =
      .array <$> ((arrayInner texts).splitOn ',').mapM
        fun item => parseIniValue parseF64 (trim item) := by
  rw [writeValue_strings]
  refine parseIniValue_array parseF64 (trim_of_edged ⟨?_, ?_⟩)
  · intro char member
    obtain rfl := Option.some.inj member
    decide
  · intro char member
    rw [List.getLast?_concat] at member
    obtain rfl := Option.some.inj member
    decide

/-- An array whose items have no comma is read item by item. -/
theorem parseIniValue_strings {texts : List CString} (nonempty : texts ≠ [])
    (terminated : ∀ text ∈ texts, text.Terminated)
    (no_comma : ∀ text ∈ texts, ',' ∉ text.written) :
    parseIniValue parseF64 (writeValue floatText (.array (texts.map .string))) =
      .ok (.array (texts.map fun text => .string (.utf8 (text.written.flatMap escapeChar)))) := by
  have item : ∀ text ∈ texts, parseIniValue parseF64 (trim (writeEscapedString text.written)) =
      .ok (.string (.utf8 (text.written.flatMap escapeChar))) := by
    intro text member
    have clean := (terminated text member).written
    rw [trim_of_edged (isLineText_quoted clean).edged, parseIniValue_escaped parseF64 clean]
  obtain ⟨first, rest, rfl⟩ := List.exists_cons_of_ne_nil nonempty
  obtain ⟨here, later⟩ := List.forall_mem_cons.mp item
  have pieces : ∀ piece ∈ (first :: rest).map (fun text => writeEscapedString text.written),
      ',' ∉ piece := by
    rw [List.forall_mem_map]
    exact fun text member => comma_mem_quoted_iff.not.mpr (no_comma text member)
  have others : (rest.map fun text => ' ' :: writeEscapedString text.written).mapM
      (fun item => parseIniValue parseF64 (trim item)) =
        .ok (rest.map fun text => .string (.utf8 (text.written.flatMap escapeChar))) := by
    rw [List.mapM_map]
    refine mapM_ok fun text member => ?_
    rw [Function.comp_apply, trim_cons (by decide), later text member]
  rw [parseIniValue_writtenArray, arrayInner, List.map_cons, splitOn_items pieces,
    List.map_map, List.mapM_cons, here]
  have rest_read := congrArg (fun read => (do
    let items ← read
    pure (.string (.utf8 (first.written.flatMap escapeChar)) :: items) :
      Except Panic (List (ConfigValue Float)))) others
  exact congrArg (ConfigValue.array <$> ·) rest_read

/-- The value is read back from an INI file. -/
def IniSafe : ConfigValue Float → Prop
  | .string text => text.IniSafe
  | .array items => items ≠ [] ∧
      ∀ text ∈ stringsOf (.array items), text.IniSafe ∧ ',' ∉ text.written
  | _ => True

theorem IniSafe.isUtf8 {value : ConfigValue Float} (safe : IniSafe value) {text : CString}
    (member : text ∈ stringsOf value) : text.IsUtf8 := by
  match value with
  | .string own =>
      obtain rfl := List.mem_singleton.mp member
      exact safe.1
  | .array items => exact (safe.2 text member).1.1
  | .int _ | .bool _ | .float _ | .object _ => cases member

theorem no_comma_of_read {texts : List CString}
    (read : ∃ items : List (ConfigValue Float), items.length = texts.length ∧
      parseIniValue parseF64 (writeValue floatText (.array (texts.map .string))) =
        .ok (.array items)) :
    texts ≠ [] ∧ ∀ text ∈ texts, ',' ∉ text.written := by
  obtain ⟨items, lengths, read⟩ := read
  rw [parseIniValue_writtenArray] at read
  cases mapped : ((arrayInner texts).splitOn ',').mapM
      fun item => parseIniValue parseF64 (trim item) with
  | error panic =>
      rw [mapped] at read
      cases read
  | ok results =>
      rw [mapped] at read
      obtain rfl := ConfigValue.array.inj (Except.ok.inj read)
      have pieces := (length_mapM mapped).symm.trans lengths
      cases texts with
      | nil => cases pieces
      | cons first rest =>
          rw [arrayInner, List.map_cons, length_splitOn_items, List.length_cons,
            List.length_map, List.length_cons, Nat.add_eq_left, List.sum_eq_zero_iff_forall_eq_nat,
            ← List.map_cons (f := fun text : CString => writeEscapedString text.written)] at pieces
          refine ⟨List.cons_ne_nil _ _, fun text member => ?_⟩
          rw [← comma_mem_quoted_iff, ← List.count_eq_zero]
          exact pieces _ (List.mem_map_of_mem (List.mem_map_of_mem member))

/-- A value which a setter sets is read back exactly if it is safe. -/
theorem parseIniValue_iff {value : ConfigValue Float} (plain : IsPlain value) :
    parseIniValue parseF64 (writeValue floatText value) = .ok value ↔ IniSafe value := by
  cases plain with
  | string terminated =>
      rw [writeValue_string, parseIniValue_escaped parseF64 terminated.written, Except.ok.injEq,
        ConfigValue.string.injEq, escaped_eq_iff]
      rfl
  | int value =>
      rw [writeValue, parseIniValue_int]
      exact iff_of_true rfl trivial
  | bool value =>
      rw [parseIniValue_bool]
      exact iff_of_true rfl trivial
  | @strings texts terminated =>
      rw [IniSafe, stringsOf_array, Ne, List.map_eq_nil_iff]
      constructor
      · intro read
        obtain ⟨nonempty, no_comma⟩ := no_comma_of_read parseF64 floatText ⟨_, by simp, read⟩
        rw [parseIniValue_strings parseF64 floatText nonempty terminated no_comma,
          Except.ok.injEq, ConfigValue.array.injEq, List.map_inj_left] at read
        refine ⟨nonempty, fun text member => ⟨?_, no_comma text member⟩⟩
        exact escaped_eq_iff.mp (ConfigValue.string.inj (read text member))
      · rintro ⟨nonempty, safe⟩
        rw [parseIniValue_strings parseF64 floatText nonempty terminated fun text member =>
          (safe text member).2, Except.ok.injEq, ConfigValue.array.injEq, List.map_inj_left]
        exact fun text member => congrArg _ (escaped_eq_iff.mpr (safe text member).1)

end Config

end Typio
