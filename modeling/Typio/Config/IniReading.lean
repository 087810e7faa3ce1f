import Typio.Config.Entries
import Typio.Config.ParseTotality

/-!
# A written configuration as an INI file

A text which is not TOML is read line by line.  Every line of a written configuration is read for
the entry which it was written for, but the values come back only if no character is escaped and no
item of an array has a comma.
-/

namespace Typio

namespace Config

open StrSlice

variable {Float : Type}

/-! ## Characters of keys -/

def IsKeyChar (char : Char) : Prop := IsBareChar char ∨ char = '.'

theorem IsKeyChar.range {char : Char} (bare : IsKeyChar char) :
    (0x2d ≤ char.toNat ∧ char.toNat ≤ 0x39) ∨ (0x41 ≤ char.toNat ∧ char.toNat ≤ 0x5a) ∨
      char.toNat = 0x5f ∨ (0x61 ≤ char.toNat ∧ char.toNat ≤ 0x7a) := by
  obtain (alphanumeric | rfl | rfl) | rfl := bare
  · delta Char.isAlphanum Char.isAlpha Char.isUpper Char.isLower Char.isDigit at alphanumeric
    simp only [Bool.or_eq_true, Bool.and_eq_true, decide_eq_true_eq, UInt32.le_iff_toNat_le,
      ge_iff_le] at alphanumeric
    have code : char.val.toNat = char.toNat := rfl
    have upper_first : 'A'.val.toNat = 0x41 := rfl
    have lower_first : 'a'.val.toNat = 0x61 := rfl
    have digit_first : '0'.val.toNat = 0x30 := rfl
    have upper_last : 'Z'.val.toNat = 0x5a := rfl
    have lower_last : 'z'.val.toNat = 0x7a := rfl
    have digit_last : '9'.val.toNat = 0x39 := rfl
    omega
  · decide
  · decide
  · decide

theorem IsKeyChar.not_white {char : Char} (bare : IsKeyChar char) :
    isWhitespace char = false := by
  have range := bare.range
  simp only [isWhitespace, Bool.or_eq_false_iff, decide_eq_false_iff_not, beq_eq_false_iff_ne]
  omega

theorem IsKeyChar.ne {char other : Char} (bare : IsKeyChar char)
    (outside : other.toNat < 0x2d ∨ 0x39 < other.toNat ∧ other.toNat < 0x41 ∨
      0x5a < other.toNat ∧ other.toNat < 0x5f) : char ≠ other := by
  rintro rfl
  have range := bare.range
  omega

theorem IsDottedKey.chars {key : Str} (dotted : IsDottedKey key) :
    ∀ char ∈ key, IsKeyChar char := by
  intro char member
  obtain dot | ⟨segment, there, inside⟩ := (mem_splitOn member : char = '.' ∨ _)
  · exact .inr dot
  · exact .inl ((dotted segment there).2 char inside)

theorem IsDottedKey.ne_nil {key : Str} (dotted : IsDottedKey key) : key ≠ [] := by
  rintro rfl
  exact (dotted [] (by simp)).1 rfl

/-- A text of key characters. -/
structure IsKeyText (key : Str) : Prop where
  some : key ≠ []
  chars : ∀ char ∈ key, IsKeyChar char

theorem IsDottedKey.text {key : Str} (dotted : IsDottedKey key) : IsKeyText key :=
  ⟨dotted.ne_nil, dotted.chars⟩

theorem IsKeyText.edged {key : Str} (text : IsKeyText key) : Edged key where
  first char member := (text.chars char (List.mem_of_mem_head? member)).not_white
  last char member := (text.chars char (List.mem_of_mem_getLast? member)).not_white

theorem IsKeyText.not_mem {key : Str} (text : IsKeyText key) {char : Char}
    (outside : char.toNat < 0x2d ∨ 0x39 < char.toNat ∧ char.toNat < 0x41 ∨
      0x5a < char.toNat ∧ char.toNat < 0x5f) : char ∉ key :=
  fun member => (text.chars char member).ne outside rfl

/-! ## Written values -/

/-- No line is broken or cut at the character. -/
def IsLineChar (char : Char) : Prop := char ≠ '\n' ∧ char ≠ '\r' ∧ char ≠ '\x00'

instance (char : Char) : Decidable (IsLineChar char) := inferInstanceAs (Decidable (_ ∧ _))

/-- A text which keeps its place in a line. -/
structure IsLineText (text : Str) : Prop where
  some : text ≠ []
  edged : Edged text
  clean : ∀ char ∈ text, IsLineChar char

theorem IsLineText.append {left middle right : Str} (first : IsLineText left)
    (clean : ∀ char ∈ middle, IsLineChar char) (last : IsLineText right) :
    IsLineText (left ++ middle ++ right) where
  some := by simp [first.some]
  edged := by
    refine ⟨fun char member => ?_, fun char member => ?_⟩
    · rw [List.append_assoc, List.head?_append_of_ne_nil _ first.some] at member
      exact first.edged.first char member
    · rw [List.getLast?_append_of_ne_nil _ last.some] at member
      exact last.edged.last char member
  clean := by
    rw [List.forall_mem_append, List.forall_mem_append]
    exact ⟨⟨first.clean, clean⟩, last.clean⟩

theorem IsKeyText.line {key : Str} (text : IsKeyText key) : IsLineText key where
  some := text.some
  edged := text.edged
  clean char member :=
    ⟨(text.chars char member).ne (by decide), (text.chars char member).ne (by decide),
      (text.chars char member).ne (by decide)⟩

theorem isDigit_range {char : Char} (digit : char.isDigit = true) :
    0x30 ≤ char.toNat ∧ char.toNat ≤ 0x39 := by
  simp only [Char.isDigit, Bool.and_eq_true, decide_eq_true_eq, UInt32.le_iff_toNat_le,
    ge_iff_le] at digit
  exact digit

/-- A text of printable characters. -/
theorem isLineText_of_printable {text : Str} (some : text ≠ [])
    (printable : ∀ char ∈ text, 0x20 < char.toNat ∧ char.toNat < 0x7f) : IsLineText text := by
  have not_white : ∀ char ∈ text, isWhitespace char = false := by
    intro char member
    have range := printable char member
    simp only [isWhitespace, Bool.or_eq_false_iff, decide_eq_false_iff_not, beq_eq_false_iff_ne]
    omega
  refine ⟨some, ⟨?_, ?_⟩, fun char member => ⟨?_, ?_, ?_⟩⟩
  · exact fun char member => not_white char (List.mem_of_mem_head? member)
  · exact fun char member => not_white char (List.mem_of_mem_getLast? member)
  · rintro rfl
    exact absurd (printable _ member).1 (by decide)
  · rintro rfl
    exact absurd (printable _ member).1 (by decide)
  · rintro rfl
    exact absurd (printable _ member).1 (by decide)

theorem isLineText_singleton {char : Char} (printable : 0x20 < char.toNat ∧ char.toNat < 0x7f) :
    IsLineText [char] :=
  isLineText_of_printable (List.cons_ne_nil _ _) (List.forall_mem_singleton.mpr printable)

theorem decimal_chars (value : Int) :
    ∀ char ∈ decimal value, char = '-' ∨ char.isDigit = true := by
  intro char member
  rw [decimal] at member
  split at member
  next negative =>
    obtain rfl | digit := List.mem_cons.mp member
    · exact .inl rfl
    · exact .inr (Nat.isDigit_of_mem_toDigits (by decide) (by decide) digit)
  next positive => exact .inr (Nat.isDigit_of_mem_toDigits (by decide) (by decide) member)

theorem decimal_ne_nil (value : Int) : decimal value ≠ [] := by
  rw [decimal]
  split
  · exact List.cons_ne_nil _ _
  · exact Nat.toDigits_ne_nil

theorem isLineText_decimal (value : Int) : IsLineText (decimal value) := by
  refine isLineText_of_printable (decimal_ne_nil value) fun char member => ?_
  obtain rfl | digit := decimal_chars value char member
  · decide
  · have range := isDigit_range digit
    omega

theorem escapeChar_line {source : Char} (terminated : source ≠ '\x00') :
    ∀ char ∈ escapeChar source, IsLineChar char := by
  by_cases escaped : IsEscaped source
  · obtain ⟨mark, marks, same⟩ := escapeChar_escaped escaped
    have plain : ∀ mark ∈ ['\\', '"', 'n', 'r', 't'], IsLineChar mark :=
      forall_of_all (by decide)
    rw [same, List.forall_mem_cons, List.forall_mem_singleton]
    exact ⟨by decide, plain mark marks⟩
  · rw [escapeChar_plain escaped, List.forall_mem_singleton]
    refine ⟨?_, ?_, terminated⟩
    · rintro rfl
      exact escaped (by decide)
    · rintro rfl
      exact escaped (by decide)

theorem isLineText_quoted {text : Str} (terminated : '\x00' ∉ text) :
    IsLineText (writeEscapedString text) := by
  have quote : IsLineText ['"'] := isLineText_singleton (by decide)
  refine @IsLineText.append ['"'] _ ['"'] quote (fun char inside => ?_) quote
  obtain ⟨source, there, inside⟩ := List.mem_flatMap.mp inside
  exact escapeChar_line (ne_of_mem_of_not_mem there terminated) char inside

section Write

variable (floatText : Float → Str)

theorem writeValue_string (text : CString) :
    writeValue floatText (.string text) = writeEscapedString text.written := by
  cases text with
  | utf8 text => rw [writeValue, CString.written]
  | other bytes => rw [writeValue]; rfl

theorem writeValue_strings (texts : List CString) :
    writeValue floatText (.array (texts.map .string)) =
      '[' :: [',', ' '].intercalate (texts.map fun text => writeEscapedString text.written) ++
        [']'] := by
  rw [writeValue, writeItems_eq, List.map_map]
  congr 3
  exact List.map_congr_left fun text _ => writeValue_string floatText text

theorem mem_intercalate {separator : Str} {pieces : List Str} {char : Char}
    (member : char ∈ separator.intercalate pieces) :
    char ∈ separator ∨ ∃ piece ∈ pieces, char ∈ piece := by
  cases pieces with
  | nil => cases member
  | cons first pieces =>
      rw [intercalate_cons_eq, List.mem_append, List.mem_flatMap] at member
      obtain here | ⟨piece, there, inside⟩ := member
      · exact .inr ⟨first, List.mem_cons_self, here⟩
      · obtain inside | inside := List.mem_append.mp inside
        · exact .inl inside
        · exact .inr ⟨piece, List.mem_cons_of_mem _ there, inside⟩

/-- A written value keeps its place in a line. -/
theorem isLineText_writeValue {value : ConfigValue Float} (plain : IsPlain value) :
    IsLineText (writeValue floatText value) := by
  cases plain with
  | string terminated =>
      rw [writeValue_string]
      exact isLineText_quoted terminated.written
  | int value =>
      rw [writeValue]
      exact isLineText_decimal _
  | bool value =>
      cases value with
      | true =>
          rw [writeValue]
          exact isLineText_of_printable (by decide) (forall_of_all (by decide))
      | false =>
          rw [writeValue]
          exact isLineText_of_printable (by decide) (forall_of_all (by decide))
  | @strings texts terminated =>
      rw [writeValue_strings]
      have left : IsLineText ['['] := isLineText_singleton (by decide)
      have right : IsLineText [']'] := isLineText_singleton (by decide)
      refine @IsLineText.append ['['] _ [']'] left (fun char inside => ?_) right
      obtain comma | ⟨piece, there, inside⟩ := mem_intercalate inside
      · have fine : ∀ char ∈ [',', ' '], IsLineChar char :=
          forall_of_all (by decide)
        exact fine char comma
      · obtain ⟨text, source, rfl⟩ := List.mem_map.mp there
        exact (isLineText_quoted (terminated text source).written).clean char inside

/-! ## Lines -/

/-- The line of an entry. -/
def entryLine (entry : Str × ConfigValue Float) : Str :=
  entry.1 ++ " = ".toList ++ writeValue floatText entry.2

def headerLine (sectionName : Str) : Str := '[' :: sectionName ++ [']']

def sectionLines (part : Str × Entries Float) : List Str :=
  [] :: headerLine part.1 :: part.2.map (entryLine floatText)

def fileLines (layout : Layout Float) : List Str :=
  ('#' :: headerComment) :: [] :: layout.topLevel.map (entryLine floatText) ++
    layout.sections.flatMap (sectionLines floatText)

/-- A text with a line feed behind each line. -/
abbrev unlines (pieces : List Str) : Str := pieces.flatMap (· ++ ['\n'])

theorem writeEntries_eq (entries : Entries Float) :
    entries.flatMap (writeEntry floatText) = unlines (entries.map (entryLine floatText)) := by
  rw [unlines, List.flatMap_map]
  rfl

theorem writeSection_eq (part : Str × Entries Float) :
    writeSection floatText part = unlines (sectionLines floatText part) := by
  rw [writeSection, writeEntries_eq, unlines, unlines, sectionLines, List.flatMap_cons,
    List.flatMap_cons, headerLine]
  simp

/-- A configuration is written line by line. -/
theorem configToString_lines (order : Entries Float) :
    configToStringInternal floatText order = unlines (fileLines floatText (arrange order)) := by
  have sections : (arrange order).sections.flatMap (writeSection floatText) =
      unlines ((arrange order).sections.flatMap (sectionLines floatText)) := by
    rw [unlines, List.flatMap_assoc]
    exact List.flatMap_congr fun part _ => writeSection_eq floatText part
  rw [configToStringInternal, writeEntries_eq, sections, fileLines, unlines, unlines, unlines,
    List.flatMap_append, List.cons_append, List.flatMap_cons]
  simp

/-- The keys of the layout are texts of key characters. -/
structure Layout.Keyed (layout : Layout Float) : Prop where
  topLevel : ∀ entry ∈ layout.topLevel, IsKeyText entry.1 ∧ IsPlain entry.2
  names : ∀ part ∈ layout.sections, IsKeyText part.1
  subkeys : ∀ part ∈ layout.sections, ∀ entry ∈ part.2, IsKeyText entry.1 ∧ IsPlain entry.2

theorem arrange_keyed {order : Entries Float} (plain : Plain order) : (arrange order).Keyed := by
  have sorted := arrange_sorted order
  have arranged := plain.of_perm (arrange_entries order).symm
  have below : ∀ part ∈ (arrange order).sections, ∀ entry ∈ part.2,
      IsDottedKey (part.1 ++ '.' :: entry.1) ∧ IsPlain entry.2 := by
    intro part member entry there
    have whole : (part.1 ++ '.' :: entry.1, entry.2) ∈ (arrange order).entries :=
      List.mem_append_right _ (List.mem_flatMap.mpr ⟨part, member, List.mem_map.mpr
        ⟨entry, there, rfl⟩⟩)
    have value : IsPlain (part.1 ++ '.' :: entry.1, entry.2).2 := arranged.values _ whole
    exact ⟨arranged.keys _ whole, value⟩
  have parts : ∀ part ∈ (arrange order).sections, ∀ entry ∈ part.2,
      IsBareKey part.1 ∧ IsDottedKey entry.1 := by
    intro part member entry there
    have dotted := (below part member entry there).1
    rw [IsDottedKey, List.splitOn_append_cons_self_of_not_mem (sorted.named part member),
      List.forall_mem_cons] at dotted
    exact dotted
  refine ⟨?_, ?_, ?_⟩
  · intro entry member
    have there := List.mem_append_left ((arrange order).sections.flatMap sectionEntries) member
    exact ⟨(arranged.keys entry there).text, arranged.values entry there⟩
  · intro part member
    obtain ⟨entry, there⟩ := List.exists_mem_of_ne_nil _ (sorted.nonempty part member)
    have bare := (parts part member entry there).1
    exact ⟨bare.1, fun char inside => .inl (bare.2 char inside)⟩
  · intro part member entry there
    exact ⟨(parts part member entry there).2.text, (below part member entry there).2⟩

theorem entryLine_eq (entry : Str × ConfigValue Float) :
    entryLine floatText entry =
      (entry.1 ++ [' ']) ++ '=' :: ' ' :: writeValue floatText entry.2 := by
  rw [entryLine]
  simp

theorem isLineText_entryLine {entry : Str × ConfigValue Float} (key : IsKeyText entry.1)
    (plain : IsPlain entry.2) : IsLineText (entryLine floatText entry) :=
  key.line.append (forall_of_all (by decide)) (isLineText_writeValue floatText plain)

theorem isLineText_headerLine {sectionName : Str} (key : IsKeyText sectionName) :
    IsLineText (headerLine sectionName) := by
  have left : IsLineText ['['] := isLineText_singleton (by decide)
  have right : IsLineText [']'] := isLineText_singleton (by decide)
  exact left.append key.line.clean right

/-- No line is broken, and the file is not cut. -/
theorem fileLines_clean {layout : Layout Float} (keyed : layout.Keyed) :
    ∀ line ∈ fileLines floatText layout, ∀ char ∈ line, IsLineChar char := by
  have entries : ∀ entry : Str × ConfigValue Float, IsKeyText entry.1 ∧ IsPlain entry.2 →
      ∀ char ∈ entryLine floatText entry, IsLineChar char :=
    fun entry good => (isLineText_entryLine floatText good.1 good.2).clean
  intro line member
  rw [fileLines, List.cons_append, List.cons_append, List.mem_cons, List.mem_cons, List.mem_append,
    List.mem_map, List.mem_flatMap] at member
  obtain rfl | rfl | ⟨entry, there, rfl⟩ | ⟨part, there, inside⟩ := member
  · exact forall_of_all (by decide)
  · exact List.forall_mem_nil _
  · exact entries entry (keyed.topLevel entry there)
  · rw [sectionLines, List.mem_cons, List.mem_cons, List.mem_map] at inside
    obtain rfl | rfl | ⟨entry, below, rfl⟩ := inside
    · exact List.forall_mem_nil _
    · exact (isLineText_headerLine (keyed.names part there)).clean
    · exact entries entry (keyed.subkeys part there entry below)

theorem lines_configToString {order : Entries Float} (plain : Plain order) :
    lines (configToStringInternal floatText order) = fileLines floatText (arrange order) := by
  have clean := fileLines_clean floatText (arrange_keyed plain)
  rw [configToString_lines]
  refine lines_flatMap (fun line member inside => (clean line member _ inside).1 rfl) ?_
  intro line member
  rw [← Bool.not_eq_true, endsWith_iff]
  rintro ⟨rest, rfl⟩
  exact (clean _ member '\r' (by simp)).2.1 rfl

/-- What is written is a C string. -/
theorem terminated_configToString {order : Entries Float} (plain : Plain order) :
    '\x00' ∉ configToStringInternal floatText order := by
  have clean := fileLines_clean floatText (arrange_keyed plain)
  rw [configToString_lines, unlines, List.mem_flatMap]
  rintro ⟨line, there, inside⟩
  obtain inside | feed := List.mem_append.mp inside
  · exact (clean line there _ inside).2.2 rfl
  · exact absurd feed (by decide)

/-! ## Reading lines -/

section Lines

variable (parseF64 : Str → Option Float)

theorem parseIniLine_skipped {line : Str} (state : Str × Entries Float)
    (skipped : trim line = [] ∨ startsWith (trim line) '#' = true) :
    parseIniLine parseF64 state line = .ok state := by
  rw [parseIniLine]
  refine if_pos ?_
  obtain empty | comment := skipped
  · simp [empty]
  · simp [comment]

theorem parseIniLine_header {sectionName : Str} (key : IsKeyText sectionName)
    (state : Str × Entries Float) :
    parseIniLine parseF64 state (headerLine sectionName) = .ok (sectionName, state.2) := by
  have whole := trim_of_edged (isLineText_headerLine key).edged
  have bracketed := isBracketed_iff.mpr ⟨sectionName, rfl⟩
  rw [parseIniLine]
  simp only [whole]
  rw [if_neg (by simp [headerLine, startsWith]), headerLine, if_pos bracketed,
    stripEnds_bracketed]
  have name := trim_of_edged key.edged
  simp only [bind, Except.bind, name]
  rfl

/-- The line of an entry is read for the entry. -/
theorem parseIniLine_entry {entry : Str × ConfigValue Float} (key : IsKeyText entry.1)
    (plain : IsPlain entry.2) (state : Str × Entries Float) :
    parseIniLine parseF64 state (entryLine floatText entry) =
      (fun parsed => (state.1, insert state.2 (fullKey state.1 entry.1) parsed)) <$>
        parseIniValue parseF64 (writeValue floatText entry.2) := by
  have value := isLineText_writeValue floatText plain
  have whole := trim_of_edged (isLineText_entryLine floatText key plain).edged
  have starts : ∀ char, char.toNat < 0x2d ∨ 0x39 < char.toNat ∧ char.toNat < 0x41 ∨
      0x5a < char.toNat ∧ char.toNat < 0x5f →
        startsWith (trim (entryLine floatText entry)) char = false := by
    intro char outside
    obtain ⟨first, rest, same⟩ := List.exists_cons_of_ne_nil key.some
    have differs := (key.chars first (same ▸ List.mem_cons_self)).ne outside
    rw [whole, entryLine, same, startsWith]
    simpa using differs
  have bracket := starts '[' (by decide)
  have cut := whole.trans (entryLine_eq floatText entry)
  have nonempty : trim (entryLine floatText entry) ≠ [] := by
    rw [whole]
    exact (isLineText_entryLine floatText key plain).some
  have unbracketed : isBracketed (trim (entryLine floatText entry)) = false := by
    rw [isBracketed, bracket, Bool.false_and]
  have no_equals : '=' ∉ entry.1 ++ [' '] := by
    have absent : '=' ∉ entry.1 := key.not_mem (by decide)
    simpa using absent
  rw [parseIniLine_assigns parseF64 nonempty (starts '#' (by decide)) (starts ';' (by decide))
    unbracketed cut no_equals, trim_concat (by decide) key.edged key.some, trim_cons (by decide),
    trim_of_edged value.edged]

/-- The entries whose values are read one after the other. -/
def readEntries (config entries : Entries Float) : Except Panic (Entries Float) :=
  entries.foldlM (fun config entry =>
    (fun parsed => insert config entry.1 parsed) <$>
      parseIniValue parseF64 (writeValue floatText entry.2)) config

theorem readEntries_append (config front back : Entries Float) :
    readEntries floatText parseF64 config (front ++ back) =
      readEntries floatText parseF64 config front >>=
        fun config => readEntries floatText parseF64 config back :=
  List.foldlM_append

theorem foldlM_entryLines (sectionName : Str) {entries : Entries Float}
    (keyed : ∀ entry ∈ entries, IsKeyText entry.1 ∧ IsPlain entry.2) (config : Entries Float) :
    (entries.map (entryLine floatText)).foldlM (parseIniLine parseF64) (sectionName, config) =
      (fun after => (sectionName, after)) <$> readEntries floatText parseF64 config
        (entries.map fun entry => (fullKey sectionName entry.1, entry.2)) := by
  induction entries generalizing config with
  | nil => rfl
  | cons entry entries induction =>
      obtain ⟨here, later⟩ := List.forall_mem_cons.mp keyed
      rw [List.map_cons, List.map_cons, List.foldlM_cons, readEntries, List.foldlM_cons,
        parseIniLine_entry floatText parseF64 here.1 here.2]
      simp only [bind_map_left, map_bind]
      refine bind_congr fun parsed => ?_
      exact induction later _

/-- The lines of a section are read for its entries. -/
theorem foldlM_sectionLines {part : Str × Entries Float} (name : IsKeyText part.1)
    (subkeys : ∀ entry ∈ part.2, IsKeyText entry.1 ∧ IsPlain entry.2)
    (state : Str × Entries Float) :
    (sectionLines floatText part).foldlM (parseIniLine parseF64) state =
      (fun after => (part.1, after)) <$>
        readEntries floatText parseF64 state.2 (sectionEntries part) := by
  have blank : parseIniLine parseF64 state [] = pure state :=
    parseIniLine_skipped parseF64 state (.inl rfl)
  have header : parseIniLine parseF64 state (headerLine part.1) = pure (part.1, state.2) :=
    parseIniLine_header parseF64 name state
  have keys : part.2.map (fun entry => (fullKey part.1 entry.1, entry.2)) =
      sectionEntries part := by
    rw [sectionEntries]
    simp only [fullKey, name.some, if_false]
  rw [sectionLines, List.foldlM_cons, blank, pure_bind, List.foldlM_cons, header, pure_bind,
    foldlM_entryLines floatText parseF64 part.1 subkeys, keys]

theorem foldlM_sections {sections : Sections Float}
    (names : ∀ part ∈ sections, IsKeyText part.1)
    (subkeys : ∀ part ∈ sections, ∀ entry ∈ part.2, IsKeyText entry.1 ∧ IsPlain entry.2)
    (state : Str × Entries Float) :
    Prod.snd <$> (sections.flatMap (sectionLines floatText)).foldlM (parseIniLine parseF64) state =
      readEntries floatText parseF64 state.2 (sections.flatMap sectionEntries) := by
  induction sections generalizing state with
  | nil => rfl
  | cons part sections induction =>
      obtain ⟨name, later_names⟩ := List.forall_mem_cons.mp names
      obtain ⟨entries, later_entries⟩ := List.forall_mem_cons.mp subkeys
      rw [List.flatMap_cons, List.flatMap_cons, List.foldlM_append, readEntries_append,
        foldlM_sectionLines floatText parseF64 name entries, bind_map_left, map_bind]
      exact bind_congr fun config => induction later_names later_entries (part.1, config)

/-- A written configuration is read entry by entry. -/
theorem parseIniLike_configToString {order : Entries Float} (plain : Plain order) :
    parseIniLike parseF64 (configToStringInternal floatText order) =
      readEntries floatText parseF64 [] (arrange order).entries := by
  have keyed := arrange_keyed plain
  have comment : ∀ state : Str × Entries Float,
      parseIniLine parseF64 state ('#' :: headerComment) = pure state :=
    fun state => parseIniLine_skipped parseF64 state (.inr (by decide))
  have blank : ∀ state : Str × Entries Float, parseIniLine parseF64 state [] = pure state :=
    fun state => parseIniLine_skipped parseF64 state (.inl rfl)
  have keys : (arrange order).topLevel.map (fun entry => (fullKey [] entry.1, entry.2)) =
      (arrange order).topLevel := List.map_id _
  rw [parseIniLike, lines_configToString floatText plain, fileLines, List.cons_append,
    List.cons_append, List.foldlM_cons, comment, pure_bind, List.foldlM_cons, blank, pure_bind,
    List.foldlM_append, foldlM_entryLines floatText parseF64 [] keyed.topLevel, keys,
    Layout.entries, readEntries_append, bind_map_left, map_bind]
  exact bind_congr fun config =>
    foldlM_sections floatText parseF64 keyed.names keyed.subkeys ([], config)

/-! ## Reading entries -/

theorem readEntries_kept {config entries loaded : Entries Float}
    (read : readEntries floatText parseF64 config entries = .ok loaded) {key : Str}
    (absent : key ∉ keysOf entries) : get loaded key = get config key := by
  induction entries generalizing config with
  | nil =>
      obtain rfl := Except.ok.inj read
      rfl
  | cons entry entries induction =>
      obtain ⟨other, later⟩ := not_or.mp (List.mem_cons.not.mp absent)
      rw [readEntries, List.foldlM_cons] at read
      cases parsed : parseIniValue parseF64 (writeValue floatText entry.2) with
      | error panic =>
          rw [parsed] at read
          cases read
      | ok value =>
          rw [parsed] at read
          rw [induction read later, get_insert, if_neg (Ne.symm other)]

theorem readEntries_value {config entries loaded : Entries Float}
    (distinct : (keysOf entries).Nodup)
    (read : readEntries floatText parseF64 config entries = .ok loaded)
    {entry : Str × ConfigValue Float} (member : entry ∈ entries) :
    ∃ value, parseIniValue parseF64 (writeValue floatText entry.2) = .ok value ∧
      get loaded entry.1 = some value := by
  induction entries generalizing config with
  | nil => cases member
  | cons first entries induction =>
      obtain ⟨absent, rest⟩ := List.nodup_cons.mp distinct
      rw [readEntries, List.foldlM_cons] at read
      cases parsed : parseIniValue parseF64 (writeValue floatText first.2) with
      | error panic =>
          rw [parsed] at read
          cases read
      | ok value =>
          rw [parsed] at read
          obtain rfl | later := List.mem_cons.mp member
          · have kept := readEntries_kept floatText parseF64 read absent
            rw [get_insert, if_pos rfl] at kept
            exact ⟨value, parsed, kept⟩
          · exact induction rest read later

/-- Entries whose values are all read, each as another value. -/
theorem readEntries_map {config entries : Entries Float}
    {value : ConfigValue Float → ConfigValue Float} (each : ∀ entry ∈ entries,
      parseIniValue parseF64 (writeValue floatText entry.2) = .ok (value entry.2)) :
    readEntries floatText parseF64 config entries =
      .ok ((entries.map fun entry => (entry.1, value entry.2)).foldl
        (fun config entry => insert config entry.1 entry.2) config) := by
  induction entries generalizing config with
  | nil => rfl
  | cons entry entries induction =>
      obtain ⟨here, later⟩ := List.forall_mem_cons.mp each
      rw [readEntries, List.foldlM_cons, here]
      exact induction later

theorem readEntries_distinct {entries : Entries Float} (distinct : (keysOf entries).Nodup)
    (value : ConfigValue Float → ConfigValue Float) (each : ∀ entry ∈ entries,
      parseIniValue parseF64 (writeValue floatText entry.2) = .ok (value entry.2)) :
    ∃ loaded, readEntries floatText parseF64 [] entries = .ok loaded ∧
      ∀ key, get loaded key = (get entries key).map value := by
  refine ⟨_, readEntries_map floatText parseF64 each, fun key => ?_⟩
  have keys : keysOf (entries.map fun entry => (entry.1, value entry.2)) = keysOf entries := by
    rw [keysOf, List.map_map]
    rfl
  rw [get_insertAll _ (keys ▸ distinct), get_nil, Option.or_none, get_map]

/-- Entries are read back exactly if every value is. -/
theorem readEntries_iff {entries : Entries Float} (distinct : (keysOf entries).Nodup) :
    (∃ loaded, readEntries floatText parseF64 [] entries = .ok loaded ∧
      ∀ key, get loaded key = get entries key) ↔
    ∀ entry ∈ entries,
      parseIniValue parseF64 (writeValue floatText entry.2) = .ok entry.2 := by
  constructor
  · rintro ⟨loaded, read, same⟩ entry member
    obtain ⟨value, parsed, there⟩ := readEntries_value floatText parseF64 distinct read member
    rw [same, (get_eq_some_iff distinct).mpr member] at there
    rw [parsed, Option.some.inj there]
  · intro each
    obtain ⟨loaded, read, same⟩ := readEntries_distinct floatText parseF64 distinct id each
    exact ⟨loaded, read, fun key => (same key).trans Option.map_id_apply⟩

end Lines

end Write

end Config

end Typio
