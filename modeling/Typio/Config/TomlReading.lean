import Mathlib.Data.List.Nodup
import Mathlib.Data.List.Pairwise
import Typio.Config.Entries

/-!
# A written configuration as a TOML document

The text of a configuration is that of a TOML document.  The document is accepted unless a key lies
below another one or a string has a control character which is not escaped, and then its values are
those of the configuration.
-/

namespace Typio

namespace Config

open StrSlice

variable {Float : Type}

/-! ## The document -/

/-- The character as `write_escaped_string` writes it. -/
def tomlChar : Char → TomlChar
  | '\\' => .escape '\\'
  | '"' => .escape '"'
  | '\n' => .escape 'n'
  | '\r' => .escape 'r'
  | '\t' => .escape 't'
  | char => .raw char

section Document

variable (floatText : Float → Str)

def tomlScalar : ConfigValue Float → TomlScalar
  | .string (.utf8 text) => .string (text.map tomlChar)
  | .string (.other _) => .string []
  | .int value => .integer value.toInt
  | .bool value => .boolean value
  | value => .other (writeValue floatText value)

def tomlLiteral : ConfigValue Float → TomlLiteral
  | .array items => .array (items.map (tomlScalar floatText))
  | value => .scalar (tomlScalar floatText value)

/-- The document which is written for a configuration. -/
def document (order : Entries Float) : TomlDocument where
  comment := headerComment
  root := (arrange order).topLevel.map fun entry => (entry.1, tomlLiteral floatText entry.2)
  sections := (arrange order).sections.map fun part =>
    (part.1, part.2.map fun entry => (entry.1.splitOn '.', tomlLiteral floatText entry.2))

theorem tomlChar_plain {char : Char} (plain : ¬ IsEscaped char) : tomlChar char = .raw char := by
  rw [tomlChar.eq_def]
  split
  all_goals first | rfl | exact absurd (by decide) plain

/-- An escaped character is written as TOML reads it. -/
theorem tomlChar_escaped {char : Char} (escaped : IsEscaped char) :
    (tomlChar char).WellFormed ∧ (tomlChar char).meaning = some char ∧
      (tomlChar char).text = escapeChar char := by
  simp only [IsEscaped, List.mem_cons, List.not_mem_nil, or_false] at escaped
  obtain rfl | rfl | rfl | rfl | rfl := escaped
  all_goals
    refine ⟨?_, rfl, rfl⟩
    simp [tomlChar, TomlChar.WellFormed]

theorem tomlChar_text (char : Char) : (tomlChar char).text = escapeChar char := by
  by_cases escaped : IsEscaped char
  · exact (tomlChar_escaped escaped).2.2
  · rw [tomlChar_plain escaped, escapeChar_plain escaped, TomlChar.text]

theorem tomlScalar_text (value : ConfigValue Float) :
    (tomlScalar floatText value).text = writeValue floatText value := by
  match value with
  | .string (.utf8 text) =>
      rw [tomlScalar, TomlScalar.text, writeValue, writeEscapedString, List.flatMap_map]
      simp only [tomlChar_text]
  | .string (.other _) => rw [tomlScalar, TomlScalar.text, writeValue]; rfl
  | .int _ => rw [tomlScalar, TomlScalar.text, writeValue]
  | .bool true => rw [tomlScalar, TomlScalar.text, writeValue]
  | .bool false => rw [tomlScalar, TomlScalar.text, writeValue]
  | .float _ => rfl
  | .array _ => rfl
  | .object _ => rfl

theorem tomlLiteral_text (value : ConfigValue Float) :
    (tomlLiteral floatText value).text = writeValue floatText value := by
  match value with
  | .array items =>
      rw [tomlLiteral, TomlLiteral.text, writeValue, writeItems_eq, List.map_map]
      congr 4
      funext item
      exact tomlScalar_text floatText item
  | .string text => exact tomlScalar_text floatText (.string text)
  | .int value => exact tomlScalar_text floatText (.int value)
  | .bool value => exact tomlScalar_text floatText (.bool value)
  | .float value => exact tomlScalar_text floatText (.float value)
  | .object entries => exact tomlScalar_text floatText (.object entries)

/-- The text of the document is what is written. -/
theorem document_text (order : Entries Float) :
    (document floatText order).text = configToStringInternal floatText order := by
  have pair : ∀ (key : Str) (value : ConfigValue Float),
      TomlDocument.pairText key (tomlLiteral floatText value) = writeEntry floatText (key, value) :=
    fun key value => by rw [TomlDocument.pairText, tomlLiteral_text, writeEntry]
  rw [TomlDocument.text, configToStringInternal, document]
  simp only [List.flatMap_map, pair]
  congr 2
  funext part
  simp only [TomlDocument.sectionText, List.flatMap_map, List.intercalate_splitOn, pair]
  rfl

end Document

/-! ## Keys and paths -/

theorem splitOn_prefix_iff {key other : Str} :
    key.splitOn '.' <+: other.splitOn '.' ↔ key = other ∨ key ++ ['.'] <+: other := by
  constructor
  · rintro ⟨rest, same⟩
    have joined : other = ['.'].intercalate (key.splitOn '.' ++ rest) := by
      rw [same, List.intercalate_splitOn]
    by_cases empty : rest = []
    · left
      rw [joined, empty, List.append_nil, List.intercalate_splitOn]
    · right
      rw [joined, intercalate_append (List.splitOn_ne_nil _ _) empty, List.intercalate_splitOn]
      exact List.prefix_append _ _
  · rintro (rfl | ⟨rest, rfl⟩)
    · exact List.prefix_refl _
    · rw [List.append_assoc]
      exact ⟨_, (List.splitOn_append_cons_self key rest).symm⟩

/-- No key lies below another one. -/
def KeysApart (entries : Entries Float) : Prop :=
  ∀ entry ∈ entries, ∀ other ∈ entries, ¬ entry.1 ++ ['.'] <+: other.1

instance (entries : Entries Float) : Decidable (KeysApart entries) :=
  inferInstanceAs (Decidable (∀ entry ∈ entries, ∀ other ∈ entries, _))

theorem separate_iff {entries : Entries Float} (distinct : (keysOf entries).Nodup) :
    PathTree.Separate ((keysOf entries).map (·.splitOn '.')) ↔ KeysApart entries := by
  rw [PathTree.Separate, List.pairwise_map]
  constructor
  · rintro ⟨-, apart⟩ entry member other there below
    have symmetric : Std.Symm fun key other : Str =>
        ¬ PathTree.Clash (key.splitOn '.') (other.splitOn '.') :=
      ⟨fun _ _ free clash => free clash.symm⟩
    have differs : entry.1 ≠ other.1 := fun same => by
      have lengths := below.length_le
      rw [same, List.length_append] at lengths
      exact absurd lengths (Nat.not_succ_le_self _)
    have free := apart.forall (List.mem_map_of_mem member) (List.mem_map_of_mem there) differs
    exact free (.inl (splitOn_prefix_iff.mpr (.inr below)))
  · intro apart
    refine ⟨fun member => ?_, distinct.pairwise_of_forall_ne ?_⟩
    · obtain ⟨key, -, empty⟩ := List.mem_map.mp member
      exact List.splitOn_ne_nil _ _ empty
    · intro key member other there differs clash
      obtain ⟨entry, entry_member, rfl⟩ := List.mem_map.mp member
      obtain ⟨second, second_member, rfl⟩ := List.mem_map.mp there
      obtain shorter | longer := clash
      · obtain same | below := splitOn_prefix_iff.mp shorter
        · exact differs same
        · exact apart entry entry_member second second_member below
      · obtain same | below := splitOn_prefix_iff.mp longer
        · exact differs same.symm
        · exact apart second second_member entry entry_member below

/-- The path of a bare key leads back to the key. -/
theorem foldl_fullKey {segments : List Str} (bare : ∀ segment ∈ segments, segment ≠ [])
    {path : Str} (inside : path ≠ []) :
    segments.foldl fullKey path = path ++ segments.flatMap (['.'] ++ ·) := by
  induction segments generalizing path with
  | nil => simp
  | cons segment segments induction =>
      have below : fullKey path segment = path ++ '.' :: segment := if_neg inside
      rw [List.foldl_cons, below, induction (List.forall_mem_cons.mp bare).2 (by simp)]
      simp

theorem IsDottedKey.foldl_fullKey {key : Str} (dotted : IsDottedKey key) :
    (key.splitOn '.').foldl fullKey [] = key := by
  obtain ⟨first, rest, segments⟩ := List.exists_cons_of_ne_nil (List.splitOn_ne_nil '.' key)
  have joined : key = ['.'].intercalate (first :: rest) := by
    rw [← segments, List.intercalate_splitOn]
  rw [IsDottedKey, segments, List.forall_mem_cons] at dotted
  have outermost : fullKey [] first = first := if_pos rfl
  rw [segments, List.foldl_cons, outermost, Config.foldl_fullKey (fun segment member =>
    (dotted.2 segment member).1) dotted.1.1, joined, intercalate_cons_eq]

/-! ## The values of a table -/

/-- A table is flattened to its values. -/
theorem populateEntries_eq (entries : List (Str × TomlValue Float)) (config : Entries Float)
    (path : Str) : populateEntries config path entries =
      (tomlLeaves entries).foldl
        (fun config leaf => insertConverted config (leaf.1.foldl fullKey path) leaf.2) config := by
  induction entries using tomlLeaves.induct generalizing config path with
  | case1 => rw [populateEntries, tomlLeaves, List.foldl_nil]
  | case2 key inner entries inner_induction induction =>
      rw [populateEntries, tomlLeaves, inner_induction, induction, List.foldl_append,
        List.foldl_map]
      rfl
  | case3 key value entries no_table induction =>
      rw [populateEntries.eq_3 _ _ _ _ _ no_table, tomlLeaves.eq_3 _ _ _ no_table, induction]
      rfl

/-- The text has no control character which is written as it is. -/
def CString.TomlSafe (text : CString) : Prop :=
  ∀ char ∈ text.written, IsTomlControl char → IsEscaped char

instance (text : CString) : Decidable text.TomlSafe :=
  List.decidableBAll (fun char => IsTomlControl char → IsEscaped char) text.written

def tomlItem : ConfigValue Float → TomlValue Float
  | .string text => .string text.written
  | .int value => .integer value.toInt
  | .bool value => .boolean value
  | _ => .datetime

/-- The value which is read as TOML for a value which a setter sets. -/
def tomlOf : ConfigValue Float → TomlValue Float
  | .array items => .array (items.map tomlItem)
  | value => tomlItem value

theorem tomlOf_string (text : CString) :
    (tomlOf (.string text) : TomlValue Float) = .string text.written := rfl

theorem tomlOf_int (value : Int32) :
    (tomlOf (.int value) : TomlValue Float) = .integer value.toInt := rfl

theorem tomlOf_bool (value : Bool) :
    (tomlOf (.bool value) : TomlValue Float) = .boolean value := rfl

section Literals

variable (floatText : Float → Str)

theorem tomlChar_meaning {char : Char} (safe : IsTomlControl char → IsEscaped char) :
    (tomlChar char).meaning = some char := by
  by_cases escaped : IsEscaped char
  · exact (tomlChar_escaped escaped).2.1
  · rw [tomlChar_plain escaped, TomlChar.meaning, if_neg fun control => escaped (safe control)]

theorem tomlChar_meaning_none {char : Char} (control : IsTomlControl char)
    (plain : ¬ IsEscaped char) : (tomlChar char).meaning = none := by
  rw [tomlChar_plain plain, TomlChar.meaning, if_pos control]

theorem tomlScalar_string (text : CString) :
    tomlScalar floatText (.string text) = .string (text.written.map tomlChar) := by
  cases text <;> rfl

theorem tomlString_value {text : CString} (safe : text.TomlSafe) :
    (tomlScalar floatText (.string text)).value =
      some (.string text.written : TomlValue Float) := by
  have meant : text.written.mapM (TomlChar.meaning ∘ tomlChar) = some (text.written.map id) :=
    mapM_eq_some_map fun char member => tomlChar_meaning (safe char member)
  rw [tomlScalar_string, TomlScalar.value, List.mapM_map, meant, List.map_id, Option.map_some]

theorem tomlString_rejected {text : CString} (unsafe_text : ¬ text.TomlSafe) :
    (tomlScalar floatText (.string text)).value = (none : Option (TomlValue Float)) := by
  rw [CString.TomlSafe] at unsafe_text
  push Not at unsafe_text
  obtain ⟨char, member, control, plain⟩ := unsafe_text
  rw [tomlScalar_string, TomlScalar.value,
    mapM_eq_none (List.mem_map_of_mem member) (tomlChar_meaning_none control plain)]
  rfl

theorem tomlLiteral_value {value : ConfigValue Float} (plain : IsPlain value)
    (safe : ∀ text ∈ stringsOf value, text.TomlSafe) :
    (tomlLiteral floatText value).value = some (tomlOf value) := by
  cases plain with
  | string terminated => exact tomlString_value floatText (safe _ (List.mem_singleton_self _))
  | int value =>
      have range : -2 ^ 63 ≤ value.toInt ∧ value.toInt < 2 ^ 63 := by
        have least := Int32.le_toInt value
        have greatest := Int32.toInt_lt value
        omega
      exact if_pos range
  | bool value => rfl
  | @strings texts terminated =>
      rw [stringsOf_array] at safe
      have items : (texts.map (.string : CString → ConfigValue Float)).mapM
          (TomlScalar.value ∘ tomlScalar floatText) =
            some ((texts.map (.string : CString → ConfigValue Float)).map tomlItem) := by
        refine mapM_eq_some_map fun item member => ?_
        obtain ⟨text, there, rfl⟩ := List.mem_map.mp member
        exact tomlString_value floatText (safe text there)
      rw [tomlLiteral, TomlLiteral.value, List.mapM_map, items]
      rfl

theorem tomlLiteral_rejected {value : ConfigValue Float} (plain : IsPlain value) {text : CString}
    (member : text ∈ stringsOf value) (unsafe_text : ¬ text.TomlSafe) :
    (tomlLiteral floatText value).value = (none : Option (TomlValue Float)) := by
  cases plain with
  | string terminated =>
      obtain rfl := List.mem_singleton.mp member
      exact tomlString_rejected floatText unsafe_text
  | int value => cases member
  | bool value => cases member
  | strings terminated =>
      rw [stringsOf_array] at member
      have item := List.mem_map_of_mem (f := (.string : CString → ConfigValue Float)) member
      rw [tomlLiteral, TomlLiteral.value, List.mapM_map,
        mapM_eq_none item (tomlString_rejected floatText unsafe_text)]
      rfl

theorem tomlLiteral_wellFormed {value : ConfigValue Float} (plain : IsPlain value) :
    (tomlLiteral floatText value).WellFormed := by
  have string : ∀ text : CString,
      (tomlScalar floatText (.string text : ConfigValue Float)).WellFormed := by
    intro text
    rw [tomlScalar_string, TomlScalar.WellFormed, List.forall_mem_map]
    intro char member
    by_cases escaped : IsEscaped char
    · exact (tomlChar_escaped escaped).1
    · rw [tomlChar_plain escaped, TomlChar.WellFormed]
      constructor
      · rintro rfl
        exact escaped (by decide)
      · rintro rfl
        exact escaped (by decide)
  cases plain with
  | string terminated => exact string _
  | int value => trivial
  | bool value => trivial
  | strings terminated =>
      rw [tomlLiteral, TomlLiteral.WellFormed, List.map_map, List.forall_mem_map]
      exact fun text _ => string text

/-- The value which is read for a string: what is not UTF-8 is lost. -/
def rereadItem : ConfigValue Float → ConfigValue Float
  | .string text => .string (.utf8 text.written)
  | value => value

def reread : ConfigValue Float → ConfigValue Float
  | .array items => .array (items.map rereadItem)
  | value => rereadItem value

theorem tomlToConfigValue_tomlOf {value : ConfigValue Float} (plain : IsPlain value) :
    tomlToConfigValue (tomlOf value) = some (reread value) := by
  cases plain with
  | string terminated =>
      rw [tomlOf_string, tomlToConfigValue, if_neg terminated.written]
      rfl
  | int value =>
      rw [tomlOf_int, tomlToConfigValue, Int32.ofInt_toInt]
      rfl
  | bool value =>
      rw [tomlOf_bool, tomlToConfigValue]
      rfl
  | @strings texts terminated =>
      rw [tomlOf, tomlToConfigValue, reread]
      congr 2
      induction texts with
      | nil => rfl
      | cons text texts induction =>
          obtain ⟨here, later⟩ := List.forall_mem_cons.mp terminated
          rw [List.map_cons, List.map_cons, tomlToConfigItems, induction later, tomlItem,
            tomlToConfigValue, if_neg here.written]
          rfl

theorem reread_eq_iff {value : ConfigValue Float} (plain : IsPlain value) :
    reread value = value ↔ ∀ text ∈ stringsOf value, text.IsUtf8 := by
  cases plain with
  | string terminated =>
      simp only [stringsOf, List.forall_mem_singleton, ← utf8_written_iff]
      simp [reread, rereadItem]
  | int value => exact iff_of_true rfl (List.forall_mem_nil _)
  | bool value => exact iff_of_true rfl (List.forall_mem_nil _)
  | strings terminated =>
      rw [stringsOf_array, reread, ConfigValue.array.injEq, List.map_map, List.map_inj_left]
      simp [rereadItem, utf8_written_iff]

end Literals

/-! ## Reading the document -/

section Reading

variable (floatText : Float → Str)

theorem document_pairs (order : Entries Float) :
    (document floatText order).pairs = (arrange order).entries.map
      fun entry => (entry.1.splitOn '.', tomlLiteral floatText entry.2) := by
  have sorted := arrange_sorted order
  rw [TomlDocument.pairs, document, Layout.entries, List.map_append]
  congr 1
  · rw [List.map_map]
    refine List.map_congr_left fun entry member => ?_
    rw [List.splitOn_eq_singleton (sorted.topLevel entry member)]
    rfl
  · rw [List.flatMap_map, List.map_flatMap]
    refine List.flatMap_congr fun part member => ?_
    rw [sectionEntries, List.map_map, List.map_map]
    refine List.map_congr_left fun entry _ => ?_
    rw [Function.comp_apply, Function.comp_apply,
      List.splitOn_append_cons_self_of_not_mem (sorted.named part member)]

theorem document_names (order : Entries Float) :
    ((document floatText order).sections.map Prod.fst).Nodup := by
  rw [document, List.map_map, List.nodup_iff_pairwise_ne, List.pairwise_map]
  exact (arrange_sorted order).ordered.imp fun before => ne_of_lt before

theorem document_wellFormed {order : Entries Float} (plain : Plain order) :
    (document floatText order).WellFormed where
  comment := by
    exact forall_of_all (by decide +kernel : headerComment.all _ = true)
  keys pair member key segment := by
    rw [document_pairs] at member
    obtain ⟨entry, there, rfl⟩ := List.mem_map.mp member
    exact plain.keys entry ((arrange_entries order).mem_iff.mp there) key segment
  paths part member pair there := by
    obtain ⟨_, -, rfl⟩ := List.mem_map.mp member
    obtain ⟨_, -, rfl⟩ := List.mem_map.mp there
    exact List.splitOn_ne_nil _ _
  sections part member := by
    obtain ⟨source, there, rfl⟩ := List.mem_map.mp member
    exact List.map_eq_nil_iff.not.mpr ((arrange_sorted order).nonempty source there)
  literals pair member := by
    rw [document_pairs] at member
    obtain ⟨entry, there, rfl⟩ := List.mem_map.mp member
    exact tomlLiteral_wellFormed floatText
      (plain.values entry ((arrange_entries order).mem_iff.mp there))

/-- No string has a control character which is written as it is. -/
def TomlSafe (entries : Entries Float) : Prop :=
  ∀ entry ∈ entries, ∀ text ∈ stringsOf entry.2, text.TomlSafe

instance (entries : Entries Float) : Decidable (TomlSafe entries) :=
  inferInstanceAs (Decidable (∀ entry ∈ entries, ∀ text ∈ stringsOf entry.2, _))

variable {floatText} {order : Entries Float}

/-- The path of an entry, and the value which is read. -/
def tomlEntry (entry : Str × ConfigValue Float) : List Str × TomlValue Float :=
  (entry.1.splitOn '.', tomlOf entry.2)

theorem document_definitions (plain : Plain order) (safe : TomlSafe order) :
    (document floatText order).pairs.mapM TomlDocument.definition =
      some ((arrange order).entries.map tomlEntry) := by
  have written := arrange_entries order
  rw [document_pairs, List.mapM_map]
  refine mapM_eq_some_map fun entry member => ?_
  have there := written.mem_iff.mp member
  rw [Function.comp_apply, TomlDocument.definition,
    tomlLiteral_value floatText (plain.values entry there) (safe entry there)]
  rfl

theorem document_table_eq (definitions : List (List Str × TomlValue Float))
    (defined : (document floatText order).pairs.mapM TomlDocument.definition = some definitions) :
    (document floatText order).table = PathTree.insertAll [] definitions := by
  rw [TomlDocument.table, if_pos (document_names floatText order), defined]
  rfl

theorem tomlEntry_paths (entries : Entries Float) :
    (entries.map tomlEntry).map Prod.fst = (keysOf entries).map (·.splitOn '.') := by
  rw [List.map_map, List.map_map]
  rfl

theorem KeysApart.of_perm {entries others : Entries Float} (apart : KeysApart entries)
    (same : entries.Perm others) : KeysApart others := by
  intro entry member other there
  exact apart entry (same.mem_iff.mpr member) other (same.mem_iff.mpr there)

theorem document_rejected (plain : Plain order) (rejected : ¬ (KeysApart order ∧ TomlSafe order)) :
    (document floatText order).table =
      (none : Option (PathTree.Table Str (TomlValue Float))) := by
  have written := arrange_entries order
  have arranged := plain.of_perm written.symm
  by_cases safe : TomlSafe order
  · rw [document_table_eq _ (document_definitions plain safe), PathTree.insertAll_nil_eq_none_iff,
      tomlEntry_paths, separate_iff arranged.distinct]
    exact fun apart => rejected ⟨apart.of_perm written, safe⟩
  · rw [TomlSafe] at safe
    push Not at safe
    obtain ⟨entry, member, text, there, unsafe_text⟩ := safe
    have missing : (document floatText order).pairs.mapM TomlDocument.definition =
        (none : Option (List (List Str × TomlValue Float))) := by
      rw [document_pairs, List.mapM_map]
      refine mapM_eq_none (written.mem_iff.mpr member) ?_
      rw [Function.comp_apply, TomlDocument.definition,
        tomlLiteral_rejected floatText (plain.values entry member) there unsafe_text]
      rfl
    rw [TomlDocument.table, missing]
    exact ite_self none

theorem document_accepted (plain : Plain order) (apart : KeysApart order) (safe : TomlSafe order) :
    ∃ table, (document floatText order).table = some table ∧
      (PathTree.leaves table).Perm (order.map tomlEntry) := by
  have written := arrange_entries order
  have arranged := plain.of_perm written.symm
  have definitions : (document floatText order).pairs.mapM TomlDocument.definition = _ :=
    document_definitions plain safe
  have defined := document_table_eq _ definitions
  cases made : PathTree.insertAll [] ((arrange order).entries.map tomlEntry) with
  | none =>
      rw [PathTree.insertAll_nil_eq_none_iff, tomlEntry_paths,
        separate_iff arranged.distinct] at made
      exact absurd (apart.of_perm written.symm) made
  | some table =>
      refine ⟨table, defined.trans made, ?_⟩
      exact (PathTree.leaves_insertAll_nil made).trans (written.map tomlEntry)

/-- A reader which finds the entries in a text that is accepted reads it. -/
theorem readsToml_of_leaves {toml : Str → Option (TomlValue Float)} (plain : Plain order)
    (apart : KeysApart order) (safe : TomlSafe order) {tables : List (Str × TomlValue Float)}
    (read : toml (document floatText order).text = some (.table tables))
    (leaves : (tomlLeaves tables).Perm (order.map tomlEntry)) :
    ReadsToml toml (document floatText order) := by
  have accepted : ∃ table, (document floatText order).table = some table ∧ _ :=
    document_accepted plain apart safe
  obtain ⟨table, defined, values⟩ := accepted
  refine ⟨fun _ rejected => ?_, fun _ other same => ⟨tables, read, ?_⟩⟩
  · rw [defined] at rejected
    cases rejected
  · obtain rfl := Option.some.inj (defined.symm.trans same)
    exact leaves.trans values.symm

/-! ## Loading the text as TOML -/

def readLeaf (leaf : List Str × TomlValue Float) : Option (Str × ConfigValue Float) :=
  (tomlToConfigValue leaf.2).map (leaf.1.foldl fullKey [], ·)

theorem fromToml_table (entries : List (Str × TomlValue Float)) :
    fromToml (.table entries) = ((tomlLeaves entries).filterMap readLeaf).foldl
      (fun config pair => insert config pair.1 pair.2) [] := by
  rw [fromToml, populateFromToml, populateEntries_eq, List.foldl_filterMap]
  congr 1
  funext config leaf
  rw [readLeaf, insertConverted.eq_def]
  cases tomlToConfigValue leaf.2 <;> rfl

theorem readLeaf_tomlEntry {entry : Str × ConfigValue Float} (dotted : IsDottedKey entry.1)
    (plain : IsPlain entry.2) : readLeaf (tomlEntry entry) = some (entry.1, reread entry.2) := by
  rw [readLeaf, tomlEntry, tomlToConfigValue_tomlOf plain, dotted.foldl_fullKey]
  rfl

/-- The values of the tables are those of the entries. -/
theorem get_fromToml (plain : Plain order) {entries : List (Str × TomlValue Float)}
    (leaves : (tomlLeaves entries).Perm (order.map tomlEntry)) (key : Str) :
    get (fromToml (.table entries)) key = (get order key).map reread := by
  have converted : (order.map tomlEntry).filterMap readLeaf =
      order.map fun entry => (entry.1, reread entry.2) := by
    rw [List.filterMap_map, ← List.filterMap_eq_map]
    refine List.filterMap_congr fun entry member => ?_
    exact readLeaf_tomlEntry (plain.keys entry member) (plain.values entry member)
  have pairs := leaves.filterMap readLeaf
  rw [converted] at pairs
  have distinct : (keysOf ((tomlLeaves entries).filterMap readLeaf)).Nodup := by
    rw [(pairs.map Prod.fst).nodup_iff, List.map_map]
    exact plain.distinct
  rw [fromToml_table, get_insertAll _ distinct, get_of_perm pairs distinct, get_map reread,
    get_nil, Option.or_none]

variable {toml : Str → Option (TomlValue Float)}

/-- The text is TOML, and what is read are the entries, without the strings which are not UTF-8. -/
theorem toml_accepts (plain : Plain order) (reads : ReadsToml toml (document floatText order))
    (apart : KeysApart order) (safe : TomlSafe order) :
    ∃ parsed, toml (configToStringInternal floatText order) = some parsed ∧
      ∀ key, get (fromToml parsed) key = (get order key).map reread := by
  have accepted : ∃ table, (document floatText order).table = some table ∧ _ :=
    document_accepted plain apart safe
  obtain ⟨table, defined, leaves⟩ := accepted
  obtain ⟨entries, read, same⟩ :=
    reads.accepts (document_wellFormed floatText plain) table defined
  rw [document_text] at read
  exact ⟨_, read, get_fromToml plain (same.trans leaves)⟩

theorem toml_rejects (plain : Plain order) (reads : ReadsToml toml (document floatText order))
    (rejected : ¬ (KeysApart order ∧ TomlSafe order)) :
    toml (configToStringInternal floatText order) = none := by
  have read := reads.rejects (document_wellFormed floatText plain)
    (document_rejected plain rejected)
  rwa [document_text] at read

end Reading

end Config

end Typio
