import Mathlib.Data.Char
import Mathlib.Data.List.Lex
import Typio.Config.Config

/-!
# Writing a configuration

A configuration is written as the text of a TOML file: the keys without a dot first, and then a
section for each first segment of the other keys.  The entries come in the order in which the hash
map yields them, and the sections in the order of their names.
-/

namespace Typio

namespace Config

open StrSlice

variable {Float : Type}

/-! ## Setting values -/

/-- A call of a setter of `setters.rs` on a configuration which exists. -/
inductive SetCall where
  | setString (key : Str) (value : Option CString)
  | setInt (key : Str) (value : Int32)
  | setBool (key : Str) (value : Bool)
  | setStringArray (key : Str) (values : List (Option CString))

namespace SetCall

def key : SetCall → Str
  | setString key _ => key
  | setInt key _ => key
  | setBool key _ => key
  | setStringArray key _ => key

/-- The string behind a pointer; a null pointer counts as the empty string. -/
def ownedString (value : Option CString) : CString := value.getD (.utf8 [])

/-- The value which the call sets. -/
def value : SetCall → ConfigValue Float
  | setString _ value => .string (ownedString value)
  | setInt _ value => .int value
  | setBool _ value => .bool value
  | setStringArray _ values => .array (values.map fun value => .string (ownedString value))

/-- `typio_config_set_string`, `_set_int`, `_set_bool` and `_set_string_array`. -/
def apply (entries : Entries Float) (call : SetCall) : Entries Float :=
  insert entries call.key call.value

/-- The configuration after the calls, which starts empty. -/
def run (calls : List SetCall) : Entries Float := calls.foldl apply []

end SetCall

/-! ## Values -/

/-- A character inside the quotes of a string. -/
def escapeChar : Char → Str
  | '\\' => ['\\', '\\']
  | '"' => ['\\', '"']
  | '\n' => ['\\', 'n']
  | '\r' => ['\\', 'r']
  | '\t' => ['\\', 't']
  | char => [char]

/-- `write_escaped_string`. -/
def writeEscapedString (text : Str) : Str := '"' :: text.flatMap escapeChar ++ ['"']

/-- `{}` of an integer. -/
def decimal (value : Int) : Str :=
  if value < 0 then '-' :: Nat.toDigits 10 value.natAbs else Nat.toDigits 10 value.natAbs

section Write

variable (floatText : Float → Str)

mutual

/-- `write_value`. -/
def writeValue : ConfigValue Float → Str
  | .string (.utf8 text) => writeEscapedString text
  | .string (.other _) => ['"', '"']
  | .int value => decimal value.toInt
  | .bool true => ['t', 'r', 'u', 'e']
  | .bool false => ['f', 'a', 'l', 's', 'e']
  | .float value => floatText value
  | .array items => '[' :: writeItems items ++ [']']
  | .object _ => []

def writeItems : List (ConfigValue Float) → Str
  | [] => []
  | item :: items => writeValue item ++ writeMore items

/-- The items after the first one. -/
def writeMore : List (ConfigValue Float) → Str
  | [] => []
  | item :: items => ',' :: ' ' :: writeValue item ++ writeMore items

end

/-! ## The file -/

/-- `key.find('.')`, with what stands before the dot and behind it. -/
def splitKey : Str → Option (Str × Str)
  | [] => none
  | char :: key =>
      if char = '.' then some ([], key)
      else (splitKey key).map fun parts => (char :: parts.1, parts.2)

/-- The sections, by name. -/
abbrev Sections (Float : Type) := List (Str × Entries Float)

/-- `sections.entry(section).or_default().push(entry)` on a map which is ordered by name. -/
def pushEntry (sectionName : Str) (entry : Str × ConfigValue Float) :
    Sections Float → Sections Float
  | [] => [(sectionName, [entry])]
  | (first, entries) :: sections =>
      if sectionName < first then (sectionName, [entry]) :: (first, entries) :: sections
      else if sectionName = first then (first, entries ++ [entry]) :: sections
      else (first, entries) :: pushEntry sectionName entry sections

/-- The entries as they are written. -/
structure Layout (Float : Type) where
  topLevel : Entries Float
  sections : Sections Float

def placeEntry (layout : Layout Float) (entry : Str × ConfigValue Float) : Layout Float :=
  match splitKey entry.1 with
  | some (sectionName, subkey) =>
      { layout with sections := pushEntry sectionName (subkey, entry.2) layout.sections }
  | none => { layout with topLevel := layout.topLevel ++ [entry] }

def arrange (entries : Entries Float) : Layout Float := entries.foldl placeEntry ⟨[], []⟩

/-- The comment at the top of the file, behind its `#`. -/
def headerComment : Str := " Typio configuration file (TOML-compatible subset)".toList

def writeEntry (entry : Str × ConfigValue Float) : Str :=
  entry.1 ++ " = ".toList ++ writeValue floatText entry.2 ++ ['\n']

def writeSection (part : Str × Entries Float) : Str :=
  '\n' :: '[' :: part.1 ++ [']', '\n'] ++ part.2.flatMap (writeEntry floatText)

/-- `config_to_string_internal`, for the order in which the entries are iterated over. -/
def configToStringInternal (order : Entries Float) : Str :=
  let layout := arrange order
  '#' :: headerComment ++ ['\n', '\n'] ++ layout.topLevel.flatMap (writeEntry floatText) ++
    layout.sections.flatMap (writeSection floatText)

/-- `typio_config_to_string`: a null pointer when the text has a NUL character. -/
def configToString (order : Entries Float) : Option Str :=
  let content := configToStringInternal floatText order
  if '\x00' ∈ content then none else some content

end Write

/-! ## Escapes -/

/-- The characters which are written with a backslash. -/
def IsEscaped (char : Char) : Prop := char ∈ ['\\', '"', '\n', '\r', '\t']

instance (char : Char) : Decidable (IsEscaped char) := inferInstanceAs (Decidable (_ ∈ _))

theorem escapeChar_plain {char : Char} (plain : ¬ IsEscaped char) : escapeChar char = [char] := by
  rw [escapeChar.eq_def]
  split
  all_goals first | rfl | exact absurd (by decide) plain

theorem escapeChar_escaped {char : Char} (escaped : IsEscaped char) :
    ∃ mark ∈ ['\\', '"', 'n', 'r', 't'], escapeChar char = ['\\', mark] := by
  simp only [IsEscaped, List.mem_cons, List.not_mem_nil, or_false] at escaped
  obtain rfl | rfl | rfl | rfl | rfl := escaped
  · exact ⟨'\\', by decide, rfl⟩
  · exact ⟨'"', by decide, rfl⟩
  · exact ⟨'n', by decide, rfl⟩
  · exact ⟨'r', by decide, rfl⟩
  · exact ⟨'t', by decide, rfl⟩

section Items

variable (floatText : Float → Str)

theorem writeMore_eq (items : List (ConfigValue Float)) :
    writeMore floatText items =
      items.flatMap fun item => [',', ' '] ++ writeValue floatText item := by
  induction items with
  | nil => rw [writeMore, List.flatMap_nil]
  | cons item items induction => rw [writeMore, induction, List.flatMap_cons]; rfl

/-- The items are separated by commas. -/
theorem writeItems_eq (items : List (ConfigValue Float)) :
    writeItems floatText items = [',', ' '].intercalate (items.map (writeValue floatText)) := by
  cases items with
  | nil => rw [writeItems, List.map_nil, List.intercalate_nil]
  | cons item items =>
      rw [writeItems, writeMore_eq, List.map_cons, intercalate_cons_eq, List.flatMap_map]

end Items

/-! ## The arrangement of the entries -/

theorem splitKey_eq_none_iff {key : Str} : splitKey key = none ↔ '.' ∉ key := by
  induction key with
  | nil => simp [splitKey]
  | cons char key induction =>
      rw [splitKey]
      split
      next dot => simp [dot]
      next other => simp [induction, Ne.symm other]

theorem splitKey_eq_some {key before after : Str} (cut : splitKey key = some (before, after)) :
    key = before ++ '.' :: after ∧ '.' ∉ before := by
  induction key generalizing before with
  | nil => cases cut
  | cons char key induction =>
      rw [splitKey] at cut
      split at cut
      next dot =>
        obtain ⟨rfl, rfl⟩ := Prod.mk.inj (Option.some.inj cut)
        exact ⟨congrArg (· :: key) dot, List.not_mem_nil⟩
      next other =>
        obtain ⟨⟨front, back⟩, later, same⟩ := Option.map_eq_some_iff.mp cut
        obtain ⟨rfl, rfl⟩ := Prod.mk.inj same
        obtain ⟨rfl, dotless⟩ := induction later
        exact ⟨rfl, by simp [Ne.symm other, dotless]⟩

/-- The entries of a section, with their whole keys. -/
def sectionEntries (part : Str × Entries Float) : Entries Float :=
  part.2.map fun entry => (part.1 ++ '.' :: entry.1, entry.2)

def Layout.entries (layout : Layout Float) : Entries Float :=
  layout.topLevel ++ layout.sections.flatMap sectionEntries

/-- The sections are in order, each has an entry, and a dot stands only behind their names. -/
structure Layout.Sorted (layout : Layout Float) : Prop where
  topLevel : ∀ entry ∈ layout.topLevel, '.' ∉ entry.1
  ordered : layout.sections.Pairwise (·.1 < ·.1)
  nonempty : ∀ part ∈ layout.sections, part.2 ≠ []
  named : ∀ part ∈ layout.sections, '.' ∉ part.1

section PushEntry

variable (sectionName : Str) (entry : Str × ConfigValue Float)

theorem mem_pushEntry {sections : Sections Float} {part : Str × Entries Float}
    (member : part ∈ pushEntry sectionName entry sections) :
    part ∈ sections ∨ part.1 = sectionName ∧ part.2 ≠ [] := by
  induction sections with
  | nil =>
      obtain rfl := List.mem_singleton.mp member
      exact .inr ⟨rfl, List.cons_ne_nil _ _⟩
  | cons head sections induction =>
      obtain ⟨first, entries⟩ := head
      rw [pushEntry] at member
      split at member
      next before =>
        obtain rfl | there := List.mem_cons.mp member
        · exact .inr ⟨rfl, List.cons_ne_nil _ _⟩
        · exact .inl there
      next behind =>
        split at member
        next same =>
          obtain rfl | there := List.mem_cons.mp member
          · exact .inr ⟨same.symm, by simp⟩
          · exact .inl (List.mem_cons_of_mem _ there)
        next other =>
          obtain rfl | there := List.mem_cons.mp member
          · exact .inl List.mem_cons_self
          · exact (induction there).imp_left (List.mem_cons_of_mem _)

theorem pushEntry_ordered {sections : Sections Float}
    (ordered : sections.Pairwise (·.1 < ·.1)) :
    (pushEntry sectionName entry sections).Pairwise (·.1 < ·.1) := by
  induction sections with
  | nil => exact List.pairwise_singleton _ _
  | cons head sections induction =>
      obtain ⟨first, entries⟩ := head
      obtain ⟨least, rest⟩ := List.pairwise_cons.mp ordered
      rw [pushEntry]
      split
      next before =>
        refine List.pairwise_cons.mpr ⟨fun part member => ?_, ordered⟩
        obtain rfl | there := List.mem_cons.mp member
        · exact before
        · exact lt_trans before (least part there)
      next behind =>
        split
        next same => exact List.pairwise_cons.mpr ⟨least, rest⟩
        next other =>
          refine List.pairwise_cons.mpr ⟨fun part member => ?_, induction rest⟩
          obtain there | ⟨named, -⟩ := mem_pushEntry sectionName entry member
          · exact least part there
          · rw [named]
            exact lt_of_le_of_ne (not_lt.mp behind) (Ne.symm other)

theorem pushEntry_entries (sections : Sections Float) :
    ((pushEntry sectionName entry sections).flatMap sectionEntries).Perm
      ((sectionName ++ '.' :: entry.1, entry.2) :: sections.flatMap sectionEntries) := by
  induction sections with
  | nil => exact .refl _
  | cons head sections induction =>
      obtain ⟨first, entries⟩ := head
      rw [pushEntry]
      split
      next before => exact .refl _
      next behind =>
        split
        next same =>
          subst same
          simp only [List.flatMap_cons, sectionEntries, List.map_append, List.map_cons,
            List.map_nil, List.append_assoc, List.cons_append, List.nil_append]
          exact List.perm_middle
        next other =>
          rw [List.flatMap_cons, List.flatMap_cons]
          exact (induction.append_left _).trans List.perm_middle

end PushEntry

theorem Layout.Sorted.placeEntry {layout : Layout Float} (sorted : layout.Sorted)
    (entry : Str × ConfigValue Float) : (placeEntry layout entry).Sorted := by
  obtain ⟨key, value⟩ := entry
  rw [Config.placeEntry]
  split
  next sectionName subkey cut =>
    obtain ⟨-, dotless⟩ := splitKey_eq_some cut
    refine ⟨sorted.topLevel, pushEntry_ordered _ _ sorted.ordered, ?_, ?_⟩
    · intro part member
      obtain there | ⟨-, some⟩ := mem_pushEntry _ _ member
      · exact sorted.nonempty part there
      · exact some
    · intro part member
      obtain there | ⟨named, -⟩ := mem_pushEntry _ _ member
      · exact sorted.named part there
      · exact named ▸ dotless
  next whole =>
    refine ⟨?_, sorted.ordered, sorted.nonempty, sorted.named⟩
    rw [List.forall_mem_append]
    exact ⟨sorted.topLevel, by simpa using splitKey_eq_none_iff.mp whole⟩

theorem placeEntry_entries (layout : Layout Float) (entry : Str × ConfigValue Float) :
    (placeEntry layout entry).entries.Perm (entry :: layout.entries) := by
  obtain ⟨key, value⟩ := entry
  rw [placeEntry]
  split
  next sectionName subkey cut =>
    obtain ⟨rfl, -⟩ := splitKey_eq_some cut
    exact ((pushEntry_entries _ _ _).append_left _).trans List.perm_middle
  next whole =>
    rw [Layout.entries, Layout.entries, List.append_assoc]
    exact List.perm_middle

theorem foldl_placeEntry {layout : Layout Float} (sorted : layout.Sorted)
    (entries : Entries Float) :
    (entries.foldl placeEntry layout).Sorted ∧
      (entries.foldl placeEntry layout).entries.Perm (entries ++ layout.entries) := by
  induction entries generalizing layout with
  | nil => exact ⟨sorted, .refl _⟩
  | cons entry entries induction =>
      obtain ⟨after_sorted, after_entries⟩ := induction (sorted.placeEntry entry)
      have placed := (placeEntry_entries layout entry).append_left entries
      exact ⟨after_sorted, after_entries.trans (placed.trans List.perm_middle)⟩

theorem sorted_empty : (⟨[], []⟩ : Layout Float).Sorted := ⟨nofun, .nil, nofun, nofun⟩

theorem arrange_sorted (entries : Entries Float) : (arrange entries).Sorted :=
  (foldl_placeEntry sorted_empty entries).1

/-- Every entry is written once. -/
theorem arrange_entries (entries : Entries Float) : (arrange entries).entries.Perm entries := by
  have arranged := (foldl_placeEntry sorted_empty entries).2
  have nothing : (⟨[], []⟩ : Layout Float).entries = [] := rfl
  rwa [nothing, List.append_nil] at arranged

end Config

end Typio
