import Typio.Config.Serialize
import Typio.PathTree

/-!
# TOML documents

The part of TOML 1.0 in which configurations are written: a comment, pairs of a bare key and a
value, and sections of pairs with dotted keys.  The values are basic strings, decimal integers,
booleans, and arrays of these.
-/

namespace Typio

namespace Config

open StrSlice

/-! ## Values -/

/-- A character of a basic string, as it is written. -/
inductive TomlChar where
  | raw (char : Char)
  | escape (char : Char)

/-- A control character other than the tab has to be escaped. -/
def IsTomlControl (char : Char) : Prop :=
  char.toNat < 0x20 ∧ char ≠ '\t' ∨ char.toNat = 0x7f

instance (char : Char) : Decidable (IsTomlControl char) :=
  inferInstanceAs (Decidable (_ ∧ _ ∨ _))

namespace TomlChar

def text : TomlChar → Str
  | raw char => [char]
  | escape char => ['\\', char]

/-- The character which is meant. -/
def meaning : TomlChar → Option Char
  | raw char => if IsTomlControl char then none else some char
  | escape 'b' => some '\x08'
  | escape 't' => some '\t'
  | escape 'n' => some '\n'
  | escape 'f' => some '\x0c'
  | escape 'r' => some '\r'
  | escape '"' => some '"'
  | escape '\\' => some '\\'
  | escape _ => none

/-- The text is one character inside a basic string. -/
def WellFormed : TomlChar → Prop
  | raw char => char ≠ '"' ∧ char ≠ '\\'
  | escape char => char ∈ ['b', 't', 'n', 'f', 'r', '"', '\\']

end TomlChar

/-- A value which is no array; the values of other types are not looked into. -/
inductive TomlScalar where
  | string (chars : List TomlChar)
  | integer (value : Int)
  | boolean (value : Bool)
  | other (text : Str)

inductive TomlLiteral where
  | scalar (value : TomlScalar)
  | array (items : List TomlScalar)

variable {Float : Type}

namespace TomlScalar

def text : TomlScalar → Str
  | string chars => '"' :: chars.flatMap TomlChar.text ++ ['"']
  | integer value => decimal value
  | boolean true => ['t', 'r', 'u', 'e']
  | boolean false => ['f', 'a', 'l', 's', 'e']
  | other text => text

def value : TomlScalar → Option (TomlValue Float)
  | string chars => (chars.mapM TomlChar.meaning).map .string
  | integer value =>
      if -2 ^ 63 ≤ value ∧ value < 2 ^ 63 then some (.integer value) else none
  | boolean value => some (.boolean value)
  | other _ => none

def WellFormed : TomlScalar → Prop
  | string chars => ∀ char ∈ chars, char.WellFormed
  | other _ => False
  | _ => True

end TomlScalar

namespace TomlLiteral

def text : TomlLiteral → Str
  | .scalar item => item.text
  | array items => '[' :: [',', ' '].intercalate (items.map TomlScalar.text) ++ [']']

def value : TomlLiteral → Option (TomlValue Float)
  | .scalar item => item.value
  | array items => (items.mapM TomlScalar.value).map .array

def WellFormed : TomlLiteral → Prop
  | .scalar item => item.WellFormed
  | array items => ∀ item ∈ items, item.WellFormed

end TomlLiteral

/-! ## Documents -/

/-- `A-Za-z0-9_-`. -/
def IsBareChar (char : Char) : Prop := char.isAlphanum = true ∨ char = '_' ∨ char = '-'

instance (char : Char) : Decidable (IsBareChar char) := inferInstanceAs (Decidable (_ ∨ _))

def IsBareKey (key : Str) : Prop := key ≠ [] ∧ ∀ char ∈ key, IsBareChar char

instance (key : Str) : Decidable (IsBareKey key) :=
  @instDecidableAnd _ _ inferInstance (List.decidableBAll IsBareChar key)

/-- A comment, the pairs of the root table, and the sections with their pairs. -/
structure TomlDocument where
  comment : Str
  root : List (Str × TomlLiteral)
  sections : List (Str × List (List Str × TomlLiteral))

namespace TomlDocument

def pairText (key : Str) (literal : TomlLiteral) : Str :=
  key ++ " = ".toList ++ literal.text ++ ['\n']

def sectionText (part : Str × List (List Str × TomlLiteral)) : Str :=
  '\n' :: '[' :: part.1 ++ [']', '\n'] ++
    part.2.flatMap fun pair => pairText (['.'].intercalate pair.1) pair.2

def text (document : TomlDocument) : Str :=
  '#' :: document.comment ++ ['\n', '\n'] ++
    document.root.flatMap (fun pair => pairText pair.1 pair.2) ++
    document.sections.flatMap sectionText

/-- The values which are defined, with their paths from the root table. -/
def pairs (document : TomlDocument) : List (List Str × TomlLiteral) :=
  document.root.map (fun pair => ([pair.1], pair.2)) ++
    document.sections.flatMap fun part => part.2.map fun pair => (part.1 :: pair.1, pair.2)

def definition (pair : List Str × TomlLiteral) : Option (List Str × TomlValue Float) :=
  pair.2.value.map (pair.1, ·)

/-- The table which is defined.  A section cannot be opened twice, and what is defined already, or
below a value, cannot be defined. -/
def table (document : TomlDocument) : Option (PathTree.Table Str (TomlValue Float)) :=
  if (document.sections.map Prod.fst).Nodup then do
    let values ← document.pairs.mapM definition
    PathTree.insertAll [] values
  else none

/-- The text is that of the parts: keys are bare, sections are not empty, and the characters of the
comment and of strings stand for themselves. -/
structure WellFormed (document : TomlDocument) : Prop where
  comment : ∀ char ∈ document.comment, ¬ IsTomlControl char
  keys : ∀ pair ∈ document.pairs, ∀ key ∈ pair.1, IsBareKey key
  paths : ∀ part ∈ document.sections, ∀ pair ∈ part.2, pair.1 ≠ []
  sections : ∀ part ∈ document.sections, part.2 ≠ []
  literals : ∀ pair ∈ document.pairs, pair.2.WellFormed

end TomlDocument

/-! ## Reading documents -/

/-- The values in the tables, with their paths. -/
def tomlLeaves : List (Str × TomlValue Float) → List (List Str × TomlValue Float)
  | [] => []
  | (key, .table inner) :: entries =>
      (tomlLeaves inner).map (fun leaf => (key :: leaf.1, leaf.2)) ++ tomlLeaves entries
  | (key, value) :: entries => ([key], value) :: tomlLeaves entries

/-- The document is read as TOML 1.0 says: it is rejected, or its values are read, in any order. -/
structure ReadsToml (toml : Str → Option (TomlValue Float)) (document : TomlDocument) : Prop where
  rejects : document.WellFormed → (document.table : Option (PathTree.Table Str (TomlValue Float))) =
    none → toml document.text = none
  accepts : document.WellFormed → ∀ table, document.table = some table →
    ∃ entries, toml document.text = some (.table entries) ∧
      (tomlLeaves entries).Perm (PathTree.leaves table)

section Mapping

variable {α β : Type*}

theorem mapM_eq_some_map {function : α → Option β} {value : α → β} {items : List α}
    (each : ∀ item ∈ items, function item = some (value item)) :
    items.mapM function = some (items.map value) := by
  induction items with
  | nil => rfl
  | cons item items induction =>
      obtain ⟨here, later⟩ := List.forall_mem_cons.mp each
      rw [List.mapM_cons, here, induction later]
      rfl

theorem mapM_eq_none {function : α → Option β} {items : List α} {item : α}
    (member : item ∈ items) (missing : function item = none) : items.mapM function = none := by
  induction items with
  | nil => cases member
  | cons first items induction =>
      rw [List.mapM_cons]
      obtain rfl | later := List.mem_cons.mp member
      · rw [missing]
        rfl
      · rw [induction later]
        cases function first <;> rfl

end Mapping

end Config

end Typio
