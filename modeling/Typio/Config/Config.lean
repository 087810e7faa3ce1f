import Typio.StrSlice

/-!
# Loading a configuration

A configuration text is read as TOML, whose tables are flattened to dotted keys.  A text which is
not TOML is read line by line as an INI file, with its own rules for values.
-/

namespace Typio

namespace Config

open StrSlice

/-- A C string: valid UTF-8, or bytes which are not. -/
inductive CString where
  | utf8 (text : Str)
  | other (bytes : List UInt8)
  deriving DecidableEq, Repr

/-- `CString::new(text).unwrap_or_default()`: a text with a NUL character becomes the empty one. -/
def CString.new (text : Str) : CString := .utf8 (if '\x00' ∈ text then [] else text)

/-- `ConfigValue`; the floats are those of the language, which are not looked into. -/
inductive ConfigValue (Float : Type) where
  | string (value : CString)
  | int (value : Int32)
  | bool (value : Bool)
  | float (value : Float)
  | array (items : List (ConfigValue Float))
  | object (entries : List (Str × ConfigValue Float))

/-- `toml::Value`. -/
inductive TomlValue (Float : Type) where
  | string (value : Str)
  | integer (value : Int)
  | float (value : Float)
  | boolean (value : Bool)
  | array (items : List (TomlValue Float))
  | table (entries : List (Str × TomlValue Float))
  | datetime

variable {Float : Type}

/-- The entries of a configuration, one for each key, in no particular order. -/
abbrev Entries (Float : Type) := List (Str × ConfigValue Float)

/-- `entries.insert(key, value)`. -/
def insert (entries : Entries Float) (key : Str) (value : ConfigValue Float) : Entries Float :=
  (key, value) :: entries.filter (·.1 ≠ key)

/-- `entries.get(key)`. -/
def get (entries : Entries Float) (key : Str) : Option (ConfigValue Float) :=
  (entries.find? (·.1 == key)).map (·.2)

/-! ## Getters -/

/-- `typio_config_get_string`; there is nothing for a null pointer. -/
def getString (config : Entries Float) (key : Str) (default : Option CString) : Option CString :=
  match get config key with
  | some (.string text) => some text
  | _ => default

/-- `typio_config_get_int`, where a float is converted by the cast of the language. -/
def getInt (truncate : Float → Int32) (config : Entries Float) (key : Str) (default : Int32) :
    Int32 :=
  match get config key with
  | some (.int value) => value
  | some (.float value) => truncate value
  | _ => default

/-- `typio_config_get_bool`. -/
def getBool (config : Entries Float) (key : Str) (default : Bool) : Bool :=
  match get config key with
  | some (.bool value) => value
  | _ => default

/-- `typio_config_get_array_string` for each index; other items are null pointers. -/
def getArrayStrings (config : Entries Float) (key : Str) : List (Option CString) :=
  match get config key with
  | some (.array items) => items.map fun
      | .string text => some text
      | _ => none
  | _ => []

/-! ## TOML -/

mutual

/-- `toml_to_config_value`. -/
def tomlToConfigValue : TomlValue Float → Option (ConfigValue Float)
  | .string value => if '\x00' ∈ value then none else some (.string (.utf8 value))
  | .integer value => some (.int (Int32.ofInt value))
  | .float value => some (.float value)
  | .boolean value => some (.bool value)
  | .array items => some (.array (tomlToConfigItems items))
  | .table entries => some (.object (tomlToConfigEntries [] entries))
  | .datetime => none

def tomlToConfigItems : List (TomlValue Float) → List (ConfigValue Float)
  | [] => []
  | item :: items => (tomlToConfigValue item).toList ++ tomlToConfigItems items

def tomlToConfigEntries (config : Entries Float) :
    List (Str × TomlValue Float) → Entries Float
  | [] => config
  | (key, value) :: entries =>
      match tomlToConfigValue value with
      | some converted => tomlToConfigEntries (insert config key converted) entries
      | none => tomlToConfigEntries config entries

end

/-- The key of an entry below a path. -/
def fullKey (path key : Str) : Str := if path = [] then key else path ++ '.' :: key

def insertConverted (config : Entries Float) (key : Str) (value : TomlValue Float) :
    Entries Float :=
  match tomlToConfigValue value with
  | some converted => insert config key converted
  | none => config

/-- `populate_from_toml` on the entries of a table. -/
def populateEntries (config : Entries Float) (path : Str) :
    List (Str × TomlValue Float) → Entries Float
  | [] => config
  | (key, .table inner) :: entries =>
      populateEntries (populateEntries config (fullKey path key) inner) path entries
  | (key, value) :: entries =>
      populateEntries (insertConverted config (fullKey path key) value) path entries

/-- `populate_from_toml`. -/
def populateFromToml (config : Entries Float) (path : Str) :
    TomlValue Float → Entries Float
  | .table entries => populateEntries config path entries
  | value => insertConverted config (if path = [] then "value".toList else path) value

def fromToml (value : TomlValue Float) : Entries Float := populateFromToml [] [] value

/-! ## INI -/

def isBracketed (text : Str) : Bool := startsWith text '[' && endsWith text ']'

def isQuotedBy (quote : Char) (text : Str) : Bool := startsWith text quote && endsWith text quote

/-- `&trimmed[1..trimmed.len() - 1]`. -/
def stripEnds (trimmed : Str) : Except Panic Str := slice trimmed 1 (byteLength trimmed - 1)

section Ini

variable (parseF64 : Str → Option Float)

/-- The end of `parse_ini_value`: a number, or a string. -/
def parseIniScalar (trimmed : Str) : ConfigValue Float :=
  match parseI32 trimmed with
  | some value => .int (Int32.ofInt value)
  | none =>
      match parseF64 trimmed with
      | some value => .float value
      | none => .string (.new trimmed)

/-- `parse_ini_value`. -/
def parseIniValue (value : Str) : Except Panic (ConfigValue Float) :=
  let trimmed := trim value
  if isBracketed trimmed then
    match _stripped : stripEnds trimmed with
    | .error panic => .error panic
    | .ok inner => do
        let items ← (inner.splitOn ',').attach.mapM fun item => parseIniValue (trim item.val)
        return .array items
  else if trimmed.map Char.toLower = "true".toList then .ok (.bool true)
  else if trimmed.map Char.toLower = "false".toList then .ok (.bool false)
  else if isQuotedBy '"' trimmed || isQuotedBy '\'' trimmed then do
    let text ← stripEnds trimmed
    return .string (.new text)
  else .ok (parseIniScalar parseF64 trimmed)
termination_by value.length
decreasing_by
  have shorter := length_lt_of_slice _stripped
  have piece := length_le_of_mem_splitOn item.property
  have trimmed_item := length_trim_le item.val
  have trimmed_value : trimmed.length ≤ value.length := length_trim_le value
  omega

/-- A line of an INI file: the section which is open, and the entries read so far. -/
def parseIniLine (state : Str × Entries Float) (line : Str) :
    Except Panic (Str × Entries Float) :=
  let trimmed := trim line
  if trimmed = [] || startsWith trimmed '#' || startsWith trimmed ';' then .ok state
  else if isBracketed trimmed then do
    let name ← stripEnds trimmed
    return (trim name, state.2)
  else
    match find '=' trimmed with
    | none => .ok state
    | some eqPos => do
        let key ← slice trimmed 0 eqPos
        let value ← slice trimmed (eqPos + 1) (byteLength trimmed)
        let parsed ← parseIniValue parseF64 (trim value)
        return (state.1, insert state.2 (fullKey state.1 (trim key)) parsed)

/-- `parse_ini_like`. -/
def parseIniLike (content : Str) : Except Panic (Entries Float) :=
  (·.2) <$> (lines content).foldlM (parseIniLine parseF64) ([], [])

end Ini

/-- `typio_config_load_string`: a configuration, or nothing for a null pointer. -/
def loadString (toml : Str → Option (TomlValue Float)) (parseF64 : Str → Option Float) :
    Option Str → Except Panic (Option (Entries Float))
  | none => .ok none
  | some content =>
      match toml content with
      | some parsed => .ok (some (fromToml parsed))
      | none => some <$> parseIniLike parseF64 content

/-- `typio_config_load_file`, for the content of the file if it can be read. -/
def loadFile (toml : Str → Option (TomlValue Float)) (parseF64 : Str → Option Float)
    (file : Option Str) : Except Panic (Option (Entries Float)) :=
  match file with
  | some content => if '\x00' ∈ content then .ok none else loadString toml parseF64 (some content)
  | none => .ok none

end Config

end Typio
