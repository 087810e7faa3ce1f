import Mathlib.Data.List.GetD
import Mathlib.Data.List.Nodup
import Typio.Config.SavedFile
import Typio.Daemon.Identity
import Typio.Daemon.NiriIdentity

/-!
# The state file of applications

The memory of applications is a configuration file which is read, changed and written again with
every store.  An application has the key of its name in hexadecimal digits for its engine, and
dotted keys below that key.  A key with a value of its own has no keys below it in TOML, so that the
file is read as an INI file once an engine is stored.
-/

namespace Typio

namespace Daemon

open StrSlice Config

/-! ## Keys -/

def hexDigits : Str :=
  ['0', '1', '2', '3', '4', '5', '6', '7', '8', '9', 'a', 'b', 'c', 'd', 'e', 'f']

def hexDigit (value : UInt8) : Char := hexDigits.getD value.toNat '0'

/-- `identity_hex_encode`. -/
def hexEncode (text : List UInt8) : Str :=
  text.flatMap fun (ch : UInt8) => [hexDigit ((ch >>> 4) &&& 0x0f), hexDigit (ch &&& 0x0f)]

/-- The section of the keys. -/
def identities : Str := ['i', 'd', 'e', 'n', 't', 'i', 't', 'i', 'e', 's']

/-- `identity_config_key`. -/
def identityConfigKey (stableKey : List UInt8) : Option Str :=
  if stableKey = [] then none else some (identities ++ '.' :: hexEncode stableKey)

/-- `identity_config_subkey`. -/
def identityConfigSubkey (stableKey : List UInt8) (suffix : Str) : Option Str :=
  if suffix = [] then none else (identityConfigKey stableKey).map (· ++ suffix)

/-- The four keys of an application, by what follows its name. -/
inductive Field where
  | legacy
  | engine
  | modeEngine
  | modeId
  deriving DecidableEq

def Field.suffix : Field → Str
  | .legacy => []
  | .engine => ['.', 'e', 'n', 'g', 'i', 'n', 'e']
  | .modeEngine => ['.', 'm', 'o', 'd', 'e', '_', 'e', 'n', 'g', 'i', 'n', 'e']
  | .modeId => ['.', 'm', 'o', 'd', 'e', '_', 'i', 'd']

/-! ## Loading and storing -/

section File

variable {Float : Type}

/-- A string which is there and not empty. -/
def nonEmpty (text : Option CString) : Option CString := text.filter (· ≠ .utf8 [])

variable (toml : Str → Option (TomlValue Float)) (parseF64 : Str → Option Float)

/-- `identity_memory_load_engine`. -/
def memoryLoadEngine (file : Option Str) (stableKey : List UInt8) :
    Except Panic (Option CString) :=
  match identityConfigSubkey stableKey Field.engine.suffix, identityConfigKey stableKey with
  | some key, some legacyKey => do
      let config ← loadFile toml parseF64 file
      return config.bind fun config =>
        (nonEmpty (getString config key none)).or (nonEmpty (getString config legacyKey none))
  | _, _ => .ok none

/-- `identity_memory_store_engine`: the configuration which is saved, if one is. -/
def memoryStoreEngine (file : Option Str) (stableKey : List UInt8) (engineName : CString) :
    Except Panic (Option (Entries Float)) :=
  if engineName = .utf8 [] then .ok none
  else
    match identityConfigSubkey stableKey Field.engine.suffix, identityConfigKey stableKey,
      identityConfigSubkey stableKey Field.modeEngine.suffix,
      identityConfigSubkey stableKey Field.modeId.suffix with
    | some key, some legacyKey, some modeEngineKey, some modeIdKey => do
        let loaded ← loadFile toml parseF64 file
        let config := loaded.getD []
        let storedModeEngine := getString config modeEngineKey none
        let changed := insert (insert config key (.string engineName)) legacyKey
          (.string engineName)
        return some (if (nonEmpty storedModeEngine).any (· ≠ engineName) then
          remove (remove changed modeEngineKey) modeIdKey
        else changed)
    | _, _, _, _ => .ok none

/-- `identity_memory_load_mode`. -/
def memoryLoadMode (file : Option Str) (stableKey : List UInt8) :
    Except Panic (Option (CString × CString)) :=
  match identityConfigSubkey stableKey Field.modeEngine.suffix,
    identityConfigSubkey stableKey Field.modeId.suffix with
  | some engineKey, some modeKey => do
      let config ← loadFile toml parseF64 file
      return config.bind fun config =>
        match nonEmpty (getString config engineKey none), nonEmpty (getString config modeKey none) with
        | some engineName, some modeId => some (engineName, modeId)
        | _, _ => none
  | _, _ => .ok none

/-- `identity_memory_store_mode`: the configuration which is saved, if one is. -/
def memoryStoreMode (file : Option Str) (stableKey : List UInt8) (engineName modeId : CString) :
    Except Panic (Option (Entries Float)) :=
  if engineName = .utf8 [] ∨ modeId = .utf8 [] then .ok none
  else
    match identityConfigSubkey stableKey Field.modeEngine.suffix,
      identityConfigSubkey stableKey Field.modeId.suffix with
    | some engineKey, some modeKey => do
        let loaded ← loadFile toml parseF64 file
        return some (insert (insert (loaded.getD []) engineKey (.string engineName)) modeKey
          (.string modeId))
    | _, _ => .ok none

end File

/-! ## The keys of an application -/

/-- The key under which a window of niri is known. -/
def stableKeyOf (appId : List UInt8) : List UInt8 := (WlIdentity.ofAppId appId).stableKey

def fieldKey (appId : List UInt8) (field : Field) : Str :=
  identities ++ '.' :: (hexEncode (stableKeyOf appId) ++ field.suffix)

theorem stableKeyOf_ne_nil (appId : List UInt8) : stableKeyOf appId ≠ [] := nofun

theorem stableKeyOf_inj {appId other : List UInt8} (same : stableKeyOf appId = stableKeyOf other) :
    appId = other := List.append_cancel_left same

theorem identityConfigKey_eq (appId : List UInt8) :
    identityConfigKey (stableKeyOf appId) = some (fieldKey appId .legacy) := by
  rw [identityConfigKey, if_neg (stableKeyOf_ne_nil appId), fieldKey, Field.suffix,
    List.append_nil]

theorem identityConfigSubkey_eq (appId : List UInt8) {field : Field} (below : field ≠ .legacy) :
    identityConfigSubkey (stableKeyOf appId) field.suffix = some (fieldKey appId field) := by
  have some_suffix : field.suffix ≠ [] := by
    cases field with
    | legacy => exact absurd rfl below
    | engine | modeEngine | modeId => exact List.cons_ne_nil _ _
  rw [identityConfigSubkey, if_neg some_suffix, identityConfigKey_eq, Option.map_some, fieldKey,
    fieldKey, Field.suffix, List.append_nil, List.append_assoc, List.cons_append]

theorem hexDigit_bare (value : UInt8) : IsBareChar (hexDigit value) := by
  have every : ∀ digit : Fin 16, IsBareChar (hexDigits.getD digit '0') := by decide
  by_cases small : value.toNat < 16
  · exact every ⟨value.toNat, small⟩
  · rw [hexDigit, List.getD_eq_default _ _ (Nat.le_of_not_lt small)]
    decide

theorem hexDigit_inj (first second : Fin 16)
    (same : hexDigits.getD first '0' = hexDigits.getD second '0') : first = second := by
  have distinct : hexDigits.Nodup := by decide
  have length : hexDigits.length = 16 := rfl
  rw [List.getD_eq_getElem _ _ (by rw [length]; exact first.isLt),
    List.getD_eq_getElem _ _ (by rw [length]; exact second.isLt)] at same
  exact Fin.ext ((List.Nodup.getElem_inj_iff distinct).mp same)

theorem nibbles (ch : UInt8) :
    ((ch >>> 4) &&& 0x0f).toNat = ch.toNat / 16 ∧ (ch &&& 0x0f).toNat = ch.toNat % 16 := by
  have low (number : Nat) : number &&& 15 = number % 16 := Nat.and_two_pow_sub_one_eq_mod number 4
  have small := ch.toNat_lt
  constructor
  · rw [UInt8.toNat_and, UInt8.toNat_shiftRight]
    change ch.toNat >>> 4 &&& 15 = ch.toNat / 16
    rw [low, Nat.shiftRight_eq_div_pow]
    omega
  · rw [UInt8.toNat_and]
    exact low ch.toNat

theorem hexPair_inj {first second : UInt8}
    (highs : hexDigit ((first >>> 4) &&& 0x0f) = hexDigit ((second >>> 4) &&& 0x0f))
    (lows : hexDigit (first &&& 0x0f) = hexDigit (second &&& 0x0f)) : first = second := by
  rw [hexDigit, hexDigit, (nibbles first).1, (nibbles second).1] at highs
  rw [hexDigit, hexDigit, (nibbles first).2, (nibbles second).2] at lows
  have small := first.toNat_lt
  have small' := second.toNat_lt
  have high := hexDigit_inj ⟨first.toNat / 16, by omega⟩ ⟨second.toNat / 16, by omega⟩ highs
  have low := hexDigit_inj ⟨first.toNat % 16, by omega⟩ ⟨second.toNat % 16, by omega⟩ lows
  rw [Fin.mk.injEq] at high low
  apply UInt8.toNat_inj.mp
  omega

theorem hexEncode_inj {first second : List UInt8} (same : hexEncode first = hexEncode second) :
    first = second := by
  induction first generalizing second with
  | nil =>
      cases second with
      | nil => rfl
      | cons ch second => cases same
  | cons ch first ih =>
      cases second with
      | nil => cases same
      | cons ch' second =>
          obtain ⟨high, same⟩ := List.cons.inj same
          obtain ⟨low, same⟩ := List.cons.inj same
          rw [hexPair_inj high low, ih same]

theorem hexEncode_bare (text : List UInt8) : ∀ char ∈ hexEncode text, IsBareChar char := by
  intro char member
  obtain ⟨ch, -, inside⟩ := List.mem_flatMap.mp member
  obtain rfl | inside := List.mem_cons.mp inside
  · exact hexDigit_bare _
  · obtain rfl := List.mem_singleton.mp inside
    exact hexDigit_bare _

theorem dot_notin_hexEncode (text : List UInt8) : '.' ∉ hexEncode text :=
  fun member => absurd (hexEncode_bare text '.' member) (by decide)

/-- Different applications have different keys, and so have the fields of one. -/
theorem fieldKey_inj {appId other : List UInt8} {field field' : Field}
    (same : fieldKey appId field = fieldKey other field') : appId = other ∧ field = field' := by
  have tails : hexEncode (stableKeyOf appId) ++ field.suffix =
      hexEncode (stableKeyOf other) ++ field'.suffix :=
    List.tail_eq_of_cons_eq (List.append_cancel_left same)
  have before (appId : List UInt8) (field : Field) :
      (hexEncode (stableKeyOf appId) ++ field.suffix).takeWhile (· ≠ '.') =
        hexEncode (stableKeyOf appId) := by
    have nothing : field.suffix.takeWhile (· ≠ '.') = [] := by cases field <;> rfl
    rw [List.takeWhile_append_of_pos, nothing, List.append_nil]
    intro char member
    simpa using ne_of_mem_of_not_mem member (dot_notin_hexEncode _)
  have names := congrArg (List.takeWhile (· ≠ '.')) tails
  rw [before, before] at names
  rw [names] at tails
  have suffixes : field.suffix = field'.suffix := List.append_cancel_left tails
  refine ⟨stableKeyOf_inj (hexEncode_inj names), ?_⟩
  revert suffixes
  cases field <;> cases field' <;> decide

theorem fieldKey_dotted (appId : List UInt8) (field : Field) : IsDottedKey (fieldKey appId field) := by
  have name : IsBareKey (hexEncode (stableKeyOf appId)) :=
    ⟨fun empty => stableKeyOf_ne_nil appId (@hexEncode_inj _ [] empty), hexEncode_bare _⟩
  have top : IsBareKey identities := by decide
  have undotted := dot_notin_hexEncode (stableKeyOf appId)
  rw [IsDottedKey, fieldKey, List.splitOn_append_cons_self_of_not_mem (by decide)]
  rw [List.forall_mem_cons]
  refine ⟨top, ?_⟩
  cases field with
  | legacy =>
      rw [Field.suffix, List.append_nil, List.splitOn_eq_singleton undotted]
      simpa using name
  | engine =>
      rw [Field.suffix, List.splitOn_append_cons_self_of_not_mem undotted, List.forall_mem_cons]
      exact ⟨name, by decide⟩
  | modeEngine =>
      rw [Field.suffix, List.splitOn_append_cons_self_of_not_mem undotted, List.forall_mem_cons]
      exact ⟨name, by decide⟩
  | modeId =>
      rw [Field.suffix, List.splitOn_append_cons_self_of_not_mem undotted, List.forall_mem_cons]
      exact ⟨name, by decide⟩

/-! ## The memory in a configuration -/

section Memory

variable {Float : Type}

/-- A text as a C string. -/
def cString (text : String) : CString := .utf8 text.toList

theorem cString_inj {first second : String} : cString first = cString second ↔ first = second := by
  rw [cString, cString, CString.utf8.injEq, String.toList_inj]

theorem cString_eq_empty {text : String} : cString text = .utf8 [] ↔ text = "" := by
  rw [cString, CString.utf8.injEq, String.toList_eq_nil_iff]

/-- The text under a key, if it is UTF-8. -/
def textOf (config : Entries Float) (key : Str) : Option String :=
  match getString config key none with
  | some (.utf8 text) => some (String.ofList text)
  | _ => none

/-- What a configuration holds for an application. -/
def memoryOf (config : Entries Float) (appId : List UInt8) : IdentityMemory where
  engine := textOf config (fieldKey appId .engine)
  legacyEngine := textOf config (fieldKey appId .legacy)
  modeEngine := textOf config (fieldKey appId .modeEngine)
  modeId := textOf config (fieldKey appId .modeId)

theorem getString_insert (config : Entries Float) (key other : Str) (text : CString) :
    getString (insert config key (.string text)) other none =
      if key = other then some text else getString config other none := by
  rw [getString, get_insert]
  by_cases same : key = other
  · rw [if_pos same, if_pos same]
  · rw [if_neg same, if_neg same, getString]

theorem getString_remove (config : Entries Float) (key other : Str) :
    getString (remove config key) other none = if key = other then none else getString config other none := by
  rw [getString, get_remove]
  by_cases same : key = other
  · rw [if_pos same, if_pos same]
  · rw [if_neg same, if_neg same, getString]

@[simp] theorem textOf_insert (config : Entries Float) (key other : Str) (text : String) :
    textOf (insert config key (.string (cString text))) other =
      if key = other then some text else textOf config other := by
  rw [textOf, getString_insert]
  by_cases same : key = other
  · rw [if_pos same, if_pos same]
    exact congrArg some String.ofList_toList
  · rw [if_neg same, if_neg same, textOf]

@[simp] theorem textOf_remove (config : Entries Float) (key other : Str) :
    textOf (remove config key) other = if key = other then none else textOf config other := by
  rw [textOf, getString_remove]
  by_cases same : key = other
  · rw [if_pos same, if_pos same]
  · rw [if_neg same, if_neg same, textOf]

theorem textOf_perm {config other : Entries Float} (same : config.Perm other)
    (distinct : (keysOf config).Nodup) (key : Str) : textOf config key = textOf other key := by
  rw [textOf, textOf, getString, getString, get_of_perm same distinct]

theorem memoryOf_perm {config other : Entries Float} (same : config.Perm other)
    (distinct : (keysOf config).Nodup) (appId : List UInt8) :
    memoryOf config appId = memoryOf other appId := by
  simp only [memoryOf, textOf_perm same distinct]

theorem getString_clean {config : Entries Float} (clean : AllClean config) (key : Str) :
    getString config key none = (textOf config key).map cString := by
  rw [textOf, getString]
  cases found : get config key with
  | none => rfl
  | some value =>
      obtain ⟨entry, here, rfl⟩ := Option.map_eq_some_iff.mp found
      obtain ⟨text, string, -⟩ := clean entry (List.mem_of_find?_eq_some here)
      rw [string]
      simp [cString]

theorem nonEmpty_cString (text : Option String) :
    nonEmpty (text.map cString) = (text.filter (· ≠ "")).map cString := by
  cases text with
  | none => rfl
  | some text =>
      by_cases empty : text = ""
      · subst empty
        rfl
      · have kept : cString text ≠ .utf8 [] := cString_eq_empty.not.mpr empty
        rw [Option.map_some, nonEmpty, Option.filter_some_pos (by simpa using kept),
          Option.filter_some_pos (by simpa using empty), Option.map_some]

/-- The configuration after an engine is stored. -/
def withEngine (config : Entries Float) (appId : List UInt8) (engineName : String) :
    Entries Float :=
  let changed := insert (insert config (fieldKey appId .engine) (.string (cString engineName)))
    (fieldKey appId .legacy) (.string (cString engineName))
  if (memoryOf config appId).modeEngine.any fun engine => engine ≠ "" ∧ engine ≠ engineName then
    remove (remove changed (fieldKey appId .modeEngine)) (fieldKey appId .modeId)
  else changed

/-- The configuration after a mode is stored. -/
def withMode (config : Entries Float) (appId : List UInt8) (engineName modeId : String) :
    Entries Float :=
  insert (insert config (fieldKey appId .modeEngine) (.string (cString engineName)))
    (fieldKey appId .modeId) (.string (cString modeId))

theorem fieldKey_eq_iff {appId other : List UInt8} {field field' : Field} :
    fieldKey appId field = fieldKey other field' ↔ appId = other ∧ field = field' :=
  ⟨fieldKey_inj, fun ⟨name, suffix⟩ => by rw [name, suffix]⟩

theorem memoryOf_withEngine (config : Entries Float) (appId other : List UInt8)
    {engineName : String} (named : engineName ≠ "") :
    memoryOf (withEngine config appId engineName) other =
      if appId = other then (memoryOf config other).storeEngine engineName
      else memoryOf config other := by
  by_cases same : appId = other
  · subst same
    rw [if_pos rfl, withEngine, IdentityMemory.storeEngine, if_neg named]
    split <;> simp_all [memoryOf, fieldKey_eq_iff]
  · rw [if_neg same, withEngine]
    split <;> simp [memoryOf, fieldKey_eq_iff, same]

theorem memoryOf_withMode (config : Entries Float) (appId other : List UInt8)
    {engineName modeId : String} (named : ¬ (engineName = "" ∨ modeId = "")) :
    memoryOf (withMode config appId engineName modeId) other =
      if appId = other then (memoryOf config other).storeMode engineName modeId
      else memoryOf config other := by
  by_cases same : appId = other
  · subst same
    rw [if_pos rfl, withMode, IdentityMemory.storeMode, if_neg named]
    simp [memoryOf, fieldKey_eq_iff]
  · rw [if_neg same, withMode]
    simp [memoryOf, fieldKey_eq_iff, same]

end Memory

end Daemon

end Typio
