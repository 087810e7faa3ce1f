import Typio.Config.IniValues
import Typio.Config.TomlReading

/-!
# The state file of the engine manager

The two engines that were used last are written into a configuration of their own whenever they
change, and read when the manager is made.  A name with a control character makes the file an INI
file, from which it comes back with its escapes.
-/

namespace Typio

namespace Core

open StrSlice Config

variable {Float : Type}

/-- The names of the primary and of the secondary engine. -/
abbrev RecentPair := Option String × Option String

def primaryKey : Str := "recent.primary".toList

def secondaryKey : Str := "recent.secondary".toList

/-- A name as it is set under its key, if there is one. -/
def saveName (key : Str) (name : Option String) : List SetCall :=
  name.toList.map fun name => .setString key (some (.utf8 name.toList))

/-- The configuration which `save_recent_state` writes. -/
def recentEntries (pair : RecentPair) : Entries Float :=
  SetCall.run (saveName primaryKey pair.1 ++ saveName secondaryKey pair.2)

/-- A name which is a string of UTF-8 and not empty. -/
def readName (state : Entries Float) (key : Str) : Option String :=
  match get state key with
  | some (.string (.utf8 text)) => if text = [] then none else some (String.ofList text)
  | _ => none

/-- `load_recent_state`, for the content of the file if it can be read. -/
def loadRecentState (toml : Str → Option (TomlValue Float)) (parseF64 : Str → Option Float)
    (file : Option Str) : Except Panic RecentPair := do
  match ← loadFile toml parseF64 file with
  | none => return (none, none)
  | some state => return (readName state primaryKey, readName state secondaryKey)

/-! ## Names that are saved -/

/-- A name which is saved: it is not empty, and a C string. -/
def IsSavedName (name : String) : Prop := name ≠ "" ∧ '\x00' ∉ name.toList

/-- The names of the pair are saved, and they are two. -/
structure RecentPair.Sound (pair : RecentPair) : Prop where
  distinct : ∀ name, pair.1 = some name → pair.2 ≠ some name
  primary : ∀ name ∈ pair.1, IsSavedName name
  secondary : ∀ name ∈ pair.2, IsSavedName name

theorem RecentPair.sound_empty : RecentPair.Sound (none, none) := ⟨nofun, nofun, nofun⟩

/-- The name with the escapes with which it is written. -/
def escapedName (name : String) : String := String.ofList (name.toList.flatMap escapeChar)

theorem escapeChar_injective {char other : Char} (escaped : IsEscaped char)
    (other_escaped : IsEscaped other) (same : escapeChar char = escapeChar other) :
    char = other := by
  let marks := ['\\', '"', '\n', '\r', '\t']
  have table : (marks.all fun char => marks.all fun other =>
      decide (escapeChar char = escapeChar other → char = other)) = true := by decide
  have row := List.all_eq_true.mp table char escaped
  exact of_decide_eq_true (List.all_eq_true.mp row other other_escaped) same

/-- The first character can be read off the escapes. -/
theorem escapeChar_append_inj {char other : Char} {text rest : Str}
    (same : escapeChar char ++ text = escapeChar other ++ rest) : char = other ∧ text = rest := by
  by_cases escaped : IsEscaped char <;> by_cases other_escaped : IsEscaped other
  · obtain ⟨mark, -, first⟩ := escapeChar_escaped escaped
    obtain ⟨sign, -, second⟩ := escapeChar_escaped other_escaped
    obtain ⟨escapes, texts⟩ := List.append_inj same (by rw [first, second]; rfl)
    exact ⟨escapeChar_injective escaped other_escaped escapes, texts⟩
  · obtain ⟨mark, -, first⟩ := escapeChar_escaped escaped
    rw [first, escapeChar_plain other_escaped] at same
    obtain rfl : '\\' = other := (List.cons.inj same).1
    exact absurd (by decide) other_escaped
  · obtain ⟨mark, -, second⟩ := escapeChar_escaped other_escaped
    rw [second, escapeChar_plain escaped] at same
    obtain rfl : char = '\\' := (List.cons.inj same).1
    exact absurd (by decide) escaped
  · rw [escapeChar_plain escaped, escapeChar_plain other_escaped] at same
    exact List.cons.inj same

theorem flatMap_escapeChar_injective {text other : Str}
    (same : text.flatMap escapeChar = other.flatMap escapeChar) : text = other := by
  induction text generalizing other with
  | nil =>
      have short := length_le_flatMap_escapeChar other
      rw [← same] at short
      exact (List.eq_nil_of_length_eq_zero (Nat.le_zero.mp short)).symm
  | cons char text induction =>
      cases other with
      | nil =>
          have short := length_le_flatMap_escapeChar (char :: text)
          rw [same] at short
          cases short
      | cons first other =>
          obtain ⟨rfl, rest⟩ := escapeChar_append_inj same
          rw [induction rest]

theorem escapedName_injective {name other : String} (same : escapedName name = escapedName other) :
    name = other :=
  String.toList_injective (flatMap_escapeChar_injective (String.ofList_injective same))

theorem IsSavedName.escaped {name : String} (saved : IsSavedName name) :
    IsSavedName (escapedName name) := by
  obtain ⟨some, terminated⟩ := saved
  have line := isLineText_quoted terminated
  constructor
  · intro empty
    have none : (name.toList.flatMap escapeChar) = [] := String.ofList_injective empty
    have short := length_le_flatMap_escapeChar name.toList
    rw [none] at short
    exact some (String.toList_eq_nil_iff.mp (List.eq_nil_of_length_eq_zero (Nat.le_zero.mp short)))
  · rw [escapedName, String.toList_ofList]
    intro member
    have inside : '\x00' ∈ writeEscapedString name.toList :=
      List.mem_append_left _ (List.mem_cons_of_mem _ member)
    exact (line.clean _ inside).2.2 rfl

theorem RecentPair.Sound.escaped {pair : RecentPair} (sound : pair.Sound) :
    RecentPair.Sound (pair.1.map escapedName, pair.2.map escapedName) where
  distinct name primary secondary := by
    obtain ⟨first, here, rfl⟩ := Option.map_eq_some_iff.mp primary
    obtain ⟨second, there, same⟩ := Option.map_eq_some_iff.mp secondary
    obtain rfl := escapedName_injective same
    exact sound.distinct second here there
  primary name member := by
    obtain ⟨first, here, rfl⟩ := Option.map_eq_some_iff.mp member
    exact (sound.primary first here).escaped
  secondary name member := by
    obtain ⟨second, there, rfl⟩ := Option.map_eq_some_iff.mp member
    exact (sound.secondary second there).escaped

/-! ## Reading a file back -/

section Saved

variable {toml : Str → Option (TomlValue Float)} {parseF64 : Str → Option Float}
  {floatText : Float → Str} {order : Entries Float} {pair : RecentPair}

theorem get_recentEntries (pair : RecentPair) (key : Str) :
    get (recentEntries pair : Entries Float) key =
      if key = primaryKey then pair.1.map fun name => .string (.utf8 name.toList)
      else if key = secondaryKey then pair.2.map fun name => .string (.utf8 name.toList)
      else none := by
  have apart : primaryKey ≠ secondaryKey := by decide
  obtain ⟨primary, secondary⟩ := pair
  cases primary <;> cases secondary <;>
    simp only [recentEntries, saveName, SetCall.run, Option.toList, List.map_nil, List.map_cons,
      List.nil_append, List.append_nil, List.cons_append, List.foldl_nil, List.foldl_cons,
      SetCall.apply, SetCall.key, SetCall.value, SetCall.ownedString, Option.getD_some, get_insert,
      get_nil, Option.map_none, Option.map_some, eq_comm (a := key)] <;>
    split_ifs <;> simp_all

theorem plain_recentEntries (sound : pair.Sound) : Plain (recentEntries pair : Entries Float) := by
  have calls {key : Str} {name : Option String} (dotted : IsDottedKey key)
      (saved : ∀ text ∈ name, IsSavedName text) : ∀ call ∈ saveName key name, call.WellFormed := by
    intro call member
    obtain ⟨text, there, rfl⟩ := List.mem_map.mp member
    refine ⟨dotted, ?_⟩
    rw [SetCall.strings, List.forall_mem_singleton]
    exact (saved text (Option.mem_toList.mp there)).2
  refine plain_run fun call member => ?_
  obtain first | second := List.mem_append.mp member
  · exact calls (by decide) sound.primary call first
  · exact calls (by decide) sound.secondary call second

/-- The entries are the names under their keys. -/
theorem mem_recentEntries (sound : pair.Sound) {entry : Str × ConfigValue Float}
    (member : entry ∈ (recentEntries pair : Entries Float)) :
    (entry.1 = primaryKey ∨ entry.1 = secondaryKey) ∧
      ∃ name, IsSavedName name ∧ entry.2 = .string (.utf8 name.toList) := by
  have found := (get_eq_some_iff (plain_recentEntries sound).distinct).mpr member
  rw [get_recentEntries] at found
  split at found
  next primary =>
    obtain ⟨name, there, value⟩ := Option.map_eq_some_iff.mp found
    exact ⟨.inl primary, name, sound.primary name there, value.symm⟩
  next =>
    split at found
    next secondary =>
      obtain ⟨name, there, value⟩ := Option.map_eq_some_iff.mp found
      exact ⟨.inr secondary, name, sound.secondary name there, value.symm⟩
    next => cases found

theorem keysApart_recentEntries (sound : pair.Sound) :
    KeysApart (recentEntries pair : Entries Float) := by
  intro entry member other there
  obtain ⟨first, -⟩ := mem_recentEntries sound member
  obtain ⟨second, -⟩ := mem_recentEntries sound there
  obtain first | first := first <;> obtain second | second := second <;>
    rw [first, second] <;> decide

/-- The names are read which the values of the two keys stand for. -/
theorem readName_of_get {state : Entries Float} {key : Str} {name : Option String}
    (saved : ∀ text ∈ name, text ≠ "")
    (found : get state key = name.map fun text => .string (.utf8 text.toList)) :
    readName state key = name := by
  rw [readName, found]
  cases name with
  | none => rfl
  | some text =>
      have some : text.toList ≠ [] := fun none => saved text rfl (String.toList_eq_nil_iff.mp none)
      simp [some]

theorem readNames (sound : pair.Sound) {state : Entries Float}
    (found : ∀ key, get state key = get (recentEntries pair) key) :
    (readName state primaryKey, readName state secondaryKey) = pair := by
  have primary := (found primaryKey).trans (get_recentEntries pair primaryKey)
  have secondary := (found secondaryKey).trans (get_recentEntries pair secondaryKey)
  rw [if_pos rfl] at primary
  rw [if_neg (by decide), if_pos rfl] at secondary
  rw [readName_of_get (fun name there => (sound.primary name there).1) primary,
    readName_of_get (fun name there => (sound.secondary name there).1) secondary]

theorem get_recentEntries_reread (pair : RecentPair) (key : Str) :
    (get (recentEntries pair : Entries Float) key).map reread = get (recentEntries pair) key := by
  rw [get_recentEntries]
  split_ifs
  · exact Option.map_map ..
  · exact Option.map_map ..
  · rfl

/-- What an INI file yields for a string. -/
def escapedValue : ConfigValue Float → ConfigValue Float
  | .string text => .string (.utf8 (text.written.flatMap escapeChar))
  | value => value

theorem get_recentEntries_escaped (pair : RecentPair) (key : Str) :
    (get (recentEntries pair : Entries Float) key).map escapedValue =
      get (recentEntries (pair.1.map escapedName, pair.2.map escapedName)) key := by
  rw [get_recentEntries, get_recentEntries]
  have value (name : Option String) :
      (name.map fun name => (.string (.utf8 name.toList) : ConfigValue Float)).map escapedValue =
        (name.map escapedName).map fun name => .string (.utf8 name.toList) := by
    rw [Option.map_map, Option.map_map]
    congr 1
    funext text
    exact congrArg (ConfigValue.string ∘ CString.utf8) (String.toList_ofList).symm
  split_ifs
  · exact value pair.1
  · exact value pair.2
  · rfl

/-- The file is loaded with the names of the pair, or with their escapes. -/
theorem loadRecentState_saved (sound : pair.Sound) (same : order.Perm (recentEntries pair))
    (reads : ReadsToml toml (document floatText order)) :
    loadRecentState toml parseF64 (some (configToStringInternal floatText order)) =
      .ok (if TomlSafe order then pair
        else (pair.1.map escapedName, pair.2.map escapedName)) := by
  have plain := (plain_recentEntries sound).of_perm same.symm
  have apart := (keysApart_recentEntries sound).of_perm same.symm
  rw [loadRecentState, loadFile, if_neg (terminated_configToString floatText plain), loadString]
  split_ifs with safe
  · obtain ⟨parsed, read, loaded⟩ := toml_accepts plain reads apart safe
    rw [read]
    have names := readNames sound fun key => by
      rw [loaded, get_of_perm same plain.distinct, get_recentEntries_reread]
    exact congrArg Except.ok names
  · rw [toml_rejects plain reads fun accepted => safe accepted.2,
      parseIniLike_configToString floatText parseF64 plain]
    have written := arrange_entries order
    have arranged := plain.of_perm written.symm
    obtain ⟨state, read, loaded⟩ := readEntries_distinct floatText parseF64 arranged.distinct
      escapedValue fun entry member => by
        obtain ⟨-, name, saved, value⟩ :=
          mem_recentEntries sound (same.mem_iff.mp (written.mem_iff.mp member))
        rw [value, writeValue_string]
        exact parseIniValue_escaped parseF64 saved.2
    rw [read]
    have names := readNames sound.escaped fun key => by
      rw [loaded, get_of_perm (written.trans same) arranged.distinct, get_recentEntries_escaped]
    exact congrArg Except.ok names

/-- Every file which the manager saves is loaded with a pair of two names. -/
theorem sound_of_saved (sound : pair.Sound) (same : order.Perm (recentEntries pair))
    (reads : ReadsToml toml (document floatText order)) :
    ∃ loaded : RecentPair, loaded.Sound ∧
      loadRecentState toml parseF64 (some (configToStringInternal floatText order)) =
        .ok loaded := by
  refine ⟨_, ?_, loadRecentState_saved sound same reads⟩
  split
  · exact sound
  · exact sound.escaped

end Saved

end Core

end Typio
