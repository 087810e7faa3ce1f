import Typio.Config.TomlDocument

/-!
# The entries of a configuration

A configuration which is made by the setters has one entry for each key, whose value is a string, an
integer, a boolean, or an array of strings.
-/

namespace Typio

namespace Config

open StrSlice

variable {Float : Type}

/-! ## Looking up keys -/

abbrev keysOf (entries : Entries Float) : List Str := entries.map Prod.fst

@[simp] theorem get_nil (key : Str) : get ([] : Entries Float) key = none := rfl

theorem get_cons (key other : Str) (value : ConfigValue Float) (entries : Entries Float) :
    get ((other, value) :: entries) key = if other = key then some value else get entries key := by
  by_cases same : other = key
  · rw [if_pos same, get, List.find?_cons_of_pos (by simpa using same)]
    rfl
  · rw [if_neg same, get, List.find?_cons_of_neg (by simpa using same)]
    rfl

theorem get_eq_some_iff {entries : Entries Float} (distinct : (keysOf entries).Nodup) {key : Str}
    {value : ConfigValue Float} : get entries key = some value ↔ (key, value) ∈ entries := by
  induction entries with
  | nil => simp
  | cons entry entries induction =>
      obtain ⟨other, there⟩ := entry
      obtain ⟨absent, rest⟩ := List.nodup_cons.mp distinct
      rw [get_cons, List.mem_cons, Prod.mk.injEq]
      split
      next same =>
        subst same
        have missing : (other, value) ∉ entries := fun member =>
          absent (List.mem_map.mpr ⟨_, member, rfl⟩)
        simp [missing, eq_comm]
      next differs => simp [Ne.symm differs, induction rest]

/-- Configurations with the same entries have the same values. -/
theorem get_of_perm {entries others : Entries Float} (same : entries.Perm others)
    (distinct : (keysOf entries).Nodup) (key : Str) : get entries key = get others key := by
  refine Option.ext fun value => ?_
  rw [get_eq_some_iff distinct, get_eq_some_iff ((same.map _).nodup_iff.mp distinct), same.mem_iff]

theorem get_map (function : ConfigValue Float → ConfigValue Float) (entries : Entries Float)
    (key : Str) : get (entries.map fun entry => (entry.1, function entry.2)) key =
      (get entries key).map function := by
  rw [get, get, List.find?_map, Option.map_map, Option.map_map]
  rfl

theorem mem_insert {entries : Entries Float} {key : Str} {value : ConfigValue Float}
    {entry : Str × ConfigValue Float} :
    entry ∈ insert entries key value ↔ entry = (key, value) ∨ entry ∈ entries ∧ entry.1 ≠ key := by
  simp [insert]

theorem get_insert (entries : Entries Float) (key other : Str) (value : ConfigValue Float) :
    get (insert entries key value) other =
      if key = other then some value else get entries other := by
  rw [insert, get_cons]
  split
  next same => rfl
  next differs =>
    rw [get, get, List.find?_filter]
    congr 2
    funext entry
    by_cases there : entry.1 = other
    · simp [there, Ne.symm differs]
    · simp [there]

theorem insert_distinct {entries : Entries Float} (distinct : (keysOf entries).Nodup) (key : Str)
    (value : ConfigValue Float) : (keysOf (insert entries key value)).Nodup := by
  rw [keysOf, insert, List.map_cons, List.nodup_cons]
  refine ⟨by simp, distinct.sublist (List.filter_sublist.map _)⟩

/-- The entries which are inserted one after the other. -/
theorem get_insertAll (pairs : Entries Float) (distinct : (keysOf pairs).Nodup)
    (entries : Entries Float) (key : Str) :
    get (pairs.foldl (fun entries pair => insert entries pair.1 pair.2) entries) key =
      (get pairs key).or (get entries key) := by
  induction pairs generalizing entries with
  | nil => rfl
  | cons pair pairs induction =>
      obtain ⟨other, value⟩ := pair
      obtain ⟨absent, rest⟩ := List.nodup_cons.mp distinct
      rw [List.foldl_cons, induction rest, get_insert, get_cons]
      split
      next same =>
        subst same
        have missing : get pairs other = none := by
          rw [Option.eq_none_iff_forall_ne_some]
          intro there found
          exact absent (List.mem_map.mpr ⟨_, (get_eq_some_iff rest).mp found, rfl⟩)
        rw [missing]
        rfl
      next differs => rfl

/-! ## What the setters set -/

/-- A key whose segments are bare. -/
def IsDottedKey (key : Str) : Prop := ∀ segment ∈ key.splitOn '.', IsBareKey segment

instance (key : Str) : Decidable (IsDottedKey key) :=
  inferInstanceAs (Decidable (∀ segment ∈ key.splitOn '.', IsBareKey segment))

/-- A C string ends at its first NUL. -/
def CString.Terminated : CString → Prop
  | .utf8 text => '\x00' ∉ text
  | .other bytes => 0 ∉ bytes

def SetCall.strings : SetCall → List CString
  | .setString _ value => [ownedString value]
  | .setStringArray _ values => values.map ownedString
  | _ => []

structure SetCall.WellFormed (call : SetCall) : Prop where
  key : IsDottedKey call.key
  strings : ∀ text ∈ call.strings, text.Terminated

/-- A value which a setter sets. -/
inductive IsPlain : ConfigValue Float → Prop
  | string {text : CString} : text.Terminated → IsPlain (.string text)
  | int (value : Int32) : IsPlain (.int value)
  | bool (value : Bool) : IsPlain (.bool value)
  | strings {texts : List CString} :
      (∀ text ∈ texts, text.Terminated) → IsPlain (.array (texts.map .string))

/-- One entry for each key, with a dotted key and a value which a setter sets. -/
structure Plain (entries : Entries Float) : Prop where
  distinct : (keysOf entries).Nodup
  keys : ∀ entry ∈ entries, IsDottedKey entry.1
  values : ∀ entry ∈ entries, IsPlain entry.2

theorem SetCall.WellFormed.plain {call : SetCall} (wellFormed : call.WellFormed) :
    IsPlain (call.value : ConfigValue Float) := by
  obtain ⟨-, terminated⟩ := wellFormed
  cases call with
  | setString key value => exact .string (terminated _ (List.mem_singleton_self _))
  | setInt key value => exact .int value
  | setBool key value => exact .bool value
  | setStringArray key values =>
      have items : (SetCall.setStringArray key values).value =
          .array ((values.map ownedString).map (.string : CString → ConfigValue Float)) := by
        rw [SetCall.value, List.map_map]
        rfl
      rw [items]
      exact .strings terminated

theorem Plain.apply {entries : Entries Float} (plain : Plain entries) {call : SetCall}
    (wellFormed : call.WellFormed) : Plain (call.apply entries) := by
  refine ⟨insert_distinct plain.distinct _ _, ?_, ?_⟩
  · intro entry member
    obtain rfl | ⟨there, -⟩ := mem_insert.mp member
    · exact wellFormed.key
    · exact plain.keys entry there
  · intro entry member
    obtain rfl | ⟨there, -⟩ := mem_insert.mp member
    · exact wellFormed.plain
    · exact plain.values entry there

theorem plain_foldl {entries : Entries Float} (plain : Plain entries) {calls : List SetCall}
    (wellFormed : ∀ call ∈ calls, call.WellFormed) :
    Plain (calls.foldl SetCall.apply entries) := by
  induction calls generalizing entries with
  | nil => exact plain
  | cons call calls induction =>
      obtain ⟨here, later⟩ := List.forall_mem_cons.mp wellFormed
      exact induction (plain.apply here) later

/-- Every configuration which the setters make from an empty one is plain. -/
theorem plain_run {calls : List SetCall} (wellFormed : ∀ call ∈ calls, call.WellFormed) :
    Plain (SetCall.run calls : Entries Float) := by
  refine plain_foldl ⟨?_, List.forall_mem_nil _, List.forall_mem_nil _⟩ wellFormed
  exact List.nodup_nil

theorem Plain.of_perm {entries others : Entries Float} (plain : Plain entries)
    (same : entries.Perm others) : Plain others where
  distinct := (same.map _).nodup_iff.mp plain.distinct
  keys entry member := plain.keys entry (same.mem_iff.mpr member)
  values entry member := plain.values entry (same.mem_iff.mpr member)

/-! ## The strings of a value -/

/-- The text which is written for a string. -/
def CString.written : CString → Str
  | .utf8 text => text
  | .other _ => []

theorem CString.Terminated.written {text : CString} (terminated : text.Terminated) :
    '\x00' ∉ text.written := by
  cases text with
  | utf8 text => exact terminated
  | other bytes => exact List.not_mem_nil

/-- The strings of a value. -/
def stringsOf : ConfigValue Float → List CString
  | .string text => [text]
  | .array items => items.filterMap fun
      | .string text => some text
      | _ => none
  | _ => []

@[simp] theorem stringsOf_array (texts : List CString) :
    stringsOf (.array (texts.map .string) : ConfigValue Float) = texts := by
  simp [stringsOf, List.filterMap_map]

def CString.IsUtf8 : CString → Prop
  | .utf8 _ => True
  | .other _ => False

instance (text : CString) : Decidable text.IsUtf8 :=
  match text with
  | .utf8 _ => inferInstanceAs (Decidable True)
  | .other _ => inferInstanceAs (Decidable False)

theorem utf8_written_iff {text : CString} : CString.utf8 text.written = text ↔ text.IsUtf8 := by
  cases text with
  | utf8 text => exact iff_of_true rfl trivial
  | other bytes => exact iff_of_false nofun not_false

end Config

end Typio
