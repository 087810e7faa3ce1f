import Typio.Config.Entries
import Typio.Core.EngineManager
import Typio.Utf8Lossy
import Mathlib.Data.List.Nodup

/-!
# Sections of a configuration

A section is what a configuration has below a name and a dot.  Setting a section writes the entries
of another configuration below the name; merging writes them as they are.  The entries are taken in
whatever order the map yields them, which is without effect, as all their keys are different.
-/

namespace Typio

namespace Config

open StrSlice Utf8Lossy

variable {Float : Type}

/-! ## The operations -/

/-- A configuration as a map: one entry for each key. -/
structure ConfigMap (Float : Type) where
  entries : Entries Float
  distinct : (keysOf entries).Nodup

/-- The order in which a map yields its entries. -/
structure Iteration (Float : Type) where
  order : Entries Float → Entries Float
  perm (entries : Entries Float) : (order entries).Perm entries

/-- `to_string_lossy`. -/
def CString.toStringLossy : CString → Str
  | .utf8 text => text
  | .other bytes => decodeLossy bytes

namespace ConfigMap

def new : ConfigMap Float where
  entries := []
  distinct := List.nodup_nil

/-- `set_value`. -/
def setValue (config : ConfigMap Float) (key : Str) (value : ConfigValue Float) :
    ConfigMap Float where
  entries := insert config.entries key value
  distinct := insert_distinct config.distinct key value

/-- `entries.get(key)`. -/
def lookup (config : ConfigMap Float) (key : Str) : Option (ConfigValue Float) :=
  get config.entries key

/-- `{section}.`, which the keys of a section start with. -/
def sectionStem (sectionName : CString) : Str := sectionName.toStringLossy ++ ['.']

/-- An entry below the section goes into the part under the rest of its key. -/
def takeEntry (stem : Str) (part : ConfigMap Float) (entry : Str × ConfigValue Float) :
    Except Panic (ConfigMap Float) :=
  if stem <+: entry.1 then do
    let subkey ← slice entry.1 (byteLength stem) (byteLength entry.1)
    return part.setValue subkey entry.2
  else return part

variable (iteration : Iteration Float)

/-- `typio_config_get_section`. -/
def getSection : Option (ConfigMap Float) → Option CString →
    Except Panic (Option (ConfigMap Float))
  | some config, some sectionName =>
      some <$> (iteration.order config.entries).foldlM (takeEntry (sectionStem sectionName)) new
  | _, _ => .ok none

/-- `typio_config_set_section`. -/
def setSection : Option (ConfigMap Float) → Option CString → Option (ConfigMap Float) →
    Core.TypioResult × Option (ConfigMap Float)
  | some config, some sectionName, some sub =>
      (.ok, some ((iteration.order sub.entries).foldl
        (fun config entry => config.setValue (sectionStem sectionName ++ entry.1) entry.2) config))
  | config, _, _ => (.invalidArgument, config)

/-- `typio_config_merge`. -/
def merge : Option (ConfigMap Float) → Option (ConfigMap Float) →
    Core.TypioResult × Option (ConfigMap Float)
  | some dest, some source =>
      (.ok, some ((iteration.order source.entries).foldl
        (fun dest entry => dest.setValue entry.1 entry.2) dest))
  | dest, _ => (.invalidArgument, dest)

end ConfigMap

open ConfigMap

/-! ## Entries below a stem -/

section Stem

variable {stem : Str}

theorem get_eq_none_iff {entries : Entries Float} {key : Str} :
    get entries key = none ↔ key ∉ keysOf entries := by
  rw [get, Option.map_eq_none_iff, List.find?_eq_none]
  simp only [keysOf, List.mem_map, not_exists, not_and, beq_iff_eq]

theorem get_below (stem : Str) (entries : Entries Float) (key : Str) :
    get (entries.map fun entry => (stem ++ entry.1, entry.2)) (stem ++ key) = get entries key := by
  induction entries with
  | nil => rfl
  | cons entry entries induction =>
      rw [List.map_cons, get_cons, get_cons, induction]
      simp

theorem get_outside {key : Str} (outside : ¬ stem <+: key) (entries : Entries Float) :
    get (entries.map fun entry => (stem ++ entry.1, entry.2)) key = none := by
  induction entries with
  | nil => rfl
  | cons entry entries induction =>
      rw [List.map_cons, get_cons, induction, if_neg]
      rintro rfl
      exact outside (List.prefix_append stem entry.1)

theorem distinct_below (stem : Str) {entries : Entries Float}
    (distinct : (keysOf entries).Nodup) :
    (keysOf (entries.map fun entry => (stem ++ entry.1, entry.2))).Nodup := by
  have keys : keysOf (entries.map fun entry => (stem ++ entry.1, entry.2)) =
      (keysOf entries).map (stem ++ ·) := by
    simp [keysOf, Function.comp_def]
  rw [keys]
  exact List.Nodup.map (List.append_right_injective stem) distinct

theorem foldl_below (stem : Str) (entries : Entries Float) (config : ConfigMap Float) :
    entries.foldl (fun config entry => config.setValue (stem ++ entry.1) entry.2) config =
      (entries.map fun entry => (stem ++ entry.1, entry.2)).foldl
        (fun config pair => config.setValue pair.1 pair.2) config := by
  rw [List.foldl_map]

/-- The entry under the rest of its key, if it is below the stem. -/
def below (stem : Str) (entry : Str × ConfigValue Float) : Option (Str × ConfigValue Float) :=
  if stem <+: entry.1 then some (entry.1.drop stem.length, entry.2) else none

theorem below_append (rest : Str) (value : ConfigValue Float) :
    below stem (stem ++ rest, value) = some (rest, value) := by
  rw [below, if_pos (List.prefix_append stem rest), List.drop_left]

theorem below_of_not {entry : Str × ConfigValue Float} (outside : ¬ stem <+: entry.1) :
    below stem entry = none :=
  if_neg outside

theorem get_part (stem : Str) (entries : Entries Float) (key : Str) :
    get (entries.filterMap (below stem)) key = get entries (stem ++ key) := by
  induction entries with
  | nil => rfl
  | cons entry entries induction =>
      obtain ⟨there, value⟩ := entry
      by_cases inside : stem <+: there
      · obtain ⟨rest, rfl⟩ := inside
        rw [List.filterMap_cons_some (below_append rest value), get_cons, get_cons, induction]
        simp
      · rw [List.filterMap_cons_none (below_of_not inside), get_cons, induction, if_neg]
        rintro rfl
        exact inside (List.prefix_append stem key)

theorem distinct_part (stem : Str) {entries : Entries Float}
    (distinct : (keysOf entries).Nodup) : (keysOf (entries.filterMap (below stem))).Nodup := by
  induction entries with
  | nil => exact List.nodup_nil
  | cons entry entries induction =>
      obtain ⟨there, value⟩ := entry
      obtain ⟨absent, rest_distinct⟩ := List.nodup_cons.mp distinct
      by_cases inside : stem <+: there
      · obtain ⟨rest, rfl⟩ := inside
        rw [List.filterMap_cons_some (below_append rest value)]
        refine List.nodup_cons.mpr ⟨?_, induction rest_distinct⟩
        rw [← get_eq_none_iff] at absent ⊢
        rw [get_part, absent]
      · rw [List.filterMap_cons_none (below_of_not inside)]
        exact induction rest_distinct

theorem takeEntry_append (rest : Str) (value : ConfigValue Float) (part : ConfigMap Float) :
    takeEntry stem part (stem ++ rest, value) = .ok (part.setValue rest value) := by
  rw [takeEntry, if_pos (List.prefix_append stem rest), slice_from]
  rfl

/-- The slice never panics, and the part is made of the entries below the stem. -/
theorem takeEntries_eq (stem : Str) (entries : Entries Float) (part : ConfigMap Float) :
    entries.foldlM (takeEntry stem) part =
      .ok ((entries.filterMap (below stem)).foldl
        (fun part entry => part.setValue entry.1 entry.2) part) := by
  induction entries generalizing part with
  | nil => rfl
  | cons entry entries induction =>
      obtain ⟨there, value⟩ := entry
      by_cases inside : stem <+: there
      · obtain ⟨rest, rfl⟩ := inside
        rw [List.foldlM_cons, takeEntry_append, List.filterMap_cons_some (below_append rest value)]
        exact induction _
      · rw [List.foldlM_cons, takeEntry, if_neg inside,
          List.filterMap_cons_none (below_of_not inside)]
        exact induction _

end Stem

/-! ## Lookups after an operation -/

theorem lookup_insertAll {pairs : Entries Float} (distinct : (keysOf pairs).Nodup)
    (config : ConfigMap Float) (key : Str) :
    (pairs.foldl (fun config pair => config.setValue pair.1 pair.2) config).lookup key =
      (get pairs key).or (config.lookup key) := by
  have entries : (pairs.foldl (fun config pair => config.setValue pair.1 pair.2) config).entries =
      pairs.foldl (fun entries pair => insert entries pair.1 pair.2) config.entries := by
    induction pairs generalizing config with
    | nil => rfl
    | cons pair pairs induction => exact induction (List.nodup_cons.mp distinct).2 _
  rw [lookup, entries, get_insertAll pairs distinct, lookup]

theorem Iteration.distinct (iteration : Iteration Float) (config : ConfigMap Float) :
    (keysOf (iteration.order config.entries)).Nodup :=
  ((iteration.perm config.entries).map _).nodup_iff.mpr config.distinct

theorem Iteration.get_order (iteration : Iteration Float) (config : ConfigMap Float) (key : Str) :
    get (iteration.order config.entries) key = config.lookup key :=
  get_of_perm (iteration.perm config.entries) (iteration.distinct config) key

variable {iteration : Iteration Float}

/-- A section has the entries below its name. -/
theorem getSection_spec (iteration : Iteration Float) (config : ConfigMap Float)
    (sectionName : CString) :
    ∃ part, getSection iteration (some config) (some sectionName) = .ok (some part) ∧
      ∀ key, part.lookup key = config.lookup (sectionStem sectionName ++ key) := by
  refine ⟨_, congrArg (some <$> ·) (takeEntries_eq _ _ _), fun key => ?_⟩
  rw [lookup_insertAll (distinct_part _ (iteration.distinct config)), get_part,
    iteration.get_order]
  exact Option.or_none

/-- A section which is set has the entries of the other configuration over those there were, and
nothing outside it is changed. -/
theorem setSection_spec (iteration : Iteration Float) (config sub : ConfigMap Float)
    (sectionName : CString) :
    ∃ updated, setSection iteration (some config) (some sectionName) (some sub) =
        (.ok, some updated) ∧
      (∀ key, updated.lookup (sectionStem sectionName ++ key) =
        (sub.lookup key).or (config.lookup (sectionStem sectionName ++ key))) ∧
      ∀ key, ¬ sectionStem sectionName <+: key → updated.lookup key = config.lookup key := by
  refine ⟨_, rfl, fun key => ?_, fun key outside => ?_⟩
  · rw [foldl_below, lookup_insertAll (distinct_below _ (iteration.distinct sub)), get_below,
      iteration.get_order]
  · rw [foldl_below, lookup_insertAll (distinct_below _ (iteration.distinct sub)),
      get_outside outside, Option.none_or]

/-- A merge has the entries of both, and those of the source where they share a key. -/
theorem merge_spec (iteration : Iteration Float) (dest source : ConfigMap Float) :
    ∃ merged, merge iteration (some dest) (some source) = (.ok, some merged) ∧
      ∀ key, merged.lookup key = (source.lookup key).or (dest.lookup key) := by
  refine ⟨_, rfl, fun key => ?_⟩
  rw [lookup_insertAll (iteration.distinct source), iteration.get_order]

/-- Setting a section leaves every key outside it as it was, and reading the section back gives
what was set, whatever other names start like its own; a merge prefers the source and keeps the
rest.  The maps may yield their entries in different orders. -/
theorem section_laws (setting getting merging : Iteration Float) (config sub : ConfigMap Float)
    (sectionName : CString) :
    ∃ updated part merged,
      setSection setting (some config) (some sectionName) (some sub) = (.ok, some updated) ∧
      (∀ key, ¬ sectionStem sectionName <+: key → updated.lookup key = config.lookup key) ∧
      getSection getting (some updated) (some sectionName) = .ok (some part) ∧
      (∀ key value, sub.lookup key = some value → part.lookup key = some value) ∧
      merge merging (some config) (some sub) = (.ok, some merged) ∧
      ∀ key, merged.lookup key = (sub.lookup key).or (config.lookup key) := by
  obtain ⟨updated, set, inside, outside⟩ := setSection_spec setting config sub sectionName
  obtain ⟨part, gotten, read⟩ := getSection_spec getting updated sectionName
  obtain ⟨merged, did, kept⟩ := merge_spec merging config sub
  refine ⟨updated, part, merged, set, outside, gotten, fun key value found => ?_, did, kept⟩
  rw [read, inside, found, Option.some_or]

end Config

end Typio
