import Typio.Config.RoundTrip

/-!
# Files which are saved and loaded again

However a text is read, each key has one entry.  So a file whose strings need no escape is loaded as
the entries which were saved, whether its text is TOML or not, and the cycle can be repeated.
-/

namespace Typio

namespace Config

open StrSlice

variable {Float : Type}

/-- `entries.remove(key)`. -/
def remove (entries : Entries Float) (key : Str) : Entries Float := entries.filter (·.1 ≠ key)

theorem get_remove (entries : Entries Float) (key other : Str) :
    get (remove entries key) other = if key = other then none else get entries other := by
  rw [remove, get, get, List.find?_filter]
  split
  next same =>
    have nowhere : entries.find? (fun entry => decide (entry.1 ≠ key) && entry.1 == other) =
        none := by
      rw [List.find?_eq_none]
      intro entry member
      simp [same]
    simpa using nowhere
  next differs =>
    congr 2
    funext entry
    by_cases there : entry.1 = other
    · simp [there, Ne.symm differs]
    · simp [there]

theorem Plain.remove {entries : Entries Float} (plain : Plain entries) (key : Str) :
    Plain (remove entries key) where
  distinct := plain.distinct.sublist (List.filter_sublist.map _)
  keys entry member := plain.keys entry (List.mem_of_mem_filter member)
  values entry member := plain.values entry (List.mem_of_mem_filter member)

theorem Plain.insert {entries : Entries Float} (plain : Plain entries) {key : Str}
    (dotted : IsDottedKey key) {value : ConfigValue Float} (set : IsPlain value) :
    Plain (insert entries key value) := by
  refine ⟨insert_distinct plain.distinct _ _, fun entry member => ?_, fun entry member => ?_⟩
  · obtain rfl | ⟨there, -⟩ := mem_insert.mp member
    · exact dotted
    · exact plain.keys entry there
  · obtain rfl | ⟨there, -⟩ := mem_insert.mp member
    · exact set
    · exact plain.values entry there

/-! ## One entry for each key -/

theorem distinct_nil : (keysOf ([] : Entries Float)).Nodup := List.nodup_nil

theorem insertConverted_distinct {config : Entries Float} (distinct : (keysOf config).Nodup)
    (key : Str) (value : TomlValue Float) : (keysOf (insertConverted config key value)).Nodup := by
  rw [insertConverted.eq_def]
  cases tomlToConfigValue value with
  | none => exact distinct
  | some converted => exact insert_distinct distinct _ _

theorem fromToml_distinct (value : TomlValue Float) : (keysOf (fromToml value)).Nodup := by
  have leaves (pairs : List (List Str × TomlValue Float)) {config : Entries Float}
      (distinct : (keysOf config).Nodup) :
      (keysOf (pairs.foldl (fun config leaf =>
        insertConverted config (leaf.1.foldl fullKey []) leaf.2) config)).Nodup := by
    induction pairs generalizing config with
    | nil => exact distinct
    | cons pair pairs ih => exact ih (insertConverted_distinct distinct _ _)
  cases value with
  | table entries =>
      rw [fromToml, populateFromToml, populateEntries_eq]
      exact leaves _ distinct_nil
  | _ =>
      rw [fromToml, populateFromToml.eq_def]
      exact insertConverted_distinct distinct_nil _ _

section Loading

variable {toml : Str → Option (TomlValue Float)} {parseF64 : Str → Option Float}

theorem parseIniLine_distinct {state after : Str × Entries Float} {line : Str}
    (distinct : (keysOf state.2).Nodup) (read : parseIniLine parseF64 state line = .ok after) :
    (keysOf after.2).Nodup := by
  rw [parseIniLine] at read
  split at read
  · obtain rfl := Except.ok.inj read
    exact distinct
  split at read
  · cases name : stripEnds (trim line) with
    | error panic =>
        rw [name] at read
        cases read
    | ok name' =>
        rw [name] at read
        obtain rfl := Except.ok.inj read
        exact distinct
  split at read
  · obtain rfl := Except.ok.inj read
    exact distinct
  · next eqPos _ =>
      cases first : slice (trim line) 0 eqPos with
      | error panic =>
          rw [first] at read
          cases read
      | ok key =>
          cases second : slice (trim line) (eqPos + 1) (byteLength (trim line)) with
          | error panic =>
              rw [first, second] at read
              cases read
          | ok text =>
              cases value : parseIniValue parseF64 (trim text) with
              | error panic =>
                  rw [first, second] at read
                  simp only [bind, Except.bind, value] at read
                  cases read
              | ok parsed =>
                  rw [first, second] at read
                  simp only [bind, Except.bind, value] at read
                  obtain rfl := Except.ok.inj read
                  exact insert_distinct distinct _ _

theorem parseIniLike_distinct {content : Str} {loaded : Entries Float}
    (read : parseIniLike parseF64 content = .ok loaded) : (keysOf loaded).Nodup := by
  have all (pieces : List Str) {state after : Str × Entries Float}
      (distinct : (keysOf state.2).Nodup)
      (read : pieces.foldlM (parseIniLine parseF64) state = .ok after) :
      (keysOf after.2).Nodup := by
    induction pieces generalizing state with
    | nil =>
        obtain rfl := Except.ok.inj read
        exact distinct
    | cons line pieces ih =>
        rw [List.foldlM_cons] at read
        cases first : parseIniLine parseF64 state line with
        | error panic =>
            rw [first] at read
            cases read
        | ok between =>
            rw [first] at read
            exact ih (parseIniLine_distinct distinct first) read
  rw [parseIniLike] at read
  cases whole : (lines content).foldlM (parseIniLine parseF64) ([], []) with
  | error panic =>
      rw [whole] at read
      cases read
  | ok after =>
      rw [whole] at read
      obtain rfl := Except.ok.inj read
      exact @all (lines content) ([], []) _ distinct_nil whole

/-- A configuration which is loaded has one entry for each key. -/
theorem loadString_distinct {content : Option Str} {loaded : Entries Float}
    (read : loadString toml parseF64 content = .ok (some loaded)) : (keysOf loaded).Nodup := by
  cases content with
  | none => cases read
  | some content =>
      rw [loadString] at read
      split at read
      · obtain rfl := Option.some.inj (Except.ok.inj read)
        exact fromToml_distinct _
      · cases parsed : parseIniLike parseF64 content with
        | error panic =>
            rw [parsed] at read
            cases read
        | ok entries =>
            rw [parsed] at read
            obtain rfl := Option.some.inj (Except.ok.inj read)
            exact parseIniLike_distinct parsed

/-! ## Saving and loading -/

theorem perm_of_get {entries others : Entries Float} (distinct : (keysOf entries).Nodup)
    (distinct' : (keysOf others).Nodup) (same : ∀ key, get entries key = get others key) :
    entries.Perm others := by
  rw [List.perm_ext_iff_of_nodup (.of_map _ distinct) (.of_map _ distinct')]
  rintro ⟨key, value⟩
  rw [← get_eq_some_iff distinct, ← get_eq_some_iff distinct', same]

/-- A name which is written as it is. -/
def IsCleanText (text : Str) : Prop := ∀ char ∈ text, ¬ IsTomlControl char ∧ ¬ IsEscaped char

instance (text : Str) : Decidable (IsCleanText text) :=
  List.decidableBAll (fun char => ¬ IsTomlControl char ∧ ¬ IsEscaped char) text

/-- Every value is a string which is written as it is. -/
def AllClean (entries : Entries Float) : Prop :=
  ∀ entry ∈ entries, ∃ text, entry.2 = .string (.utf8 text) ∧ IsCleanText text

theorem IsCleanText.terminated {text : Str} (clean : IsCleanText text) : '\x00' ∉ text :=
  fun member => (clean _ member).1 (by decide)

theorem AllClean.insert {entries : Entries Float} (clean : AllClean entries) (key : Str)
    {text : Str} (here : IsCleanText text) :
    AllClean (insert entries key (.string (.utf8 text))) := by
  intro entry member
  obtain rfl | ⟨there, -⟩ := mem_insert.mp member
  · exact ⟨text, rfl, here⟩
  · exact clean entry there

theorem AllClean.remove {entries : Entries Float} (clean : AllClean entries) (key : Str) :
    AllClean (remove entries key) := fun entry member => clean entry (List.mem_of_mem_filter member)

/-- A file of clean strings is loaded as it was saved. -/
theorem loadFile_saved {floatText : Float → Str} {order : Entries Float} (plain : Plain order)
    (clean : AllClean order) (reads : ReadsToml toml (document floatText order)) :
    ∃ loaded, loadFile toml parseF64 (some (configToStringInternal floatText order)) =
      .ok (some loaded) ∧ loaded.Perm order := by
  have kept : RoundTrips toml parseF64 floatText order order := by
    by_cases accepted : KeysApart order ∧ TomlSafe order
    · refine (roundTrips_toml_iff plain (.refl _) reads accepted.1 accepted.2).mpr ?_
      intro entry member text there
      obtain ⟨own, value, -⟩ := clean entry member
      rw [value] at there
      obtain rfl := List.mem_singleton.mp there
      exact trivial
    · refine (roundTrips_ini_iff plain (.refl _) (toml_rejects plain reads accepted)).mpr ?_
      intro entry member
      obtain ⟨own, value, written⟩ := clean entry member
      rw [value]
      exact ⟨trivial, fun char there => (written char there).2⟩
  obtain ⟨loaded, read, same⟩ := (roundTrips_plain_iff plain).mp kept
  refine ⟨loaded, ?_, perm_of_get (loadString_distinct read) plain.distinct same⟩
  rw [loadFile]
  exact (if_neg (terminated_configToString floatText plain)).trans read

end Loading

end Config

end Typio
