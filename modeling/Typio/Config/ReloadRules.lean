import Typio.Config.ConfigText
import Typio.Config.ParseTotality

/-!
# What a reload puts in the place of the configuration

A file without settings must leave the configuration as it is, and a missing file stands for the
defaults.  The reload does the opposite: a missing file changes nothing, and a text without settings
is a configuration like any other one, which the defaults complete.
-/

namespace Typio

namespace Config

open StrSlice

open Typio.Core (TypioResult)

variable {Float : Type}

/-! ## The rules -/

/-- The configuration file. -/
inductive ConfigFile where
  | missing
  /-- The file is there, and it cannot be read or is no UTF-8. -/
  | unreadable
  | text (content : Str)

namespace ConfigFile

def content : ConfigFile → Option Str
  | .text content => some content
  | .missing | .unreadable => none

def readable : ConfigFile → Bool
  | .unreadable => false
  | .missing | .text _ => true

end ConfigFile

/-- The entries are the same hash map. -/
def SameSettings (left right : Entries Float) : Prop := ∀ key, get left key = get right key

theorem SameSettings.refl (entries : Entries Float) : SameSettings entries entries :=
  fun _ => rfl

theorem SameSettings.comm {left right : Entries Float} :
    SameSettings left right ↔ SameSettings right left :=
  ⟨fun same key => (same key).symm, fun same key => (same key).symm⟩

section Rules

variable {Engines : Type} (toml : Str → Option (TomlValue Float)) (parseF64 : Str → Option Float)
  (switchEngines : Entries Float → Engines → Engines) (outside : Surroundings Float)
  (current : Entries Float) (directory : Str) (engines : Engines)

/-- The configuration which the rules ask for: the defaults for a missing file, the settings of a
text which has some, and otherwise the current configuration. -/
def ruledConfig : ConfigFile → Entries Float
  | .missing => applyDefaults []
  | .unreadable => current
  | .text content =>
      match loadFile toml parseF64 (some content) with
      | .ok (some (entry :: entries)) => applyDefaults (entry :: entries)
      | _ => current

/-- A reload of an instance with this configuration and this file. -/
def reloadFrom (file : ConfigFile) : Except Panic (TypioResult × TypioInstance Float Engines) :=
  reloadConfig toml parseF64 switchEngines { outside with reads := file.readable }
    { config := some current, configDir := some directory, file := file.content, engines }

/-- The reload succeeds and leaves the configuration which the rules ask for. -/
def FollowsRules (file : ConfigFile) : Prop :=
  ∃ after config,
    reloadFrom toml parseF64 switchEngines outside current directory engines file =
        .ok (.ok, after) ∧
      after.config = some config ∧ SameSettings config (ruledConfig toml parseF64 current file)

/-- No line of the text makes the loader panic. -/
def Loads (content : Str) : Prop :=
  '\x00' ∈ content ∨ (toml content).isSome = true ∨ ¬AssignsLoneQuote content

/-- A file which is missing, or whose text has no setting, finds the defaults in place. -/
def FindsDefaults : ConfigFile → Prop
  | .missing => SameSettings current (applyDefaults [])
  | .unreadable => True
  | .text content => Loads toml content ∧
      (loadFile toml parseF64 (some content) = .ok (some []) →
        SameSettings current (applyDefaults []))

end Rules

/-! ## The reload -/

section Reload

variable {Engines : Type} {toml : Str → Option (TomlValue Float)} {parseF64 : Str → Option Float}
  {switchEngines : Entries Float → Engines → Engines} {outside : Surroundings Float}
  {current : Entries Float} {directory : Str} {engines : Engines} {file : ConfigFile}

theorem returns_loadFile_iff {content : Str} :
    Returns (loadFile toml parseF64 (some content)) ↔ Loads toml content := by
  rw [loadFile, Loads]
  split
  · next null => exact iff_of_true (returns_ok none) (.inl null)
  · next terminated =>
      rw [returns_loadString_iff, or_iff_right terminated]
      simp

/-- A reload puts in place what was loaded, completed by the defaults, if anything was. -/
theorem followsRules_iff_of_loaded {loaded : Option (Entries Float)}
    (loads : loadFile toml parseF64 (if file.readable then file.content else none) = .ok loaded) :
    FollowsRules toml parseF64 switchEngines outside current directory engines file ↔
      SameSettings ((loaded.map applyDefaults).getD current)
        (ruledConfig toml parseF64 current file) := by
  have reloaded : reloadFrom toml parseF64 switchEngines outside current directory engines file =
      .ok (.ok, { config := some ((loaded.map applyDefaults).getD current)
                  configDir := some directory, file := file.content
                  engines := switchEngines ((loaded.map applyDefaults).getD current) engines }) := by
    rw [reloadFrom, reloadConfig]
    dsimp only
    rw [loads]
    change Except.ok _ = _
    rw [Option.or_some, Option.getD_some]
  rw [FollowsRules, reloaded]
  constructor
  · rintro ⟨after, config, same, there, settings⟩
    obtain ⟨-, rfl⟩ := Prod.mk.inj (Except.ok.inj same)
    rwa [Option.some.inj there]
  · exact fun settings => ⟨_, _, rfl, rfl, settings⟩

theorem followsRules_missing :
    FollowsRules toml parseF64 switchEngines outside current directory engines .missing ↔
      SameSettings current (applyDefaults []) :=
  @followsRules_iff_of_loaded _ _ _ _ _ _ _ _ _ .missing none rfl

theorem followsRules_unreadable :
    FollowsRules toml parseF64 switchEngines outside current directory engines .unreadable :=
  (@followsRules_iff_of_loaded _ _ _ _ _ _ _ _ _ .unreadable none rfl).mpr (.refl current)

theorem followsRules_text {content : Str} :
    FollowsRules toml parseF64 switchEngines outside current directory engines (.text content) ↔
      Loads toml content ∧ (loadFile toml parseF64 (some content) = .ok (some []) →
        SameSettings current (applyDefaults [])) := by
  rw [← @returns_loadFile_iff _ toml parseF64]
  cases loads : loadFile toml parseF64 (some content) with
  | error panic =>
      refine iff_of_false ?_ fun both => not_returns_error panic both.1
      rintro ⟨after, config, reloaded, -⟩
      rw [reloadFrom, reloadConfig] at reloaded
      change (loadFile toml parseF64 (some content) >>= _) = _ at reloaded
      rw [loads] at reloaded
      cases reloaded
  | ok loaded =>
      rw [@followsRules_iff_of_loaded _ _ _ _ _ _ _ _ _ (.text content) _ loads, ruledConfig, loads,
        and_iff_right (returns_ok loaded)]
      cases loaded with
      | none => exact iff_of_true (.refl current) fun impossible => by cases impossible
      | some entries =>
          rw [Option.map_some, Option.getD_some]
          cases entries with
          | nil =>
              rw [forall_prop_of_true rfl]
              dsimp only
              exact SameSettings.comm
          | cons entry entries =>
              dsimp only
              exact iff_of_true (.refl _) fun impossible => by cases impossible

end Reload

/-- A reload follows the rules if and only if the loader does not panic and a file which is missing,
or whose text has no setting, finds the defaults in place. -/
theorem followsRules_iff {Engines : Type} (toml : Str → Option (TomlValue Float))
    (parseF64 : Str → Option Float) (switchEngines : Entries Float → Engines → Engines)
    (outside : Surroundings Float) (current : Entries Float) (directory : Str) (engines : Engines)
    (file : ConfigFile) :
    FollowsRules toml parseF64 switchEngines outside current directory engines file ↔
      FindsDefaults toml parseF64 current file := by
  cases file with
  | missing => exact followsRules_missing
  | unreadable => exact iff_true_intro followsRules_unreadable
  | text content => exact followsRules_text

/-- The defaults leave a key for which there is no default as it is. -/
theorem get_foldl_applyDefault {entries : List (SchemaEntry Float)} {key : Str}
    (undefaulted : ∀ entry ∈ entries, entry.key = key → entry.default.value = none)
    (config : Entries Float) : get (entries.foldl applyDefault config) key = get config key := by
  induction entries generalizing config with
  | nil => rfl
  | cons entry entries induction =>
      obtain ⟨here, later⟩ := List.forall_mem_cons.mp undefaulted
      rw [List.foldl_cons, induction later, applyDefault]
      split
      · rfl
      · split
        next value there =>
          have other : entry.key ≠ key := fun same =>
            Option.some_ne_none value (there.symm.trans (here same))
          rw [get_insert, if_neg other]
        next absent => rfl

/-- An editor has truncated the file of a user whose default engine is Rime. -/
theorem truncated_file_resets :
    ¬FollowsRules (fun text => if text = [] then some (.table []) else none) (fun _ => none)
      (fun _ engines => engines) plainSurroundings
      (applyDefaults [("default_engine".toList, .string (.utf8 "rime".toList))])
      "/home/user/.config/typio".toList () (.text []) := by
  intro follows
  have same := (followsRules_text.mp follows).2 (by
    simp [loadFile, loadString, fromToml, populateFromToml, populateEntries])
  have engine := same "default_engine".toList
  have undefaulted : ∀ entry ∈ (schema : List (SchemaEntry Unit)),
      entry.key = "default_engine".toList → entry.default.value = none := by
    simp [schema, SchemaDefault.value, String.toList_inj, -String.reduceToList]
  have chosen := get_foldl_applyDefault undefaulted
    [("default_engine".toList, .string (.utf8 "rime".toList))]
  cases chosen.symm.trans (engine.trans (get_foldl_applyDefault undefaulted []))

end Config

end Typio
