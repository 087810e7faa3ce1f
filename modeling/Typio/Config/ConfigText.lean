import Typio.Config.IniValues
import Typio.Core.EngineManager
import Typio.Utf8Lossy

/-!
# Replacing the configuration by a text

The text is loaded, the defaults of the schema are filled in, and the result is saved and reloaded.
When saving fails the old configuration is put back.  A text without settings is rejected only if it
has no character but white space, `#` and `;`; any other one replaces the configuration by the
defaults.
-/

namespace Typio

namespace Config

open StrSlice Utf8Lossy

open Typio.Core (TypioResult)

variable {Float : Type}

/-! ## The schema -/

/-- `SchemaDefault`. -/
inductive SchemaDefault (Float : Type) where
  | string (text : Str)
  | int (value : Int32)
  | bool (value : Bool)
  | float (value : Float)

/-- `SchemaEntry`, without what only the control panel reads. -/
structure SchemaEntry (Float : Type) where
  key : Str
  default : SchemaDefault Float

/-- `SCHEMA`. -/
def schema : List (SchemaEntry Float) :=
  [⟨"default_engine".toList, .string []⟩,
    ⟨"keyboard.per_app_preferences".toList, .bool true⟩,
    ⟨"display.popup_theme".toList, .string "auto".toList⟩,
    ⟨"display.candidate_layout".toList, .string "horizontal".toList⟩,
    ⟨"display.font_size".toList, .int 11⟩,
    ⟨"display.font_family".toList, .string []⟩,
    ⟨"display.popup_mode_indicator".toList, .bool false⟩,
    ⟨"notifications.enable".toList, .bool true⟩,
    ⟨"notifications.startup_checks".toList, .bool true⟩,
    ⟨"notifications.runtime".toList, .bool true⟩,
    ⟨"notifications.voice".toList, .bool true⟩,
    ⟨"notifications.cooldown_ms".toList, .int 15000⟩,
    ⟨"engines.basic.printable_key_mode".toList, .string "forward".toList⟩,
    ⟨"engines.basic.compose".toList, .bool false⟩,
    ⟨"engines.rime.shared_data_dir".toList, .string []⟩,
    ⟨"engines.rime.user_data_dir".toList, .string []⟩,
    ⟨"default_voice_engine".toList, .string []⟩,
    ⟨"shortcuts.switch_engine".toList, .string "Ctrl+Shift".toList⟩,
    ⟨"shortcuts.emergency_exit".toList, .string "Ctrl+Shift+Escape".toList⟩,
    ⟨"shortcuts.voice_ptt".toList, .string "Super+v".toList⟩,
    ⟨"engines.whisper.model".toList, .string "base".toList⟩,
    ⟨"engines.whisper.language".toList, .string []⟩,
    ⟨"engines.sherpa-onnx.model".toList, .string []⟩,
    ⟨"engines.sherpa-onnx.language".toList, .string []⟩,
    ⟨"voice.unload_after_ms".toList, .int 480000⟩]

/-- The value of a default; there is none for the empty string. -/
def SchemaDefault.value : SchemaDefault Float → Option (ConfigValue Float)
  | .string [] => none
  | .string text => some (.string (.new text))
  | .int value => some (.int value)
  | .bool value => some (.bool value)
  | .float value => some (.float value)

def applyDefault (config : Entries Float) (entry : SchemaEntry Float) : Entries Float :=
  if (get config entry.key).isSome then config
  else
    match entry.default.value with
    | some value => insert config entry.key value
    | none => config

/-- `typio_config_apply_defaults`. -/
def applyDefaults (config : Entries Float) : Entries Float := schema.foldl applyDefault config

/-! ## The instance -/

/-- The configuration in memory, the directory of the configuration file, what the file has, and the
engines. -/
structure TypioInstance (Float Engines : Type) where
  config : Option (Entries Float)
  configDir : Option Str
  file : Option Str
  engines : Engines

/-- What happens outside: whether the configuration file can be written and read, and the order in
which the entries of a hash map come. -/
structure Surroundings (Float : Type) where
  writes : Bool
  reads : Bool
  iterate : Entries Float → Entries Float
  iterates : ∀ entries, (iterate entries).Perm entries

section Operations

variable {Engines : Type} (toml : Str → Option (TomlValue Float)) (parseF64 : Str → Option Float)
  (floatText : Float → Str) (switchEngines : Entries Float → Engines → Engines)
  (outside : Surroundings Float)

/-- `save_config`, which writes the file and puts it in place. -/
def saveConfig (inst : TypioInstance Float Engines) :
    TypioResult × TypioInstance Float Engines :=
  match inst.config, inst.configDir with
  | some config, some _ =>
      if outside.writes then
        (.ok, { inst with
          file := some (configToStringInternal floatText (outside.iterate config)) })
      else (.error, inst)
  | _, _ => (.invalidArgument, inst)

/-- `typio_instance_reload_config`: the file replaces the configuration if it can be read. -/
def reloadConfig (inst : TypioInstance Float Engines) :
    Except Panic (TypioResult × TypioInstance Float Engines) :=
  match inst.configDir with
  | none => .ok (.invalidArgument, inst)
  | some _ => do
      let loaded ← loadFile toml parseF64 (if outside.reads then inst.file else none)
      let config := ((loaded.map applyDefaults).or inst.config).getD (applyDefaults [])
      let engines := switchEngines config inst.engines
      return (.ok, { inst with config := some config, engines })

/-- `u8::is_ascii_whitespace`. -/
def isAsciiWhitespace (byte : UInt8) : Bool :=
  byte == 0x20 || byte == 0x09 || byte == 0x0a || byte == 0x0c || byte == 0x0d

/-- The text has a byte other than white space, `#` and `;`. -/
def hasContent (content : List UInt8) : Bool :=
  content.any fun byte => !isAsciiWhitespace byte && byte != '#'.toUInt8 && byte != ';'.toUInt8

/-- `typio_config_key_count`. -/
def keyCount (config : Option (Entries Float)) : Nat := (config.map List.length).getD 0

/-- `typio_instance_set_config_text`. -/
def setConfigText (inst : TypioInstance Float Engines) (content : Option (List UInt8)) :
    Except Panic (TypioResult × TypioInstance Float Engines) :=
  match content with
  | none => .ok (.invalidArgument, inst)
  | some content => do
      let loaded ← loadString toml parseF64 (some (decodeLossy content))
      match loaded with
      | none => return (.error, inst)
      | some parsed =>
          if keyCount inst.config > 0 ∧ keyCount (some parsed) = 0 ∧ hasContent content = false then
            return (.invalidArgument, inst)
          else
            let saved :=
              saveConfig floatText outside { inst with config := some (applyDefaults parsed) }
            if saved.1 ≠ .ok then return (saved.1, { saved.2 with config := inst.config })
            else reloadConfig toml parseF64 switchEngines outside saved.2

/-- The text is loaded, and there is no setting in it. -/
def ParsesToNothing (content : List UInt8) : Prop :=
  loadString toml parseF64 (some (decodeLossy content)) = .ok (some [])

/-- The configuration can be saved. -/
def CanSave (inst : TypioInstance Float Engines) : Prop :=
  inst.configDir.isSome = true ∧ outside.writes = true

/-- A call that fails leaves the configuration as it was, and a text without settings makes the call
fail. -/
def AllOrNothing (inst : TypioInstance Float Engines) (content : List UInt8) : Prop :=
  ∀ result after,
    setConfigText toml parseF64 floatText switchEngines outside inst (some content) =
        .ok (result, after) →
      (result ≠ .ok → after.config = inst.config) ∧
        (ParsesToNothing toml parseF64 content → result ≠ .ok)

variable {toml parseF64 floatText switchEngines outside} {inst : TypioInstance Float Engines}

/-! ## Saving and reloading -/

theorem saveConfig_ok (config : Entries Float) (can_save : CanSave outside inst) :
    saveConfig floatText outside { inst with config := some config } =
      (.ok, { inst with
        config := some config
        file := some (configToStringInternal floatText (outside.iterate config)) }) := by
  obtain ⟨directory, writes⟩ := can_save
  obtain ⟨path, there⟩ := Option.isSome_iff_exists.mp directory
  rw [saveConfig]
  simp only [there, writes, if_true]

theorem saveConfig_failed (config : Entries Float) (cannot_save : ¬ CanSave outside inst) :
    ∃ result, result ≠ .ok ∧ saveConfig floatText outside { inst with config := some config } =
      (result, { inst with config := some config }) := by
  rw [saveConfig]
  cases directory : inst.configDir with
  | none => exact ⟨.invalidArgument, nofun, rfl⟩
  | some path =>
      refine ⟨.error, nofun, if_neg fun writes => cannot_save ⟨?_, writes⟩⟩
      rw [directory]
      rfl

theorem reloadConfig_ok {after : TypioInstance Float Engines} {result : TypioResult}
    (reloaded : reloadConfig toml parseF64 switchEngines outside inst = .ok (result, after))
    (directory : inst.configDir.isSome = true) : result = .ok := by
  obtain ⟨path, there⟩ := Option.isSome_iff_exists.mp directory
  rw [reloadConfig, there] at reloaded
  cases loaded : loadFile toml parseF64 (if outside.reads then inst.file else none) with
  | error panic =>
      rw [loaded] at reloaded
      cases reloaded
  | ok entries =>
      rw [loaded] at reloaded
      exact (Prod.mk.inj (Except.ok.inj reloaded)).1.symm

/-! ## The call -/

/-- The text counts as empty, and there is a configuration to lose. -/
def Rejected (inst : TypioInstance Float Engines) (content : List UInt8)
    (parsed : Entries Float) : Prop :=
  keyCount inst.config > 0 ∧ keyCount (some parsed) = 0 ∧ hasContent content = false

section Loaded

variable {content : List UInt8} {parsed : Entries Float}
  (loaded : loadString toml parseF64 (some (decodeLossy content)) = .ok (some parsed))

include loaded

theorem setConfigText_rejected (rejected : Rejected inst content parsed) :
    setConfigText toml parseF64 floatText switchEngines outside inst (some content) =
      .ok (.invalidArgument, inst) := by
  rw [setConfigText, loaded]
  exact if_pos rejected

theorem setConfigText_saved (accepted : ¬ Rejected inst content parsed)
    (can_save : CanSave outside inst) :
    setConfigText toml parseF64 floatText switchEngines outside inst (some content) =
      reloadConfig toml parseF64 switchEngines outside { inst with
        config := some (applyDefaults parsed)
        file := some (configToStringInternal floatText
          (outside.iterate (applyDefaults parsed))) } := by
  rw [setConfigText, loaded]
  refine (if_neg accepted).trans ?_
  simp only [saveConfig_ok (applyDefaults parsed) can_save, ne_eq, not_true_eq_false, if_false]

theorem setConfigText_restored (accepted : ¬ Rejected inst content parsed)
    (cannot_save : ¬ CanSave outside inst) :
    ∃ result, result ≠ .ok ∧
      setConfigText toml parseF64 floatText switchEngines outside inst (some content) =
        .ok (result, inst) := by
  have saving : ∃ result, result ≠ .ok ∧ saveConfig floatText outside _ = (result, _) :=
    saveConfig_failed (applyDefaults parsed) cannot_save
  obtain ⟨result, failed, saved⟩ := saving
  refine ⟨result, failed, ?_⟩
  rw [setConfigText, loaded]
  refine (if_neg accepted).trans ?_
  simp only [saved]
  exact if_pos failed

end Loaded

/-- A call fails and changes nothing, or ends with a reload of what it has parsed. -/
theorem setConfigText_cases {content : List UInt8} {result : TypioResult}
    {after : TypioInstance Float Engines}
    (called : setConfigText toml parseF64 floatText switchEngines outside inst (some content) =
      .ok (result, after)) :
    (result ≠ .ok ∧ after = inst) ∨
      ∃ parsed, CanSave outside inst ∧
        reloadConfig toml parseF64 switchEngines outside { inst with
          config := some (applyDefaults parsed)
          file := some (configToStringInternal floatText
            (outside.iterate (applyDefaults parsed))) } = .ok (result, after) := by
  cases loaded : loadString toml parseF64 (some (decodeLossy content)) with
  | error panic =>
      rw [setConfigText, loaded] at called
      cases called
  | ok parsed =>
      cases parsed with
      | none =>
          rw [setConfigText, loaded] at called
          obtain ⟨rfl, rfl⟩ := Prod.mk.inj (Except.ok.inj called)
          exact .inl ⟨nofun, rfl⟩
      | some parsed =>
          by_cases rejected : Rejected inst content parsed
          · rw [setConfigText_rejected loaded rejected] at called
            obtain ⟨rfl, rfl⟩ := Prod.mk.inj (Except.ok.inj called)
            exact .inl ⟨nofun, rfl⟩
          · by_cases can_save : CanSave outside inst
            · rw [setConfigText_saved loaded rejected can_save] at called
              exact .inr ⟨parsed, can_save, called⟩
            · obtain ⟨other, failed, same⟩ := setConfigText_restored loaded rejected can_save
              obtain ⟨rfl, rfl⟩ := Prod.mk.inj (Except.ok.inj (same.symm.trans called))
              exact .inl ⟨failed, rfl⟩

/-- A call that fails leaves the configuration as it was. -/
theorem config_of_failed {content : List UInt8} {result : TypioResult}
    {after : TypioInstance Float Engines}
    (called : setConfigText toml parseF64 floatText switchEngines outside inst (some content) =
      .ok (result, after)) (failed : result ≠ .ok) : after.config = inst.config := by
  obtain ⟨-, rfl⟩ | ⟨parsed, can_save, reloaded⟩ := setConfigText_cases called
  · rfl
  · exact absurd (reloadConfig_ok reloaded can_save.1) failed

end Operations

/-! ## The defaults -/

/-- A default that is written without escapes. -/
def SchemaDefault.Ordinary : SchemaDefault Float → Prop
  | .string text => '\x00' ∉ text ∧ ∀ char ∈ text, ¬ IsEscaped char
  | .float _ => False
  | _ => True

instance (default : SchemaDefault Float) : Decidable default.Ordinary :=
  match default with
  | .string text =>
      @instDecidableAnd _ _ inferInstance (List.decidableBAll (fun char => ¬ IsEscaped char) text)
  | .int _ | .bool _ => inferInstanceAs (Decidable True)
  | .float _ => inferInstanceAs (Decidable False)

/-- A default over a type without floating point numbers is one over any type. -/
def SchemaDefault.recast : SchemaDefault Empty → SchemaDefault Float
  | .string text => .string text
  | .int value => .int value
  | .bool value => .bool value

theorem SchemaDefault.Ordinary.recast {default : SchemaDefault Empty}
    (ordinary : default.Ordinary) : (default.recast : SchemaDefault Float).Ordinary := by
  cases default with
  | string text => exact ordinary
  | int value | bool value => trivial
  | float value => exact value.elim

theorem schema_recast : (schema : List (SchemaEntry Float)) =
    (schema : List (SchemaEntry Empty)).map fun entry => ⟨entry.key, entry.default.recast⟩ := by
  simp only [schema, List.map_cons, List.map_nil, SchemaDefault.recast]

theorem schema_ordinary :
    ∀ entry ∈ (schema : List (SchemaEntry Float)),
      IsDottedKey entry.key ∧ entry.default.Ordinary := by
  -- No default is a floating point number, so that the table is closed and can be evaluated.
  have every : ∀ entry ∈ (schema : List (SchemaEntry Empty)),
      IsDottedKey entry.key ∧ entry.default.Ordinary := by
    decide +kernel
  rw [schema_recast]
  intro entry member
  obtain ⟨entry, listed, rfl⟩ := List.mem_map.mp member
  exact ⟨(every entry listed).1, (every entry listed).2.recast⟩

theorem SchemaDefault.Ordinary.value {default : SchemaDefault Float} (ordinary : default.Ordinary)
    {value : ConfigValue Float} (there : default.value = some value) :
    IsPlain value ∧ IniSafe value := by
  match default, ordinary with
  | .string (char :: text), ordinary =>
      obtain rfl := Option.some.inj there
      rw [CString.new, if_neg ordinary.1]
      exact ⟨.string ordinary.1, trivial, ordinary.2⟩
  | .int value, _ =>
      obtain rfl := Option.some.inj there
      exact ⟨.int value, trivial⟩
  | .bool value, _ =>
      obtain rfl := Option.some.inj there
      exact ⟨.bool value, trivial⟩

/-- A configuration that an INI file keeps. -/
structure Ordinary (entries : Entries Float) : Prop where
  plain : Plain entries
  safe : ∀ entry ∈ entries, IniSafe entry.2

theorem Ordinary.applyDefault {config : Entries Float} (ordinary : Ordinary config)
    {entry : SchemaEntry Float} (good : IsDottedKey entry.key ∧ entry.default.Ordinary) :
    Ordinary (applyDefault config entry) := by
  rw [Config.applyDefault]
  split
  next there => exact ordinary
  next absent =>
    split
    next value there =>
      obtain ⟨plain, safe⟩ := good.2.value there
      refine ⟨⟨insert_distinct ordinary.plain.distinct _ _, ?_, ?_⟩, ?_⟩
      all_goals
        intro other member
        obtain rfl | ⟨kept, -⟩ := mem_insert.mp member
      · exact good.1
      · exact ordinary.plain.keys other kept
      · exact plain
      · exact ordinary.plain.values other kept
      · exact safe
      · exact ordinary.safe other kept
    next none => exact ordinary

theorem ordinary_foldl {entries : List (SchemaEntry Float)}
    (good : ∀ entry ∈ entries, IsDottedKey entry.key ∧ entry.default.Ordinary)
    {config : Entries Float} (ordinary : Ordinary config) :
    Ordinary (entries.foldl applyDefault config) := by
  induction entries generalizing config with
  | nil => exact ordinary
  | cons entry entries induction =>
      obtain ⟨here, later⟩ := List.forall_mem_cons.mp good
      exact induction later (ordinary.applyDefault here)

theorem ordinary_defaults : Ordinary (applyDefaults [] : Entries Float) :=
  ordinary_foldl schema_ordinary
    ⟨⟨List.nodup_nil, List.forall_mem_nil _, List.forall_mem_nil _⟩, List.forall_mem_nil _⟩

/-- The file of an ordinary configuration can be loaded, whatever the TOML parser makes of it. -/
theorem loadFile_ordinary (toml : Str → Option (TomlValue Float)) (parseF64 : Str → Option Float)
    (floatText : Float → Str) {order : Entries Float} (ordinary : Ordinary order) :
    ∃ loaded, loadFile toml parseF64 (some (configToStringInternal floatText order)) =
      .ok (some loaded) := by
  have written := arrange_entries order
  have each : ∀ entry ∈ (arrange order).entries,
      parseIniValue parseF64 (writeValue floatText entry.2) = .ok (id entry.2) := by
    intro entry member
    have there := written.mem_iff.mp member
    exact (parseIniValue_iff parseF64 floatText (ordinary.plain.values entry there)).mpr
      (ordinary.safe entry there)
  rw [loadFile, if_neg (terminated_configToString floatText ordinary.plain), loadString]
  cases toml (configToStringInternal floatText order) with
  | some parsed => exact ⟨_, rfl⟩
  | none =>
      rw [parseIniLike_configToString floatText parseF64 ordinary.plain,
        readEntries_map floatText parseF64 each]
      exact ⟨_, rfl⟩

/-! ## Texts without settings -/

section Nothing

variable {Engines : Type} {toml : Str → Option (TomlValue Float)} {parseF64 : Str → Option Float}
  {floatText : Float → Str} {switchEngines : Entries Float → Engines → Engines}
  {outside : Surroundings Float} {inst : TypioInstance Float Engines}

/-- A text without settings that has content replaces the configuration. -/
theorem setConfigText_nothing {content : List UInt8}
    (nothing : ParsesToNothing toml parseF64 content) (has_content : hasContent content = true)
    (can_save : CanSave outside inst) :
    ∃ after, setConfigText toml parseF64 floatText switchEngines outside inst (some content) =
      .ok (.ok, after) := by
  have accepted : ¬ Rejected inst content ([] : Entries Float) := by
    rintro ⟨-, -, none⟩
    rw [has_content] at none
    cases none
  have ordinary : Ordinary (outside.iterate (applyDefaults [])) := by
    have same := outside.iterates (applyDefaults [])
    have defaults := @ordinary_defaults Float
    exact ⟨defaults.plain.of_perm same.symm,
      fun entry member => defaults.safe entry (same.mem_iff.mp member)⟩
  obtain ⟨path, directory⟩ := Option.isSome_iff_exists.mp can_save.1
  rw [setConfigText_saved nothing accepted can_save, reloadConfig]
  simp only [directory]
  cases reads : outside.reads with
  | false => exact ⟨_, rfl⟩
  | true =>
      obtain ⟨loaded, read⟩ := loadFile_ordinary toml parseF64 floatText ordinary
      simp only [if_true, read]
      exact ⟨_, rfl⟩

end Nothing

/-- A text is taken as a whole or not at all exactly if it has a setting, is empty but for white
space and comment marks, or cannot be saved. -/
theorem allOrNothing_iff {Engines : Type} (toml : Str → Option (TomlValue Float))
    (parseF64 : Str → Option Float) (floatText : Float → Str)
    (switchEngines : Entries Float → Engines → Engines) (outside : Surroundings Float)
    (inst : TypioInstance Float Engines) (configured : 0 < keyCount inst.config)
    (content : List UInt8) :
    AllOrNothing toml parseF64 floatText switchEngines outside inst content ↔
      ¬ ParsesToNothing toml parseF64 content ∨ hasContent content = false ∨
        ¬ CanSave outside inst := by
  constructor
  · intro whole
    by_contra defect
    simp only [not_or, not_not, Bool.not_eq_false] at defect
    obtain ⟨nothing, has_content, can_save⟩ := defect
    obtain ⟨after, called⟩ := setConfigText_nothing nothing has_content can_save
    exact (whole _ _ called).2 nothing rfl
  · intro condition result after called
    refine ⟨config_of_failed called, fun nothing => ?_⟩
    obtain something | empty | cannot_save := condition
    · exact absurd nothing something
    · rw [setConfigText_rejected nothing ⟨configured, rfl, empty⟩] at called
      obtain ⟨rfl, -⟩ := Prod.mk.inj (Except.ok.inj called)
      nofun
    · by_cases rejected : Rejected inst content ([] : Entries Float)
      · rw [setConfigText_rejected nothing rejected] at called
        obtain ⟨rfl, -⟩ := Prod.mk.inj (Except.ok.inj called)
        nofun
      · obtain ⟨other, failed, same⟩ := setConfigText_restored nothing rejected cannot_save
        obtain ⟨rfl, -⟩ := Prod.mk.inj (Except.ok.inj (same.symm.trans called))
        exact failed

section Comment

/-- The file can be written and read, and the entries come in the order of the list. -/
def plainSurroundings : Surroundings Unit where
  writes := true
  reads := true
  iterate entries := entries
  iterates _ := .refl _

def configuredInstance : TypioInstance Unit Unit where
  config := some [("default_engine".toList, .string (.utf8 "rime".toList))]
  configDir := some "/home/user/.config/typio".toList
  file := none
  engines := ()

/-- The tables of the file of the defaults. -/
def defaultTables : List (Str × TomlValue Unit) :=
  [("display".toList, .table
      [("candidate_layout".toList, .string "horizontal".toList),
        ("font_size".toList, .integer 11),
        ("popup_mode_indicator".toList, .boolean false),
        ("popup_theme".toList, .string "auto".toList)]),
    ("engines".toList, .table
      [("basic".toList, .table
          [("compose".toList, .boolean false),
            ("printable_key_mode".toList, .string "forward".toList)]),
        ("whisper".toList, .table [("model".toList, .string "base".toList)])]),
    ("keyboard".toList, .table [("per_app_preferences".toList, .boolean true)]),
    ("notifications".toList, .table
      [("cooldown_ms".toList, .integer 15000),
        ("enable".toList, .boolean true),
        ("runtime".toList, .boolean true),
        ("startup_checks".toList, .boolean true),
        ("voice".toList, .boolean true)]),
    ("shortcuts".toList, .table
      [("emergency_exit".toList, .string "Ctrl+Shift+Escape".toList),
        ("switch_engine".toList, .string "Ctrl+Shift".toList),
        ("voice_ptt".toList, .string "Super+v".toList)]),
    ("voice".toList, .table [("unload_after_ms".toList, .integer 480000)])]

def blank : List UInt8 := [0x20, 0x0a]

/-- `# off` -/
def comment : List UInt8 := [0x23, 0x20, 0x6f, 0x66, 0x66]

/-- A blank text and a comment are empty tables; the only other text is the file of the defaults. -/
def commentToml (text : Str) : Option (TomlValue Unit) :=
  if text = decodeLossy blank ∨ text = decodeLossy comment then some (.table [])
  else some (.table defaultTables)

theorem blank_allOrNothing :
    AllOrNothing commentToml (fun _ => none) (fun _ => []) (fun _ engines => engines)
      plainSurroundings configuredInstance blank :=
  (allOrNothing_iff commentToml (fun _ => none) (fun _ => []) (fun _ engines => engines)
    plainSurroundings configuredInstance (by decide) blank).mpr (.inr (.inl (by decide)))

/-- A comment replaces the configuration. -/
theorem comment_replaces :
    ¬ AllOrNothing commentToml (fun _ => none) (fun _ => []) (fun _ engines => engines)
      plainSurroundings configuredInstance comment := by
  intro whole
  have nothing : ParsesToNothing commentToml (fun _ => none) comment := by
    have table : commentToml (decodeLossy comment) = some (.table []) := if_pos (.inr rfl)
    simp only [ParsesToNothing, loadString, table, fromToml, populateFromToml, populateEntries]
  have can_save : CanSave plainSurroundings configuredInstance := ⟨rfl, rfl⟩
  obtain ⟨after, called⟩ := setConfigText_nothing nothing (by decide) can_save
  exact (whole _ _ called).2 nothing rfl

end Comment

end Config

end Typio
