import Typio.Config.ConfigText
import Typio.Config.SavedFile

/-!
# The form of the control panel

The form is filled from the staged text: a widget for each bound field, the engine order, the voice
backend with its model, and the shortcuts.  After an edit all of them are written back into the
configuration of the text, which is rendered again.
-/

namespace Typio

namespace Control

open StrSlice Config

variable {Float : Type}

/-! ## The bound fields -/

/-- The options of a drop-down, which offers its default. -/
structure Options where
  default : Str
  options : List Str
  offered : default ∈ options

/-- The type of a field with its default, and what its widget is made from.  No field of the form is
a float. -/
inductive FieldType where
  | bool (default : Bool)
  | int (default uiMin uiMax : Int32)
  | choice (options : Options)
  | string (default : Str)

structure TypioConfigField where
  key : Str
  type : FieldType

/-- The range of a spin button. -/
def spinRange (uiMin uiMax : Int32) : Int32 × Int32 :=
  if uiMin = 0 ∧ uiMax = 0 then (-999999, 999999) else (uiMin, uiMax)

/-- A spin button clamps its value to its range. -/
def clamp (range : Int32 × Int32) (value : Int32) : Int32 :=
  if value < range.1 then range.1 else if range.2 < value then range.2 else value

/-- What a widget shows; a drop-down may have nothing selected. -/
inductive Widget where
  | switch (active : Bool)
  | spinButton (value : Int32)
  | dropDown (selected : Option CString)
  | entry (text : CString)

structure ControlBinding where
  field : TypioConfigField
  widget : Widget

/-- The selection of a drop-down: a value which is not among the options is added to them, unless it
is empty. -/
def selectOption (options : List Str) (value : Option CString) : Option CString :=
  value.filter fun text => text ∈ options.map .utf8 ∨ text ≠ .utf8 []

/-- `control_binding_load`. -/
def controlBindingLoad (truncate : Float → Int32) (config : Entries Float)
    (field : TypioConfigField) : ControlBinding where
  field := field
  widget :=
    match field.type with
    | .bool default => .switch (getBool config field.key default)
    | .int default uiMin uiMax =>
        .spinButton (clamp (spinRange uiMin uiMax) (getInt truncate config field.key default))
    | .choice choice =>
        .dropDown (selectOption choice.options
          (getString config field.key (some (.utf8 choice.default))))
    | .string default =>
        .entry ((getString config field.key (some (.utf8 default))).getD (.utf8 []))

/-- `control_binding_save`. -/
def controlBindingSave (config : Entries Float) (binding : ControlBinding) : Entries Float :=
  match binding.field.type, binding.widget with
  | .bool _, .switch active => (SetCall.setBool binding.field.key active).apply config
  | .int _ _ _, .spinButton value => (SetCall.setInt binding.field.key value).apply config
  | .choice _, .dropDown (some value) =>
      (SetCall.setString binding.field.key (some value)).apply config
  | .string _, .entry text => (SetCall.setString binding.field.key (some text)).apply config
  | _, _ => config

/-- The widget is set by hand; a widget takes only what it can show. -/
def ControlBinding.set (binding : ControlBinding) (widget : Widget) : ControlBinding :=
  match binding.field.type, widget with
  | .bool _, .switch active => { binding with widget := .switch active }
  | .int _ uiMin uiMax, .spinButton value =>
      { binding with widget := .spinButton (clamp (spinRange uiMin uiMax) value) }
  | .choice _, .dropDown selected => { binding with widget := .dropDown selected }
  | .string _, .entry text => { binding with widget := .entry text }
  | _, _ => binding

def popupThemeOptions : Options where
  default := "auto".toList
  options := ["auto".toList, "light".toList, "dark".toList]
  offered := .head _

def candidateLayoutOptions : Options where
  default := "horizontal".toList
  options := ["horizontal".toList, "vertical".toList]
  offered := .head _

def printableKeyModeOptions : Options where
  default := "forward".toList
  options := ["forward".toList, "commit".toList]
  offered := .head _

/-- The fields which have a widget, in the order in which the pages are built. -/
def boundFields : List TypioConfigField :=
  [⟨"display.popup_theme".toList, .choice popupThemeOptions⟩,
    ⟨"display.candidate_layout".toList, .choice candidateLayoutOptions⟩,
    ⟨"display.font_size".toList, .int 11 6 72⟩,
    ⟨"display.popup_mode_indicator".toList, .bool false⟩,
    ⟨"notifications.enable".toList, .bool true⟩,
    ⟨"notifications.startup_checks".toList, .bool true⟩,
    ⟨"notifications.runtime".toList, .bool true⟩,
    ⟨"notifications.voice".toList, .bool true⟩,
    ⟨"notifications.cooldown_ms".toList, .int 15000 0 300000⟩,
    ⟨"keyboard.per_app_preferences".toList, .bool true⟩,
    ⟨"engines.basic.printable_key_mode".toList, .choice printableKeyModeOptions⟩,
    ⟨"engines.basic.compose".toList, .bool false⟩]

/-! ## The engine order -/

def engineOrderKey : Str := "engine_order".toList

/-- `control_append_unique_string`. -/
def controlAppendUniqueString (model : List CString) : Option CString → List CString
  | none => model
  | some value => if value = .utf8 [] ∨ value ∈ model then model else model ++ [value]

/-- A name goes into the order if it is known, or no engine is. -/
def controlLoadEngineName (engineIds model : List CString) (name : Option CString) :
    List CString :=
  if engineIds ≠ [] ∧ name ∉ engineIds.map some then model
  else controlAppendUniqueString model name

/-- `control_load_engine_order_from_config`. -/
def controlLoadEngineOrder (engineIds : List CString) (config : Entries Float) : List CString :=
  (getArrayStrings config engineOrderKey).foldl (controlLoadEngineName engineIds) []

def controlSaveEngineOrder (names : List CString) (config : Entries Float) : Entries Float :=
  if names = [] then remove config engineOrderKey
  else (SetCall.setStringArray engineOrderKey (names.map some)).apply config

/-! ## The voice backend and its model -/

/-- The names of `is_voice_backend_name`. -/
inductive VoiceBackend where
  | whisper
  | sherpaOnnx
  deriving DecidableEq

def VoiceBackend.name : VoiceBackend → Str
  | .whisper => "whisper".toList
  | .sherpaOnnx => "sherpa-onnx".toList

/-- `engines.%s.model`. -/
def VoiceBackend.modelKey (backend : VoiceBackend) : Str :=
  "engines.".toList ++ backend.name ++ ".model".toList

def voiceBackendKey : Str := "default_voice_engine".toList

/-- What the lists of the panel offer: the keyboard engines, the voice backends, and the models
which are installed for a backend. -/
structure FormLists where
  engineIds : List CString
  voiceBackends : List VoiceBackend
  voiceModels : VoiceBackend → List CString

/-- `control_state_binding_load_from_config` for the voice backend. -/
def controlLoadVoiceBackend (lists : FormLists) (config : Entries Float) : Option VoiceBackend :=
  match getString config voiceBackendKey none with
  | none => none
  | some value =>
      if value = .utf8 [] then none
      else lists.voiceBackends.find? fun backend => value = .utf8 backend.name

/-- `control_select_voice_model_from_config`. -/
def controlSelectVoiceModel (lists : FormLists) (config : Entries Float) :
    Option VoiceBackend → Option CString
  | none => none
  | some backend =>
      (getString config backend.modelKey (some (.utf8 []))).filter
        (· ∈ lists.voiceModels backend)

/-- The string is set, unless it is empty or there is none. -/
def setNonEmpty (config : Entries Float) (key : Str) (value : Option CString) : Entries Float :=
  match value.filter (· ≠ .utf8 []) with
  | some text => (SetCall.setString key (some text)).apply config
  | none => config

def controlSaveVoice (backend : Option VoiceBackend) (model : Option CString)
    (config : Entries Float) : Entries Float :=
  match backend with
  | none => config
  | some backend =>
      setNonEmpty (setNonEmpty config voiceBackendKey (some (.utf8 backend.name)))
        backend.modelKey model

/-! ## The shortcuts -/

inductive Shortcut where
  | switchEngine
  | emergencyExit
  | voicePtt
  deriving DecidableEq

def Shortcut.all : List Shortcut := [.switchEngine, .emergencyExit, .voicePtt]

def Shortcut.key : Shortcut → Str
  | .switchEngine => "shortcuts.switch_engine".toList
  | .emergencyExit => "shortcuts.emergency_exit".toList
  | .voicePtt => "shortcuts.voice_ptt".toList

def Shortcut.default : Shortcut → Str
  | .switchEngine => "Ctrl+Shift".toList
  | .emergencyExit => "Ctrl+Shift+Escape".toList
  | .voicePtt => "Super+v".toList

def controlSaveShortcut (label : Shortcut → Option CString) (config : Entries Float)
    (shortcut : Shortcut) : Entries Float :=
  setNonEmpty config shortcut.key (label shortcut)

/-! ## The form -/

structure Form where
  bindings : List ControlBinding
  engineOrder : List CString
  voiceBackend : Option VoiceBackend
  voiceModel : Option CString
  label : Shortcut → Option CString

/-- `control_sync_form_from_buffer`, for the configuration which was loaded. -/
def loadForm (truncate : Float → Int32) (lists : FormLists) (config : Entries Float) : Form where
  bindings := boundFields.map (controlBindingLoad truncate config)
  engineOrder := controlLoadEngineOrder lists.engineIds config
  voiceBackend := controlLoadVoiceBackend lists config
  voiceModel := controlSelectVoiceModel lists config (controlLoadVoiceBackend lists config)
  label shortcut := getString config shortcut.key (some (.utf8 shortcut.default))

/-- What `control_sync_buffer_from_form` makes of the configuration before it is rendered. -/
def saveForm (form : Form) (config : Entries Float) : Entries Float :=
  let bound := form.bindings.foldl controlBindingSave config
  let ordered := controlSaveEngineOrder form.engineOrder bound
  let voiced := controlSaveVoice form.voiceBackend form.voiceModel ordered
  Shortcut.all.foldl (controlSaveShortcut form.label) voiced

section Buffer

variable (toml : Str → Option (TomlValue Float)) (parseF64 : Str → Option Float)

/-- `control_sync_form_from_buffer`. -/
def controlSyncFormFromBuffer (truncate : Float → Int32) (lists : FormLists) (content : Str) :
    Except Panic (Option Form) := do
  let config ← loadString toml parseF64 (some content)
  return config.map (loadForm truncate lists)

/-- `control_sync_buffer_from_form`. -/
def controlSyncBufferFromForm (floatText : Float → Str) (iterate : Entries Float → Entries Float)
    (form : Form) (content : Str) : Except Panic Str := do
  let config ← loadString toml parseF64 (some content)
  return configToStringInternal floatText (iterate (saveForm form (config.getD [])))

end Buffer

/-! ## Edits -/

/-- An edit of the form by hand.  The engine order is left as it was moved, extended or reset to. -/
inductive FormEdit where
  | field (key : Str) (widget : Widget)
  | engineOrder (names : List CString)
  | voiceBackend (backend : Option VoiceBackend)
  | voiceModel (model : Option CString)
  | shortcut (shortcut : Shortcut) (label : CString)

/-- The key which the edit is about; a model belongs to the backend which is selected. -/
def FormEdit.key (form : Form) : FormEdit → Option Str
  | .field key _ => some key
  | .engineOrder _ => some engineOrderKey
  | .voiceBackend _ => some voiceBackendKey
  | .voiceModel _ => form.voiceBackend.map VoiceBackend.modelKey
  | .shortcut edited _ => some edited.key

/-- The form after the edit.  Another backend brings its own model, as the staged text has it. -/
def FormEdit.apply (lists : FormLists) (config : Entries Float) (form : Form) : FormEdit → Form
  | .field key widget =>
      { form with
        bindings := form.bindings.map fun binding =>
          if binding.field.key = key then binding.set widget else binding }
  | .engineOrder names => { form with engineOrder := names }
  | .voiceBackend backend =>
      { form with
        voiceBackend := backend
        voiceModel := controlSelectVoiceModel lists config backend }
  | .voiceModel model => { form with voiceModel := model }
  | .shortcut edited label =>
      { form with
        label := fun shortcut => if shortcut = edited then some label else form.label shortcut }

/-- The configuration which is rendered after the edit. -/
def editConfig (truncate : Float → Int32) (lists : FormLists) (edit : FormEdit)
    (config : Entries Float) : Entries Float :=
  saveForm (edit.apply lists config (loadForm truncate lists config)) config

end Control

end Typio
