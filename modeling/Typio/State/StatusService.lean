import Typio.Ipc.TipJson
import Typio.Ipc.UdsServer

/-!
# The status service

The properties are built as JSON text from what the instance shows of itself; commas are placed by
hand.  The methods call into the instance, which is a parameter: a state with the operations the
service uses.  A string that may be `NULL` is optional.
-/

namespace Typio

namespace Status

open JsonText TipJson

/-! ## What the instance shows -/

structure EngineInfo where
  name : Option CString
  displayName : Option CString
  icon : Option CString
  language : Option CString
  voice : Bool
  capabilities : UInt32

/-- The engine in a slot. -/
structure ActiveEngine where
  info : Option EngineInfo
  active : Bool
  configPath : Option CString

structure EngineMode where
  latin : Bool
  modeId : Option CString
  displayLabel : Option CString
  iconName : Option CString

/-- What `%g` prints for a floating-point number. -/
inductive Printed where
  | finite (literal : NumberText)
  | infinite (negative : Bool)
  | nan (negative : Bool)

inductive ConfigValue where
  | string (text : Option CString)
  | int (value : Int32)
  | bool (value : Bool)
  | float (printed : Printed)
  | array
  | object

structure RuntimeState where
  frontendBackend : Option CString
  lifecyclePhase : Option CString
  virtualKeyboardState : Option CString
  keyboardGrabActive : Bool
  virtualKeyboardHasKeymap : Bool
  watchdogArmed : Bool
  activeKeyGeneration : UInt32
  virtualKeyboardKeymapGeneration : UInt32
  virtualKeyboardDropCount : UInt32
  virtualKeyboardStateAgeMs : UInt32
  virtualKeyboardKeymapAgeMs : UInt32
  virtualKeyboardForwardAgeMs : UInt32
  virtualKeyboardKeymapDeadlineRemainingMs : Int32
  deriving Inhabited

/-- What the builders read.  Of `engine_order` the non-string items are absent; an entry of an
engine's configuration whose key cannot be a C string has no key. -/
structure View where
  version : CString
  engines : List CString
  info : CString → Option EngineInfo
  keyboardEngines : List CString
  voiceEngines : List CString
  orderedKeyboards : List CString
  activeKeyboard : Option ActiveEngine
  activeVoice : Option ActiveEngine
  engineOrder : List (Option CString)
  lastMode : Option EngineMode
  engineConfig : CString → Option (List (Option CString × ConfigValue))
  runtimeState : RuntimeState
  rimeSchema : Option CString
  configText : Option CString
  deriving Inhabited

def engineTypeName (voice : Bool) : CString := if voice then ascii "voice" else ascii "keyboard"

def modeClassName (latin : Bool) : CString := if latin then ascii "latin" else ascii "native"

def engineLabelFallback (name : Option CString) : CString :=
  match name with
  | none => []
  | some name =>
      if name = ascii "basic" then ascii "Basic"
      else if name = ascii "rime" then ascii "Rime"
      else if name = ascii "mozc" then ascii "Mozc"
      else if name = ascii "whisper" then ascii "Whisper"
      else if name = ascii "sherpa-onnx" then ascii "Sherpa ONNX"
      else name

def engineLabelFromInfo (info : Option EngineInfo) : CString :=
  match info with
  | none => engineLabelFallback none
  | some info =>
      match info.displayName with
      | none | some [] => engineLabelFallback info.name
      | some display => display

def engineName (engine : Option ActiveEngine) : Option CString :=
  (engine.bind ActiveEngine.info).bind EngineInfo.name

/-! ## Builders -/

/-- A `NULL` string is written as the empty string. -/
def appendNullable (text : Option CString) : CString := appendString (text.getD [])

def appendDouble : Printed → CString
  | .finite literal => literal.render
  | .infinite negative => (if negative then [45] else []) ++ ascii "inf"
  | .nan negative => (if negative then [45] else []) ++ ascii "nan"

def appendMember (name : CString) (value : CString) : CString := appendKey name ++ value

def buildVersion (view : View) : CString := appendString view.version

def buildActiveEngine (view : View) : CString := appendNullable (engineName view.activeKeyboard)

def buildActiveVoiceEngine (view : View) : CString := appendNullable (engineName view.activeVoice)

/-- A comma stands before every item but the one at index 0. -/
def buildStringArray (items : List CString) : CString :=
  leftBracket :: (items.zipIdx.flatMap fun (item, i) =>
    (if 0 < i then [comma] else []) ++ appendString item) ++ [rightBracket]

def buildAvailableKeyboardEngines (view : View) : CString := buildStringArray view.keyboardEngines

def buildAvailableEngines (view : View) : CString := buildStringArray view.engines

def buildOrderedKeyboardEngines (view : View) : CString := buildStringArray view.orderedKeyboards

def buildOrderedEngines (view : View) : CString := buildOrderedKeyboardEngines view

/-- The members written so far decide about the comma. -/
def displayNameMembers (view : View) : Bool → List CString → CString
  | _, [] => []
  | first, name :: later =>
      let display := engineLabelFromInfo (view.info name)
      if display = [] then displayNameMembers view first later
      else
        (if first then [] else [comma]) ++ appendMember name (appendString display) ++
          displayNameMembers view false later

def buildEngineDisplayNames (view : View) : CString :=
  leftBrace :: displayNameMembers view true view.engines ++ [rightBrace]

/-- A comma stands before every string but one at index 0. -/
def buildEngineOrder (view : View) : CString :=
  leftBracket :: (view.engineOrder.zipIdx.flatMap fun (name, i) =>
    match name with
    | none => []
    | some name => (if 0 < i then [comma] else []) ++ appendString name) ++ [rightBracket]

def buildAvailableVoiceEngines (view : View) : CString := buildStringArray view.voiceEngines

def appendConfigValue : ConfigValue → CString
  | .string text => appendNullable text
  | .int value => appendInt value.toInt
  | .bool value => appendBool value
  | .float printed => appendDouble printed
  | .array | .object => appendNull

def infoMembers (info : EngineInfo) : CString :=
  appendMember (ascii "name") (appendNullable info.name) ++ [comma] ++
    appendMember (ascii "display_name") (appendNullable info.displayName) ++ [comma] ++
    appendMember (ascii "icon") (appendNullable info.icon) ++ [comma] ++
    appendMember (ascii "language") (appendNullable info.language) ++ [comma] ++
    appendMember (ascii "engine_type") (appendString (engineTypeName info.voice)) ++ [comma] ++
    appendMember (ascii "capabilities") (appendInt info.capabilities.toNat)

/-- The mode as `ActiveEngineState` and `ActiveEngineMode` write it, under different names. -/
def modeMembers (classKey idKey labelKey iconKey : CString) (mode : EngineMode) : CString :=
  appendMember classKey (appendString (modeClassName mode.latin)) ++ [comma] ++
    appendMember idKey (appendNullable mode.modeId) ++ [comma] ++
    appendMember labelKey (appendNullable mode.displayLabel) ++ [comma] ++
    appendMember iconKey (appendNullable mode.iconName)

/-- The flag `first` is set once and never cleared, so that no comma is written between the
groups. -/
def buildActiveEngineState (view : View) : CString :=
  let first := true
  let separator := if first then [] else [comma]
  let engine := view.activeKeyboard
  leftBrace ::
    (match engine.bind ActiveEngine.info with
      | none => []
      | some info => infoMembers info) ++
    (match engine with
      | none => []
      | some engine => separator ++ appendMember (ascii "active") (appendBool engine.active)) ++
    (match engine.bind ActiveEngine.configPath with
      | none | some [] => []
      | some path => separator ++ appendMember (ascii "config_path") (appendString path)) ++
    (match view.lastMode with
      | none => []
      | some mode =>
          separator ++ modeMembers (ascii "mode_class") (ascii "mode_id")
            (ascii "mode_display_label") (ascii "mode_icon") mode) ++
    (match engineName engine with
      | none | some [] => []
      | some name =>
          ((view.engineConfig name).getD []).flatMap fun (key, value) =>
            match key with
            | none => []
            | some key =>
                separator ++ appendMember (ascii "config." ++ key) (appendConfigValue value)) ++
    [rightBrace]

def buildActiveEngineMode (view : View) : CString :=
  leftBrace ::
    (match view.lastMode with
      | none => []
      | some mode =>
          modeMembers (ascii "mode_class") (ascii "mode_id") (ascii "display_label")
            (ascii "icon_name") mode) ++
    [rightBrace]

def buildRuntimeState (view : View) : CString :=
  let state := view.runtimeState
  leftBrace ::
    appendMember (ascii "frontend_backend") (appendNullable state.frontendBackend) ++ [comma] ++
    appendMember (ascii "lifecycle_phase") (appendNullable state.lifecyclePhase) ++ [comma] ++
    appendMember (ascii "virtual_keyboard_state") (appendNullable state.virtualKeyboardState) ++
    [comma] ++
    appendMember (ascii "keyboard_grab_active") (appendBool state.keyboardGrabActive) ++ [comma] ++
    appendMember (ascii "virtual_keyboard_has_keymap")
      (appendBool state.virtualKeyboardHasKeymap) ++ [comma] ++
    appendMember (ascii "watchdog_armed") (appendBool state.watchdogArmed) ++ [comma] ++
    appendMember (ascii "active_key_generation")
      (appendInt state.activeKeyGeneration.toNat) ++ [comma] ++
    appendMember (ascii "virtual_keyboard_keymap_generation")
      (appendInt state.virtualKeyboardKeymapGeneration.toNat) ++ [comma] ++
    appendMember (ascii "virtual_keyboard_drop_count")
      (appendInt state.virtualKeyboardDropCount.toNat) ++ [comma] ++
    appendMember (ascii "virtual_keyboard_state_age_ms")
      (appendInt state.virtualKeyboardStateAgeMs.toNat) ++ [comma] ++
    appendMember (ascii "virtual_keyboard_keymap_age_ms")
      (appendInt state.virtualKeyboardKeymapAgeMs.toNat) ++ [comma] ++
    appendMember (ascii "virtual_keyboard_forward_age_ms")
      (appendInt state.virtualKeyboardForwardAgeMs.toNat) ++ [comma] ++
    appendMember (ascii "virtual_keyboard_keymap_deadline_remaining_ms")
      (appendInt state.virtualKeyboardKeymapDeadlineRemainingMs.toInt) ++ [rightBrace]

def buildRimeSchema (view : View) : CString := appendNullable view.rimeSchema

def buildConfigText (view : View) : CString := appendNullable view.configText

/-! ## Properties -/

inductive Property where
  | version
  | activeKeyboardEngine
  | activeEngine
  | availableKeyboardEngines
  | availableEngines
  | orderedKeyboardEngines
  | orderedEngines
  | engineDisplayNames
  | engineOrder
  | availableVoiceEngines
  | activeVoiceEngine
  | activeEngineState
  | activeEngineMode
  | runtimeState
  | rimeSchema
  | configText
  deriving DecidableEq, Repr

namespace Property

def name : Property → CString
  | version => ascii "Version"
  | activeKeyboardEngine => ascii "ActiveKeyboardEngine"
  | activeEngine => ascii "ActiveEngine"
  | availableKeyboardEngines => ascii "AvailableKeyboardEngines"
  | availableEngines => ascii "AvailableEngines"
  | orderedKeyboardEngines => ascii "OrderedKeyboardEngines"
  | orderedEngines => ascii "OrderedEngines"
  | engineDisplayNames => ascii "EngineDisplayNames"
  | engineOrder => ascii "EngineOrder"
  | availableVoiceEngines => ascii "AvailableVoiceEngines"
  | activeVoiceEngine => ascii "ActiveVoiceEngine"
  | activeEngineState => ascii "ActiveEngineState"
  | activeEngineMode => ascii "ActiveEngineMode"
  | runtimeState => ascii "RuntimeState"
  | rimeSchema => ascii "RimeSchema"
  | configText => ascii "ConfigText"

def build : Property → View → CString
  | version => buildVersion
  | activeKeyboardEngine | activeEngine => buildActiveEngine
  | availableKeyboardEngines => buildAvailableKeyboardEngines
  | availableEngines => buildAvailableEngines
  | orderedKeyboardEngines | orderedEngines => buildOrderedEngines
  | engineDisplayNames => buildEngineDisplayNames
  | engineOrder => buildEngineOrder
  | availableVoiceEngines => buildAvailableVoiceEngines
  | activeVoiceEngine => buildActiveVoiceEngine
  | activeEngineState => buildActiveEngineState
  | activeEngineMode => buildActiveEngineMode
  | runtimeState => buildRuntimeState
  | rimeSchema => buildRimeSchema
  | configText => buildConfigText

/-- The properties in the order of the table. -/
def table : List Property :=
  [version, activeKeyboardEngine, activeEngine, availableKeyboardEngines, availableEngines,
    orderedKeyboardEngines, orderedEngines, engineDisplayNames, engineOrder,
    availableVoiceEngines, activeVoiceEngine, activeEngineState, activeEngineMode, runtimeState,
    rimeSchema, configText]

end Property

def dispatchProperty (view : View) (property : CString) : Option CString :=
  (Property.table.find? (·.name == property)).map (·.build view)

/-- A comma stands before every member but the first. -/
def getAllJson (view : View) : CString :=
  leftBrace :: (Property.table.zipIdx.flatMap fun (property, i) =>
    (if 0 < i then [comma] else []) ++
      appendMember property.name ((dispatchProperty view property.name).getD appendNull)) ++
    [rightBrace]

/-! ## Methods -/

/-- The operations of the instance that the methods call; each tells whether it returned
`TYPIO_OK`. -/
structure Instance (σ : Type) where
  view : σ → View
  hasManager : σ → Bool
  setActive : CString → σ → σ × Bool
  next : σ → σ × Bool
  hasConfig : σ → Bool
  setDefaultEngine : CString → σ → σ
  saveConfig : σ → σ
  reloadConfig : σ → σ × Bool
  setConfigText : CString → σ → σ × Bool
  setRimeSchema : CString → σ → σ × Bool
  deployRimeConfig : σ → σ × Bool
  stop : Option (σ → σ)

section Methods

variable {σ : Type} (inst : Instance σ)

/-- The reply of a method which returned, with the message for its failure. -/
def reply (id : Int) (result : σ × Bool) (failure : String) : σ × CString :=
  if result.2 then (result.1, buildResponse id (some appendNull))
  else (result.1, buildError id (-32603) (ascii failure))

/-- The extractors return `NULL` for a `NULL` text. -/
def param (params : Option CString) (key : String) : Option CString :=
  params.bind fun params => extractString params (ascii key)

def handleGet (params : Option CString) (id : Int) (state : σ) : σ × CString :=
  match params with
  | none => (state, buildError 0 (-32602) (ascii "Invalid params"))
  | some params =>
      match extractString params (ascii "property") with
      | none => (state, buildError id (-32602) (ascii "Missing 'property' param"))
      | some property =>
          match dispatchProperty (inst.view state) property with
          | none => (state, buildError id (-32602) (ascii "Unknown property"))
          | some value => (state, value)

def handleGetall (state : σ) : σ × CString := (state, getAllJson (inst.view state))

def handleActivateEngine (params : Option CString) (id : Int) (state : σ) : σ × CString :=
  match param params "engine" with
  | none | some [] => (state, buildError id (-32602) (ascii "Missing 'engine' param"))
  | some engineName =>
      if !inst.hasManager state then
        (state, buildError id (-32603) (ascii "Engine manager not available"))
      else
        let (activated, ok) := inst.setActive engineName state
        if !ok then (activated, buildError id (-32603) (ascii "Failed to activate engine"))
        else
          let stored :=
            if inst.hasConfig activated then
              inst.saveConfig (inst.setDefaultEngine engineName activated)
            else activated
          (stored, buildResponse id (some appendNull))

def handleNextEngine (id : Int) (state : σ) : σ × CString :=
  if !inst.hasManager state then
    (state, buildError id (-32603) (ascii "Engine manager not available"))
  else reply id (inst.next state) "Failed to switch engine"

def handleReloadConfig (id : Int) (state : σ) : σ × CString :=
  reply id (inst.reloadConfig state) "Failed to reload config"

def handleStop (id : Int) (state : σ) : σ × CString :=
  match inst.stop with
  | none => (state, buildError id (-32603) (ascii "Stop callback not available"))
  | some stop => (stop state, buildResponse id (some appendNull))

def handleSetConfigText (params : Option CString) (id : Int) (state : σ) : σ × CString :=
  match param params "content" with
  | none => (state, buildError id (-32602) (ascii "Missing 'content' param"))
  | some text => reply id (inst.setConfigText text state) "Failed to save config"

def handleSetRimeSchema (params : Option CString) (id : Int) (state : σ) : σ × CString :=
  match param params "schema" with
  | none => (state, buildError id (-32602) (ascii "Missing 'schema' param"))
  | some schema =>
      let (persisted, ok) := inst.setRimeSchema schema state
      if !ok then (persisted, buildError id (-32603) (ascii "Failed to persist schema"))
      else reply id (inst.reloadConfig persisted) "Failed to reload after schema change"

def handleDeployRimeConfig (id : Int) (state : σ) : σ × CString :=
  reply id (inst.deployRimeConfig state) "Failed to deploy Rime config"

def handle (method : CString) (params : Option CString) (id : Int) (state : σ) : σ × CString :=
  if method = ascii "GetAll" then handleGetall inst state
  else if method = ascii "Get" then handleGet inst params id state
  else if method = ascii "ActivateEngine" then handleActivateEngine inst params id state
  else if method = ascii "NextEngine" then handleNextEngine inst id state
  else if method = ascii "ReloadConfig" then handleReloadConfig inst id state
  else if method = ascii "Stop" then handleStop inst id state
  else if method = ascii "SetConfigText" then handleSetConfigText inst params id state
  else if method = ascii "SetRimeSchema" then handleSetRimeSchema inst params id state
  else if method = ascii "DeployRimeConfig" then handleDeployRimeConfig inst id state
  else (state, buildError id (-32601) (ascii "Method not found"))

end Methods

end Status

end Typio
