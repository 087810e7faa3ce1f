import Typio.Config.ConfigText
import Typio.Daemon.IdentityRestore

/-!
# Reloading the configuration with the engines

Once the configuration is replaced, the default engine is activated if another keyboard engine is
active, the active engine reads its configuration, and the default voice engine is activated if
another voice engine is.  The daemon tries the voice engine once more when its watch reloads the
configuration.
-/

namespace Typio

namespace Daemon

open Typio.Core Config StrSlice

variable {Float : Type}

/-! ## The settings -/

/-- `to_string_lossy`. -/
def engineNameOf : CString → String
  | .utf8 text => String.ofList text
  | .other bytes => String.ofList (Utf8Lossy.decodeLossy bytes)

def defaultEngineKey : Str := "default_engine".toList

def defaultVoiceEngineKey : Str := "default_voice_engine".toList

def preferencesKey : Str := "keyboard.per_app_preferences".toList

/-- The string under the key as the name of an engine, unless it is empty. -/
def configuredEngine (config : Entries Float) (key : Str) : Option String :=
  ((getString config key none).map engineNameOf).filter (· ≠ "")

/-! ## The engines -/

/-- What the code of the engines answers during a reload. -/
structure ReloadCalls where
  behaviour : Behaviour
  /-- The switch to the default engine. -/
  keyboard : Calls
  /-- The switch to the default voice engine. -/
  voice : Calls
  /-- The notices which `reload_config` of a keyboard engine gives. -/
  reloadConfig : String → List Notice

/-- Who reloads: the instance, or the daemon, which goes on with the voice engine. -/
inductive Reloader where
  | inst
  | daemon (voice : Calls) (reloadConfig : String → List Notice)

namespace Host

variable (host : Host)

def engineName (slot : Slot) : Option String :=
  (activeEngine host.inst.manager slot).map EngineInfo.name

/-- The engine is activated, if one is named and another one is active. -/
def attempt (behaviour : Behaviour) (slot : Slot) (name : Option String) (calls : Calls) : Host :=
  match name with
  | none => host
  | some name =>
      if host.engineName slot = some name then host
      else
        match slot with
        | .keyboard => (host.setActive App.onCallback behaviour name calls).1
        | .voice => (host.setActiveVoice App.onCallback behaviour name calls).1

/-- `reload_config` of the active engine is called. -/
def reloadActive (slot : Slot) (given : String → List Notice) : Host :=
  match host.entryAt (host.inst.manager.active slot) with
  | none => host
  | some entry =>
      (given entry.name).foldl (fun host notice => host.notice App.onCallback entry.name notice)
        host

/-- The end of `typio_instance_reload_config`. -/
def reloadInstance (calls : ReloadCalls) (default defaultVoice : Option String) : Host :=
  ((host.attempt calls.behaviour .keyboard default calls.keyboard).reloadActive .keyboard
    calls.reloadConfig).attempt calls.behaviour .voice defaultVoice calls.voice

/-- The end of `runtime_config_refresh`, where the voice session reloads the engine as well. -/
def reloadWith (reloader : Reloader) (calls : ReloadCalls) (default defaultVoice : Option String) :
    Host :=
  let reloaded := host.reloadInstance calls default defaultVoice
  match reloader with
  | .inst => reloaded
  | .daemon voice reloadConfig =>
      (reloaded.attempt calls.behaviour .voice defaultVoice voice).reloadActive .voice reloadConfig

/-- What a reload does to the engines once the configuration is in place. -/
def reloadEngines (reloader : Reloader) (calls : ReloadCalls) (config : Entries Float) : Host :=
  (host.updateFrontend fun frontend =>
    { frontend with preferences := getBool config preferencesKey true }).reloadWith reloader calls
      (configuredEngine config defaultEngineKey) (configuredEngine config defaultVoiceEngineKey)

/-- What is remembered for the focused application, if it is known. -/
def remembered : Option IdentityMemory :=
  host.owner.frontend.bind fun frontend => frontend.currentIdentity.map frontend.memory

end Host

/-! ## The two calls -/

section Calls

variable (toml : Str → Option (TomlValue Float)) (parseF64 : Str → Option Float)
  (floatText : Float → Str) (outside : Surroundings Float)

/-- A reload of the file, or a text which replaces the configuration. -/
inductive ConfigCall where
  | reloadConfig
  | setConfigText (content : List UInt8)

/-- The call with what it does to the engines. -/
def ConfigCall.run (reloader : Reloader) (calls : ReloadCalls) (inst : TypioInstance Float Host) :
    ConfigCall → Except Panic (TypioResult × TypioInstance Float Host)
  | .reloadConfig =>
      Config.reloadConfig toml parseF64
        (fun config host => host.reloadEngines reloader calls config) outside inst
  | .setConfigText content =>
      Config.setConfigText toml parseF64 floatText
        (fun config host => host.reloadEngines reloader calls config) outside inst (some content)

end Calls

end Daemon

end Typio
