import Mathlib.Logic.Function.Basic
import Typio.Engines.Mozc
import Typio.Engines.Rime

/-!
# An instance with both engines

The contexts of an instance, which of them has the focus, the active keyboard engine and the mode
the instance was last told.  An engine keeps its sessions in the contexts; Rime has one state for
all of them, from its first activation or deployment on.

The keys which were handed to librime are recorded, latest first, with the session they went to.
-/

namespace Typio

namespace Engines

open Typio.Core

inductive KeyboardEngine where
  | rime
  | mozc
  deriving DecidableEq, Repr

/-- A context of the instance, with the properties of both engines. -/
structure Client where
  context : InputContext
  focused : Bool
  rimeSession : Option RimeSession
  rimeProduced : CString
  mozcSession : Option MozcSession
  mozcProduced : CString
  mozcServer : TypioComposition

/-- A key which was handed to librime: the session, and what the instance had then. -/
structure HandedKey where
  session : LibrimeSession
  deployments : Nat
  recorded : CString
  deriving DecidableEq, Repr

/-- `recorded` is the schema of `typio_instance_dup_rime_schema`, empty if there is none. -/
structure EngineInstance where
  recorded : CString
  rime : Option RimeState
  active : Option KeyboardEngine
  focused : Option Nat
  lastMode : Option EngineMode
  clients : Nat → Client
  handed : List HandedKey

/-- The answers of the backends during one call into an engine. -/
structure Conduct where
  rime : RimeConduct
  mozc : MozcConduct

/-- The answers during the calls of a switch: `init`, `focus_out` of the engine which is left,
`reset`, `focus_in` and `get_mode` of the one which is entered. -/
structure SwitchConduct where
  init : Conduct
  left : Conduct
  cleared : Conduct
  entered : Conduct
  asked : Conduct

namespace Client

def new : Client where
  context := .new
  focused := false
  rimeSession := none
  rimeProduced := []
  mozcSession := none
  mozcProduced := []
  mozcServer := .idle

end Client

namespace RimeState

/-- `typio_rime_init`. -/
def init (recorded : CString) (conduct : RimeConduct) : RimeState :=
  (ensureDeployed { schema := recorded, maintenanceDone := false, deployId := 0, deployments := 0 }
    conduct).1

end RimeState

namespace EngineInstance

def new (recorded : CString) : EngineInstance where
  recorded := recorded
  rime := none
  active := none
  focused := none
  lastMode := none
  clients _ := .new
  handed := []

variable (inst : EngineInstance)

/-! ## Calls into the engines -/

def setClient (ctx : Nat) (client : Client) : EngineInstance :=
  { inst with clients := Function.update inst.clients ctx client }

def rimeHost (ctx : Nat) (state : RimeState) : RimeHost where
  state := state
  context := (inst.clients ctx).context
  session := (inst.clients ctx).rimeSession
  lastMode := inst.lastMode
  produced := (inst.clients ctx).rimeProduced

def mozcHost (ctx : Nat) : MozcHost where
  context := (inst.clients ctx).context
  session := (inst.clients ctx).mozcSession
  lastMode := inst.lastMode
  produced := (inst.clients ctx).mozcProduced
  server := (inst.clients ctx).mozcServer

def putRime (ctx : Nat) (host : RimeHost) : EngineInstance :=
  { inst.setClient ctx { inst.clients ctx with
      context := host.context, rimeSession := host.session, rimeProduced := host.produced } with
    rime := some host.state
    lastMode := host.lastMode }

def putMozc (ctx : Nat) (host : MozcHost) : EngineInstance :=
  { inst.setClient ctx { inst.clients ctx with
      context := host.context, mozcSession := host.session, mozcProduced := host.produced
      mozcServer := host.server } with
    lastMode := host.lastMode }

/-- A call into the Rime engine, which has a state once it is initialized. -/
def callRime (ctx : Nat) (call : RimeHost → RimeHost) : EngineInstance :=
  match inst.rime with
  | none => inst
  | some state => inst.putRime ctx (call (inst.rimeHost ctx state))

def callMozc (ctx : Nat) (call : MozcHost → MozcHost) : EngineInstance :=
  inst.putMozc ctx (call (inst.mozcHost ctx))

def engineFocusIn (engine : KeyboardEngine) (ctx : Nat) (conduct : Conduct) : EngineInstance :=
  match engine with
  | .rime => inst.callRime ctx (·.focusIn conduct.rime)
  | .mozc => inst.callMozc ctx (·.focusIn conduct.mozc)

def engineFocusOut (engine : KeyboardEngine) (ctx : Nat) (conduct : Conduct) : EngineInstance :=
  match engine with
  | .rime => inst.callRime ctx (·.focusOut conduct.rime)
  | .mozc => inst.callMozc ctx (·.focusOut conduct.mozc)

def engineReset (engine : KeyboardEngine) (ctx : Nat) (conduct : Conduct) : EngineInstance :=
  match engine with
  | .rime => inst.callRime ctx (·.reset conduct.rime)
  | .mozc => inst.callMozc ctx (·.reset conduct.mozc)

def engineSetMode (engine : KeyboardEngine) (ctx : Nat) (modeId : String) (conduct : Conduct) :
    EngineInstance :=
  match engine with
  | .rime => inst.callRime ctx fun host => (host.setMode modeId conduct.rime).1
  | .mozc => inst.callMozc ctx fun host => (host.setMode modeId conduct.mozc).1

/-- `get_mode`, and `typio_instance_notify_mode` of its result. -/
def engineAskMode (engine : KeyboardEngine) (ctx : Nat) (conduct : Conduct) : EngineInstance :=
  match engine with
  | .rime => inst.callRime ctx fun host =>
      let (asked, mode) := host.getMode conduct.rime
      { asked with lastMode := notifyMode asked.lastMode mode }
  | .mozc => inst.callMozc ctx fun host =>
      { host with lastMode := notifyMode host.lastMode host.getMode }

/-! ## The instance and its contexts -/

def modifyContext (ctx : Nat) (change : Client → Client) : EngineInstance :=
  inst.setClient ctx (change (inst.clients ctx))

/-- `typio_input_context_focus_in`. -/
def focusIn (ctx : Nat) (conduct : Conduct) : EngineInstance :=
  if (inst.clients ctx).focused then inst
  else
    let entered :=
      { inst.modifyContext ctx ({ · with focused := true }) with focused := some ctx }
    match inst.active with
    | none => entered
    | some engine => entered.engineFocusIn engine ctx conduct

/-- `typio_input_context_focus_out`. -/
def focusOut (ctx : Nat) (conduct : Conduct) : EngineInstance :=
  if !(inst.clients ctx).focused then inst
  else
    let left :=
      match inst.active with
      | none => inst
      | some engine => inst.engineFocusOut engine ctx conduct
    { left.modifyContext ctx ({ · with focused := false }) with focused := none }

/-- `typio_input_context_reset`. -/
def reset (ctx : Nat) (conduct : Conduct) : EngineInstance :=
  let cleared := inst.modifyContext ctx fun client =>
    { client with context := client.context.clear }
  match inst.active with
  | none => cleared
  | some engine => cleared.engineReset engine ctx conduct

/-- `typio_input_context_process_key`. -/
def processKey (ctx : Nat) (event : TypioKeyEvent) (conduct : Conduct) : EngineInstance :=
  match inst.active with
  | none => inst
  | some .mozc => inst.callMozc ctx fun host => (host.processKey event conduct.mozc).1
  | some .rime =>
      match inst.rime with
      | none => inst
      | some state =>
          let host := inst.rimeHost ctx state
          { inst.putRime ctx (host.processKey event conduct.rime).1 with
            handed :=
              ((host.handed event conduct.rime).toList.map fun (session, deployments) =>
                { session, deployments, recorded := inst.recorded }) ++ inst.handed }

/-- `set_mode` of the active engine. -/
def setMode (ctx : Nat) (modeId : String) (conduct : Conduct) : EngineInstance :=
  match inst.active with
  | none => inst
  | some engine => inst.engineSetMode engine ctx modeId conduct

/-! ## Switches, schemas and deployments -/

/-- An engine is initialized before its first use. -/
def initRime (conduct : RimeConduct) : EngineInstance :=
  match inst.rime with
  | some _ => inst
  | none => { inst with rime := some (.init inst.recorded conduct) }

def initEngine (engine : KeyboardEngine) (conduct : Conduct) : EngineInstance :=
  match engine with
  | .rime => inst.initRime conduct.rime
  | .mozc => inst

/-- `rebind_focused_context`. -/
def rebind (old : Option KeyboardEngine) (engine : KeyboardEngine) (conduct : SwitchConduct) :
    EngineInstance :=
  match inst.focused with
  | none => inst
  | some ctx =>
      let left :=
        match old with
        | none => inst
        | some old => inst.engineFocusOut old ctx conduct.left
      let cleared := { left with lastMode := none }
      ((cleared.engineReset engine ctx conduct.cleared).engineFocusIn engine ctx
        conduct.entered).engineAskMode engine ctx conduct.asked

/-- `typio_engine_manager_set_active`, for an engine whose `init` succeeds. -/
def switchTo (engine : KeyboardEngine) (conduct : SwitchConduct) : EngineInstance :=
  if inst.active = some engine then inst
  else
    let settled :=
      { inst.initEngine engine conduct.init with active := some engine, lastMode := none }
    settled.rebind inst.active engine conduct

/-- `typio_rime_reload_config`. -/
def reloadRime (deployRequested : Bool) (conduct : RimeConduct) : EngineInstance :=
  match inst.rime with
  | none => inst
  | some state =>
      let (maintained, running) :=
        if deployRequested then state.runMaintenance conduct else (state, true)
      if !running then { inst with rime := some maintained }
      else
        let reloaded := { inst with rime := some { maintained with schema := inst.recorded } }
        match inst.focused with
        | none => reloaded
        | some ctx => reloaded.callRime ctx (·.applyRuntimeConfig conduct)

/-- `typio_instance_reload_config`: first the configured engine becomes the active one. -/
def reloadConfig (configured : Option KeyboardEngine) (switch : SwitchConduct)
    (conduct : RimeConduct) : EngineInstance :=
  let switched :=
    match configured with
    | none => inst
    | some engine => inst.switchTo engine switch
  match switched.active with
  | some .rime => switched.reloadRime false conduct
  | some .mozc | none => switched

/-- `typio_instance_set_rime_schema`. -/
def setRimeSchema (schema : CString) : EngineInstance := { inst with recorded := schema }

/-- `typio_instance_deploy_rime_config`. -/
def deployRimeConfig (init conduct : RimeConduct) : EngineInstance :=
  (inst.initRime init).reloadRime true conduct

/-! ## Steps -/

inductive Input where
  | focusIn (ctx : Nat) (conduct : Conduct)
  | focusOut (ctx : Nat) (conduct : Conduct)
  | reset (ctx : Nat) (conduct : Conduct)
  | key (ctx : Nat) (event : TypioKeyEvent) (conduct : Conduct)
  | setMode (ctx : Nat) (modeId : String) (conduct : Conduct)
  | switchTo (engine : KeyboardEngine) (conduct : SwitchConduct)

def step (inst : EngineInstance) : Input → EngineInstance
  | .focusIn ctx conduct => inst.focusIn ctx conduct
  | .focusOut ctx conduct => inst.focusOut ctx conduct
  | .reset ctx conduct => inst.reset ctx conduct
  | .key ctx event conduct => inst.processKey ctx event conduct
  | .setMode ctx modeId conduct => inst.setMode ctx modeId conduct
  | .switchTo engine conduct => inst.switchTo engine conduct

/-! ## Backends which answer every call -/

/-- librime answers every call, and has nothing to say. -/
def quietConduct : Conduct :=
  let quiet : RimeReply := { context := none, asciiMode := false, notified := [] }
  let silent : MozcOutput :=
    { consumed := false, result := none, preedit := none, candidateWindow := none, mode := none
      statusMode := none }
  { rime :=
      { found := true, maintaining := false, stillMaintaining := false, built := true
        started := true, sync := false, created := some quiet, selected := (true, quiet)
        reselected := (true, quiet), cleared := quiet
        key := fun _ _ => { quiet with handled := true, text := [] }, optionSet := quiet }
    mozc :=
      { created := true, activated := { output := silent, received := true }
        reactivated := { output := silent, received := true }
        key := fun _ => { output := silent, received := true }
        command := { output := silent, received := true } } }

def quietSwitch : SwitchConduct where
  init := quietConduct
  left := quietConduct
  cleared := quietConduct
  entered := quietConduct
  asked := quietConduct

/-- The letter `a`. -/
def letter : TypioKeyEvent := { isRelease := false, keysym := 97, modifiers := 0 }

end EngineInstance

end Engines

end Typio
