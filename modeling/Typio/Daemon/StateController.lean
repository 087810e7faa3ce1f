import Typio.Core.EngineSwitch
import Typio.Core.Instance

/-!
# The state controller

The daemon keeps a copy of the runtime state for its listeners: the names of the active engines,
the status icon, and the mode.  The callbacks of the instance keep the copy up to date, and a sync
reads everything again but the mode, which it drops.
-/

namespace Typio

namespace Daemon

open Typio.Core

/-- What the manager shows of the engine in a slot: `typio_engine_manager_get_active` and
`typio_engine_manager_get_active_voice`. -/
def activeEngine (manager : EngineManager) (slot : Slot) : Option EngineInfo :=
  (manager.occupant slot).bind fun entry => if entry.engine.isSome then entry.info else none

/-- The engine in a slot has an instance. -/
theorem activeEngine_of_live {manager : EngineManager} (live : manager.Live) (slot : Slot) :
    activeEngine manager slot = (manager.occupant slot).bind EngineEntry.info := by
  cases set : manager.active slot with
  | none => simp [activeEngine, EngineManager.occupant, set]
  | some place =>
      obtain ⟨entry, here, -, -, engine, cached, -⟩ := live slot place set
      have occupied : manager.occupant slot = some entry := by
        rw [EngineManager.occupant, set]
        exact here
      rw [activeEngine, occupied, Option.bind_some, Option.bind_some, Option.mem_def.mp cached]
      rfl

/-- `TypioStateController` without its listeners. -/
structure StateController where
  activeEngineName : Option String
  activeEngineDisplayName : Option String
  activeVoiceEngineName : Option String
  activeVoiceEngineDisplayName : Option String
  statusIcon : Option String
  engineActive : Bool
  mode : Option EngineMode
  deriving DecidableEq, Repr

namespace StateController

/-- `typio_state_strdup`, for which an empty string is no string. -/
def stateStrdup (text : Option String) : Option String := text.filter (· ≠ "")

/-- The dynamic icon takes precedence, then the engine's static icon, then the default. -/
def evaluateIcon (dynamic : Option String) (info : Option EngineInfo) : String :=
  ((stateStrdup dynamic).or (stateStrdup (info.bind EngineInfo.icon))).getD "typio-keyboard"

def new : StateController where
  activeEngineName := none
  activeEngineDisplayName := none
  activeVoiceEngineName := none
  activeVoiceEngineDisplayName := none
  statusIcon := none
  engineActive := false
  mode := none

def notifyEngineChanged (ctrl : StateController) (inst : Instance) (info : EngineInfo) :
    StateController :=
  { ctrl with
    activeEngineName := some info.name
    activeEngineDisplayName := info.displayName
    statusIcon := some (evaluateIcon inst.lastStatusIcon (some info))
    engineActive := (activeEngine inst.manager .keyboard).isSome }

def notifyVoiceEngineChanged (ctrl : StateController) (info : EngineInfo) : StateController :=
  { ctrl with
    activeVoiceEngineName := some info.name
    activeVoiceEngineDisplayName := info.displayName }

/-- The copy that `typio_state_controller_set_mode` makes. -/
def copyMode (mode : EngineMode) : EngineMode where
  modeClass := mode.modeClass
  modeId := stateStrdup mode.modeId
  displayLabel := stateStrdup mode.displayLabel
  iconName := stateStrdup mode.iconName

def notifyModeChanged (ctrl : StateController) (mode : EngineMode) : StateController :=
  { ctrl with mode := some (copyMode mode) }

def notifyStatusIconChanged (ctrl : StateController) (icon : String) : StateController :=
  { ctrl with statusIcon := stateStrdup (some icon) }

/-- `typio_state_controller_sync`.  The mode cannot be asked for, so it is cleared until the next
notification. -/
def sync (inst : Instance) : StateController where
  activeEngineName := stateStrdup ((activeEngine inst.manager .keyboard).map EngineInfo.name)
  activeEngineDisplayName := (activeEngine inst.manager .keyboard).bind EngineInfo.displayName
  activeVoiceEngineName := stateStrdup ((activeEngine inst.manager .voice).map EngineInfo.name)
  activeVoiceEngineDisplayName := (activeEngine inst.manager .voice).bind EngineInfo.displayName
  statusIcon := some (evaluateIcon inst.lastStatusIcon (activeEngine inst.manager .keyboard))
  engineActive := (activeEngine inst.manager .keyboard).isSome
  mode := none

/-- The engine name reported for a slot. -/
def engineName (ctrl : StateController) : Slot → Option String
  | .keyboard => ctrl.activeEngineName
  | .voice => ctrl.activeVoiceEngineName

end StateController

end Daemon

end Typio
