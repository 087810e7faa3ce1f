import Typio.Daemon.Identity

/-!
# The daemon around an instance

The daemon's callbacks remember modes and engines for the focused application, keep the state
controller up to date, and have its listeners report the state.  When an application gains the
focus, the engine and the mode remembered for it are restored.

The pairs of engine and mode which the daemon wrote and reported are kept for the statements; no
function reads them.
-/

namespace Typio

namespace Daemon

open Typio.Core

/-- An engine with what was said of its mode, and the log as it was then. -/
structure Attribution (μ : Type) where
  engine : String
  mode : μ
  log : List LogEntry
  deriving DecidableEq, Repr

/-- `TypioDaemonApp`. -/
structure App where
  controller : StateController
  frontend : Option IdentityFrontend
  remembered : List (Attribution String)
  reported : List (Attribution EngineMode)

namespace App

def new (frontend : Option IdentityFrontend) : App where
  controller := StateController.new
  frontend := frontend
  remembered := []
  reported := []

/-- The listeners report the active engine and the last mode of the instance. -/
def report (app : App) (inst : Instance) : App :=
  match activeEngine inst.manager .keyboard, inst.lastMode with
  | some info, some mode => { app with reported := ⟨info.name, mode, inst.log⟩ :: app.reported }
  | _, _ => app

/-- The memory part of `typio_daemon_on_mode_change`. -/
def rememberMode (app : App) (inst : Instance) (mode : EngineMode) : App :=
  match app.frontend, activeEngine inst.manager .keyboard, mode.modeId.filter (· ≠ "") with
  | some frontend, some info, some modeId =>
      { app with
        frontend := some (frontend.rememberActiveMode info.name modeId)
        remembered :=
          if frontend.remembering.isSome ∧ info.name ≠ "" then
            ⟨info.name, modeId, inst.log⟩ :: app.remembered
          else app.remembered }
  | _, _, _ => app

/-- The memory part of `typio_daemon_on_engine_change`. -/
def rememberEngine (app : App) (inst : Instance) : App :=
  match activeEngine inst.manager .keyboard with
  | none => app
  | some info =>
      { app with
        frontend := app.frontend.map fun frontend => frontend.rememberActiveEngine info.name }

def updateController (app : App) (update : StateController → StateController) : App :=
  { app with controller := update app.controller }

/-- `typio_daemon_on_mode_change` and the other callbacks. -/
def onCallback : Handler App := fun inst callback app =>
  match callback with
  | .modeChanged mode =>
      ((app.rememberMode inst mode).updateController (·.notifyModeChanged mode)).report inst
  | .statusIconChanged icon =>
      (app.updateController (·.notifyStatusIconChanged icon)).report inst
  | .engineChanged info =>
      ((app.updateController (·.notifyEngineChanged inst info)).report inst).rememberEngine inst
  | .voiceEngineChanged info =>
      (app.updateController (·.notifyVoiceEngineChanged info)).report inst

/-- The memory of the focused application, if the daemon looks at it. -/
def currentMemory (app : App) : Option IdentityMemory :=
  app.frontend.bind fun frontend => frontend.remembering.map frontend.memory

end App

/-- The daemon with its instance. -/
abbrev Host := Hosted App

namespace Host

variable (host : Host)

def updateFrontend (update : IdentityFrontend → IdentityFrontend) : Host :=
  { host with owner := { host.owner with frontend := host.owner.frontend.map update } }

def sync : Host :=
  { host with
    owner := (host.owner.updateController fun _ => StateController.sync host.inst).report host.inst }

/-- `typio_wl_frontend_refresh_identity`, given what the provider answers. -/
def refreshIdentity (identity : Option String) : Host :=
  host.updateFrontend fun frontend => { frontend with currentIdentity := identity }

/-- `identity_restore_mode`. -/
def identityRestoreMode (behaviour : Behaviour) : Host :=
  match host.owner.currentMemory.bind IdentityMemory.loadMode, host.activeKeyboard with
  | some (engine, modeId), some entry =>
      if (activeEngine host.inst.manager .keyboard).map EngineInfo.name ≠ some engine ∨
          (entry.engine.any Engine.asKeyboard && behaviour.canSetMode entry.name) = false then host
      else
        let asked := host.callEngine App.onCallback behaviour entry.name .getMode
        if (behaviour.mode entry.name).any fun mode => mode.modeId = some modeId then asked
        else asked.callEngine App.onCallback behaviour entry.name (.setMode modeId)
  | _, _ => host

/-- `typio_wl_frontend_restore_identity_engine`. -/
def restoreIdentityEngine (behaviour : Behaviour) (calls : Calls) : Host :=
  match host.owner.currentMemory with
  | none => host
  | some memory =>
      match memory.loadEngine with
      | none => host.identityRestoreMode behaviour
      | some engine =>
          if (activeEngine host.inst.manager .keyboard).map EngineInfo.name = some engine then
            host.identityRestoreMode behaviour
          else
            identityRestoreMode (host.setActive App.onCallback behaviour engine calls).1 behaviour

/-- The focus part of `transition_to_active`. -/
def transitionToActive (identity : Option String) (behaviour : Behaviour) (calls : Calls) : Host :=
  restoreIdentityEngine
    (refreshIdentity (host.contextFocusIn App.onCallback behaviour) identity) behaviour calls

/-- The focus part of `transition_to_inactive`. -/
def transitionToInactive (behaviour : Behaviour) : Host :=
  refreshIdentity
    ((host.contextFocusOut App.onCallback behaviour).contextReset App.onCallback behaviour) none

end Host

/-- What happens to the daemon. -/
inductive Event where
  | inst (event : Hosted.Event)
  | sync
  | activated (identity : Option String) (behaviour : Behaviour) (calls : Calls)
  | deactivated (behaviour : Behaviour)
  | preferences (enabled : Bool)

def step (host : Host) : Event → Host
  | .inst event => host.step App.onCallback event
  | .sync => host.sync
  | .activated identity behaviour calls => host.transitionToActive identity behaviour calls
  | .deactivated behaviour => host.transitionToInactive behaviour
  | .preferences enabled =>
      host.updateFrontend fun frontend => { frontend with preferences := enabled }

/-! ## The manager of the daemon -/

theorem Host.identityRestoreMode_manager (host : Host) (behaviour : Behaviour) :
    (host.identityRestoreMode behaviour).inst.manager = host.inst.manager := by
  have called (host : Host) (engine : String) (call : EngineCall) :
      (host.callEngine App.onCallback behaviour engine call).inst.manager = host.inst.manager :=
    (Hosted.Still.callEngine App.onCallback behaviour host engine call).manager
  unfold Host.identityRestoreMode
  split
  · split
    · rfl
    dsimp only
    split
    · exact called ..
    · rw [called, called]
  · rfl

theorem Host.restoreIdentityEngine_manager (host : Host) (behaviour : Behaviour) (calls : Calls) :
    (host.restoreIdentityEngine behaviour calls).inst.manager = host.inst.manager ∨
      ∃ engine, (host.restoreIdentityEngine behaviour calls).inst.manager =
        (host.inst.manager.setActive engine calls).1 := by
  unfold Host.restoreIdentityEngine
  split
  · exact .inl rfl
  split
  · exact .inl (Host.identityRestoreMode_manager host behaviour)
  next engine _ =>
    split
    · exact .inl (Host.identityRestoreMode_manager host behaviour)
    · refine .inr ⟨engine, ?_⟩
      rw [Host.identityRestoreMode_manager, Hosted.setActive_manager]

/-- A step does to the manager what some operation does, if it does anything to it. -/
theorem step_manager (host : Host) (event : Event) :
    (step host event).inst.manager = host.inst.manager ∨
      ∃ operation, (step host event).inst.manager = host.inst.manager.registryStep operation := by
  cases event with
  | sync => exact .inl rfl
  | preferences enabled => exact .inl rfl
  | deactivated behaviour =>
      refine .inl ?_
      change (Hosted.contextReset App.onCallback behaviour _).inst.manager = _
      rw [Hosted.contextReset, Hosted.callEntry_manager, Hosted.contextFocusOut_manager]
  | activated identity behaviour calls =>
      have entered := Hosted.contextFocusIn_manager App.onCallback behaviour host
      obtain same | ⟨engine, switched⟩ := Host.restoreIdentityEngine_manager
        (Host.refreshIdentity (host.contextFocusIn App.onCallback behaviour) identity) behaviour calls
      · exact .inl (same.trans entered)
      · exact .inr ⟨.operation (.setActive engine calls), switched.trans
          (congrArg (fun manager => (manager.setActive engine calls).1) entered)⟩
  | inst event =>
      cases event with
      | manage operation behaviour =>
          exact .inr ⟨operation, Hosted.manage_manager App.onCallback behaviour host operation⟩
      | focusIn behaviour => exact .inl (Hosted.contextFocusIn_manager ..)
      | focusOut behaviour => exact .inl (Hosted.contextFocusOut_manager ..)
      | reset behaviour => exact .inl (Hosted.callEntry_manager ..)
      | clearMode => exact .inl rfl
      | notice engine given =>
          exact .inl (Hosted.Still.notice App.onCallback host engine given).manager

end Daemon

end Typio
