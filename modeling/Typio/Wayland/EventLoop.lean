import Typio.Wayland.InputMethod

/-!
# The event loop

Binding and losing the Wayland objects, the reconciler's tick, and the events one turn of the
loop can bring.  A run of the frontend is a run of `step`.
-/

namespace Typio

/-- What becomes of the virtual keyboard when the globals are bound. -/
inductive VkOutcome
  | noManager
  | created
  | failed
  deriving DecidableEq

/-- One attempt to bind after the connection was lost. -/
inductive BindOutcome
  /-- A stop was requested before the attempt. -/
  | stopped
  /-- A hard failure; what was bound is unbound again. -/
  | failed
  | bound (vk : VkOutcome)
  deriving DecidableEq

/-- `TYPIO_WL_RECONNECT_MAX_ATTEMPTS`. -/
def reconnectMaxAttempts : Nat := 12

namespace Frontend

/-! ## Binding -/

@[simps] def setConnected (frontend : Frontend) (display inputMethod : Bool) : Frontend :=
  { frontend with display, inputMethod }

def setVkPresent (frontend : Frontend) (present : Bool) : Frontend :=
  frontend.updateVk fun vk => { vk with present }

/-- `frontend_wayland_bind`, when it succeeds. -/
def waylandBind (frontend : Frontend) (vk : VkOutcome) : Frontend :=
  let frontend := (frontend.setConnected true true).log .imCreate
  match vk with
  | .noManager => frontend.vkSetState .absent
  | .created =>
      ((frontend.setVkPresent true).vkSetState .needsKeymap).log .vkCreate
  | .failed => frontend.vkSetState .broken

/-- The virtual keyboard part of `frontend_wayland_unbind`. -/
def unbindVk (frontend : Frontend) : Frontend :=
  if frontend.vk.present then
    ((frontend.vkSetState .absent).log .vkDestroy).setVkPresent false
  else frontend

/-- The input method part of `frontend_wayland_unbind`. -/
def unbindInputMethod (frontend : Frontend) : Frontend :=
  if frontend.inputMethod then (frontend.setConnected frontend.display false).log .imDestroy
  else frontend

/-- `frontend_wayland_unbind`. -/
def waylandUnbind (frontend : Frontend) : Frontend :=
  let frontend := frontend.keyboardDestroy.unbindVk.unbindInputMethod
  frontend.setConnected false frontend.inputMethod

/-- The baseline `typio_wl_frontend_reconnect` sets after unbinding; the phase is assigned
directly. -/
def reconnectBaseline (frontend : Frontend) : Frontend :=
  let frontend := { frontend with
    lifecyclePhase := .inactive
    pendingReactivation := false
    reconcileDivergenceSinceMs := 0
    carriedVkModifiers := false }
  (frontend.disownGeneration.bumpKeyGeneration).updateTracking KeyTracking.reset

/-- The loop resumes. -/
@[simps] def setRunning (frontend : Frontend) : Frontend := { frontend with running := true }

/-- The attempts of `typio_wl_frontend_reconnect`: whether one of them bound. -/
def reconnectAttempts (frontend : Frontend) : List BindOutcome → Bool × Frontend
  | [] => (false, frontend)
  | outcome :: outcomes =>
      if frontend.running = false then (false, frontend)
      else
        match outcome with
        | .stopped => (false, frontend.stop)
        | .failed => frontend.reconnectAttempts outcomes
        | .bound vk => (true, (frontend.waylandBind vk).setRunning)

/-- `typio_wl_frontend_reconnect`. -/
def reconnect (frontend : Frontend) (outcomes : List BindOutcome) : Bool × Frontend :=
  frontend.waylandUnbind.reconnectBaseline.reconnectAttempts (outcomes.take reconnectMaxAttempts)

/-- `event_loop_recover`. -/
def eventLoopRecover (frontend : Frontend) (outcomes : List BindOutcome) : Frontend :=
  let reconnected := frontend.reconnect outcomes
  if reconnected.1 then reconnected.2 else reconnected.2.stop

/-! ## Reconciler -/

/-- The `agree` of `typio_wl_reconcile_tick`: without an active engine a missing grab is no
divergence. -/
def reconcileAgrees (frontend : Frontend) : Bool :=
  frontend.observe.agrees frontend.lifecyclePhase ||
    (frontend.observe.focus == .focused && frontend.observe.grab == .none &&
      frontend.inst.activeEngine.isNone)

/-- The decision of `typio_wl_reconcile_tick`. -/
def reconcileDecision (frontend : Frontend) : ReconcileAction × Nat :=
  reconcileDecide frontend.reconcileAgrees frontend.world.now
    frontend.reconcileDivergenceSinceMs reconcileThresholdMs

@[simps] def setDivergence (frontend : Frontend) (since : Nat) : Frontend :=
  { frontend with reconcileDivergenceSinceMs := since }

/-- `typio_wl_reconcile_tick`. -/
def reconcileTick (frontend : Frontend) : Frontend :=
  let decision := frontend.reconcileDecision
  let frontend := frontend.setDivergence decision.2
  if decision.1 = .repair then frontend.handleResume else frontend

end Frontend

/-! ## Events -/

/-- What can happen to the frontend.  Events which carry the answers of XKB carry any answers. -/
inductive Event
  | activate
  | deactivate
  | surroundingText (text : Option Text) (cursor anchor : Nat)
  | textChangeCause (cause : UInt32)
  | contentType (hint purpose : UInt32)
  | done
  | unavailable
  | keymap (loaded : Option Xkb)
  | key (time key : Nat) (pressed : Bool) (keysym : Keysym) (unicode : UInt32)
      (xkbModifiers : Modifiers)
  | modifiers (depressed latched locked group : UInt32) (previous current : Modifiers)
  | repeatInfo (rate : Int)
  | repeatTimer (expired : Bool) (keysym : Keysym) (unicode : UInt32) (xkbModifiers : Modifiers)
  | resume
  | reconcileTick
  | flushPopup
  | healthCheck
  | dispatched
  | disconnected (outcomes : List BindOutcome)
  /-- An engine acts on the context outside a key event, as a voice result does. -/
  | contextCalls (calls : List ContextCall)
  | reloadShortcuts (shortcuts : ShortcutConfig)
  | changeInstance (inst : Instance)
  | changeWorld (world : World)

namespace Frontend

/-- Events of the grab arrive while the grab object exists. -/
def onGrab (frontend : Frontend) (handle : Frontend → Frontend) : Frontend :=
  if frontend.keyboard.any (·.grab) then handle frontend else frontend

section Engine

variable (engine : Engine)

/-- The handler of an event. -/
def handle (frontend : Frontend) : Event → Frontend
  | .activate => frontend.imHandleActivate
  | .deactivate => frontend.imHandleDeactivate
  | .surroundingText text cursor anchor => frontend.imHandleSurroundingText text cursor anchor
  | .textChangeCause cause => frontend.imHandleTextChangeCause cause
  | .contentType hint purpose => frontend.imHandleContentType hint purpose
  | .done => frontend.imHandleDone engine
  | .unavailable => frontend.imHandleUnavailable
  | .keymap loaded => frontend.onGrab (·.onKeymap loaded)
  | .key time key pressed keysym unicode xkbModifiers =>
      frontend.onGrab (·.onKey engine time key pressed keysym unicode xkbModifiers)
  | .modifiers depressed latched locked group previous current =>
      frontend.onGrab (·.onModifiers depressed latched locked group previous current)
  | .repeatInfo rate => frontend.onGrab (·.onRepeatInfo rate)
  | .repeatTimer expired keysym unicode xkbModifiers =>
      frontend.dispatchRepeat engine expired keysym unicode xkbModifiers
  | .resume => frontend.handleResume
  | .reconcileTick => frontend.reconcileTick
  | .flushPopup => frontend.flushPendingPopup
  | .healthCheck => frontend.vkHealthCheck
  | .dispatched => { frontend with dispatchEpoch := frontend.dispatchEpoch + 1 }
  | .disconnected outcomes => frontend.eventLoopRecover outcomes
  | .contextCalls calls => calls.foldl contextCall frontend
  | .reloadShortcuts shortcuts => { frontend with shortcuts }
  | .changeInstance inst => { frontend with inst }
  | .changeWorld world => { frontend with world }

/-- One event; without a display the loop has ended. -/
def step (frontend : Frontend) (event : Event) : Frontend :=
  if frontend.display then frontend.handle engine event else frontend

end Engine

/-- The zeroed frontend of `typio_wl_frontend_new`. -/
def zeroed (inst : Instance) (shortcuts : ShortcutConfig) (world : World) : Frontend where
  inst := inst
  display := false
  inputMethod := false
  vk := { present := false, state := .absent, keymapGeneration := 0, keymapDeadlineMs := 0 }
  tracking := KeyTracking.initial
  keyboard := none
  session := none
  imSerial := 0
  dispatchEpoch := 0
  running := true
  lifecyclePhase := .inactive
  pendingReactivation := false
  reconcileDivergenceSinceMs := 0
  popupUpdatePending := false
  carriedVkModifiers := false
  guardRejectPressStreak := 0
  guardRejectPressWindowStartMs := 0
  shortcuts := shortcuts
  world := world
  engineCalls := 0
  trace := []

/-- The frontend when `typio_wl_frontend_run` starts its loop. -/
def start (inst : Instance) (shortcuts : ShortcutConfig) (world : World) (vk : VkOutcome) :
    Frontend :=
  (zeroed inst shortcuts world).waylandBind vk

/-- A focused frontend which has grabbed the keyboard and passed its keymap on. -/
def attended (inst : Instance) (shortcuts : ShortcutConfig) (world : World) : Frontend :=
  { zeroed inst shortcuts world with
    display := true
    inputMethod := true
    vk := { present := true, state := .ready, keymapGeneration := 1, keymapDeadlineMs := 0 }
    tracking := { KeyTracking.initial with activeKeyGeneration := 1 }
    keyboard := some { Keyboard.fresh 0 true with suppressStaleKeys := false }
    session := some { Session.new with ctx := { InputContext.new with focused := true } }
    imSerial := 1
    lifecyclePhase := .active }

end Frontend

/-- A world in which every call succeeds. -/
def World.obliging (now : Nat) : World where
  now := now
  createsContext := true
  allocatesKeyboard := true
  grabsKeyboard := true
  createsTimer := true
  duplicatesKeymap := true
  presentRetryPending := false
  restoredEngine := none

end Typio
