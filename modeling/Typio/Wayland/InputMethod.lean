import Typio.Wayland.GrabEvents
import Typio.Wayland.Lifecycle

/-!
# Events of the input method

Activation and deactivation are double-buffered: they change the pending state and the phase, and
the next `done` event applies them.
-/

namespace Typio

/-- The input context `typio_input_context_new` creates. -/
def InputContext.new : InputContext where
  focused := false
  segments := []
  cursorPos := 0
  candidateCount := 0
  surroundingText := none
  surroundingCursor := 0
  surroundingAnchor := 0

namespace Session

/-- `typio_wl_session_create`, once the context exists. -/
def new : Session where
  ctx := InputContext.new
  pending :=
    { surroundingText := none, cursor := 0, anchor := 0, contentHint := 0, contentPurpose := 0,
      textChangeCause := 0, active := false }
  current :=
    { surroundingText := none, cursor := 0, anchor := 0, contentHint := 0, contentPurpose := 0 }
  lastPreeditText := none
  lastPreeditCursor := 0

/-- The session part of `typio_wl_session_reset`. -/
def reset (session : Session) : Session :=
  { session.resetTracking with
    pending :=
      { surroundingText := none, cursor := 0, anchor := 0, contentHint := 0,
        contentPurpose := 0, textChangeCause := 0, active := false } }

/-- `typio_wl_session_apply_pending`. -/
def applyPending (session : Session) : Session :=
  { session with
    current :=
      { surroundingText := session.pending.surroundingText
        cursor := session.pending.cursor
        anchor := session.pending.anchor
        contentHint := session.pending.contentHint
        contentPurpose := session.pending.contentPurpose }
    pending := { session.pending with surroundingText := none }
    ctx :=
      match session.pending.surroundingText with
      | none => session.ctx
      | some text =>
          -- the unsigned positions are converted to 32-bit integers
          { session.ctx with
            surroundingText := some text
            surroundingCursor := (session.pending.cursor : Int).bmod (2 ^ 32)
            surroundingAnchor := (session.pending.anchor : Int).bmod (2 ^ 32) } }

end Session

namespace Frontend

/-! ## Pending state -/

/-- `typio_wl_session_reset`. -/
def sessionReset (frontend : Frontend) : Frontend :=
  (frontend.setPopupUpdatePending false).updateSession Session.reset

/-- `pending.active` of the session. -/
def setPendingActive (frontend : Frontend) (active : Bool) : Frontend :=
  frontend.updateSession fun session =>
    { session with pending := { session.pending with active } }

/-- The part of `im_handle_activate` which runs once a session exists. -/
def activateSession (frontend : Frontend) : Frontend :=
  let frontend :=
    if shouldDeferActivate frontend.sessionIsFocused then
      frontend.setPendingReactivation true
    else (frontend.setPendingReactivation false).setPhase .activating
  frontend.sessionReset.setPendingActive true

/-- `im_handle_activate`. -/
def imHandleActivate (frontend : Frontend) : Frontend :=
  let frontend := frontend.log .imActivate
  match frontend.session with
  | some _ => frontend.activateSession
  | none =>
      if frontend.world.createsContext then
        (frontend.setSession (some Session.new)).activateSession
      else frontend

/-- `im_handle_deactivate`. -/
def imHandleDeactivate (frontend : Frontend) : Frontend :=
  ((frontend.setPendingReactivation false).setPhase .deactivating).setPendingActive false

/-- `im_handle_surrounding_text`. -/
def imHandleSurroundingText (frontend : Frontend) (text : Option Text) (cursor anchor : Nat) :
    Frontend :=
  frontend.updateSession fun session =>
    { session with pending := { session.pending with
        surroundingText := text, cursor := cursor, anchor := anchor } }

/-- `im_handle_text_change_cause`. -/
def imHandleTextChangeCause (frontend : Frontend) (cause : UInt32) : Frontend :=
  frontend.updateSession fun session =>
    { session with pending := { session.pending with textChangeCause := cause } }

/-- `im_handle_content_type`. -/
def imHandleContentType (frontend : Frontend) (hint purpose : UInt32) : Frontend :=
  frontend.updateSession fun session =>
    { session with pending := { session.pending with
        contentHint := hint, contentPurpose := purpose } }

/-- `im_handle_unavailable`. -/
def imHandleUnavailable (frontend : Frontend) : Frontend := frontend.stop

/-! ## Applying the pending state -/

/-- `frontend_has_non_routable_grab`. -/
def hasNonRoutableGrab (frontend : Frontend) (nowActive : Bool) : Bool :=
  frontend.keyboard.isSome &&
    (!nowActive || !frontend.sessionIsFocused || frontend.lifecyclePhase != .active)

/-- `rebuild_keyboard_grab`: whether there is a grab again. -/
def rebuildKeyboardGrab (frontend : Frontend) : Bool × Frontend :=
  let hadKeyboard := frontend.keyboard.isSome
  let frontend := frontend.hardResetKeyboard
  match frontend.keyboardCreate with
  | (none, frontend) => (false, frontend.setKeyboard none)
  | (some keyboard, frontend) =>
      let frontend := (frontend.setKeyboard (some keyboard)).vkExpectKeymap
      (true,
        if hadKeyboard then frontend
        else frontend.updateKeyboard fun keyboard => { keyboard with suppressStaleKeys := false })

/-- The end of an activation: the grab is rebuilt, and the phase tells whether it could be. -/
def regrab (frontend : Frontend) : Frontend :=
  let rebuilt := frontend.rebuildKeyboardGrab
  if rebuilt.1 then rebuilt.2.setPhase .active else rebuilt.2.setPhase .inactive

section Engine

variable (engine : Engine)

/-- `typio_wl_frontend_restore_identity_engine`. -/
def restoreIdentityEngine (frontend : Frontend) : Frontend :=
  match frontend.world.restoredEngine with
  | none => frontend
  | some active => (frontend.setActiveEngine active).callEngine engine

/-- `transition_to_active`. -/
def transitionToActive (frontend : Frontend) : Frontend :=
  let frontend := frontend.contextFocusIn engine
  let frontend := frontend.restoreIdentityEngine engine
  let frontend :=
    if frontend.inst.activeEngine.isNone then frontend.setPhase .active else frontend.regrab
  frontend.setPendingReactivation false

/-- `handle_reactivation`. -/
def handleReactivation (frontend : Frontend) : Frontend :=
  let frontend :=
    if frontend.inst.activeEngine.isNone then frontend else frontend.regrab
  frontend.setPendingReactivation false

/-- `transition_to_inactive`. -/
def transitionToInactive (frontend : Frontend) : Frontend :=
  let frontend := frontend.resetTextUiTracking
  let frontend := frontend.contextFocusOut engine
  let frontend := frontend.contextReset engine
  let frontend := frontend.log (.popup .hide)
  (frontend.hardResetKeyboard.setPhase .inactive).setPendingReactivation false

/-- `im_handle_done` without a focus transition: a stale grab is dropped. -/
def recoverStaleGrab (frontend : Frontend) (nowActive : Bool) : Frontend :=
  if frontend.hasNonRoutableGrab nowActive then
    if !nowActive || !frontend.sessionIsFocused then
      frontend.hardResetKeyboard.setPhase .inactive
    else frontend
  else frontend

/-- The serial counts the `done` event. -/
def countDone (frontend : Frontend) : Frontend :=
  { frontend with imSerial := (frontend.imSerial + 1) % 2 ^ 32 }.log .imDone

/-- `im_handle_done`. -/
def imHandleDone (frontend : Frontend) : Frontend :=
  let frontend := frontend.countDone
  match frontend.session with
  | none => frontend
  | some session =>
      let wasActive := frontend.sessionIsFocused
      let nowActive := session.pending.active
      let needsCleanup := shouldCleanupOnDone wasActive nowActive
      let needsReactivation :=
        shouldCommitReactivation frontend.pendingReactivation wasActive nowActive
      let frontend := frontend.updateSession Session.applyPending
      if nowActive && !wasActive then frontend.transitionToActive engine
      else if needsReactivation then frontend.handleReactivation
      else if needsCleanup then frontend.transitionToInactive engine
      else frontend.recoverStaleGrab nowActive

end Engine

/-! ## Resume -/

/-- The grab is rebuilt after a resume, through the phase `activating`. -/
def resumeRegrab (frontend : Frontend) : Frontend :=
  if frontend.inst.activeEngine.isNone then frontend
  else (frontend.setPhase .activating).regrab

/-- `typio_wl_input_method_handle_resume`. -/
def handleResume (frontend : Frontend) : Frontend :=
  let wasActive := frontend.sessionIsFocused && frontend.lifecyclePhase == .active
  let frontend := frontend.onResume
  if wasActive then frontend.resumeRegrab else frontend

end Frontend

end Typio
