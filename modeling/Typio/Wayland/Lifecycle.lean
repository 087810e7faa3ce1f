import Typio.Wayland.Keyboard

/-!
# Lifecycle helpers

Phase changes, the hard reset of the keyboard at a boundary, the scrub after a resume, and the
observation of the real state which the reconciler compares with the declared phase.
-/

namespace Typio

namespace Frontend

/-- `typio_wl_lifecycle_set_phase`. -/
def setPhase (frontend : Frontend) (phase : Phase) : Frontend :=
  { frontend with lifecyclePhase := phase }.log (.phase frontend.lifecyclePhase phase)

/-- The keys and modifiers which `typio_wl_lifecycle_hard_reset_keyboard` releases or carries
over when the current generation owned keys. -/
def settleOwnGeneration (frontend : Frontend) : Frontend :=
  let frontend := frontend.vkReleaseForwardedKeys
  match frontend.keyboard with
  | none => frontend.vkResetModifiers
  | some keyboard =>
      if shouldCarryModifiers frontend.lifecyclePhase true keyboard.modsDepressed
          keyboard.modsLatched keyboard.modsLocked then
        (frontend.vkForwardModifiers keyboard.modsDepressed keyboard.modsLatched
          keyboard.modsLocked keyboard.modsGroup).setCarriedVkModifiers true
      else frontend.vkResetModifiers

/-- `typio_wl_lifecycle_hard_reset_keyboard`. -/
def hardResetKeyboard (frontend : Frontend) : Frontend :=
  let ownCurrentGeneration := frontend.tracking.activeGenerationOwnedKeys
  let frontend :=
    if shouldResetCarriedModifiers frontend.lifecyclePhase frontend.carriedVkModifiers then
      frontend.vkResetModifiers
    else frontend
  let frontend := if ownCurrentGeneration then frontend.settleOwnGeneration else frontend
  let frontend := frontend.keyboardDestroy
  frontend.vkCancelKeymapWait.disownGeneration

/-- The keyboard part of `typio_wl_lifecycle_on_resume`. -/
def scrubKeyboard (frontend : Frontend) : Frontend :=
  let frontend := frontend.hardResetKeyboard
  let frontend := frontend.vkResetModifiers.setCarriedVkModifiers false
  frontend.bumpKeyGeneration.updateTracking KeyTracking.reset

/-- The phase part of `typio_wl_lifecycle_on_resume`. -/
def scrubPhase (frontend : Frontend) : Frontend :=
  let frontend :=
    if frontend.lifecyclePhase = .active then frontend.setPhase .deactivating else frontend
  let frontend :=
    if frontend.lifecyclePhase ≠ .inactive then frontend.setPhase .inactive else frontend
  frontend.setPendingReactivation false

/-- `typio_wl_lifecycle_on_resume`. -/
def onResume (frontend : Frontend) : Frontend :=
  ((frontend.scrubKeyboard.setPreedit [] (-1) (-1)).commit).scrubPhase

/-- `typio_wl_lifecycle_observe`. -/
def observe (frontend : Frontend) : LifecycleState where
  conn := if frontend.display then .connected else .disconnected
  focus := if frontend.sessionIsFocused then .focused else .unfocused
  grab := if frontend.keyboard.isSome then .ready else .none

end Frontend

end Typio
