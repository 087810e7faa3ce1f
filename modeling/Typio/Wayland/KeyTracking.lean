import Mathlib.Algebra.Group.Nat.Defs
import Mathlib.Data.Fintype.Basic
import Mathlib.Logic.Function.Basic

/-!
# Per-key tracking

The tracker records, for every tracked key code, what happened to the key after routing decided
whether to consume or to forward it, and the grab generation which owns it.  Codes outside the
tracked range read as idle and ignore every write.
-/

namespace Typio

/-- `TYPIO_WL_MAX_TRACKED_KEYS`. -/
def maxTrackedKeys : Nat := 512

/-- `TypioKeyTrackState`. -/
inductive KeyTrackState
  | idle
  | forwarded
  | basicPassthrough
  | appShortcut
  | releasedPending
  | suppressedStartup
  | voicePtt
  | voicePttUnavail
  deriving DecidableEq

namespace KeyTrackState

/-- The application has been sent a press of the key and is owed its release. -/
def owed : KeyTrackState → Bool
  | forwarded | basicPassthrough | appShortcut => true
  | _ => false

end KeyTrackState

/-- The tracking fields of the frontend. -/
structure KeyTracking where
  /-- `key_states`. -/
  states : Fin maxTrackedKeys → KeyTrackState
  /-- `key_generations`. -/
  generations : Fin maxTrackedKeys → Nat
  /-- `active_key_generation`, a 32-bit counter. -/
  activeKeyGeneration : Nat
  /-- `active_generation_owned_keys`. -/
  activeGenerationOwnedKeys : Bool

namespace KeyTracking

/-- The tracker of a zeroed frontend. -/
def initial : KeyTracking where
  states _ := .idle
  generations _ := 0
  activeKeyGeneration := 0
  activeGenerationOwnedKeys := false

/-- `key_get_state`. -/
def getState (tracking : KeyTracking) (key : Nat) : KeyTrackState :=
  if tracked : key < maxTrackedKeys then tracking.states ⟨key, tracked⟩ else .idle

/-- `key_set_state`. -/
def setState (tracking : KeyTracking) (key : Nat) (state : KeyTrackState) : KeyTracking :=
  if tracked : key < maxTrackedKeys then
    { tracking with states := Function.update tracking.states ⟨key, tracked⟩ state }
  else
    tracking

/-- `key_get_generation`. -/
def getGeneration (tracking : KeyTracking) (key : Nat) : Nat :=
  if tracked : key < maxTrackedKeys then tracking.generations ⟨key, tracked⟩ else 0

/-- `key_set_generation`. -/
def setGeneration (tracking : KeyTracking) (key generation : Nat) : KeyTracking :=
  if tracked : key < maxTrackedKeys then
    { tracking with
      generations := Function.update tracking.generations ⟨key, tracked⟩ generation }
  else
    tracking

/-- `key_claim_current_generation`. -/
def claimCurrentGeneration (tracking : KeyTracking) (key : Nat) : KeyTracking :=
  { tracking.setGeneration key tracking.activeKeyGeneration with
    activeGenerationOwnedKeys := true }

/-- `key_clear_tracking`. -/
def clearTracking (tracking : KeyTracking) (key : Nat) : KeyTracking :=
  (tracking.setState key .idle).setGeneration key 0

/-- `key_owned_by_active_generation`. -/
def ownedByActiveGeneration (tracking : KeyTracking) (key : Nat) : Bool :=
  tracking.activeKeyGeneration != 0 &&
    tracking.getGeneration key == tracking.activeKeyGeneration

/-- `typio_wl_key_tracking_reset` and `typio_wl_key_tracking_reset_generations` over all keys. -/
def reset (tracking : KeyTracking) : KeyTracking :=
  { tracking with states := fun _ => .idle, generations := fun _ => 0 }

/-- `typio_wl_key_tracking_mark_released_pending` over all keys. -/
def markReleasedPending (tracking : KeyTracking) : KeyTracking :=
  { tracking with
    states := fun key =>
      if (tracking.states key).owed then .releasedPending else tracking.states key }

/-- The increment of `active_key_generation`, which skips zero when the counter wraps. -/
def nextGeneration (generation : Nat) : Nat :=
  if (generation + 1) % 2 ^ 32 = 0 then 1 else (generation + 1) % 2 ^ 32

/-! ## Reading the tracker after a write -/

@[simp] theorem getState_initial (key : Nat) : initial.getState key = .idle := by
  simp [getState, initial]

theorem getState_of_untracked (tracking : KeyTracking) {key : Nat}
    (untracked : maxTrackedKeys ≤ key) : tracking.getState key = .idle := by
  simp [getState, Nat.not_lt.mpr untracked]

theorem tracked_of_getState_ne {tracking : KeyTracking} {key : Nat}
    (busy : tracking.getState key ≠ .idle) : key < maxTrackedKeys := by
  by_contra untracked
  exact busy (tracking.getState_of_untracked (Nat.not_lt.mp untracked))

theorem getState_setState (tracking : KeyTracking) (key other : Nat) (state : KeyTrackState) :
    (tracking.setState key state).getState other =
      if other = key ∧ key < maxTrackedKeys then state else tracking.getState other := by
  by_cases tracked : key < maxTrackedKeys
  · by_cases same : other = key
    · subst same
      simp [setState, getState, tracked]
    · by_cases other_tracked : other < maxTrackedKeys
      · simp [setState, getState, tracked, other_tracked, same, Function.update]
      · simp [getState, tracked, other_tracked, same]
  · simp [setState, tracked]

@[simp] theorem getState_setState_self (tracking : KeyTracking) {key : Nat}
    (state : KeyTrackState) (tracked : key < maxTrackedKeys) :
    (tracking.setState key state).getState key = state := by
  simp [getState_setState, tracked]

@[simp] theorem getState_setGeneration (tracking : KeyTracking) (key generation other : Nat) :
    (tracking.setGeneration key generation).getState other = tracking.getState other := by
  unfold setGeneration
  split <;> rfl

@[simp] theorem getState_claimCurrentGeneration (tracking : KeyTracking) (key other : Nat) :
    (tracking.claimCurrentGeneration key).getState other = tracking.getState other :=
  tracking.getState_setGeneration key tracking.activeKeyGeneration other

theorem getState_clearTracking (tracking : KeyTracking) (key other : Nat) :
    (tracking.clearTracking key).getState other =
      if other = key then .idle else tracking.getState other := by
  rw [clearTracking, getState_setGeneration, getState_setState]
  by_cases same : other = key
  · subst same
    by_cases tracked : other < maxTrackedKeys
    · simp [tracked]
    · simp [tracked, tracking.getState_of_untracked (Nat.not_lt.mp tracked)]
  · simp [same]

@[simp] theorem getState_reset (tracking : KeyTracking) (key : Nat) :
    tracking.reset.getState key = .idle := by
  simp [getState, reset]

theorem getState_markReleasedPending (tracking : KeyTracking) (key : Nat) :
    tracking.markReleasedPending.getState key =
      if (tracking.getState key).owed then .releasedPending else tracking.getState key := by
  by_cases tracked : key < maxTrackedKeys
  · simp [getState, markReleasedPending, tracked]
  · simp [getState, tracked, KeyTrackState.owed]

@[simp] theorem activeKeyGeneration_setState (tracking : KeyTracking) (key : Nat)
    (state : KeyTrackState) :
    (tracking.setState key state).activeKeyGeneration = tracking.activeKeyGeneration := by
  unfold setState
  split <;> rfl

@[simp] theorem activeKeyGeneration_setGeneration (tracking : KeyTracking)
    (key generation : Nat) :
    (tracking.setGeneration key generation).activeKeyGeneration =
      tracking.activeKeyGeneration := by
  unfold setGeneration
  split <;> rfl

@[simp] theorem activeKeyGeneration_claimCurrentGeneration (tracking : KeyTracking)
    (key : Nat) :
    (tracking.claimCurrentGeneration key).activeKeyGeneration = tracking.activeKeyGeneration :=
  tracking.activeKeyGeneration_setGeneration key tracking.activeKeyGeneration

@[simp] theorem activeKeyGeneration_clearTracking (tracking : KeyTracking) (key : Nat) :
    (tracking.clearTracking key).activeKeyGeneration = tracking.activeKeyGeneration := by
  simp [clearTracking]

end KeyTracking

end Typio
