import Mathlib.Logic.Basic

/-!
# Lifecycle rules

The dependency-free rules of the input-method lifecycle: the declared phase and its accepted
transitions, the projection of the observed axes to a phase, the reconciler's decision, and the
handoff of modifiers at a keyboard boundary.
-/

namespace Typio

/-- `TypioWlLifecyclePhase`. -/
inductive Phase
  | inactive
  | activating
  | active
  | deactivating
  deriving DecidableEq

namespace Phase

/-- `typio_wl_lifecycle_transition_is_valid`. -/
def transitionIsValid (previous next : Phase) : Bool :=
  if previous = next then true
  else
    match previous with
    | inactive => next == activating
    | activating => next == active || next == inactive
    | active => next == deactivating
    | deactivating => next == inactive || next == activating

/-- `typio_wl_lifecycle_phase_allows_key_events`. -/
def allowsKeyEvents (phase : Phase) : Bool := phase == active

/-- A phase in which no handshake is under way. -/
def isSteady : Phase → Bool
  | inactive | active => true
  | activating | deactivating => false

end Phase

/-- `typio_wl_lifecycle_should_defer_activate`. -/
def shouldDeferActivate (sessionFocused : Bool) : Bool := sessionFocused

/-- `typio_wl_lifecycle_should_cleanup_on_done`. -/
def shouldCleanupOnDone (wasActive nowActive : Bool) : Bool := wasActive && !nowActive

/-- `typio_wl_lifecycle_should_commit_reactivation`. -/
def shouldCommitReactivation (pendingReactivation wasActive nowActive : Bool) : Bool :=
  pendingReactivation && wasActive && nowActive

/-! ## Observed state -/

/-- `TypioWlConnState`. -/
inductive ConnState
  | disconnected
  | connected
  deriving DecidableEq

/-- `TypioWlFocusState`. -/
inductive FocusState
  | unfocused
  | focused
  deriving DecidableEq

/-- `TypioWlGrabState`. -/
inductive GrabState
  | none
  | pendingKeymap
  | ready
  deriving DecidableEq

/-- `TypioWlLifecycleState`, without the composition axis, which no rule reads. -/
structure LifecycleState where
  conn : ConnState
  focus : FocusState
  grab : GrabState
  deriving DecidableEq

/-- `typio_wl_lifecycle_project_phase`. -/
def LifecycleState.projectPhase (state : LifecycleState) : Phase :=
  if state.conn ≠ .connected ∨ state.focus ≠ .focused then .inactive
  else if state.grab = .ready then .active
  else .activating

/-- `typio_wl_lifecycle_state_agrees`; transient phases are never a divergence. -/
def LifecycleState.agrees (observed : LifecycleState) (declared : Phase) : Bool :=
  if declared = .deactivating ∨ declared = .activating then true
  else observed.projectPhase == declared

/-! ## Reconciler decision -/

/-- `TypioWlReconcileAction`. -/
inductive ReconcileAction
  | ok
  | arm
  | wait
  | repair
  deriving DecidableEq

/-- `typio_wl_reconcile_decide`: the action, and the new `divergence_since_ms`. -/
def reconcileDecide (agree : Bool) (now divergenceSince threshold : Nat) :
    ReconcileAction × Nat :=
  if agree then (.ok, 0)
  else if divergenceSince = 0 then (.arm, now)
  else if divergenceSince ≤ now ∧ threshold ≤ now - divergenceSince then (.repair, 0)
  else (.wait, divergenceSince)

/-- `TYPIO_WL_RECONCILE_THRESHOLD_MS`. -/
def reconcileThresholdMs : Nat := 2000

/-! ## Modifier handoff -/

/-- `typio_wl_boundary_bridge_should_reset_carried_modifiers`. -/
def shouldResetCarriedModifiers (phase : Phase) (carriedVkModifiers : Bool) : Bool :=
  carriedVkModifiers && phase != .deactivating

/-- `typio_wl_boundary_bridge_should_carry_modifiers`. -/
def shouldCarryModifiers (phase : Phase) (ownCurrentGeneration : Bool)
    (depressed latched locked : UInt32) : Bool :=
  if ownCurrentGeneration = false ∨ phase ≠ .deactivating then false
  else depressed != 0 || latched != 0 || locked != 0

end Typio
