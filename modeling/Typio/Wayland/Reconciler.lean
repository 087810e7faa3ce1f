import Typio.Wayland.PhaseDiscipline

/-!
# Convergence of the reconciler

A repair runs the resume handler, which rebuilds the grab only for a frontend that was active.  It
settles a frontend which lost its grab while active, but one that is focused and inactive is left
focused and inactive, and the same divergence is found again.
-/

namespace Typio

namespace Frontend

/-! ## Ticks -/

/-- A tick of the reconciler at the given time. -/
def tickAt (frontend : Frontend) (now : Nat) : Frontend :=
  { frontend with world := { frontend.world with now } }.reconcileTick

/-- Nothing diverges, and nothing is found to diverge by the ticks that follow. -/
def Converged (frontend : Frontend) : Prop :=
  ∀ times : List Nat, (times.foldl tickAt frontend).reconcileAgrees = true

/-- The event is a tick which repairs, and the keyboard can be grabbed meanwhile. -/
def repairs (frontend : Frontend) (event : Event) : Bool :=
  frontend.display && frontend.canGrab &&
    match event with
    | .reconcileTick => frontend.reconcileDecision.1 == .repair
    | _ => false

/-- A repair leaves nothing that diverges. -/
def RepairConverges (engine : Engine) (frontend : Frontend) (event : Event) : Prop :=
  frontend.repairs event = true → (frontend.step engine event).Converged

/-- A repair finds the frontend active, or without an engine. -/
def RepairSettled (frontend : Frontend) (event : Event) : Prop :=
  frontend.repairs event = true →
    frontend.lifecyclePhase = .active ∨ frontend.inst.activeEngine = none

/-- While nothing diverges a tick changes nothing but the time it has noted. -/
theorem tickAt_of_agrees {frontend : Frontend} (agrees : frontend.reconcileAgrees = true)
    (now : Nat) : (frontend.tickAt now).reconcileAgrees = true := by
  have still : { frontend with world := { frontend.world with now } }.reconcileAgrees = true :=
    agrees
  have decision : { frontend with world := { frontend.world with now } }.reconcileDecision =
      (.ok, 0) := by
    simp [reconcileDecision, reconcileDecide, still]
  unfold tickAt reconcileTick
  rw [decision]
  exact agrees

theorem converged_iff (frontend : Frontend) :
    frontend.Converged ↔ frontend.reconcileAgrees = true := by
  constructor
  · intro converged
    exact converged []
  · intro agrees times
    induction times generalizing frontend with
    | nil => exact agrees
    | cons now times induction => exact induction _ (tickAt_of_agrees agrees now)

/-! ## What a resume leaves -/

/-- The surroundings, the display and the focus, which the observation reads, stay. -/
structure ObservedKept (before after : Frontend) : Prop where
  inst : after.inst = before.inst
  world : after.world = before.world
  display : after.display = before.display
  inputMethod : after.inputMethod = before.inputMethod
  focused : after.sessionIsFocused = before.sessionIsFocused

namespace ObservedKept

variable {before middle after : Frontend}

theorem trans (left : ObservedKept before middle) (right : ObservedKept middle after) :
    ObservedKept before after where
  inst := right.inst.trans left.inst
  world := right.world.trans left.world
  display := right.display.trans left.display
  inputMethod := right.inputMethod.trans left.inputMethod
  focused := right.focused.trans left.focused

theorem of_keyboard (edits : KeyboardEdits before after) : ObservedKept before after := by
  have frame := KeyboardFrame.of_edits edits
  refine ⟨frame.inst, frame.world, frame.display, frame.inputMethod, ?_⟩
  rw [sessionIsFocused, sessionIsFocused, frame.session]

theorem of_textFrame (text : TextFrame before after) : ObservedKept before after := by
  have focused := text.sessionIsFocused_eq
  rw [text.frame] at focused ⊢
  exact ⟨rfl, rfl, rfl, rfl, focused⟩

theorem setPhase (frontend : Frontend) (phase : Phase) :
    ObservedKept frontend (frontend.setPhase phase) :=
  ⟨rfl, rfl, rfl, rfl, rfl⟩

theorem canGrab (kept : ObservedKept before after) : after.canGrab = before.canGrab := by
  rw [Frontend.canGrab, Frontend.canGrab, kept.inputMethod, kept.world]

end ObservedKept

/-- The phase part of a resume leaves the keyboard alone and the phase inactive. -/
theorem scrubPhase_scrubbed (frontend : Frontend) :
    ObservedKept frontend frontend.scrubPhase ∧
      frontend.scrubPhase.keyboard = frontend.keyboard ∧
      frontend.scrubPhase.lifecyclePhase = .inactive := by
  rw [scrubPhase_eq]
  cases phase_eq : frontend.lifecyclePhase with
  | inactive => exact ⟨⟨rfl, rfl, rfl, rfl, rfl⟩, rfl, phase_eq⟩
  | activating | active | deactivating => exact ⟨⟨rfl, rfl, rfl, rfl, rfl⟩, rfl, rfl⟩

/-- The scrub drops the keyboard and leaves the phase inactive. -/
theorem onResume_scrubbed (frontend : Frontend) :
    ObservedKept frontend frontend.onResume ∧ frontend.onResume.keyboard = none ∧
      frontend.onResume.lifecyclePhase = .inactive := by
  have gone : frontend.scrubKeyboard.keyboard = none := by
    have reset := KeyboardEdits.vkResetModifiers_gone _
      (KeyboardEdits.hardResetKeyboard_gone frontend)
    simp [scrubKeyboard, bumpKeyGeneration, reset]
  have text := (TextFrame.setPreedit frontend.scrubKeyboard [] (-1) (-1)).trans (TextFrame.commit _)
  have still_gone : (frontend.scrubKeyboard.setPreedit [] (-1) (-1)).commit.keyboard = none := by
    rw [text.frame]
    exact gone
  obtain ⟨kept, keyboard, phase⟩ :=
    scrubPhase_scrubbed (frontend.scrubKeyboard.setPreedit [] (-1) (-1)).commit
  exact ⟨((ObservedKept.of_keyboard (KeyboardEdits.scrubKeyboard frontend)).trans
    (.of_textFrame text)).trans kept, keyboard.trans still_gone, phase⟩

/-- Where the keyboard can be grabbed, rebuilding the grab makes the frontend active. -/
theorem regrab_grabbed {frontend : Frontend} (grabs : frontend.canGrab = true) :
    ObservedKept frontend frontend.regrab ∧ frontend.regrab.keyboard.isSome = true ∧
      frontend.regrab.lifecyclePhase = .active := by
  have rebuilt : frontend.rebuildKeyboardGrab.1 = true := by
    rw [rebuildKeyboardGrab_fst]
    exact grabs
  have present : frontend.rebuildKeyboardGrab.2.keyboard.isSome = true := by
    revert rebuilt
    unfold Frontend.rebuildKeyboardGrab
    dsimp only
    cases frontend.hardResetKeyboard.keyboardCreate with
    | mk created after =>
        cases created with
        | none => simp
        | some keyboard =>
            intro _
            dsimp only
            rw [vkExpectKeymap_eq]
            split <;> simp
  rw [regrab, if_pos rebuilt]
  exact ⟨(ObservedKept.of_keyboard (KeyboardEdits.rebuildKeyboardGrab frontend)).trans
    (.setPhase _ _), present, rfl⟩

/-! ## Repairs -/

/-- What the reconciler compares, by focus, keyboard, engine and phase. -/
theorem reconcileAgrees_eq {frontend : Frontend} (connected : frontend.display = true) :
    frontend.reconcileAgrees =
      match frontend.lifecyclePhase with
      | .active => frontend.sessionIsFocused &&
          (frontend.keyboard.isSome || frontend.inst.activeEngine.isNone)
      | .inactive => !frontend.sessionIsFocused ||
          (!frontend.keyboard.isSome && frontend.inst.activeEngine.isNone)
      | _ => true := by
  unfold Frontend.reconcileAgrees LifecycleState.agrees LifecycleState.projectPhase Frontend.observe
  rw [connected]
  cases frontend.lifecyclePhase <;> cases frontend.sessionIsFocused <;>
    cases frontend.keyboard.isSome <;> simp

/-- A repair converges exactly if it finds the frontend active or without an engine. -/
theorem handleResume_agrees_iff {frontend : Frontend} (fits : frontend.PhaseFits)
    (connected : frontend.display = true) (grabs : frontend.canGrab = true)
    (diverges : frontend.reconcileAgrees = false) :
    frontend.handleResume.reconcileAgrees = true ↔
      frontend.lifecyclePhase = .active ∨ frontend.inst.activeEngine = none := by
  obtain ⟨scrubbed, gone, inactive⟩ := onResume_scrubbed frontend
  have scrubbed_connected : frontend.onResume.display = true := scrubbed.display.trans connected
  rw [reconcileAgrees_eq connected] at diverges
  rw [PhaseFits] at fits
  unfold Frontend.handleResume Frontend.resumeRegrab
  dsimp only
  cases phase_eq : frontend.lifecyclePhase with
  | activating => simp [phase_eq] at diverges
  | deactivating => simp [phase_eq] at diverges
  | inactive =>
      rw [if_neg (by simp), reconcileAgrees_eq scrubbed_connected, inactive, gone, scrubbed.inst,
        scrubbed.focused]
      cases focused : frontend.sessionIsFocused with
      | false => simp [phase_eq, focused] at diverges
      | true => cases frontend.inst.activeEngine <;> simp
  | active =>
      have focused : frontend.sessionIsFocused = true := by
        simp only [phase_eq, fitsPhase, Bool.and_eq_true] at fits
        exact fits.1
      have engaged : frontend.inst.activeEngine ≠ none := by
        intro no_engine
        simp [phase_eq, focused, no_engine] at diverges
      have regrabs : (frontend.onResume.setPhase .activating).canGrab = true :=
        (scrubbed.trans (.setPhase _ .activating)).canGrab.trans grabs
      obtain ⟨grabbed, present, active⟩ := regrab_grabbed regrabs
      have kept := (scrubbed.trans (.setPhase _ .activating)).trans grabbed
      have still_engaged : frontend.onResume.inst.activeEngine.isNone = false := by
        rw [scrubbed.inst]
        simpa [Option.isSome_iff_ne_none] using engaged
      rw [if_pos (by simp [focused]), if_neg (by simp [still_engaged]),
        reconcileAgrees_eq (kept.display.trans connected), active, present, kept.focused, focused]
      simp

/-- In a phase which fits, a repair converges exactly if it is settled. -/
theorem repairConverges_iff (engine : Engine) {frontend : Frontend} (fits : frontend.PhaseFits)
    (event : Event) :
    frontend.RepairConverges engine event ↔ frontend.RepairSettled event := by
  unfold RepairConverges RepairSettled
  refine forall_congr' fun repairing => ?_
  cases event with
  | reconcileTick =>
      obtain ⟨ready, decides⟩ := Bool.and_eq_true_iff.mp repairing
      obtain ⟨connected, grabs⟩ := Bool.and_eq_true_iff.mp ready
      have decided : frontend.reconcileDecision.1 = .repair := by simpa using decides
      have diverges : frontend.reconcileAgrees = false := by
        by_contra agrees
        rw [Bool.not_eq_false] at agrees
        simp [reconcileDecision, reconcileDecide, agrees] at decided
      have repaired : frontend.step engine .reconcileTick =
          (frontend.setDivergence frontend.reconcileDecision.2).handleResume := by
        simp [step, handle, reconcileTick, connected, decided]
      rw [converged_iff, repaired]
      exact handleResume_agrees_iff fits connected grabs diverges
  | _ => simp [repairs] at repairing

/-- In every run each repair whose requests succeed leaves the declared phase and the observed
state in agreement, for all ticks that follow, exactly if it finds the frontend active or without
an engine. -/
theorem repairConverges_iff_settled (engine : Engine) (inst : Instance)
    (shortcuts : ShortcutConfig) (world : World) (vk : VkOutcome) (events : List Event) :
    Machine.EachStep (step engine) (RepairConverges engine) (start inst shortcuts world vk) events ↔
      Machine.EachStep (step engine) RepairSettled (start inst shortcuts world vk) events :=
  Machine.eachStep_congr PhaseFits (fun _ event fits => repairConverges_iff engine fits event)
    (fun _ event fits => (step_settled engine fits event).1)
    (start_phaseFits inst shortcuts world vk)

/-- A reconnect leaves a focused frontend inactive; the repair two seconds later does not help. -/
theorem inactive_repair_diverges :
    let engine : Engine := fun _ => { handled := false, calls := [], active := some "rime" }
    ¬Machine.EachStep (step engine) (RepairConverges engine)
      (start ⟨some "rime", none, false, false⟩ ShortcutConfig.defaults (World.obliging 1000)
        .noManager)
      [.activate, .done, .disconnected [.bound .noManager], .reconcileTick,
        .changeWorld (World.obliging 3000), .reconcileTick] := by
  intro engine each
  have converged := each
    [.activate, .done, .disconnected [.bound .noManager], .reconcileTick,
      .changeWorld (World.obliging 3000)] .reconcileTick (List.prefix_refl _)
  have agrees := converged (by decide) []
  revert agrees
  decide

end Frontend

end Typio
