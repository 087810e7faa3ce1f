import Typio.Wayland.Edits

/-!
# Phase discipline

Which phase changes the lifecycle accepts, and in which phase a `done` event leaves the frontend.
A run obeys both exactly as long as its `deactivate` and `done` events find the phase which the
handshake they belong to has set up.
-/

namespace Typio

/-- The effect is no phase change, or one which the lifecycle accepts. -/
def Effect.isValid : Effect → Bool
  | phase previous next => previous.transitionIsValid next
  | _ => true

/-- The event is the `done` event. -/
def Event.isDone : Event → Bool
  | done => true
  | _ => false

namespace Frontend

/-! ## The discipline -/

/-- The step changes the phase only in accepted ways, and a `done` event leaves it steady. -/
def PhasesKept (engine : Engine) (frontend : Frontend) (event : Event) : Prop :=
  (∀ effect ∈ frontend.sentSince (frontend.step engine event), effect.isValid = true) ∧
    (frontend.display = true → event.isDone = true →
      (frontend.step engine event).lifecyclePhase.isSteady = true)

instance (engine : Engine) (frontend : Frontend) (event : Event) :
    Decidable (frontend.PhasesKept engine event) :=
  inferInstanceAs (Decidable (_ ∧ _))

/-- The keyboard can be grabbed. -/
def canGrab (frontend : Frontend) : Bool :=
  frontend.inputMethod && frontend.world.allocatesKeyboard && frontend.world.grabsKeyboard

/-- The active engine once the focused application's engine has been restored. -/
def engineAfterFocus (frontend : Frontend) : Option String :=
  frontend.world.restoredEngine.getD frontend.inst.activeEngine

/-- A `done` event which gives the session the focus finds the phase `activating`, unless the
keyboard is wanted and refused. -/
def focusInSettled (frontend : Frontend) : Bool :=
  frontend.lifecyclePhase == .activating ||
    (frontend.engineAfterFocus.isSome && !frontend.canGrab)

/-- A `done` event which commits a reactivation finds a phase which fits its outcome. -/
def reactivationSettled (frontend : Frontend) : Bool :=
  if frontend.inst.activeEngine.isNone then frontend.lifecyclePhase != .deactivating
  else if frontend.canGrab then frontend.lifecyclePhase == .active
  else frontend.lifecyclePhase != .active

/-- A `done` event finds the phase its handshake has set up. -/
def doneSettled (frontend : Frontend) : Bool :=
  match frontend.session with
  | none => frontend.lifecyclePhase != .deactivating
  | some session =>
      if session.pending.active then
        if !session.ctx.focused then frontend.focusInSettled
        else if frontend.pendingReactivation then frontend.reactivationSettled
        else frontend.lifecyclePhase != .deactivating
      else session.ctx.focused || frontend.keyboard.isSome ||
        frontend.lifecyclePhase != .deactivating

/-- A `deactivate` event finds an activation that has been completed, or is being undone; a `done`
event finds the phase its handshake has set up. -/
def PhaseSettled (frontend : Frontend) (event : Event) : Prop :=
  frontend.display = true →
    match event with
    | .deactivate => frontend.lifecyclePhase = .active ∨ frontend.lifecyclePhase = .deactivating
    | .done => frontend.doneSettled = true
    | _ => True

/-! ## The phases that can be met -/

/-- The phases a frontend can be in, by focus and pending activation. -/
def fitsPhase (focused active : Bool) : Phase → Bool
  | .inactive => true
  | .activating => !focused && active
  | .active => focused && active
  | .deactivating => focused || !active

/-- The phase fits the focus and the pending activation. -/
def PhaseFits (frontend : Frontend) : Prop :=
  fitsPhase frontend.sessionIsFocused frontend.pendingActive frontend.lifecyclePhase = true

/-- The phase, the focus and the pending activation stay, and no phase change is recorded. -/
structure PhaseKept (before after : Frontend) : Prop where
  phase : after.lifecyclePhase = before.lifecyclePhase
  focused : after.sessionIsFocused = before.sessionIsFocused
  active : after.pendingActive = before.pendingActive
  sent : ∃ effects, after.trace = effects ++ before.trace ∧
    ∀ effect ∈ effects, effect.isValid = true

/-- The phase changes recorded from one state to the next are accepted exactly if the condition
holds. -/
def Accepts (before after : Frontend) (condition : Prop) : Prop :=
  ∃ effects, after.trace = effects ++ before.trace ∧
    ((∀ effect ∈ effects, effect.isValid = true) ↔ condition)

theorem Accepts.trans {first second third : Frontend} {left right : Prop}
    (earlier : Accepts first second left) (later : Accepts second third right) :
    Accepts first third (left ∧ right) := by
  obtain ⟨old, old_trace, old_iff⟩ := earlier
  obtain ⟨new, new_trace, new_iff⟩ := later
  refine ⟨new ++ old, by rw [new_trace, old_trace, List.append_assoc], ?_⟩
  rw [← old_iff, ← new_iff]
  constructor
  · intro valid
    exact ⟨fun effect mem => valid effect (List.mem_append_right _ mem),
      fun effect mem => valid effect (List.mem_append_left _ mem)⟩
  · rintro ⟨old_valid, new_valid⟩ effect mem
    rcases List.mem_append.mp mem with mem | mem
    · exact new_valid effect mem
    · exact old_valid effect mem

theorem Accepts.setPhase (frontend : Frontend) (next : Phase) :
    Accepts frontend (frontend.setPhase next)
      (frontend.lifecyclePhase.transitionIsValid next = true) :=
  ⟨[.phase frontend.lifecyclePhase next], rfl, by simp [Effect.isValid]⟩

theorem Accepts.sentSince_iff {before after : Frontend} {condition : Prop}
    (accepts : Accepts before after condition) :
    (∀ effect ∈ before.sentSince after, effect.isValid = true) ↔ condition := by
  obtain ⟨effects, trace_eq, effects_iff⟩ := accepts
  rw [sentSince_eq trace_eq]
  exact effects_iff

/-! ## What leaves the phase alone -/

namespace PhaseKept

variable {before after : Frontend}

theorem accepts (kept : PhaseKept before after) : Accepts before after True := by
  obtain ⟨effects, trace_eq, effects_valid⟩ := kept.sent
  exact ⟨effects, trace_eq, iff_of_true effects_valid trivial⟩

theorem refl (frontend : Frontend) : PhaseKept frontend frontend :=
  ⟨rfl, rfl, rfl, [], rfl, by simp⟩

theorem trans {first second third : Frontend} (left : PhaseKept first second)
    (right : PhaseKept second third) : PhaseKept first third where
  phase := right.phase.trans left.phase
  focused := right.focused.trans left.focused
  active := right.active.trans left.active
  sent := by
    obtain ⟨old, old_trace, old_valid⟩ := left.sent
    obtain ⟨new, new_trace, new_valid⟩ := right.sent
    refine ⟨new ++ old, by rw [new_trace, old_trace, List.append_assoc], ?_⟩
    intro effect mem
    rcases List.mem_append.mp mem with mem | mem
    · exact new_valid effect mem
    · exact old_valid effect mem

theorem of_session (phase : after.lifecyclePhase = before.lifecyclePhase)
    (session : after.session = before.session) (effects : List Effect)
    (trace : after.trace = effects ++ before.trace)
    (valid : ∀ effect ∈ effects, effect.isValid = true) : PhaseKept before after where
  phase := phase
  focused := by rw [sessionIsFocused, sessionIsFocused, session]
  active := by rw [pendingActive, pendingActive, session]
  sent := ⟨effects, trace, valid⟩

theorem of_textFrame (text : TextFrame before after) : PhaseKept before after := by
  obtain ⟨effects, trace_eq, effects_text⟩ := text.sent
  have same : after.lifecyclePhase = before.lifecyclePhase := by rw [text.frame]
  refine ⟨same, text.sessionIsFocused_eq, text.pendingActive_eq, effects, trace_eq,
    fun effect mem => ?_⟩
  have effect_text := effects_text effect mem
  revert effect_text
  cases effect <;> simp [Effect.isTextUi, Effect.isValid]

theorem of_keyboard (edits : KeyboardEdits before after) : PhaseKept before after := by
  have frame := KeyboardFrame.of_edits edits
  obtain ⟨effects, trace_eq, effects_keyboard⟩ := frame.sent
  refine of_session frame.lifecyclePhase frame.session effects trace_eq fun effect mem => ?_
  have effect_keyboard := effects_keyboard effect mem
  revert effect_keyboard
  cases effect <;> first | exact fun _ => rfl | exact nofun

theorem updateSession (frontend : Frontend) {update : Session → Session}
    (kept : ∀ session, Session.PendingKept session (update session)) :
    PhaseKept frontend (frontend.updateSession update) where
  phase := rfl
  focused := by
    cases session_eq : frontend.session <;> simp [sessionIsFocused, session_eq, (kept _).focused]
  active := by
    cases session_eq : frontend.session <;>
      simp [Frontend.pendingActive, session_eq, (kept _).active]
  sent := ⟨[], rfl, by simp⟩

theorem of_routeEdit (edit : RouteEdit before after) : PhaseKept before after := by
  cases edit with
  | text edit => exact of_textFrame (TextFrame.of_edit edit)
  | @log effect routing =>
      refine of_session rfl rfl [effect] rfl ?_
      revert routing
      cases effect <;> simp [Effect.isRouting, Effect.isValid]
  | key ready time key pressed => exact of_session rfl rfl [_] rfl (by simp [Effect.isValid])
  | upgrade => exact of_keyboard (.single .upgrade)
  | track update generation => exact of_session rfl rfl [] rfl (by simp)
  | keyboard update kept => exact of_session rfl rfl [] rfl (by simp)
  | stop => exact of_session rfl rfl [] rfl (by simp)

theorem of_calmEdit (edit : CalmEdit before after) : PhaseKept before after := by
  cases edit with
  | keyboard edit => exact of_keyboard (.single edit)
  | surroundings inst world => exact of_session rfl rfl [] rfl (by simp)
  | text edit => exact of_textFrame (TextFrame.of_edit edit)
  | route keyed edit => exact of_routeEdit edit
  | keymap loaded =>
      unfold Frontend.onKeymap
      split
      · exact refl before
      · rcases vkForwardKeymap_eq before with forwarded | forwarded
        · rw [forwarded]
          exact of_session rfl rfl [] rfl (by simp)
        · rw [forwarded]
          exact of_session rfl rfl [.vkKeymap] rfl (by simp [Effect.isValid])
  | flush focused => exact of_textFrame (TextFrame.updateWaylandTextUi before)
  | pend update kept => exact updateSession before kept

theorem of_calmEdits (edits : CalmEdits before after) : PhaseKept before after := by
  induction edits with
  | refl => exact refl before
  | tail _ edit induction => exact induction.trans (of_calmEdit edit)

theorem setPendingReactivation (frontend : Frontend) (pending : Bool) :
    PhaseKept frontend (frontend.setPendingReactivation pending) :=
  of_session rfl rfl [] rfl (by simp)

end PhaseKept

/-! ## Grabbing the keyboard -/

theorem rebuildKeyboardGrab_fst (frontend : Frontend) :
    frontend.rebuildKeyboardGrab.1 = frontend.canGrab := by
  have frame := KeyboardFrame.of_edits (KeyboardEdits.hardResetKeyboard frontend)
  have kept : frontend.hardResetKeyboard.canGrab = frontend.canGrab := by
    rw [canGrab, canGrab, frame.inputMethod, frame.world]
  have created (frontend : Frontend) : frontend.keyboardCreate.1.isSome = frontend.canGrab := by
    unfold Frontend.keyboardCreate Frontend.canGrab
    split
    · rename_i refused
      rcases refused with detached | no_memory
      · simp [detached]
      · simp [no_memory]
    · rename_i allocated
      rw [not_or] at allocated
      dsimp only
      split <;> simp_all [bumpKeyGeneration, disownGeneration, trackingReset]
  rw [← kept, ← created]
  unfold Frontend.rebuildKeyboardGrab
  dsimp only
  cases frontend.hardResetKeyboard.keyboardCreate with
  | mk keyboard after => cases keyboard <;> rfl

/-- The phase after the grab has been rebuilt. -/
def grabPhase (frontend : Frontend) : Phase :=
  if frontend.canGrab then .active else .inactive

/-- The phase changes of the scrub, by the phase it finds. -/
theorem scrubPhase_eq (frontend : Frontend) :
    frontend.scrubPhase =
      Frontend.setPendingReactivation
        (match frontend.lifecyclePhase with
          | .active => (frontend.setPhase .deactivating).setPhase .inactive
          | .inactive => frontend
          | .activating | .deactivating => frontend.setPhase .inactive) false := by
  cases phase_eq : frontend.lifecyclePhase <;>
    simp [Frontend.scrubPhase, phase_eq, Frontend.setPhase]

/-- The phase, the focus and the pending activation become the given ones, and the phase changes
recorded meanwhile are accepted exactly if the condition holds. -/
structure PhaseMove (before after : Frontend) (condition : Prop) (phase : Phase)
    (focused active : Bool) : Prop where
  accepts : Accepts before after condition
  phase : after.lifecyclePhase = phase
  focused : after.sessionIsFocused = focused
  active : after.pendingActive = active

namespace PhaseMove

variable {before middle after : Frontend} {condition further : Prop} {phase next : Phase}
  {focused active now_focused now_active : Bool}

theorem congr (move : PhaseMove before after condition phase focused active)
    (same : condition ↔ further) : PhaseMove before after further phase focused active := by
  rw [propext same] at move
  exact move

theorem of_kept (kept : PhaseKept before after) :
    PhaseMove before after True before.lifecyclePhase before.sessionIsFocused
      before.pendingActive where
  accepts := kept.accepts
  phase := kept.phase
  focused := kept.focused
  active := kept.active

theorem then_kept (move : PhaseMove before middle condition phase focused active)
    (kept : PhaseKept middle after) : PhaseMove before after condition phase focused active where
  accepts := by
    have accepts := move.accepts.trans kept.accepts
    rw [and_true] at accepts
    exact accepts
  phase := kept.phase.trans move.phase
  focused := kept.focused.trans move.focused
  active := kept.active.trans move.active

theorem setPhase (move : PhaseMove before middle condition phase focused active) (next : Phase) :
    PhaseMove before (middle.setPhase next) (condition ∧ phase.transitionIsValid next = true) next
      focused active where
  accepts := by
    rw [← move.phase]
    exact move.accepts.trans (Accepts.setPhase middle next)
  phase := rfl
  focused := move.focused
  active := move.active

/-- Rebuilding the grab sets the phase which tells the outcome. -/
theorem regrab (move : PhaseMove before middle condition phase focused active) :
    PhaseMove before middle.regrab
      (condition ∧ phase.transitionIsValid middle.grabPhase = true) middle.grabPhase
      focused active := by
  have rebuilt := PhaseKept.of_keyboard (KeyboardEdits.rebuildKeyboardGrab middle)
  have unfolded : middle.regrab = middle.rebuildKeyboardGrab.2.setPhase middle.grabPhase := by
    rw [Frontend.regrab, rebuildKeyboardGrab_fst, grabPhase]
    cases middle.canGrab <;> rfl
  rw [unfolded]
  exact (move.then_kept rebuilt).setPhase _

/-! ## Resume -/

theorem scrubPhase (move : PhaseMove before middle condition phase focused active) :
    PhaseMove before middle.scrubPhase condition .inactive focused active := by
  have cleared (frontend : Frontend) :
      PhaseKept frontend (frontend.setPendingReactivation false) :=
    .setPendingReactivation frontend false
  rw [scrubPhase_eq, move.phase]
  cases phase with
  | active =>
      refine (((move.setPhase .deactivating).setPhase .inactive).then_kept (cleared _)).congr ?_
      simp [Phase.transitionIsValid]
  | inactive => exact move.then_kept (cleared _)
  | activating | deactivating =>
      refine ((move.setPhase .inactive).then_kept (cleared _)).congr ?_
      simp [Phase.transitionIsValid]

/-- A resume changes the phase in accepted ways only; a focused frontend which was active may
become active again. -/
theorem handleResume (move : PhaseMove before middle condition phase focused active) :
    ∃ next, PhaseMove before middle.handleResume condition next focused active ∧
      (next = .inactive ∨ (next = .active ∧ focused = true ∧ phase = .active)) := by
  have keyboard := PhaseKept.of_keyboard (KeyboardEdits.scrubKeyboard middle)
  have preedit := PhaseKept.of_textFrame ((TextFrame.setPreedit middle.scrubKeyboard []
    (-1) (-1)).trans (TextFrame.commit _))
  have scrubbed : PhaseMove before middle.onResume condition .inactive focused active :=
    (move.then_kept (keyboard.trans preedit)).scrubPhase
  unfold Frontend.handleResume
  rw [move.focused, move.phase]
  dsimp only
  split
  · rename_i was_active
    obtain ⟨was_focused, active_phase⟩ := Bool.and_eq_true_iff.mp was_active
    unfold Frontend.resumeRegrab
    split
    · exact ⟨.inactive, scrubbed, .inl rfl⟩
    · refine ⟨_, ((scrubbed.setPhase .activating).regrab).congr ?_, ?_⟩
      · rw [grabPhase]
        split <;> simp [Phase.transitionIsValid]
      · rw [grabPhase]
        split
        · exact .inr ⟨rfl, was_focused, by simpa using active_phase⟩
        · exact .inl rfl
  · exact ⟨.inactive, scrubbed, .inl rfl⟩

/-! ## Focus transitions -/

section Engine

variable (engine : Engine)

theorem contextFocusIn {session : Session}
    (move : PhaseMove before middle condition phase false active)
    (session_eq : middle.session = some session) :
    PhaseMove before (middle.contextFocusIn engine) condition phase true active := by
  have entered : middle.contextFocusIn engine = (middle.updateContext fun ctx =>
      { ctx with focused := true }).callActiveEngine engine := by
    rw [Frontend.contextFocusIn, move.focused]
    rfl
  have focus : PhaseMove before (middle.updateContext fun ctx => { ctx with focused := true })
      condition phase true active :=
    { accepts := move.accepts
      phase := move.phase
      focused := by simp [updateContext, sessionIsFocused, session_eq]
      active := by
        rw [← move.active]
        simp [updateContext, pendingActive, session_eq] }
  rw [entered]
  exact focus.then_kept (.of_textFrame (TextFrame.of_edits (TextEdits.callActiveEngine engine _)))

theorem contextFocusOut (move : PhaseMove before middle condition phase true active) :
    PhaseMove before (middle.contextFocusOut engine) condition phase false active := by
  have told := move.then_kept (.of_textFrame
    (TextFrame.of_edits (TextEdits.callActiveEngine engine middle)))
  have left : middle.contextFocusOut engine =
      (middle.callActiveEngine engine).updateContext fun ctx => { ctx with focused := false } := by
    rw [Frontend.contextFocusOut, move.focused]
    rfl
  rw [left]
  exact
    { accepts := told.accepts
      phase := told.phase
      focused := by
        cases session_eq : (middle.callActiveEngine engine).session <;>
          simp [updateContext, sessionIsFocused, session_eq]
      active := by
        rw [← told.active]
        cases session_eq : (middle.callActiveEngine engine).session <;>
          simp [updateContext, pendingActive, session_eq] }

end Engine

end PhaseMove

/-! ## The engine after a focus transition -/

section Engine

variable (engine : Engine)

/-- Telling the engine changes neither which engine is active nor whether the keyboard can be
grabbed. -/
theorem engine_contextFocusIn (frontend : Frontend) :
    (frontend.contextFocusIn engine).engineAfterFocus = frontend.engineAfterFocus ∧
      (frontend.contextFocusIn engine).canGrab = frontend.canGrab := by
  unfold Frontend.contextFocusIn
  split
  · exact ⟨rfl, rfl⟩
  · have told := TextFrame.of_edits (TextEdits.callActiveEngine engine
      (frontend.updateContext fun ctx => { ctx with focused := true }))
    rw [told.frame]
    exact ⟨rfl, rfl⟩

/-- Restoring the application's engine makes it the active one. -/
theorem engine_restoreIdentityEngine (frontend : Frontend) :
    (frontend.restoreIdentityEngine engine).inst.activeEngine = frontend.engineAfterFocus ∧
      (frontend.restoreIdentityEngine engine).canGrab = frontend.canGrab := by
  unfold Frontend.restoreIdentityEngine
  cases restored_eq : frontend.world.restoredEngine with
  | none => simp [engineAfterFocus, restored_eq]
  | some restored =>
      have told := TextFrame.callEngine engine (frontend.setActiveEngine restored)
      dsimp only
      rw [told.frame]
      simp [engineAfterFocus, restored_eq, canGrab]

theorem PhaseKept.restoreIdentityEngine (frontend : Frontend) :
    PhaseKept frontend (frontend.restoreIdentityEngine engine) :=
  of_calmEdits (CalmEdits.restoreIdentityEngine engine frontend)

namespace PhaseMove

variable {before middle : Frontend} {condition : Prop} {phase : Phase} {focused active : Bool}

theorem transitionToActive {session : Session}
    (move : PhaseMove before middle condition phase false active)
    (session_eq : middle.session = some session) :
    let next := if middle.engineAfterFocus.isNone then .active else middle.grabPhase
    PhaseMove before (middle.transitionToActive engine)
      (condition ∧ phase.transitionIsValid next = true) next true active := by
  have restored := (move.contextFocusIn engine session_eq).then_kept
    (.restoreIdentityEngine engine _)
  obtain ⟨engine_after, grab_after⟩ :=
    engine_restoreIdentityEngine engine (middle.contextFocusIn engine)
  obtain ⟨engine_in, grab_in⟩ := engine_contextFocusIn engine middle
  have phase_after : ((middle.contextFocusIn engine).restoreIdentityEngine engine).grabPhase =
      middle.grabPhase := by
    rw [grabPhase, grabPhase, grab_after, grab_in]
  have settled := fun (frontend : Frontend) => PhaseKept.setPendingReactivation frontend false
  unfold Frontend.transitionToActive
  dsimp only
  rw [engine_after, engine_in]
  split
  · exact (restored.setPhase .active).then_kept (settled _)
  · have moved := restored.regrab
    rw [phase_after] at moved
    exact moved.then_kept (settled _)

theorem handleReactivation (move : PhaseMove before middle condition phase focused active) :
    let next := if middle.inst.activeEngine.isNone then phase else middle.grabPhase
    PhaseMove before middle.handleReactivation
      (condition ∧ phase.transitionIsValid next = true) next focused active := by
  have settled := fun (frontend : Frontend) => PhaseKept.setPendingReactivation frontend false
  unfold Frontend.handleReactivation
  dsimp only
  split
  · refine (move.then_kept (settled _)).congr ?_
    simp [Phase.transitionIsValid]
  · exact move.regrab.then_kept (settled _)

theorem transitionToInactive (move : PhaseMove before middle condition phase true active) :
    PhaseMove before (middle.transitionToInactive engine)
      (condition ∧ phase.transitionIsValid .inactive = true) .inactive false active := by
  have reset := move.then_kept (.of_textFrame (TextFrame.resetTextUiTracking middle))
  have told := (reset.contextFocusOut engine).then_kept
    (.of_calmEdits (CalmEdits.contextReset engine _))
  have hidden := told.then_kept (.of_keyboard (.single (@KeyboardEdit.log _ (.popup .hide) rfl)))
  have released := hidden.then_kept (.of_keyboard (KeyboardEdits.hardResetKeyboard _))
  exact (released.setPhase .inactive).then_kept (.setPendingReactivation _ false)

theorem recoverStaleGrab (move : PhaseMove before middle condition phase focused active)
    (same : focused = active) :
    let next := if middle.keyboard.isSome && !active then .inactive else phase
    PhaseMove before (middle.recoverStaleGrab active)
      (condition ∧ phase.transitionIsValid next = true) next focused active := by
  subst same
  have same : condition ↔ condition ∧ phase.transitionIsValid phase = true := by
    simp [Phase.transitionIsValid]
  have stays := move.congr same
  unfold Frontend.recoverStaleGrab Frontend.hasNonRoutableGrab
  rw [move.focused]
  cases present : middle.keyboard.isSome with
  | false => simpa using stays
  | true =>
      cases focused with
      | true => simpa using stays
      | false =>
          have dropped := (move.then_kept
            (.of_keyboard (KeyboardEdits.hardResetKeyboard middle))).setPhase .inactive
          simpa using dropped

end PhaseMove

/-- What a `done` event does with a session, by pending activation and focus. -/
theorem imHandleDone_of_session {frontend : Frontend} {session : Session}
    (session_eq : frontend.session = some session) :
    let applied := frontend.countDone.updateSession Session.applyPending
    frontend.imHandleDone engine =
      if session.pending.active then
        if !session.ctx.focused then applied.transitionToActive engine
        else if frontend.pendingReactivation then applied.handleReactivation
        else applied.recoverStaleGrab true
      else if session.ctx.focused then applied.transitionToInactive engine
      else applied.recoverStaleGrab false := by
  have session_kept : frontend.countDone.session = some session := session_eq
  have pending_kept : frontend.countDone.pendingReactivation = frontend.pendingReactivation := rfl
  have was_focused : frontend.countDone.sessionIsFocused = session.ctx.focused := by
    rw [sessionIsFocused, session_kept]
  unfold Frontend.imHandleDone
  dsimp only
  rw [session_kept, pending_kept, was_focused]
  dsimp only
  cases session.pending.active <;> cases session.ctx.focused <;>
    simp [shouldCommitReactivation, shouldCleanupOnDone]

/-- A `done` event is settled exactly if its phase changes are accepted and it ends in a steady
phase. -/
theorem imHandleDone_settled {frontend : Frontend} (fits : frontend.PhaseFits) :
    ∃ condition phase focused active,
      PhaseMove frontend (frontend.imHandleDone engine) condition phase focused active ∧
      fitsPhase focused active phase = true ∧
      (condition ∧ phase.isSteady = true ↔ frontend.doneSettled = true) := by
  have counted : PhaseKept frontend frontend.countDone :=
    .of_session rfl rfl [.imDone] rfl (by simp [Effect.isValid])
  rw [PhaseFits] at fits
  unfold Frontend.doneSettled
  cases session_eq : frontend.session with
  | none =>
      have unfolded : frontend.imHandleDone engine = frontend.countDone := by
        have session_kept : frontend.countDone.session = none := session_eq
        simp [Frontend.imHandleDone, session_kept]
      rw [unfolded]
      refine ⟨_, _, _, _, PhaseMove.of_kept counted, fits, ?_⟩
      revert fits
      simp only [sessionIsFocused, pendingActive, session_eq]
      cases frontend.lifecyclePhase <;> simp [fitsPhase, Phase.isSteady]
  | some session =>
      have applied := (PhaseMove.of_kept counted).then_kept
        (.updateSession frontend.countDone Session.applyPending_kept)
      have was_focused : frontend.sessionIsFocused = session.ctx.focused := by
        rw [sessionIsFocused, session_eq]
      have will_be_active : frontend.pendingActive = session.pending.active := by
        rw [pendingActive, session_eq]
        rfl
      have applied_session : (frontend.countDone.updateSession Session.applyPending).session =
          some session.applyPending := by
        have session_kept : frontend.countDone.session = some session := session_eq
        simp [session_kept]
      have engine_kept : (frontend.countDone.updateSession Session.applyPending).engineAfterFocus =
          frontend.engineAfterFocus := rfl
      have phase_kept : (frontend.countDone.updateSession Session.applyPending).grabPhase =
          frontend.grabPhase := rfl
      have keyboard_kept : (frontend.countDone.updateSession Session.applyPending).keyboard =
          frontend.keyboard := rfl
      rw [was_focused, will_be_active] at fits applied
      rw [imHandleDone_of_session engine session_eq]
      dsimp only
      cases active : session.pending.active with
      | true =>
          cases focused : session.ctx.focused with
          | false =>
              rw [focused, active] at fits applied
              refine ⟨_, _, _, _, applied.transitionToActive engine applied_session, ?_, ?_⟩
              · rw [engine_kept, phase_kept, grabPhase]
                cases frontend.engineAfterFocus <;> cases frontend.canGrab <;> rfl
              · rw [engine_kept, phase_kept, grabPhase]
                revert fits
                cases phase_eq : frontend.lifecyclePhase <;>
                  cases engine_eq : frontend.engineAfterFocus <;>
                  cases grab_eq : frontend.canGrab <;>
                  simp [fitsPhase, focusInSettled, phase_eq, engine_eq, grab_eq,
                    Phase.transitionIsValid, Phase.isSteady]
          | true =>
              rw [focused, active] at fits applied
              cases pending : frontend.pendingReactivation with
              | true =>
                  refine ⟨_, _, _, _, applied.handleReactivation, ?_, ?_⟩
                  · rw [phase_kept, grabPhase]
                    cases frontend.canGrab <;> split <;> first | exact fits | rfl
                  · rw [phase_kept, grabPhase]
                    revert fits
                    cases phase_eq : frontend.lifecyclePhase <;>
                      cases engine_eq : frontend.inst.activeEngine <;>
                      cases grab_eq : frontend.canGrab <;>
                      simp [fitsPhase, reactivationSettled, phase_eq, engine_eq, grab_eq,
                        Phase.transitionIsValid, Phase.isSteady, countDone]
              | false =>
                  refine ⟨_, _, _, _, applied.recoverStaleGrab rfl, ?_, ?_⟩
                  · simpa using fits
                  · revert fits
                    cases frontend.lifecyclePhase <;>
                      simp [fitsPhase, Phase.transitionIsValid, Phase.isSteady]
      | false =>
          cases focused : session.ctx.focused with
          | false =>
              rw [focused, active] at fits applied
              refine ⟨_, _, _, _, applied.recoverStaleGrab rfl, ?_, ?_⟩
              · split
                · rfl
                · exact fits
              · rw [keyboard_kept]
                revert fits
                cases frontend.lifecyclePhase <;> cases frontend.keyboard.isSome <;>
                  simp [fitsPhase, Phase.transitionIsValid, Phase.isSteady]
          | true =>
              rw [focused, active] at fits applied
              refine ⟨_, _, _, _, applied.transitionToInactive engine, rfl, ?_⟩
              revert fits
              cases frontend.lifecyclePhase <;>
                simp [fitsPhase, Phase.transitionIsValid, Phase.isSteady]

end Engine

/-! ## Steps and runs -/

theorem PhaseMove.renew {before middle : Frontend} {condition : Prop} {phase : Phase}
    {focused active : Bool} (move : PhaseMove before middle condition phase focused active)
    (present : middle.session.isSome = true) :
    PhaseMove before (middle.sessionReset.setPendingActive true) condition phase focused true := by
  obtain ⟨session, session_eq⟩ := Option.isSome_iff_exists.mp present
  exact
    { accepts := move.accepts
      phase := move.phase
      focused := by
        rw [← move.focused]
        simp [sessionReset, setPendingActive, sessionIsFocused, session_eq, Session.reset,
          Session.resetTracking]
      active := by simp [sessionReset, setPendingActive, pendingActive, session_eq] }

/-- An `activate` event is always accepted: only a focused frontend can be active. -/
theorem activateSession_move {before middle : Frontend} {phase : Phase} {focused active : Bool}
    (move : PhaseMove before middle True phase focused active)
    (fits : fitsPhase focused active phase = true) (present : middle.session.isSome = true) :
    ∃ next, PhaseMove before middle.activateSession True next focused true ∧
      fitsPhase focused true next = true := by
  unfold Frontend.activateSession shouldDeferActivate
  rw [move.focused]
  cases focused with
  | true =>
      refine ⟨phase, (move.then_kept (.setPendingReactivation middle true)).renew present, ?_⟩
      revert fits
      cases phase <;> simp [fitsPhase]
  | false =>
      have moved := (move.then_kept (.setPendingReactivation middle false)).setPhase .activating
      refine ⟨.activating, (moved.congr ?_).renew present, rfl⟩
      revert fits
      cases phase <;> simp [fitsPhase, Phase.transitionIsValid]

theorem imHandleActivate_move {frontend : Frontend} (fits : frontend.PhaseFits) :
    ∃ phase focused active,
      PhaseMove frontend frontend.imHandleActivate True phase focused active ∧
      fitsPhase focused active phase = true := by
  have received := PhaseMove.of_kept
    (.of_session rfl rfl [.imActivate] rfl (by simp [Effect.isValid]) :
      PhaseKept frontend (frontend.log .imActivate))
  unfold Frontend.imHandleActivate
  dsimp only
  cases session_eq : frontend.session with
  | some session =>
      rw [log_session, session_eq]
      obtain ⟨next, moved, fits_next⟩ := activateSession_move received fits (by simp [session_eq])
      exact ⟨next, _, _, moved, fits_next⟩
  | none =>
      rw [log_session, session_eq]
      have unfocused : frontend.sessionIsFocused = false := by rw [sessionIsFocused, session_eq]
      have inactive : frontend.pendingActive = false := by
        rw [pendingActive, session_eq]
        rfl
      rw [PhaseFits, unfocused, inactive] at fits
      rw [unfocused, inactive] at received
      dsimp only
      split
      · have created : PhaseMove frontend
            ((frontend.log .imActivate).setSession (some Session.new)) True
            frontend.lifecyclePhase false false :=
          { accepts := received.accepts
            phase := received.phase
            focused := rfl
            active := rfl }
        obtain ⟨next, moved, fits_next⟩ := activateSession_move created fits rfl
        exact ⟨next, _, _, moved, fits_next⟩
      · exact ⟨_, _, _, received, fits⟩

theorem imHandleDeactivate_move (frontend : Frontend) :
    PhaseMove frontend frontend.imHandleDeactivate
      (frontend.lifecyclePhase.transitionIsValid .deactivating = true) .deactivating
      frontend.sessionIsFocused false := by
  have moved := (PhaseMove.of_kept (.setPendingReactivation frontend false)).setPhase .deactivating
  rw [true_and] at moved
  exact
    { accepts := moved.accepts
      phase := moved.phase
      focused := by
        rw [← moved.focused]
        cases session_eq : frontend.session <;>
          simp [imHandleDeactivate, setPendingActive, sessionIsFocused, Frontend.setPhase,
            session_eq]
      active := by
        cases session_eq : frontend.session <;>
          simp [imHandleDeactivate, setPendingActive, pendingActive, Frontend.setPhase,
            session_eq] }

theorem PhaseKept.waylandUnbind (frontend : Frontend) :
    PhaseKept frontend frontend.waylandUnbind := by
  have destroyed := PhaseKept.of_keyboard (KeyboardEdits.keyboardDestroy frontend)
  have unbound_vk : PhaseKept frontend.keyboardDestroy frontend.keyboardDestroy.unbindVk := by
    unfold Frontend.unbindVk
    split
    · exact of_session rfl rfl [.vkDestroy] rfl (by simp [Effect.isValid])
    · exact refl _
  have unbound : PhaseKept frontend.keyboardDestroy.unbindVk frontend.waylandUnbind := by
    unfold Frontend.waylandUnbind Frontend.unbindInputMethod
    dsimp only
    split
    · exact of_session rfl rfl [.imDestroy] rfl (by simp [Effect.isValid])
    · exact of_session rfl rfl [] rfl (by simp)
  exact (destroyed.trans unbound_vk).trans unbound

theorem PhaseKept.reconnectAttempts (frontend : Frontend) (outcomes : List BindOutcome) :
    PhaseKept frontend (frontend.reconnectAttempts outcomes).2 := by
  induction outcomes with
  | nil => exact refl frontend
  | cons outcome outcomes induction =>
      unfold Frontend.reconnectAttempts
      split
      · exact refl frontend
      · cases outcome with
        | stopped => exact of_session rfl rfl [] rfl (by simp)
        | failed => exact induction
        | bound vk =>
            cases vk with
            | noManager | failed =>
                exact of_session rfl rfl [.imCreate] rfl (by simp [Effect.isValid])
            | created =>
                exact of_session rfl rfl [.vkCreate, .imCreate] rfl (by simp [Effect.isValid])

/-- The connection is lost without a phase change: the phase is assigned. -/
theorem eventLoopRecover_move (frontend : Frontend) (outcomes : List BindOutcome) :
    PhaseMove frontend (frontend.eventLoopRecover outcomes) True .inactive
      frontend.sessionIsFocused frontend.pendingActive := by
  have unbound := PhaseMove.of_kept (PhaseKept.waylandUnbind frontend)
  have baseline : PhaseMove frontend frontend.waylandUnbind.reconnectBaseline True .inactive
      frontend.sessionIsFocused frontend.pendingActive :=
    { accepts := by
        have logged : Accepts frontend.waylandUnbind frontend.waylandUnbind.reconnectBaseline True :=
          ⟨[.keyGeneration _], rfl, by simp [Effect.isValid]⟩
        simpa using unbound.accepts.trans logged
      phase := rfl
      focused := unbound.focused
      active := unbound.active }
  have reconnected := baseline.then_kept (.reconnectAttempts _ (outcomes.take reconnectMaxAttempts))
  unfold Frontend.eventLoopRecover Frontend.reconnect
  dsimp only
  split
  · exact reconnected
  · exact reconnected.then_kept (.of_keyboard (KeyboardEdits.stop _))

/-- How a step which makes the given move keeps the discipline. -/
theorem PhaseMove.step_settled {engine : Engine} {frontend after : Frontend} {event : Event}
    {condition : Prop} {phase : Phase} {focused active : Bool}
    (stepped : frontend.step engine event = after)
    (move : PhaseMove frontend after condition phase focused active)
    (fits : fitsPhase focused active phase = true)
    (same : (condition ∧ (frontend.display = true → event.isDone = true →
      phase.isSteady = true)) ↔ frontend.PhaseSettled event) :
    (frontend.step engine event).PhaseFits ∧
      (frontend.PhasesKept engine event ↔ frontend.PhaseSettled event) := by
  rw [PhasesKept, stepped, PhaseFits, move.focused, move.active, move.phase,
    move.accepts.sentSince_iff]
  exact ⟨fits, same⟩

/-- A resume finds and leaves a phase which fits. -/
theorem handleResume_move {frontend : Frontend} (fits : frontend.PhaseFits) :
    ∃ next, PhaseMove frontend frontend.handleResume True next frontend.sessionIsFocused
      frontend.pendingActive ∧
      fitsPhase frontend.sessionIsFocused frontend.pendingActive next = true := by
  obtain ⟨next, move, resumed⟩ := (PhaseMove.of_kept (PhaseKept.refl frontend)).handleResume
  refine ⟨next, move, ?_⟩
  rcases resumed with rfl | ⟨rfl, -, was_active⟩
  · rfl
  · rw [← was_active]
    exact fits

/-- In a phase which fits, a step obeys the discipline exactly if it is settled, and the phase
fits again. -/
theorem step_settled (engine : Engine) {frontend : Frontend} (fits : frontend.PhaseFits)
    (event : Event) :
    (frontend.step engine event).PhaseFits ∧
      (frontend.PhasesKept engine event ↔ frontend.PhaseSettled event) := by
  have still := PhaseMove.of_kept (PhaseKept.refl frontend)
  cases connected : frontend.display with
  | false =>
      have stays : frontend.step engine event = frontend := by simp [step, connected]
      exact still.step_settled stays fits (by simp [PhaseSettled, connected])
  | true =>
      have handled : frontend.step engine event = frontend.handle engine event := by
        simp [step, connected]
      cases calm : event.isCalm with
      | true =>
          have move := PhaseMove.of_kept
            (PhaseKept.of_calmEdits (CalmEdits.handle engine frontend calm))
          refine move.step_settled handled fits ?_
          cases event <;> simp [Event.isCalm, Event.isDone, PhaseSettled] at calm ⊢
      | false =>
          cases event with
          | activate =>
              obtain ⟨next, focused, active, move, fits_next⟩ := imHandleActivate_move fits
              exact move.step_settled handled fits_next (by simp [Event.isDone, PhaseSettled])
          | deactivate =>
              have move := imHandleDeactivate_move frontend
              refine move.step_settled handled (by simp [fitsPhase]) ?_
              cases phase_eq : frontend.lifecyclePhase <;>
                simp [Event.isDone, PhaseSettled, connected, phase_eq, Phase.transitionIsValid]
          | done =>
              obtain ⟨condition, next, focused, active, move, fits_next, settled⟩ :=
                imHandleDone_settled engine fits
              refine move.step_settled handled fits_next ?_
              simpa [Event.isDone, PhaseSettled, connected] using settled
          | resume =>
              obtain ⟨next, move, fits_next⟩ := handleResume_move fits
              exact move.step_settled handled fits_next (by simp [Event.isDone, PhaseSettled])
          | reconcileTick =>
              have noted : (frontend.setDivergence frontend.reconcileDecision.2).PhaseFits := fits
              obtain ⟨next, move, fits_next⟩ := handleResume_move noted
              by_cases repairs : frontend.reconcileDecision.1 = .repair
              · have repaired : frontend.step engine .reconcileTick =
                    (frontend.setDivergence frontend.reconcileDecision.2).handleResume := by
                  simp [handled, handle, reconcileTick, repairs]
                have moved : PhaseMove frontend _ True next _ _ :=
                  ⟨move.accepts, move.phase, move.focused, move.active⟩
                exact moved.step_settled repaired fits_next (by simp [Event.isDone, PhaseSettled])
              · have waits : frontend.step engine .reconcileTick =
                    frontend.setDivergence frontend.reconcileDecision.2 := by
                  simp [handled, handle, reconcileTick, repairs]
                have moved : PhaseMove frontend
                    (frontend.setDivergence frontend.reconcileDecision.2) True _ _ _ :=
                  ⟨still.accepts, rfl, rfl, rfl⟩
                exact moved.step_settled waits fits (by simp [Event.isDone, PhaseSettled])
          | disconnected outcomes =>
              have move := eventLoopRecover_move frontend outcomes
              exact move.step_settled handled rfl (by simp [Event.isDone, PhaseSettled])
          | _ => simp [Event.isCalm] at calm

theorem start_phaseFits (inst : Instance) (shortcuts : ShortcutConfig) (world : World)
    (vk : VkOutcome) : (start inst shortcuts world vk).PhaseFits := by
  cases vk <;> rfl

/-- A run changes the phase only in accepted ways and leaves it steady after each `done` event
exactly if each `deactivate` and `done` event finds the phase of its handshake. -/
theorem phasesKept_iff_settled (engine : Engine) (inst : Instance) (shortcuts : ShortcutConfig)
    (world : World) (vk : VkOutcome) (events : List Event) :
    Machine.EachStep (step engine) (PhasesKept engine) (start inst shortcuts world vk) events ↔
      Machine.EachStep (step engine) PhaseSettled (start inst shortcuts world vk) events :=
  Machine.eachStep_congr PhaseFits (fun _ event fits => (step_settled engine fits event).2)
    (fun _ event fits => (step_settled engine fits event).1)
    (start_phaseFits inst shortcuts world vk)

/-- An activation which is withdrawn before it is applied goes from `activating` to
`deactivating`, and stays there. -/
theorem withdrawn_activation_unsettled :
    let engine : Engine := fun _ => { handled := false, calls := [], active := some "rime" }
    ¬Machine.EachStep (step engine) (PhasesKept engine)
      (start ⟨some "rime", none, false, false⟩ ShortcutConfig.defaults (World.obliging 1000)
        .created)
      [.activate, .deactivate, .done] := by
  decide

end Frontend

end Typio
