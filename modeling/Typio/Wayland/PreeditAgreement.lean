import Typio.Wayland.CommitSerial

/-!
# Preedit agreement

The frontend tracks the preedit it showed last, and skips the protocol round-trip when a flush
would show the same again.  The tracker agrees with the preedit in force at the compositor as long
as what takes the preedit away behind the tracker's back, a resume or a new input-method object,
finds the tracker empty.
-/

namespace Typio

/-! ## The preedit in force -/

/-- A preedit: its text and where its cursor begins and ends. -/
abbrev Preedit := Option (Text × Int × Int)

/-- The preedit a `set_preedit_string` request shows; an empty text shows none. -/
def shownPreedit (text : Text) (cursorBegin cursorEnd : Int) : Preedit :=
  if text = [] then none else some (text, cursorBegin, cursorEnd)

/-- The preedit which the next commit applies. -/
def stagedPreedit : List Effect → Preedit
  | [] => none
  | .setPreedit text cursorBegin cursorEnd :: _ => shownPreedit text cursorBegin cursorEnd
  | .imActivate :: _ | .imCreate :: _ => none
  | _ :: earlier => stagedPreedit earlier

/-- The preedit committed last.  An `activate` event resets it, as a new object does. -/
def preeditInForce : List Effect → Preedit
  | [] => none
  | .commit _ :: earlier => stagedPreedit earlier
  | .imActivate :: _ | .imCreate :: _ | .imDestroy :: _ => none
  | _ :: earlier => preeditInForce earlier

/-- The effect neither changes the preedit in force nor counts as a `done` event. -/
def Effect.keepsPreedit : Effect → Bool
  | imCreate | imDestroy | imActivate | imDone | commit _ => false
  | _ => true

theorem preeditInForce_append {effects : List Effect}
    (kept : ∀ effect ∈ effects, effect.keepsPreedit = true) (earlier : List Effect) :
    preeditInForce (effects ++ earlier) = preeditInForce earlier := by
  induction effects with
  | nil => rfl
  | cons effect effects induction =>
      rw [← induction fun other mem => kept other (List.mem_cons_of_mem _ mem)]
      have first := kept effect List.mem_cons_self
      revert first
      cases effect <;> simp [Effect.keepsPreedit, preeditInForce]

theorem count_done_append {effects : List Effect}
    (kept : ∀ effect ∈ effects, effect.keepsPreedit = true) (earlier : List Effect) :
    (effects ++ earlier).count .imDone = earlier.count .imDone := by
  rw [List.count_append, List.count_eq_zero.mpr, Nat.zero_add]
  intro mem
  have done := kept _ mem
  simp [Effect.keepsPreedit] at done

namespace Frontend

/-- The preedit which the tracker of the session records. -/
def trackedPreedit (frontend : Frontend) : Preedit :=
  match frontend.session with
  | none => none
  | some session =>
      shownPreedit (session.lastPreeditText.getD []) session.lastPreeditCursor
        session.lastPreeditCursor

/-- The formatted preedit of the session's context. -/
def formattedPreedit (frontend : Frontend) : Preedit :=
  match frontend.session with
  | none => none
  | some session =>
      let plain := buildPlainPreedit session.ctx
      shownPreedit (plain.1.getD []) plain.2 plain.2

/-- While the session is focused, its tracker records the preedit in force. -/
def PreeditAgrees (frontend : Frontend) : Prop :=
  frontend.inputMethod = true → frontend.sessionIsFocused = true →
    frontend.trackedPreedit = preeditInForce frontend.trace

/-- The event makes the loop flush the text UI. -/
def flushes (frontend : Frontend) : Event → Bool
  | .flushPopup =>
      frontend.display && shouldFlushPopupUpdate frontend.popupUpdatePending
        frontend.session.isSome frontend.session.isSome frontend.sessionIsFocused
  | _ => false

/-- After a flush the preedit in force is the formatted preedit of the context. -/
def FlushShown (engine : Engine) (frontend : Frontend) (event : Event) : Prop :=
  frontend.flushes event = true →
    preeditInForce (frontend.step engine event).trace =
      (frontend.step engine event).formattedPreedit

/-- The `done` events received so far fit in the serial. -/
def DonesFit (engine : Engine) (frontend : Frontend) (event : Event) : Prop :=
  (frontend.step engine event).trace.count .imDone < 2 ^ 32

instance (engine : Engine) (frontend : Frontend) (event : Event) :
    Decidable (frontend.FlushShown engine event) :=
  inferInstanceAs (Decidable (_ → _))

instance (engine : Engine) (frontend : Frontend) (event : Event) :
    Decidable (frontend.DonesFit engine event) :=
  inferInstanceAs (Decidable (_ < _))

/-- One of the attempts binds, and no stop is requested before. -/
def bindsFirst (outcomes : List BindOutcome) : Bool :=
  match outcomes.find? fun outcome => decide (outcome ≠ .failed) with
  | some (.bound _) => true
  | _ => false

/-- A lost connection leads to a new input-method object. -/
def rebinds (frontend : Frontend) (outcomes : List BindOutcome) : Bool :=
  frontend.running && bindsFirst (outcomes.take reconnectMaxAttempts)

/-- The event takes the preedit at the compositor away: a resume, a repair, or a reconnect which
leads to a new object. -/
def losesPreedit (frontend : Frontend) (event : Event) : Bool :=
  frontend.display &&
    match event with
    | .resume => true
    | .reconcileTick => frontend.reconcileDecision.1 == .repair
    | .disconnected outcomes => frontend.rebinds outcomes
    | _ => false

/-- What takes the preedit away finds none in the tracker. -/
def PreeditSettled (frontend : Frontend) (event : Event) : Prop :=
  frontend.losesPreedit event = true → frontend.trackedPreedit = none

instance (frontend : Frontend) (event : Event) : Decidable (frontend.PreeditSettled event) :=
  inferInstanceAs (Decidable (_ → _))

/-! ## Frames -/

/-- The link to the compositor, the focus and the pending activation stay as they are. -/
structure LinkKept (before after : Frontend) : Prop where
  display : after.display = before.display
  inputMethod : after.inputMethod = before.inputMethod
  imSerial : after.imSerial = before.imSerial
  focused : after.sessionIsFocused = before.sessionIsFocused
  active : after.pendingActive = before.pendingActive
  dones : after.trace.count .imDone = before.trace.count .imDone

/-- The preedit stays as it is, in the tracker and at the compositor. -/
structure PreeditKept (before after : Frontend) : Prop extends LinkKept before after where
  tracked : after.trackedPreedit = before.trackedPreedit
  inForce : preeditInForce after.trace = preeditInForce before.trace

theorem LinkKept.of_textFrame {before after : Frontend} (text : TextFrame before after) :
    LinkKept before after := by
  obtain ⟨effects, trace_eq, effects_text⟩ := text.sent
  have same : after.display = before.display ∧ after.inputMethod = before.inputMethod ∧
      after.imSerial = before.imSerial := by
    rw [text.frame]
    exact ⟨rfl, rfl, rfl⟩
  refine ⟨same.1, same.2.1, same.2.2, text.sessionIsFocused_eq, text.pendingActive_eq, ?_⟩
  · rw [trace_eq, List.count_append, List.count_eq_zero.mpr, Nat.zero_add]
    intro mem
    have done_text := effects_text _ mem
    simp [Effect.isTextUi] at done_text

namespace PreeditKept

variable {before after : Frontend}

theorem of_session (display : after.display = before.display)
    (inputMethod : after.inputMethod = before.inputMethod)
    (imSerial : after.imSerial = before.imSerial) (session : after.session = before.session)
    (effects : List Effect) (trace : after.trace = effects ++ before.trace)
    (kept : ∀ effect ∈ effects, effect.keepsPreedit = true) : PreeditKept before after where
  display := display
  inputMethod := inputMethod
  imSerial := imSerial
  focused := by rw [sessionIsFocused, sessionIsFocused, session]
  active := by rw [pendingActive, pendingActive, session]
  dones := by rw [trace, count_done_append kept]
  tracked := by rw [trackedPreedit, trackedPreedit, session]
  inForce := by rw [trace, preeditInForce_append kept]

theorem updateSession (frontend : Frontend) {update : Session → Session}
    (kept : ∀ session, Session.PendingKept session (update session)) :
    PreeditKept frontend (frontend.updateSession update) where
  display := rfl
  inputMethod := rfl
  imSerial := rfl
  focused := by
    cases session_eq : frontend.session <;> simp [sessionIsFocused, session_eq, (kept _).focused]
  active := by
    cases session_eq : frontend.session <;> simp [Frontend.pendingActive, session_eq, (kept _).active]
  dones := rfl
  tracked := by
    cases session_eq : frontend.session <;>
      simp [trackedPreedit, session_eq, (kept _).lastPreeditText, (kept _).lastPreeditCursor]
  inForce := rfl

theorem of_boundary (boundary : BoundaryEdits before after) : PreeditKept before after := by
  have frame := BoundaryFrame.of_edits boundary
  obtain ⟨effects, trace_eq, effects_boundary⟩ := frame.sent
  refine of_session frame.display frame.inputMethod frame.imSerial frame.session effects trace_eq
    fun effect mem => ?_
  have effect_boundary := effects_boundary effect mem
  revert effect_boundary
  cases effect <;> first | exact fun _ => rfl | exact nofun

theorem of_keyboard (edits : KeyboardEdits before after) : PreeditKept before after :=
  of_boundary (BoundaryEdits.of_keyboard edits)

end PreeditKept

/-! ## The invariant -/

/-- Where a tracked preedit can come from: the session has been focused by a `done` event, and
before it is, nothing is tracked and an awaited activation has reset the preedit. -/
structure PreeditGround (frontend : Frontend) : Prop where
  counter : frontend.imSerial = frontend.trace.count .imDone % 2 ^ 32
  fits : frontend.trace.count .imDone < 2 ^ 32
  attached : frontend.display = true → frontend.inputMethod = true
  established : frontend.sessionIsFocused = true → frontend.trace.count .imDone ≠ 0
  untracked : frontend.sessionIsFocused = false → frontend.trackedPreedit = none
  awaited : frontend.pendingActive = true → frontend.sessionIsFocused = false →
    preeditInForce frontend.trace = none

namespace PreeditGround

variable {before after : Frontend}

/-- Unless the session is focused, nothing is tracked, and no preedit is shown. -/
theorem shown (ground : before.PreeditGround) (kept : LinkKept before after)
    (tracked : before.sessionIsFocused = false → after.trackedPreedit = none)
    (inForce : before.sessionIsFocused = false → preeditInForce after.trace = none ∨
      preeditInForce after.trace = preeditInForce before.trace) : after.PreeditGround where
  counter := by
    rw [kept.imSerial, kept.dones]
    exact ground.counter
  fits := by
    rw [kept.dones]
    exact ground.fits
  attached := by
    rw [kept.display, kept.inputMethod]
    exact ground.attached
  established := by
    rw [kept.focused, kept.dones]
    exact ground.established
  untracked := by
    rw [kept.focused]
    exact tracked
  awaited := by
    rw [kept.focused, kept.active]
    intro active not_focused
    rcases inForce not_focused with cleared | same
    · exact cleared
    · exact same.trans (ground.awaited active not_focused)

theorem of_kept (ground : before.PreeditGround) (kept : PreeditKept before after) :
    after.PreeditGround :=
  ground.shown kept.toLinkKept (fun not_focused => kept.tracked.trans (ground.untracked not_focused))
    fun _ => .inr kept.inForce

/-- A focused session's frontend may commit. -/
theorem serial_ne_zero (ground : before.PreeditGround)
    (focused : before.sessionIsFocused = true) : before.imSerial ≠ 0 := by
  have established := ground.established focused
  rw [ground.counter, Nat.mod_eq_of_lt ground.fits]
  exact established

end PreeditGround

/-! ## Requests -/

/-- `typio_wl_commit` sends nothing. -/
def CommitBlocked (frontend : Frontend) : Prop :=
  frontend.inputMethod = false ∨ frontend.session = none ∨ frontend.imSerial = 0

theorem preeditInForce_commit (frontend : Frontend) :
    preeditInForce frontend.commit.trace = stagedPreedit frontend.trace ∨
      (preeditInForce frontend.commit.trace = preeditInForce frontend.trace ∧
        frontend.CommitBlocked) := by
  unfold Frontend.commit
  split
  · rename_i blocked
    refine .inr ⟨rfl, ?_⟩
    rcases blocked with detached | no_session
    · exact .inl detached
    · exact .inr (.inl (Option.isNone_iff_eq_none.mp no_session))
  · split
    · rename_i no_done
      exact .inr ⟨rfl, .inr (.inr no_done)⟩
    · exact .inl rfl

theorem PreeditGround.not_blocked {frontend : Frontend} (ground : frontend.PreeditGround)
    (attached : frontend.inputMethod = true) (focused : frontend.sessionIsFocused = true) :
    ¬frontend.CommitBlocked := by
  rintro (detached | no_session | no_done)
  · rw [attached] at detached
    exact absurd detached (by simp)
  · simp [sessionIsFocused, no_session] at focused
  · exact ground.serial_ne_zero focused no_done

theorem trackedPreedit_resetTextUiTracking (frontend : Frontend) :
    frontend.resetTextUiTracking.trackedPreedit = none := by
  cases session_eq : frontend.session <;>
    simp [resetTextUiTracking, trackedPreedit, session_eq, Session.resetTracking, shownPreedit]

theorem trackedPreedit_sessionReset (frontend : Frontend) :
    (frontend.sessionReset.setPendingActive true).trackedPreedit = none := by
  cases session_eq : frontend.session <;>
    simp [sessionReset, setPendingActive, trackedPreedit, session_eq, Session.reset,
      Session.resetTracking, shownPreedit]

/-- Committing a text stages an empty preedit and commits it, unless nothing can be committed. -/
theorem preeditInForce_onCommitCallback (frontend : Frontend) {text : Text} (some_text : text ≠ []) :
    preeditInForce (frontend.onCommitCallback text).trace = none ∨
      (preeditInForce (frontend.onCommitCallback text).trace = preeditInForce frontend.trace ∧
        frontend.CommitBlocked) := by
  have unfolded : (frontend.onCommitCallback text).trace =
      (((frontend.setPreedit [] (-1) (-1)).log (.popup .hide)).commitString text).commit.trace := by
    rw [onCommitCallback, if_neg some_text]
    rfl
  rw [unfolded]
  cases attached : frontend.inputMethod with
  | false =>
      refine .inr ⟨?_, .inl attached⟩
      simp [setPreedit, commitString, commit, attached, preeditInForce]
  | true =>
      have staged : stagedPreedit (((frontend.setPreedit [] (-1) (-1)).log
          (.popup .hide)).commitString text).trace = none := by
        simp [setPreedit, commitString, attached, stagedPreedit, shownPreedit]
      have same : preeditInForce (((frontend.setPreedit [] (-1) (-1)).log
          (.popup .hide)).commitString text).trace = preeditInForce frontend.trace := by
        simp [setPreedit, commitString, attached, preeditInForce]
      have kept : ((((frontend.setPreedit [] (-1) (-1)).log (.popup .hide)).commitString
          text).session = frontend.session) ∧ ((((frontend.setPreedit [] (-1) (-1)).log
          (.popup .hide)).commitString text).imSerial = frontend.imSerial) := by
        simp [setPreedit, commitString, attached]
      rcases preeditInForce_commit _ with committed | ⟨unchanged, blocked⟩
      · exact .inl (committed.trans staged)
      · refine .inr ⟨unchanged.trans same, ?_⟩
        rw [CommitBlocked, kept.1, kept.2] at blocked
        refine blocked.imp_left fun detached => ?_
        simp [setPreedit, commitString, attached] at detached

theorem preeditInForce_setPreedit (frontend : Frontend) (text : Text) (cursorBegin cursorEnd : Int) :
    preeditInForce (frontend.setPreedit text cursorBegin cursorEnd).commit.trace =
        shownPreedit text cursorBegin cursorEnd ∨
      (preeditInForce (frontend.setPreedit text cursorBegin cursorEnd).commit.trace =
          preeditInForce frontend.trace ∧
        frontend.CommitBlocked) := by
  cases attached : frontend.inputMethod with
  | false =>
      refine .inr ⟨?_, .inl attached⟩
      simp [setPreedit, commit, attached]
  | true =>
      have logged : frontend.setPreedit text cursorBegin cursorEnd =
          frontend.log (.setPreedit text cursorBegin cursorEnd) := by
        simp [setPreedit, attached]
      rw [logged]
      rcases preeditInForce_commit (frontend.log (.setPreedit text cursorBegin cursorEnd)) with
        committed | ⟨unchanged, blocked⟩
      · exact .inl committed
      · refine .inr ⟨unchanged, ?_⟩
        exact blocked

theorem syncPreedit_session (frontend : Frontend) (plainText : Option Text) (cursorPos : Int) :
    (frontend.syncPreedit plainText cursorPos).session = frontend.session := by
  have requested (text : Text) (cursorBegin cursorEnd : Int) :
      (frontend.setPreedit text cursorBegin cursorEnd).commit.session = frontend.session := by
    unfold Frontend.commit Frontend.setPreedit
    repeat' split
    all_goals rfl
  cases plainText with
  | none => exact requested ..
  | some text => exact requested ..

theorem preeditInForce_syncPreedit (frontend : Frontend) (plainText : Option Text)
    (cursorPos : Int) :
    preeditInForce (frontend.syncPreedit plainText cursorPos).trace =
        shownPreedit (plainText.getD []) cursorPos cursorPos ∨
      (preeditInForce (frontend.syncPreedit plainText cursorPos).trace =
        preeditInForce frontend.trace ∧ frontend.CommitBlocked) := by
  cases plainText with
  | none =>
      have no_text : shownPreedit [] (-1) (-1) = shownPreedit [] cursorPos cursorPos := rfl
      exact no_text ▸ preeditInForce_setPreedit frontend [] (-1) (-1)
  | some text => exact preeditInForce_setPreedit frontend text cursorPos cursorPos

/-- The flush formats the context, which it leaves alone, and tracks the result. -/
theorem trackedPreedit_updateWaylandTextUi (frontend : Frontend) :
    frontend.updateWaylandTextUi.trackedPreedit = frontend.formattedPreedit ∧
      frontend.updateWaylandTextUi.formattedPreedit = frontend.formattedPreedit := by
  unfold Frontend.updateWaylandTextUi
  cases session_eq : frontend.session with
  | none => simp [trackedPreedit, formattedPreedit, session_eq]
  | some session =>
      dsimp only
      split <;> simp [trackedPreedit, formattedPreedit, syncPreedit_session, session_eq]

/-- The flush commits the formatted preedit, or cannot commit, or the tracker holds it already. -/
theorem preeditInForce_updateWaylandTextUi (frontend : Frontend) :
    preeditInForce frontend.updateWaylandTextUi.trace = frontend.formattedPreedit ∨
      (preeditInForce frontend.updateWaylandTextUi.trace = preeditInForce frontend.trace ∧
        (frontend.trackedPreedit = frontend.formattedPreedit ∨ frontend.CommitBlocked)) := by
  cases session_eq : frontend.session with
  | none =>
      refine .inr ⟨?_, .inr (.inr (.inl session_eq))⟩
      simp [Frontend.updateWaylandTextUi, session_eq]
  | some session =>
      unfold Frontend.updateWaylandTextUi
      rw [session_eq]
      dsimp only
      have formatted : frontend.formattedPreedit =
          shownPreedit ((buildPlainPreedit session.ctx).1.getD []) (buildPlainPreedit session.ctx).2
            (buildPlainPreedit session.ctx).2 := by
        simp [formattedPreedit, session_eq]
      split
      · rw [formatted]
        rcases preeditInForce_syncPreedit ((frontend.log (.popup .update)).setPopupUpdatePending
          frontend.world.presentRetryPending) (buildPlainPreedit session.ctx).1
          (buildPlainPreedit session.ctx).2 with shown | ⟨unchanged, blocked⟩
        · exact .inl shown
        · exact .inr ⟨unchanged, .inr blocked⟩
      · rename_i popup_only
        refine .inr ⟨rfl, .inl ?_⟩
        have same : session.lastPreeditCursor = (buildPlainPreedit session.ctx).2 ∧
            session.lastPreeditText.getD [] = (buildPlainPreedit session.ctx).1.getD [] := by
          simpa [planUpdate] using popup_only
        rw [formatted, trackedPreedit, session_eq]
        simp only [same.1, same.2]

/-! ## Edits -/

/-- The preedit is well founded and agrees with the compositor. -/
structure PreeditInvariant (frontend : Frontend) : Prop extends PreeditGround frontend where
  agrees : frontend.PreeditAgrees

namespace PreeditInvariant

variable {before after : Frontend}

/-- A preedit is shown: unless the session is focused it is none, and if it could not be committed
it has been in force before. -/
theorem shown (invariant : before.PreeditInvariant) (kept : LinkKept before after)
    {preedit : Preedit} (unfocused : before.sessionIsFocused = false → preedit = none)
    (tracked : after.trackedPreedit = preedit)
    (inForce : preeditInForce after.trace = preedit ∨
      (preeditInForce after.trace = preeditInForce before.trace ∧ before.CommitBlocked)) :
    after.PreeditInvariant where
  toPreeditGround := by
    refine invariant.toPreeditGround.shown kept
      (fun not_focused => tracked.trans (unfocused not_focused)) fun not_focused => ?_
    rw [← unfocused not_focused]
    exact inForce.imp_right And.left
  agrees := by
    intro attached focused
    rw [kept.inputMethod] at attached
    rw [kept.focused] at focused
    rcases inForce with committed | ⟨-, blocked⟩
    · exact tracked.trans committed.symm
    · exact absurd blocked (invariant.not_blocked attached focused)

theorem of_kept (invariant : before.PreeditInvariant) (kept : PreeditKept before after) :
    after.PreeditInvariant where
  toPreeditGround := invariant.toPreeditGround.of_kept kept
  agrees := by
    rw [PreeditAgrees, kept.inputMethod, kept.focused, kept.tracked, kept.inForce]
    exact invariant.agrees

theorem of_textEdit (invariant : before.PreeditInvariant) (edit : TextEdit before after) :
    after.PreeditInvariant := by
  have linked := LinkKept.of_textFrame (TextFrame.of_edit edit)
  cases edit with
  | updateContext update focused =>
      exact invariant.of_kept (.updateSession before fun session => ⟨focused _, rfl, rfl, rfl⟩)
  | onComposition =>
      exact invariant.of_kept (.of_session rfl rfl rfl rfl [] rfl (by simp))
  | countEngineCall =>
      exact invariant.of_kept (.of_session rfl rfl rfl rfl [] rfl (by simp))
  | onCommit text =>
      by_cases no_text : text = []
      · rw [onCommitCallback, if_pos no_text]
        exact invariant
      · refine invariant.shown linked (fun _ => rfl) ?_
          (preeditInForce_onCommitCallback before no_text)
        rw [onCommitCallback, if_neg no_text]
        exact trackedPreedit_resetTextUiTracking _

theorem updateWaylandTextUi (invariant : before.PreeditInvariant)
    (focused : before.sessionIsFocused = true) : before.updateWaylandTextUi.PreeditInvariant := by
  have linked := LinkKept.of_textFrame (TextFrame.updateWaylandTextUi before)
  obtain ⟨tracked, -⟩ := trackedPreedit_updateWaylandTextUi before
  refine invariant.shown linked (fun not_focused => ?_) tracked ?_
  · rw [focused] at not_focused
    exact absurd not_focused (by simp)
  · rcases preeditInForce_updateWaylandTextUi before with shown | ⟨unchanged, same | blocked⟩
    · exact .inl shown
    · by_cases attached : before.inputMethod = true
      · exact .inl (unchanged.trans ((invariant.agrees attached focused).symm.trans same))
      · exact .inr ⟨unchanged, .inl (by simpa using attached)⟩
    · exact .inr ⟨unchanged, blocked⟩

theorem of_routeEdit (invariant : before.PreeditInvariant) (edit : RouteEdit before after) :
    after.PreeditInvariant := by
  cases edit with
  | text edit => exact invariant.of_textEdit edit
  | @log effect routing =>
      refine invariant.of_kept (.of_session rfl rfl rfl rfl [effect] rfl ?_)
      revert routing
      cases effect <;> simp [Effect.isRouting, Effect.keepsPreedit]
  | key ready time key pressed =>
      exact invariant.of_kept (.of_session rfl rfl rfl rfl [_] rfl (by simp [Effect.keepsPreedit]))
  | upgrade => exact invariant.of_kept (.of_keyboard (.single .upgrade))
  | track update generation =>
      exact invariant.of_kept (.of_session rfl rfl rfl rfl [] rfl (by simp))
  | keyboard update kept =>
      exact invariant.of_kept (.of_session rfl rfl rfl rfl [] rfl (by simp))
  | stop => exact invariant.of_kept (.of_session rfl rfl rfl rfl [] rfl (by simp))

/-- Where no preedit is in force and none is tracked, the invariant asks little. -/
theorem of_none (counter : after.imSerial = after.trace.count .imDone % 2 ^ 32)
    (fits : after.trace.count .imDone < 2 ^ 32)
    (attached : after.display = true → after.inputMethod = true)
    (established : after.sessionIsFocused = true → after.trace.count .imDone ≠ 0)
    (tracked : after.trackedPreedit = none) (inForce : preeditInForce after.trace = none) :
    after.PreeditInvariant where
  counter := counter
  fits := fits
  attached := attached
  established := established
  untracked _ := tracked
  awaited _ _ := inForce
  agrees _ _ := tracked.trans inForce.symm

/-- A session which is reset for an activation shows nothing. -/
theorem reactivated (ground : before.PreeditGround) (reset : preeditInForce before.trace = none) :
    (before.sessionReset.setPendingActive true).PreeditInvariant := by
  refine of_none ground.counter ground.fits ground.attached ?_
    (trackedPreedit_sessionReset _) reset
  have focused : (before.sessionReset.setPendingActive true).sessionIsFocused =
      before.sessionIsFocused := by
    cases session_eq : before.session <;>
      simp [sessionReset, setPendingActive, sessionIsFocused, session_eq, Session.reset,
        Session.resetTracking]
  rw [focused]
  exact ground.established

theorem activateSession (ground : before.PreeditGround)
    (reset : preeditInForce before.trace = none) : before.activateSession.PreeditInvariant := by
  have deferred (reactivates : Bool) :
      (before.setPendingReactivation reactivates).PreeditGround :=
    ⟨ground.counter, ground.fits, ground.attached, ground.established, ground.untracked,
      ground.awaited⟩
  have phased {frontend : Frontend} (ground : frontend.PreeditGround) (phase : Phase) :
      (frontend.setPhase phase).PreeditGround :=
    ⟨ground.counter, ground.fits, ground.attached, ground.established, ground.untracked,
      ground.awaited⟩
  unfold Frontend.activateSession
  dsimp only
  split
  · exact reactivated (deferred true) reset
  · exact reactivated (phased (deferred false) .activating) reset

/-- An `activate` event resets the preedit and its tracker. -/
theorem imHandleActivate (invariant : before.PreeditInvariant) :
    before.imHandleActivate.PreeditInvariant := by
  have received : (before.log .imActivate).PreeditGround :=
    { counter := invariant.counter
      fits := invariant.fits
      attached := invariant.attached
      established := invariant.established
      untracked := invariant.untracked
      awaited := fun _ _ => rfl }
  unfold Frontend.imHandleActivate
  dsimp only
  split
  · exact activateSession received rfl
  · rename_i no_session
    split
    · refine activateSession ?_ rfl
      exact
        { counter := invariant.counter
          fits := invariant.fits
          attached := invariant.attached
          established := fun focused => by
            simp [sessionIsFocused, Session.new, InputContext.new] at focused
          untracked := fun _ => rfl
          awaited := fun _ _ => rfl }
    · have untracked : (before.log .imActivate).trackedPreedit = none := by
        rw [trackedPreedit, no_session]
      exact of_none received.counter received.fits received.attached received.established
        untracked rfl

/-- A focus transition finds no preedit, neither tracked nor in force. -/
theorem focusIn (invariant : before.PreeditInvariant) (active : before.pendingActive = true)
    (counted : .imDone ∈ before.trace) :
    (before.updateContext fun ctx => { ctx with focused := true }).PreeditInvariant := by
  cases session_eq : before.session with
  | none => simp [pendingActive, session_eq] at active
  | some session =>
      have focused : (before.updateContext fun ctx =>
          { ctx with focused := true }).sessionIsFocused = true := by
        simp [updateContext, sessionIsFocused, session_eq]
      have tracked : (before.updateContext fun ctx =>
          { ctx with focused := true }).trackedPreedit = before.trackedPreedit := by
        simp [updateContext, trackedPreedit, session_eq]
      exact
        { counter := invariant.counter
          fits := invariant.fits
          attached := invariant.attached
          established := fun _ => (List.count_pos_iff.mpr counted).ne'
          untracked := fun not_focused => by
            rw [focused] at not_focused
            exact absurd not_focused (by simp)
          awaited := fun _ not_focused => by
            rw [focused] at not_focused
            exact absurd not_focused (by simp)
          agrees := fun attached _ => by
            rw [tracked]
            cases was : before.sessionIsFocused with
            | true => exact invariant.agrees attached was
            | false => exact (invariant.untracked was).trans (invariant.awaited active was).symm }

theorem trackedPreedit_none_of_textEdit (edit : TextEdit before after)
    (untracked : before.trackedPreedit = none) : after.trackedPreedit = none := by
  cases edit with
  | updateContext update focused =>
      rw [← untracked]
      cases session_eq : before.session <;> simp [updateContext, trackedPreedit, session_eq]
  | onComposition => exact untracked
  | countEngineCall => exact untracked
  | onCommit text =>
      unfold onCommitCallback
      split
      · exact untracked
      · exact trackedPreedit_resetTextUiTracking _

/-- A session which loses the focus tracks nothing. -/
theorem leave (invariant : before.PreeditInvariant) (inactive : before.pendingActive = false)
    (told : TextEdits before.resetTextUiTracking after) :
    (after.updateContext fun ctx => { ctx with focused := false }).PreeditInvariant := by
  have reset := LinkKept.of_textFrame (TextFrame.resetTextUiTracking before)
  have linked := LinkKept.of_textFrame (TextFrame.of_edits told)
  have tracked : after.trackedPreedit = none := by
    clear linked
    induction told with
    | refl => exact trackedPreedit_resetTextUiTracking before
    | tail _ edit induction => exact trackedPreedit_none_of_textEdit edit induction
  have unfocused : (after.updateContext fun ctx =>
      { ctx with focused := false }).sessionIsFocused = false := by
    cases session_eq : after.session <;> simp [updateContext, sessionIsFocused, session_eq]
  have still_inactive : (after.updateContext fun ctx =>
      { ctx with focused := false }).pendingActive = false := by
    rw [← inactive, ← reset.active, ← linked.active]
    cases session_eq : after.session <;> simp [updateContext, pendingActive, session_eq]
  have still_untracked : (after.updateContext fun ctx =>
      { ctx with focused := false }).trackedPreedit = none := by
    rw [← tracked]
    cases session_eq : after.session <;> simp [updateContext, trackedPreedit, session_eq]
  exact
    { counter := by
        rw [updateContext, updateSession_imSerial, updateSession_trace, linked.imSerial,
          linked.dones]
        exact invariant.counter
      fits := by
        rw [updateContext, updateSession_trace, linked.dones]
        exact invariant.fits
      attached := by
        rw [updateContext, updateSession_display, updateSession_inputMethod, linked.display,
          linked.inputMethod]
        exact invariant.attached
      established := fun focused => by
        rw [unfocused] at focused
        exact absurd focused (by simp)
      untracked := fun _ => still_untracked
      awaited := fun active => by
        rw [still_inactive] at active
        exact absurd active (by simp)
      agrees := fun _ focused => by
        rw [unfocused] at focused
        exact absurd focused (by simp) }

theorem deactivate (invariant : before.PreeditInvariant) :
    (before.setPendingActive false).PreeditInvariant := by
  have kept : (before.setPendingActive false).sessionIsFocused = before.sessionIsFocused ∧
      (before.setPendingActive false).trackedPreedit = before.trackedPreedit ∧
      (before.setPendingActive false).pendingActive = false := by
    cases session_eq : before.session <;>
      simp [setPendingActive, sessionIsFocused, trackedPreedit, pendingActive, session_eq]
  obtain ⟨focused, tracked, inactive⟩ := kept
  exact
    { counter := invariant.counter
      fits := invariant.fits
      attached := invariant.attached
      established := by
        rw [focused]
        exact invariant.established
      untracked := by
        rw [focused, tracked]
        exact invariant.untracked
      awaited := fun active => by
        rw [inactive] at active
        exact absurd active (by simp)
      agrees := by
        rw [PreeditAgrees, focused, tracked]
        exact invariant.agrees }

theorem countDone (invariant : before.PreeditInvariant)
    (fits : before.countDone.trace.count .imDone < 2 ^ 32) :
    before.countDone.PreeditInvariant where
  counter := by
    rw [Frontend.countDone, log_imSerial, log_trace, List.count_cons_self, invariant.counter]
    simp
  fits := fits
  attached := invariant.attached
  established _ := by simp [Frontend.countDone]
  untracked := invariant.untracked
  awaited := invariant.awaited
  agrees := invariant.agrees

theorem of_calmEdit (invariant : before.PreeditInvariant) (edit : CalmEdit before after) :
    after.PreeditInvariant := by
  cases edit with
  | keyboard edit => exact invariant.of_kept (.of_keyboard (.single edit))
  | surroundings inst world =>
      exact invariant.of_kept (.of_boundary (.single (.surroundings inst world)))
  | text edit => exact invariant.of_textEdit edit
  | route keyed edit => exact invariant.of_routeEdit edit
  | keymap loaded =>
      unfold Frontend.onKeymap
      split
      · exact invariant
      · rcases vkForwardKeymap_eq before with forwarded | forwarded
        · rw [forwarded]
          exact invariant.of_kept (.of_session rfl rfl rfl rfl [] rfl (by simp))
        · rw [forwarded]
          exact invariant.of_kept
            (.of_session rfl rfl rfl rfl [.vkKeymap] rfl (by simp [Effect.keepsPreedit]))
  | flush focused => exact invariant.updateWaylandTextUi focused
  | pend update kept => exact invariant.of_kept (.updateSession before kept)

theorem of_edit (invariant : before.PreeditInvariant) (edit : Edit before after)
    (fits : after.trace.count .imDone < 2 ^ 32) : after.PreeditInvariant := by
  cases edit with
  | boundary edit => exact invariant.of_kept (.of_boundary (.single edit))
  | calm edit => exact invariant.of_calmEdit edit
  | activate => exact invariant.imHandleActivate
  | deactivate => exact invariant.deactivate
  | done => exact invariant.countDone fits
  | focusIn active counted => exact invariant.focusIn active counted
  | leave inactive told => exact invariant.leave inactive told

/-- What the edits of one event do, as long as the `done` events received fit in the serial. -/
theorem of_edits (invariant : before.PreeditInvariant) (edits : Edits before after)
    (fits : after.trace.count .imDone < 2 ^ 32) : after.PreeditInvariant := by
  induction edits with
  | refl => exact invariant
  | tail _ edit induction =>
      have grown := edit.trace_suffix.sublist.count_le .imDone
      exact (induction (grown.trans_lt fits)).of_edit edit fits

end PreeditInvariant

/-! ## Resume and reconnect -/

theorem PreeditGround.agrees_iff_of_none {frontend : Frontend} (ground : frontend.PreeditGround)
    (attached : frontend.inputMethod = true)
    (cleared : frontend.sessionIsFocused = true → preeditInForce frontend.trace = none) :
    frontend.PreeditAgrees ↔ frontend.trackedPreedit = none := by
  constructor
  · intro agrees
    cases focused : frontend.sessionIsFocused with
    | true => exact (agrees attached focused).trans (cleared focused)
    | false => exact ground.untracked focused
  · intro untracked _ focused
    exact untracked.trans (cleared focused).symm

variable {frontend : Frontend}

/-- A resume clears the preedit at the compositor and leaves the tracker alone. -/
theorem PreeditGround.handleResume (ground : frontend.PreeditGround)
    (attached : frontend.inputMethod = true) :
    frontend.handleResume.PreeditGround ∧
      (frontend.handleResume.PreeditAgrees ↔ frontend.trackedPreedit = none) := by
  have scrubbed : PreeditKept frontend frontend.scrubKeyboard :=
    .of_keyboard (KeyboardEdits.scrubKeyboard frontend)
  have still := ground.of_kept scrubbed
  have linked : LinkKept frontend.scrubKeyboard
      (frontend.scrubKeyboard.setPreedit [] (-1) (-1)).commit :=
    .of_textFrame ((TextFrame.setPreedit ..).trans (TextFrame.commit _))
  have tracked : (frontend.scrubKeyboard.setPreedit [] (-1) (-1)).commit.trackedPreedit =
      frontend.scrubKeyboard.trackedPreedit := by
    have session : (frontend.scrubKeyboard.setPreedit [] (-1) (-1)).commit.session =
        frontend.scrubKeyboard.session := syncPreedit_session _ none (-1)
    rw [trackedPreedit, trackedPreedit, session]
  have inForce := preeditInForce_setPreedit frontend.scrubKeyboard [] (-1) (-1)
  have cleared : PreeditKept (frontend.scrubKeyboard.setPreedit [] (-1) (-1)).commit
      frontend.handleResume := by
    unfold Frontend.handleResume
    dsimp only
    split
    · exact .of_boundary ((BoundaryEdits.scrubPhase _).trans (BoundaryEdits.resumeRegrab _))
    · exact .of_boundary (BoundaryEdits.scrubPhase _)
  have after : frontend.handleResume.PreeditGround := by
    refine PreeditGround.of_kept (still.shown linked ?_ fun _ => inForce.imp_right And.left) cleared
    rw [tracked]
    exact still.untracked
  have still_attached : frontend.handleResume.inputMethod = true := by
    rw [cleared.inputMethod, linked.inputMethod, scrubbed.inputMethod]
    exact attached
  refine ⟨after, ?_⟩
  rw [after.agrees_iff_of_none still_attached, cleared.tracked, tracked, scrubbed.tracked]
  intro focused
  rw [cleared.focused, linked.focused] at focused
  rw [cleared.inForce]
  refine inForce.resolve_right fun unchanged => ?_
  refine still.not_blocked ?_ focused unchanged.2
  rw [scrubbed.inputMethod]
  exact attached

theorem reconnectAttempts_of_binds (frontend : Frontend) {outcomes : List BindOutcome}
    (binds : (frontend.running && bindsFirst outcomes) = true) :
    ∃ vk, frontend.reconnectAttempts outcomes =
      (true, (frontend.waylandBind vk).setRunning) := by
  obtain ⟨running, first⟩ := Bool.and_eq_true_iff.mp binds
  induction outcomes with
  | nil => simp [bindsFirst] at first
  | cons outcome outcomes induction =>
      unfold Frontend.reconnectAttempts
      rw [if_neg (by simp [running])]
      cases outcome with
      | stopped => simp [bindsFirst] at first
      | failed =>
          have later : bindsFirst outcomes = true := by simpa [bindsFirst] using first
          exact induction (by simp [running, later]) later
      | bound vk => exact ⟨vk, rfl⟩

theorem reconnectAttempts_of_not_binds (frontend : Frontend) {outcomes : List BindOutcome}
    (not_binds : (frontend.running && bindsFirst outcomes) = false) :
    (frontend.reconnectAttempts outcomes).1 = false ∧
      (frontend.reconnectAttempts outcomes).2.stop = frontend.stop := by
  induction outcomes with
  | nil => exact ⟨rfl, rfl⟩
  | cons outcome outcomes induction =>
      unfold Frontend.reconnectAttempts
      split
      · exact ⟨rfl, rfl⟩
      · rename_i running
        cases outcome with
        | stopped => exact ⟨rfl, rfl⟩
        | failed => exact induction (by simpa [bindsFirst] using not_binds)
        | bound vk => simp [bindsFirst, running] at not_binds

theorem keyboardDestroy_running (frontend : Frontend) :
    frontend.keyboardDestroy.running = frontend.running := by
  obtain ⟨tracking, effects, released, -, -⟩ := vkReleaseForwardedKeys_eq frontend
  have grab (frontend : Frontend) : frontend.releaseGrab.running = frontend.running := by
    unfold Frontend.releaseGrab
    repeat' split
    all_goals rfl
  unfold Frontend.keyboardDestroy
  split
  · rfl
  · refine (grab _).trans ?_
    rw [released]

/-- Losing the connection keeps the session, and whether a stop has been requested. -/
theorem PreeditGround.waylandUnbind (ground : frontend.PreeditGround) :
    frontend.waylandUnbind.PreeditGround ∧
      frontend.waylandUnbind.trackedPreedit = frontend.trackedPreedit ∧
      frontend.waylandUnbind.inputMethod = false ∧
      frontend.waylandUnbind.running = frontend.running := by
  have destroyed : PreeditKept frontend frontend.keyboardDestroy :=
    .of_keyboard (KeyboardEdits.keyboardDestroy frontend)
  have running := keyboardDestroy_running frontend
  have unbound : PreeditKept frontend.keyboardDestroy frontend.keyboardDestroy.unbindVk ∧
      frontend.keyboardDestroy.unbindVk.running = frontend.keyboardDestroy.running := by
    unfold Frontend.unbindVk
    split
    · refine ⟨?_, rfl⟩
      exact .of_session rfl rfl rfl rfl [.vkDestroy] rfl (by simp [Effect.keepsPreedit])
    · refine ⟨?_, rfl⟩
      exact .of_session rfl rfl rfl rfl [] rfl (by simp)
  have still := (ground.of_kept destroyed).of_kept unbound.1
  have tracked := unbound.1.tracked.trans destroyed.tracked
  have still_running := unbound.2.trans running
  unfold Frontend.waylandUnbind Frontend.unbindInputMethod
  dsimp only
  split
  · refine ⟨?_, tracked, rfl, still_running⟩
    exact
      { counter := still.counter
        fits := still.fits
        attached := fun connected => absurd connected (by simp)
        established := still.established
        untracked := still.untracked
        awaited := fun _ _ => rfl }
  · rename_i detached
    refine ⟨?_, tracked, by simpa using detached, still_running⟩
    exact
      { counter := still.counter
        fits := still.fits
        attached := fun connected => absurd connected (by simp)
        established := still.established
        untracked := still.untracked
        awaited := still.awaited }

/-- A new object has no preedit in force. -/
theorem PreeditGround.waylandBind (ground : frontend.PreeditGround) (vk : VkOutcome) :
    (frontend.waylandBind vk).setRunning.PreeditGround ∧
      ((frontend.waylandBind vk).setRunning.PreeditAgrees ↔ frontend.trackedPreedit = none) := by
  have cleared : ∀ vk, preeditInForce (frontend.waylandBind vk).setRunning.trace = none := by
    rintro (_ | _ | _) <;> rfl
  have attached : ∀ vk, (frontend.waylandBind vk).setRunning.inputMethod = true := by
    rintro (_ | _ | _) <;> rfl
  have session : ∀ vk, (frontend.waylandBind vk).setRunning.session = frontend.session := by
    rintro (_ | _ | _) <;> rfl
  have imSerial : ∀ vk, (frontend.waylandBind vk).setRunning.imSerial = frontend.imSerial := by
    rintro (_ | _ | _) <;> rfl
  have dones : ∀ vk, (frontend.waylandBind vk).setRunning.trace.count .imDone =
      frontend.trace.count .imDone := by
    rintro (_ | _ | _) <;> rfl
  have focused : (frontend.waylandBind vk).setRunning.sessionIsFocused =
      frontend.sessionIsFocused := by
    rw [sessionIsFocused, sessionIsFocused, session]
  have tracked : (frontend.waylandBind vk).setRunning.trackedPreedit =
      frontend.trackedPreedit := by
    rw [trackedPreedit, trackedPreedit, session]
  have after : (frontend.waylandBind vk).setRunning.PreeditGround :=
    { counter := by
        rw [imSerial, dones]
        exact ground.counter
      fits := by
        rw [dones]
        exact ground.fits
      attached := fun _ => attached vk
      established := by
        rw [focused, dones]
        exact ground.established
      untracked := by
        rw [focused, tracked]
        exact ground.untracked
      awaited := fun _ _ => cleared vk }
  refine ⟨after, ?_⟩
  rw [after.agrees_iff_of_none (attached vk) fun _ => cleared vk, tracked]

/-- A lost connection leads to an empty preedit at a new object, or to no object. -/
theorem PreeditGround.eventLoopRecover (ground : frontend.PreeditGround)
    (outcomes : List BindOutcome) :
    (frontend.eventLoopRecover outcomes).PreeditGround ∧
      ((frontend.eventLoopRecover outcomes).PreeditAgrees ↔
        (frontend.rebinds outcomes = true → frontend.trackedPreedit = none)) := by
  obtain ⟨unbound, tracked, detached, running⟩ := ground.waylandUnbind
  have baseline : PreeditKept frontend.waylandUnbind frontend.waylandUnbind.reconnectBaseline :=
    .of_session rfl rfl rfl rfl [.keyGeneration _] rfl (by simp [Effect.keepsPreedit])
  have reset := unbound.of_kept baseline
  have still_running : frontend.waylandUnbind.reconnectBaseline.running = frontend.running := running
  unfold Frontend.eventLoopRecover Frontend.reconnect
  dsimp only
  cases binds : frontend.rebinds outcomes with
  | true =>
      rw [rebinds, ← still_running] at binds
      obtain ⟨vk, bound⟩ := reconnectAttempts_of_binds _ binds
      obtain ⟨after, agrees⟩ := reset.waylandBind vk
      rw [bound, if_pos rfl]
      refine ⟨after, ?_⟩
      rw [agrees, baseline.tracked, tracked]
      simp
  | false =>
      rw [rebinds, ← still_running] at binds
      obtain ⟨not_bound, stopped⟩ := reconnectAttempts_of_not_binds _ binds
      rw [not_bound, if_neg (by simp), stopped]
      have stop : PreeditKept frontend.waylandUnbind.reconnectBaseline
          frontend.waylandUnbind.reconnectBaseline.stop :=
        .of_keyboard (KeyboardEdits.stop _)
      refine ⟨reset.of_kept stop, iff_of_true (fun attached => ?_) (by simp)⟩
      rw [stop.inputMethod, baseline.inputMethod, detached] at attached
      exact absurd attached (by simp)

theorem PreeditInvariant.step (engine : Engine) (invariant : frontend.PreeditInvariant)
    {event : Event} (fits : frontend.DonesFit engine event) :
    (frontend.step engine event).PreeditGround ∧
      ((frontend.step engine event).PreeditAgrees ↔ frontend.PreeditSettled event) := by
  unfold DonesFit at fits
  unfold Frontend.step at fits ⊢
  split
  · rename_i connected
    rw [if_pos connected] at fits
    have attached := invariant.attached connected
    cases edit : event.isEdit with
    | true =>
        have after := invariant.of_edits (Edits.handle engine frontend edit) fits
        refine ⟨after.toPreeditGround, iff_of_true after.agrees fun loses => ?_⟩
        cases event <;> simp [Event.isEdit, losesPreedit] at edit loses
    | false =>
        cases event with
        | resume =>
            obtain ⟨after, agrees⟩ := invariant.handleResume attached
            refine ⟨after, ?_⟩
            rw [Frontend.handle]
            simpa [PreeditSettled, losesPreedit, connected] using agrees
        | reconcileTick =>
            have noted : PreeditKept frontend
                (frontend.setDivergence frontend.reconcileDecision.2) :=
              .of_session rfl rfl rfl rfl [] rfl (by simp)
            have still := invariant.of_kept noted
            have loses : frontend.losesPreedit .reconcileTick =
                (frontend.reconcileDecision.1 == .repair) := by
              simp [losesPreedit, connected]
            rw [PreeditSettled, loses, Frontend.handle]
            unfold Frontend.reconcileTick
            dsimp only
            split
            · rename_i repairs
              obtain ⟨after, agrees⟩ := still.handleResume attached
              exact ⟨after, by simpa [repairs, noted.tracked] using agrees⟩
            · rename_i waits
              exact ⟨still.toPreeditGround, iff_of_true still.agrees (by simp [waits])⟩
        | disconnected outcomes =>
            obtain ⟨after, agrees⟩ := invariant.eventLoopRecover outcomes
            refine ⟨after, ?_⟩
            rw [Frontend.handle]
            simpa [PreeditSettled, losesPreedit, connected] using agrees
        | _ => simp [Event.isEdit] at edit
  · rename_i ended
    exact ⟨invariant.toPreeditGround, iff_of_true invariant.agrees
      (by simp [PreeditSettled, losesPreedit, ended])⟩

theorem PreeditInvariant.start (inst : Instance) (shortcuts : ShortcutConfig) (world : World)
    (vk : VkOutcome) : (Frontend.start inst shortcuts world vk).PreeditInvariant := by
  have not_focused : ∀ vk, (Frontend.start inst shortcuts world vk).sessionIsFocused = false := by
    rintro (_ | _ | _) <;> rfl
  have no_done : ∀ vk, (Frontend.start inst shortcuts world vk).trace.count .imDone = 0 := by
    rintro (_ | _ | _) <;> rfl
  have attached : ∀ vk, (Frontend.start inst shortcuts world vk).inputMethod = true := by
    rintro (_ | _ | _) <;> rfl
  refine PreeditInvariant.of_none ?_ ?_ (fun _ => attached vk) ?_ ?_ ?_
  · rw [no_done]
    cases vk <;> rfl
  · rw [no_done]
    decide
  · rw [not_focused]
    simp
  · cases vk <;> rfl
  · cases vk <;> rfl

/-- A flush of a frontend whose tracker is right shows the formatted preedit. -/
theorem PreeditInvariant.flushShown (engine : Engine) (invariant : frontend.PreeditInvariant)
    (event : Event) : frontend.FlushShown engine event := by
  intro flushes
  obtain ⟨rfl, connected, flushes⟩ : event = .flushPopup ∧ frontend.display = true ∧
      shouldFlushPopupUpdate frontend.popupUpdatePending frontend.session.isSome
        frontend.session.isSome frontend.sessionIsFocused = true := by
    cases event <;> simp_all [Frontend.flushes]
  have focused : frontend.sessionIsFocused = true := (Bool.and_eq_true_iff.mp flushes).2
  have flushed : frontend.step engine .flushPopup = frontend.updateWaylandTextUi := by
    rw [Frontend.step, if_pos connected, Frontend.handle, flushPendingPopup, if_pos flushes]
  have linked := LinkKept.of_textFrame (TextFrame.updateWaylandTextUi frontend)
  have after := invariant.updateWaylandTextUi focused
  obtain ⟨tracked, formatted⟩ := trackedPreedit_updateWaylandTextUi frontend
  rw [flushed, formatted, ← tracked]
  refine (after.agrees ?_ ?_).symm
  · rw [linked.inputMethod]
    exact invariant.attached connected
  · rw [linked.focused]
    exact focused

/-- As long as the `done` events fit in the serial, a run keeps the tracker right, and every flush
shows the formatted preedit, exactly if each resume, repair and reconnect in it finds no preedit
in the tracker. -/
theorem preeditAgrees_iff_settled (engine : Engine) (inst : Instance) (shortcuts : ShortcutConfig)
    (world : World) (vk : VkOutcome) (events : List Event)
    (fit : Machine.EachStep (step engine) (DonesFit engine) (start inst shortcuts world vk) events) :
    (Machine.Always (step engine) PreeditAgrees (start inst shortcuts world vk) events ∧
      Machine.EachStep (step engine) (FlushShown engine) (start inst shortcuts world vk) events) ↔
    Machine.EachStep (step engine) PreeditSettled (start inst shortcuts world vk) events := by
  have started := PreeditInvariant.start inst shortcuts world vk
  have tracker : Machine.Always (step engine) PreeditAgrees (start inst shortcuts world vk) events ↔
      Machine.EachStep (step engine) PreeditSettled (start inst shortcuts world vk) events :=
    Machine.always_iff_eachStep_of_allowed PreeditGround
      (fun _ _ ground agrees fits => (PreeditInvariant.step engine ⟨ground, agrees⟩ fits).2)
      (fun _ _ ground agrees fits _ => (PreeditInvariant.step engine ⟨ground, agrees⟩ fits).1)
      started.toPreeditGround started.agrees fit
  rw [← tracker]
  refine and_iff_left_of_imp fun agrees => ?_
  have settled := tracker.mp agrees
  have invariant : Machine.Always (step engine) PreeditInvariant
      (start inst shortcuts world vk) events :=
    Machine.Always.of_invariant PreeditInvariant
      (fun state event carried (good : state.DonesFit engine event ∧ state.PreeditSettled event) =>
        have ⟨ground, agrees⟩ := carried.step engine good.1
        ⟨ground, agrees.mpr good.2⟩)
      started fun front event within => ⟨fit front event within, settled front event within⟩
  exact .of_always (fun _ event carried => carried.flushShown engine event) invariant

/-- A run without a resume: the tracker is right, and the flush shows the composition. -/
theorem preeditAgrees_iff_settled_flush :
    let engine : Engine := fun _ => { handled := false, calls := [], active := some "rime" }
    let focused := start ⟨some "rime", none, false, false⟩ ShortcutConfig.defaults
      (World.obliging 1000) .noManager
    let events := [.activate, .done, .contextCalls [.setComposition [some [0x6e]] 1 2], .flushPopup]
    Machine.Always (step engine) PreeditAgrees focused events ∧
      Machine.EachStep (step engine) (FlushShown engine) focused events :=
  (preeditAgrees_iff_settled _ _ _ _ _ _ (by decide)).mpr (by decide)

/-- After a resume which clears the preedit of an ongoing composition, the next flush of the same
composition shows nothing. -/
theorem preedit_lost_on_resume :
    let engine : Engine := fun _ => { handled := false, calls := [], active := some "rime" }
    ¬Machine.EachStep (step engine) (FlushShown engine)
      (start ⟨some "rime", none, false, false⟩ ShortcutConfig.defaults (World.obliging 1000)
        .noManager)
      [.activate, .done, .contextCalls [.setComposition [some [0x6e]] 1 2], .flushPopup, .resume,
        .contextCalls [.setComposition [some [0x6e]] 1 3], .flushPopup] := by
  decide

end Frontend

end Typio
