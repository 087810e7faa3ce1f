import Mathlib.Algebra.Group.Int.Defs
import Mathlib.Logic.Relation
import Typio.Wayland.Frontend

/-!
# Text UI

Preedit formatting, the requests on the input-method object, the callbacks of the input context,
the deferred flush, and the calls into the engines, which reach the wire through those callbacks.
-/

namespace Typio

/-! ## Preedit -/

/-- `typio_wl_build_plain_preedit`: the text, null when no segment has any, and the cursor. -/
def buildPlainPreedit (ctx : InputContext) : Option Text × Int :=
  if ctx.segments = [] then (none, -1)
  else
    let buffer := ctx.segments.flatMap fun segment => segment.getD []
    (if buffer = [] then none else some buffer,
      -- the length is converted to a 32-bit integer
      if 0 ≤ ctx.cursorPos then ctx.cursorPos else (buffer.length : Int).bmod (2 ^ 32))

/-- `TypioWlTextUiPlan`. -/
inductive TextUiPlan
  | syncPreeditAndPopup
  | syncPopupOnly
  deriving DecidableEq

/-- `typio_wl_text_ui_plan_update`. -/
def planUpdate (lastPreeditText : Option Text) (lastPreeditCursor : Int)
    (nextPreeditText : Option Text) (nextPreeditCursor : Int) : TextUiPlan :=
  let lastText := lastPreeditText.getD []
  let nextText := nextPreeditText.getD []
  if lastPreeditCursor ≠ nextPreeditCursor ∨ lastText ≠ nextText then .syncPreeditAndPopup
  else .syncPopupOnly

/-- `typio_wl_text_ui_should_flush_popup_update`. -/
def shouldFlushPopupUpdate (popupUpdatePending hasSession hasContext contextFocused : Bool) :
    Bool :=
  popupUpdatePending && hasSession && hasContext && contextFocused

/-- The preedit tracker after `typio_wl_text_ui_reset_tracking`. -/
def Session.resetTracking (session : Session) : Session :=
  { session with lastPreeditText := none, lastPreeditCursor := -1 }

/-- The context after `clear_preedit_silent` and `clear_candidates_silent`. -/
def InputContext.clearSilent (ctx : InputContext) : InputContext :=
  { ctx with segments := [], cursorPos := 0, candidateCount := 0 }

namespace Frontend

/-! ## Requests -/

/-- `typio_wl_commit_string`. -/
def commitString (frontend : Frontend) (text : Text) : Frontend :=
  if frontend.inputMethod then frontend.log (.commitString text) else frontend

/-- `typio_wl_set_preedit`. -/
def setPreedit (frontend : Frontend) (text : Text) (cursorBegin cursorEnd : Int) : Frontend :=
  if frontend.inputMethod then frontend.log (.setPreedit text cursorBegin cursorEnd) else frontend

/-- `typio_wl_commit`; before the first `done` event the commit is skipped. -/
def commit (frontend : Frontend) : Frontend :=
  if frontend.inputMethod = false ∨ frontend.session.isNone then frontend
  else if frontend.imSerial = 0 then frontend
  else frontend.log (.commit frontend.imSerial)

/-! ## Context callbacks -/

/-- `typio_wl_text_ui_reset_tracking` on the frontend's session. -/
def resetTextUiTracking (frontend : Frontend) : Frontend :=
  (frontend.setPopupUpdatePending false).updateSession Session.resetTracking

/-- `on_commit_callback`. -/
def onCommitCallback (frontend : Frontend) (text : Text) : Frontend :=
  if text = [] then frontend
  else
    let frontend := frontend.setPreedit [] (-1) (-1)
    let frontend := frontend.log (.popup .hide)
    let frontend := frontend.commitString text
    let frontend := frontend.commit
    frontend.resetTextUiTracking

/-- `on_composition_callback`. -/
def onCompositionCallback (frontend : Frontend) : Frontend :=
  frontend.setPopupUpdatePending true

/-- The input context of the frontend's session changes. -/
def updateContext (frontend : Frontend) (update : InputContext → InputContext) : Frontend :=
  frontend.updateSession fun session => { session with ctx := update session.ctx }

/-- A call on the input context of the frontend's session. -/
def contextCall (frontend : Frontend) (call : ContextCall) : Frontend :=
  if frontend.session.isNone then frontend
  else
    match call with
    | .commit text => (frontend.updateContext InputContext.clearSilent).onCommitCallback text
    | .setComposition segments cursorPos candidateCount =>
        (frontend.updateContext fun ctx =>
          { ctx with segments, cursorPos, candidateCount }).onCompositionCallback
    | .clear => (frontend.updateContext InputContext.clearSilent).onCompositionCallback

/-! ## Calls into the engine -/

section Engine

variable (engine : Engine)

/-- One more call of an engine is made. -/
@[simps] def countEngineCall (frontend : Frontend) : Frontend :=
  { frontend with engineCalls := frontend.engineCalls + 1 }

/-- A call of an engine, with the context calls it makes meanwhile. -/
def callEngine (frontend : Frontend) : Frontend :=
  (engine frontend.engineCalls).calls.foldl contextCall frontend.countEngineCall

/-- A call of the active engine, if there is one. -/
def callActiveEngine (frontend : Frontend) : Frontend :=
  if frontend.inst.activeEngine.isSome then frontend.callEngine engine else frontend

/-- `typio_input_context_process_key`: whether the engine handled the event. -/
def processKey (frontend : Frontend) (event : KeyEvent) (isRepeat : Bool) : Bool × Frontend :=
  if frontend.inst.activeEngine.isSome then
    ((engine frontend.engineCalls).handled,
      (frontend.log (.engineKey event isRepeat)).callEngine engine)
  else
    (false, frontend)

/-- `typio_engine_manager_next`. -/
def nextEngine (frontend : Frontend) : Frontend :=
  let answer := engine frontend.engineCalls
  ((frontend.log .nextEngine).callEngine engine).setActiveEngine answer.active

/-- `typio_input_context_focus_in`. -/
def contextFocusIn (frontend : Frontend) : Frontend :=
  if frontend.sessionIsFocused then frontend
  else
    (frontend.updateContext fun ctx => { ctx with focused := true }).callActiveEngine engine

/-- `typio_input_context_focus_out`. -/
def contextFocusOut (frontend : Frontend) : Frontend :=
  if frontend.sessionIsFocused then
    (frontend.callActiveEngine engine).updateContext fun ctx => { ctx with focused := false }
  else frontend

/-- `typio_input_context_reset`. -/
def contextReset (frontend : Frontend) : Frontend :=
  (frontend.contextCall .clear).callActiveEngine engine

end Engine

/-- `typio_wl_candidate_guard_should_consume`. -/
def candidateGuardShouldConsume (frontend : Frontend) (keysym : Keysym) : Bool :=
  match frontend.session with
  | none => false
  | some session => isNavigationKeysym keysym && 0 < session.ctx.candidateCount

/-! ## Deferred flush -/

/-- The preedit part of `update_wayland_text_ui`, when the preedit is synchronized. -/
def syncPreedit (frontend : Frontend) (plainText : Option Text) (cursorPos : Int) : Frontend :=
  match plainText with
  | none => (frontend.setPreedit [] (-1) (-1)).commit
  | some text => (frontend.setPreedit text cursorPos cursorPos).commit

/-- `update_wayland_text_ui`. -/
def updateWaylandTextUi (frontend : Frontend) : Frontend :=
  match frontend.session with
  | none => frontend
  | some session =>
      let plainText := (buildPlainPreedit session.ctx).1
      let cursorPos := (buildPlainPreedit session.ctx).2
      let plan := planUpdate session.lastPreeditText session.lastPreeditCursor
        (some (plainText.getD [])) cursorPos
      let frontend := frontend.log (.popup .update)
      let frontend := frontend.setPopupUpdatePending frontend.world.presentRetryPending
      let frontend :=
        if plan = .syncPreeditAndPopup then frontend.syncPreedit plainText cursorPos
        else frontend
      frontend.updateSession fun session =>
        { session with lastPreeditText := plainText, lastPreeditCursor := cursorPos }

/-- `event_loop_flush_pending_popup`. -/
def flushPendingPopup (frontend : Frontend) : Frontend :=
  if shouldFlushPopupUpdate frontend.popupUpdatePending frontend.session.isSome
      frontend.session.isSome frontend.sessionIsFocused then
    frontend.updateWaylandTextUi
  else frontend

end Frontend

/-! ## What the engine leaves alone -/

/-- What the engine can do to the frontend through the input context. -/
inductive TextEdit (before : Frontend) : Frontend → Prop
  | updateContext (update : InputContext → InputContext)
      (focused : ∀ ctx, (update ctx).focused = ctx.focused) :
      TextEdit before (before.updateContext update)
  | onComposition : TextEdit before before.onCompositionCallback
  | onCommit (text : Text) : TextEdit before (before.onCommitCallback text)
  | countEngineCall : TextEdit before before.countEngineCall

abbrev TextEdits : Frontend → Frontend → Prop := Relation.ReflTransGen TextEdit

namespace TextEdits

theorem contextCall (frontend : Frontend) (call : ContextCall) :
    TextEdits frontend (frontend.contextCall call) := by
  unfold Frontend.contextCall
  split
  · exact .refl
  · cases call with
    | commit text =>
        exact .head (.updateContext InputContext.clearSilent fun _ => rfl)
          (.single (.onCommit text))
    | setComposition segments cursorPos candidateCount =>
        exact .head (.updateContext (fun ctx =>
          { ctx with segments, cursorPos, candidateCount }) fun _ => rfl) (.single .onComposition)
    | clear =>
        exact .head (.updateContext InputContext.clearSilent fun _ => rfl)
          (.single .onComposition)

theorem contextCalls (frontend : Frontend) (calls : List ContextCall) :
    TextEdits frontend (calls.foldl Frontend.contextCall frontend) := by
  induction calls generalizing frontend with
  | nil => exact .refl
  | cons call calls induction => exact (contextCall frontend call).trans (induction _)

theorem callEngine (engine : Engine) (frontend : Frontend) :
    TextEdits frontend (frontend.callEngine engine) :=
  .head .countEngineCall (contextCalls _ _)

theorem callActiveEngine (engine : Engine) (frontend : Frontend) :
    TextEdits frontend (frontend.callActiveEngine engine) := by
  unfold Frontend.callActiveEngine
  split
  · exact callEngine engine frontend
  · exact .refl

end TextEdits

/-- The requests of the text UI. -/
def Effect.isTextUi : Effect → Bool
  | setPreedit .. | commitString _ | commit _ | popup _ => true
  | _ => false

/-- A frontend changes at most in its text: the session's composition and preedit tracker, the
pending flush, the number of engine calls, and requests of the text UI. -/
structure TextFrame (before after : Frontend) : Prop where
  frame : after = { before with
    session := after.session, popupUpdatePending := after.popupUpdatePending,
    engineCalls := after.engineCalls, trace := after.trace }
  focused : after.session.map (·.ctx.focused) = before.session.map (·.ctx.focused)
  pendingActive : after.session.map (·.pending.active) = before.session.map (·.pending.active)
  sent : ∃ effects, after.trace = effects ++ before.trace ∧
    ∀ effect ∈ effects, effect.isTextUi = true

namespace TextFrame

theorem refl (frontend : Frontend) : TextFrame frontend frontend where
  frame := rfl
  focused := rfl
  pendingActive := rfl
  sent := ⟨[], rfl, by simp⟩

theorem trans {first second third : Frontend} (left : TextFrame first second)
    (right : TextFrame second third) : TextFrame first third where
  frame := by
    rw [right.frame, left.frame]
  focused := right.focused.trans left.focused
  pendingActive := right.pendingActive.trans left.pendingActive
  sent := by
    obtain ⟨earlier, earlier_trace, earlier_text⟩ := left.sent
    obtain ⟨later, later_trace, later_text⟩ := right.sent
    refine ⟨later ++ earlier, by rw [later_trace, earlier_trace, List.append_assoc], ?_⟩
    intro effect mem
    rcases List.mem_append.mp mem with mem | mem
    · exact later_text effect mem
    · exact earlier_text effect mem

theorem log {frontend : Frontend} {effect : Effect} (text : effect.isTextUi = true) :
    TextFrame frontend (frontend.log effect) where
  frame := rfl
  focused := rfl
  pendingActive := rfl
  sent := ⟨[effect], rfl, by simpa using text⟩

theorem setPreedit (frontend : Frontend) (text : Text) (cursorBegin cursorEnd : Int) :
    TextFrame frontend (frontend.setPreedit text cursorBegin cursorEnd) := by
  unfold Frontend.setPreedit
  split
  · exact log rfl
  · exact refl frontend

theorem commitString (frontend : Frontend) (text : Text) :
    TextFrame frontend (frontend.commitString text) := by
  unfold Frontend.commitString
  split
  · exact log rfl
  · exact refl frontend

theorem commit (frontend : Frontend) : TextFrame frontend frontend.commit := by
  unfold Frontend.commit
  split
  · exact refl frontend
  · split
    · exact refl frontend
    · exact log rfl

/-- The session may change in all but its focus and the pending activation. -/
theorem updateSession {frontend : Frontend} {update : Session → Session}
    (focused : ∀ session, (update session).ctx.focused = session.ctx.focused)
    (active : ∀ session, (update session).pending.active = session.pending.active) :
    TextFrame frontend (frontend.updateSession update) where
  frame := rfl
  focused := by simp [Frontend.updateSession, Function.comp_def, focused]
  pendingActive := by simp [Frontend.updateSession, Function.comp_def, active]
  sent := ⟨[], rfl, by simp⟩

theorem setPopupUpdatePending (frontend : Frontend) (pending : Bool) :
    TextFrame frontend (frontend.setPopupUpdatePending pending) where
  frame := rfl
  focused := rfl
  pendingActive := rfl
  sent := ⟨[], rfl, by simp⟩

theorem resetTextUiTracking (frontend : Frontend) :
    TextFrame frontend frontend.resetTextUiTracking :=
  (setPopupUpdatePending frontend false).trans (updateSession (fun _ => rfl) (fun _ => rfl))

/-- The context may change in all but its focus. -/
theorem updateContext {frontend : Frontend} {update : InputContext → InputContext}
    (focused : ∀ ctx, (update ctx).focused = ctx.focused) :
    TextFrame frontend (frontend.updateContext update) :=
  updateSession (fun session => focused session.ctx) (fun _ => rfl)

theorem onCommitCallback (frontend : Frontend) (text : Text) :
    TextFrame frontend (frontend.onCommitCallback text) := by
  unfold Frontend.onCommitCallback
  split
  · exact refl frontend
  · exact ((((setPreedit ..).trans (log rfl)).trans (commitString ..)).trans (commit _)).trans
      (resetTextUiTracking _)

theorem countEngineCall (frontend : Frontend) :
    TextFrame frontend frontend.countEngineCall where
  frame := rfl
  focused := rfl
  pendingActive := rfl
  sent := ⟨[], rfl, by simp⟩

theorem of_edit {before after : Frontend} (edit : TextEdit before after) :
    TextFrame before after := by
  cases edit with
  | updateContext update focused => exact updateContext focused
  | onComposition => exact setPopupUpdatePending before true
  | onCommit text => exact onCommitCallback before text
  | countEngineCall => exact countEngineCall before

theorem of_edits {before after : Frontend} (edits : TextEdits before after) :
    TextFrame before after := by
  induction edits with
  | refl => exact refl before
  | tail _ edit induction => exact induction.trans (of_edit edit)

theorem contextCalls (frontend : Frontend) (calls : List ContextCall) :
    TextFrame frontend (calls.foldl Frontend.contextCall frontend) :=
  of_edits (TextEdits.contextCalls frontend calls)

theorem callEngine (engine : Engine) (frontend : Frontend) :
    TextFrame frontend (frontend.callEngine engine) :=
  of_edits (TextEdits.callEngine engine frontend)

theorem syncPreedit (frontend : Frontend) (plainText : Option Text) (cursorPos : Int) :
    TextFrame frontend (frontend.syncPreedit plainText cursorPos) := by
  cases plainText with
  | none => exact (setPreedit ..).trans (commit _)
  | some text => exact (setPreedit ..).trans (commit _)

theorem updateWaylandTextUi (frontend : Frontend) :
    TextFrame frontend frontend.updateWaylandTextUi := by
  unfold Frontend.updateWaylandTextUi
  split
  · exact refl frontend
  · refine trans ?_ (updateSession (fun _ => rfl) (fun _ => rfl))
    have popup : TextFrame frontend (frontend.log (.popup .update)) := log rfl
    have retried := popup.trans (setPopupUpdatePending _ frontend.world.presentRetryPending)
    split
    · exact retried.trans (syncPreedit ..)
    · exact retried

end TextFrame

end Typio
