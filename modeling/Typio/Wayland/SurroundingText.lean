import Typio.Wayland.PhaseDiscipline
import Typio.Wayland.PreeditCursor

/-!
# The surrounding text of the focused application

The compositor reports the text around the cursor with `surrounding_text`; the report waits in the
session until the next `done`, which hands it to the input context.  A run of the input method's
events is watched for what has been reported since the last activation, and what the context holds
after each `done` is compared with it.
-/

namespace Typio

/-! ## Events and reports -/

/-- The events which bear on the surrounding text, and what engines and the system do between
them. -/
inductive FocusEvent
  | activate
  | deactivate
  | surroundingText (text : Option Text) (cursor anchor : Nat)
  | textChangeCause (cause : UInt32)
  | contentType (hint purpose : UInt32)
  | done
  | contextCalls (calls : List ContextCall)
  | changeInstance (inst : Instance)
  | changeWorld (world : World)

/-- The event of the frontend. -/
def FocusEvent.event : FocusEvent → Event
  | .activate => .activate
  | .deactivate => .deactivate
  | .surroundingText text cursor anchor => .surroundingText text cursor anchor
  | .textChangeCause cause => .textChangeCause cause
  | .contentType hint purpose => .contentType hint purpose
  | .done => .done
  | .contextCalls calls => .contextCalls calls
  | .changeInstance inst => .changeInstance inst
  | .changeWorld world => .changeWorld world

/-- One report of the compositor. -/
structure SurroundingReport where
  text : Text
  cursor : Nat
  anchor : Nat

/-- What the input context holds of the surrounding text: the text, the cursor and the anchor. -/
def InputContext.surrounding (ctx : InputContext) : Option (Text × Int × Int) :=
  ctx.surroundingText.map fun text => (text, ctx.surroundingCursor, ctx.surroundingAnchor)

/-- The report as an engine should read it. -/
def SurroundingReport.held (report : SurroundingReport) : Text × Int × Int :=
  (report.text, report.cursor, report.anchor)

/-- A frontend together with the reports it has received. -/
structure Watched where
  frontend : Frontend
  /-- The latest report since the last `activate`; a report without a text withdraws it. -/
  latest : Option SurroundingReport
  /-- A report has been handed to the context of the session by a `done`. -/
  handedOver : Bool

namespace Watched

/-- What the event tells about the reports. -/
def latestAfter (watched : Watched) : FocusEvent → Option SurroundingReport
  | .activate => none
  | .surroundingText text cursor anchor =>
      text.map fun text => { text := text, cursor := cursor, anchor := anchor }
  | _ => watched.latest

/-- A `done` hands the latest report over, when there is a session. -/
def handedOverAfter (watched : Watched) : FocusEvent → Bool
  | .done =>
      watched.handedOver || (watched.latest.isSome && watched.frontend.session.isSome)
  | _ => watched.handedOver

/-- One event. -/
def step (engine : Engine) (watched : Watched) (event : FocusEvent) : Watched where
  frontend := watched.frontend.handle engine event.event
  latest := watched.latestAfter event
  handedOver := watched.handedOverAfter event

/-- The loop starts; nothing has been reported. -/
def start (inst : Instance) (shortcuts : ShortcutConfig) (world : World) (vk : VkOutcome) :
    Watched where
  frontend := Frontend.start inst shortcuts world vk
  latest := none
  handedOver := false

/-- The context of a focused session holds the latest report, and nothing if there is none. -/
def IsCurrent (watched : Watched) : Prop :=
  ∀ session, watched.frontend.session = some session → session.ctx.focused = true →
    session.ctx.surrounding = watched.latest.map SurroundingReport.held

/-- A `done` leaves the surrounding text current. -/
def StaysCurrent (engine : Engine) (watched : Watched) (event : FocusEvent) : Prop :=
  event = .done → (watched.step engine event).IsCurrent

/-- When the session is about to be focused, either a text has been reported since the last
`activate`, with positions that fit in an `int`, or no text has ever been handed to the context. -/
def ReportedAfresh (watched : Watched) (event : FocusEvent) : Prop :=
  event = .done → watched.frontend.pendingActive = true →
    match watched.latest with
    | some report => report.cursor < 2 ^ 31 ∧ report.anchor < 2 ^ 31
    | none => watched.handedOver = false

end Watched

/-! ## What a session holds of the text -/

/-- The pending state and the surrounding text of a session. -/
def Session.textPart (session : Session) : PendingState × Option (Text × Int × Int) :=
  (session.pending, session.ctx.surrounding)

namespace Frontend

/-- The pending state and the surrounding text of the session. -/
def textPart (frontend : Frontend) : Option (PendingState × Option (Text × Int × Int)) :=
  frontend.session.map Session.textPart

theorem textPart_updateSession {frontend : Frontend} {update : Session → Session}
    (kept : ∀ session, (update session).textPart = session.textPart) :
    (frontend.updateSession update).textPart = frontend.textPart := by
  simp [textPart, Function.comp_def, kept]

theorem textPart_boundary {before after : Frontend} (edits : BoundaryEdits before after) :
    after.textPart = before.textPart := by
  rw [textPart, textPart, (BoundaryFrame.of_edits edits).session]

theorem textPart_updateContext (frontend : Frontend) (update : InputContext → InputContext)
    (kept : ∀ ctx, (update ctx).surrounding = ctx.surrounding) :
    (frontend.updateContext update).textPart = frontend.textPart :=
  textPart_updateSession fun session => by simp [Session.textPart, kept]

theorem textPart_resetTextUiTracking (frontend : Frontend) :
    frontend.resetTextUiTracking.textPart = frontend.textPart :=
  @textPart_updateSession (frontend.setPopupUpdatePending false) _ fun _ => rfl

theorem textPart_onCommitCallback (frontend : Frontend) (text : Text) :
    (frontend.onCommitCallback text).textPart = frontend.textPart := by
  have requests (frontend : Frontend) : frontend.commit.session = frontend.session := by
    unfold commit
    repeat' split
    all_goals rfl
  have string (frontend : Frontend) : (frontend.commitString text).session = frontend.session := by
    unfold commitString
    split <;> rfl
  have preedit (frontend : Frontend) :
      (frontend.setPreedit [] (-1) (-1)).session = frontend.session := by
    unfold setPreedit
    split <;> rfl
  unfold onCommitCallback
  split
  · rfl
  · rw [textPart_resetTextUiTracking, textPart, requests, string, log_session, preedit, textPart]

theorem textPart_contextCall (frontend : Frontend) (call : ContextCall) :
    (frontend.contextCall call).textPart = frontend.textPart := by
  unfold contextCall
  split
  · rfl
  · cases call with
    | commit text =>
        exact (textPart_onCommitCallback _ text).trans (textPart_updateContext _ _ fun _ => rfl)
    | setComposition segments cursorPos candidateCount =>
        exact textPart_updateContext frontend
          (fun ctx => { ctx with segments, cursorPos, candidateCount }) fun _ => rfl
    | clear => exact textPart_updateContext frontend _ fun _ => rfl

theorem textPart_contextCalls (frontend : Frontend) (calls : List ContextCall) :
    (calls.foldl contextCall frontend).textPart = frontend.textPart := by
  induction calls generalizing frontend with
  | nil => rfl
  | cons call calls induction => exact (induction _).trans (textPart_contextCall frontend call)

section Engine

variable (engine : Engine)

theorem textPart_callEngine (frontend : Frontend) :
    (frontend.callEngine engine).textPart = frontend.textPart :=
  textPart_contextCalls _ _

theorem textPart_callActiveEngine (frontend : Frontend) :
    (frontend.callActiveEngine engine).textPart = frontend.textPart := by
  unfold callActiveEngine
  split
  · exact textPart_callEngine engine frontend
  · rfl

theorem textPart_contextFocusIn (frontend : Frontend) :
    (frontend.contextFocusIn engine).textPart = frontend.textPart := by
  unfold contextFocusIn
  split
  · rfl
  · exact (textPart_callActiveEngine engine _).trans (textPart_updateContext _ _ fun _ => rfl)

theorem textPart_contextFocusOut (frontend : Frontend) :
    (frontend.contextFocusOut engine).textPart = frontend.textPart := by
  unfold contextFocusOut
  split
  · exact (textPart_updateContext _ (fun ctx => { ctx with focused := false }) fun _ => rfl).trans
      (textPart_callActiveEngine engine frontend)
  · rfl

theorem textPart_restoreIdentityEngine (frontend : Frontend) :
    (frontend.restoreIdentityEngine engine).textPart = frontend.textPart := by
  unfold restoreIdentityEngine
  split
  · rfl
  · exact textPart_callEngine engine (frontend.setActiveEngine _)

theorem textPart_transitionToActive (frontend : Frontend) :
    (frontend.transitionToActive engine).textPart = frontend.textPart := by
  refine .trans ?_ ((textPart_restoreIdentityEngine engine _).trans
    (textPart_contextFocusIn engine frontend))
  unfold transitionToActive
  dsimp only
  refine textPart_boundary (.trans ?_ (BoundaryEdits.setPendingReactivation _ false))
  split
  · exact BoundaryEdits.setPhase ..
  · exact BoundaryEdits.regrab _

theorem textPart_transitionToInactive (frontend : Frontend) :
    (frontend.transitionToInactive engine).textPart = frontend.textPart := by
  have cleared (frontend : Frontend) :
      (frontend.contextReset engine).textPart = frontend.textPart :=
    (textPart_callActiveEngine engine _).trans (textPart_contextCall frontend .clear)
  have left := (cleared _).trans ((textPart_contextFocusOut engine _).trans
    (textPart_resetTextUiTracking frontend))
  refine .trans (textPart_boundary ?_) left
  exact ((BoundaryEdits.of_keyboard (.head (.log rfl) (KeyboardEdits.hardResetKeyboard _))).trans
    (BoundaryEdits.setPhase ..)).trans (BoundaryEdits.setPendingReactivation ..)

/-- A `done` applies the pending state and leaves the rest of the text alone. -/
theorem textPart_imHandleDone (frontend : Frontend) :
    (frontend.imHandleDone engine).textPart =
      frontend.session.map fun session => session.applyPending.textPart := by
  cases session_eq : frontend.session with
  | none =>
      have session_kept : frontend.countDone.session = none := session_eq
      simp [imHandleDone, textPart, session_kept]
  | some session =>
      have applied : (frontend.countDone.updateSession Session.applyPending).textPart =
          some session.applyPending.textPart := by
        have session_kept : frontend.countDone.session = some session := session_eq
        simp [textPart, session_kept]
      rw [imHandleDone_of_session engine session_eq]
      rw [Option.map_some, ← applied]
      split
      · split
        · exact textPart_transitionToActive engine _
        · split
          · exact textPart_boundary (BoundaryEdits.handleReactivation _)
          · exact textPart_boundary (BoundaryEdits.recoverStaleGrab ..)
      · split
        · exact textPart_transitionToInactive engine _
        · exact textPart_boundary (BoundaryEdits.recoverStaleGrab ..)

/-- After a `done` the session is focused exactly if it was about to be. -/
theorem imHandleDone_sessionIsFocused (frontend : Frontend) :
    (frontend.imHandleDone engine).sessionIsFocused = frontend.pendingActive := by
  cases session_eq : frontend.session with
  | none =>
      have session_kept : frontend.countDone.session = none := session_eq
      simp [imHandleDone, sessionIsFocused, pendingActive, session_eq, session_kept]
  | some session =>
      have session_kept : frontend.countDone.session = some session := session_eq
      have applied := PhaseMove.of_kept
        (PhaseKept.updateSession frontend.countDone Session.applyPending_kept)
      have was_focused : frontend.countDone.sessionIsFocused = session.ctx.focused := by
        rw [sessionIsFocused, session_kept]
      have will_be_active : frontend.pendingActive = session.pending.active := by
        rw [pendingActive, session_eq]
        rfl
      have applied_session : (frontend.countDone.updateSession Session.applyPending).session =
          some session.applyPending := by
        simp [session_kept]
      rw [imHandleDone_of_session engine session_eq, will_be_active]
      rw [was_focused] at applied
      cases active : session.pending.active with
      | true =>
          cases focused : session.ctx.focused with
          | false =>
              rw [focused] at applied
              exact (applied.transitionToActive engine applied_session).focused
          | true =>
              rw [focused] at applied
              cases frontend.pendingReactivation with
              | true => exact applied.handleReactivation.focused
              | false =>
                  have kept := BoundaryFrame.of_edits (BoundaryEdits.recoverStaleGrab
                    (frontend.countDone.updateSession Session.applyPending) true)
                  have same := applied.focused
                  simp only [Bool.not_true, Bool.false_eq_true, if_false, if_true]
                  rw [sessionIsFocused, kept.session]
                  exact same
      | false =>
          cases focused : session.ctx.focused with
          | true =>
              rw [focused] at applied
              exact (applied.transitionToInactive engine).focused
          | false =>
              rw [focused] at applied
              have kept := BoundaryFrame.of_edits (BoundaryEdits.recoverStaleGrab
                (frontend.countDone.updateSession Session.applyPending) false)
              have same := applied.focused
              simp only [Bool.false_eq_true, if_false]
              rw [sessionIsFocused, kept.session]
              exact same

end Engine

end Frontend

/-! ## What waits and what is held -/

/-- The report as the context holds it, its positions converted to 32-bit integers. -/
def SurroundingReport.converted (report : SurroundingReport) : Text × Int × Int :=
  (report.text, (report.cursor : Int).bmod (2 ^ 32), (report.anchor : Int).bmod (2 ^ 32))

theorem SurroundingReport.converted_eq_held_iff (report : SurroundingReport) :
    report.converted = report.held ↔ report.cursor < 2 ^ 31 ∧ report.anchor < 2 ^ 31 := by
  rw [← Composition.bmod_length_eq_iff report.cursor, ← Composition.bmod_length_eq_iff report.anchor]
  simp [converted, held]

/-- The report waits in the pending state. -/
def SurroundingReport.Waits (report : SurroundingReport) (pending : PendingState) : Prop :=
  pending.surroundingText = some report.text ∧ pending.cursor = report.cursor ∧
    pending.anchor = report.anchor

/-- The latest report either waits or is held; without one nothing waits.  The context holds some
report exactly if one has been handed over. -/
def Session.Follows (latest : Option SurroundingReport) (handedOver : Bool) :
    PendingState × Option (Text × Int × Int) → Prop
  | (pending, surrounding) =>
      surrounding.isSome = handedOver ∧
        match latest with
        | none => pending.surroundingText = none
        | some report =>
            report.Waits pending ∨
              (pending.surroundingText = none ∧ surrounding = some report.converted)

theorem Session.textPart_applyPending (session : Session) :
    session.applyPending.textPart =
      ({ session.pending with surroundingText := none },
        match session.pending.surroundingText with
        | none => session.ctx.surrounding
        | some text =>
            some (SurroundingReport.converted
              { text := text, cursor := session.pending.cursor, anchor := session.pending.anchor })) := by
  unfold Session.applyPending Session.textPart
  cases session.pending.surroundingText with
  | none => rfl
  | some text => simp only [InputContext.surrounding, SurroundingReport.converted, Option.map_some]

/-- Applying the pending state hands the latest report over. -/
theorem Session.Follows.applyPending {session : Session} {latest : Option SurroundingReport}
    {handedOver : Bool} (follows : Session.Follows latest handedOver session.textPart) :
    Session.Follows latest (handedOver || latest.isSome) session.applyPending.textPart ∧
      ∀ report ∈ latest, session.applyPending.ctx.surrounding = some report.converted := by
  have after := session.textPart_applyPending
  have surrounding : session.applyPending.ctx.surrounding = _ := congrArg Prod.snd after
  rw [after]
  obtain ⟨held, waits⟩ := follows
  cases latest with
  | none =>
      have nothing : session.pending.surroundingText = none := waits
      simp only [nothing]
      refine ⟨⟨?_, rfl⟩, by simp⟩
      simpa using held
  | some report =>
      rcases waits with ⟨text, cursor, anchor⟩ | ⟨nothing, converted⟩
      · simp only [text, cursor, anchor] at surrounding ⊢
        refine ⟨⟨by simp, .inr ⟨rfl, rfl⟩⟩, ?_⟩
        intro other same
        obtain rfl := Option.some.inj same
        exact surrounding
      · replace nothing : session.pending.surroundingText = none := nothing
        replace converted : session.ctx.surrounding = some report.converted := converted
        simp only [nothing] at surrounding ⊢
        refine ⟨⟨by simp [converted], .inr ⟨rfl, converted⟩⟩, ?_⟩
        intro other same
        obtain rfl := Option.some.inj same
        exact surrounding.trans converted

/-- The session follows the reports; before there is one, nothing has been handed over. -/
def Frontend.FollowsReports (latest : Option SurroundingReport) (handedOver : Bool) :
    Option (PendingState × Option (Text × Int × Int)) → Prop
  | none => handedOver = false
  | some part => Session.Follows latest handedOver part

namespace Watched

/-- The session follows the reports. -/
def Follows (watched : Watched) : Prop :=
  Frontend.FollowsReports watched.latest watched.handedOver watched.frontend.textPart

/-- The reports and what the session holds stay. -/
theorem Follows.of_kept {before after : Watched} (follows : before.Follows)
    (part : after.frontend.textPart = before.frontend.textPart)
    (latest : after.latest = before.latest) (handedOver : after.handedOver = before.handedOver) :
    after.Follows := by
  rw [Follows, part, latest, handedOver]
  exact follows

/-- What waits may change in all but the text and the positions. -/
theorem Follows.of_pending {before after : Watched} (follows : before.Follows)
    (update : PendingState → PendingState)
    (same : ∀ pending, (update pending).surroundingText = pending.surroundingText ∧
      (update pending).cursor = pending.cursor ∧ (update pending).anchor = pending.anchor)
    (part : after.frontend.textPart =
      before.frontend.textPart.map fun part => (update part.1, part.2))
    (latest : after.latest = before.latest) (handedOver : after.handedOver = before.handedOver) :
    after.Follows := by
  unfold Follows at follows ⊢
  rw [part, latest, handedOver]
  cases held : before.frontend.textPart with
  | none =>
      rw [held] at follows
      exact follows
  | some part =>
      rw [held] at follows
      obtain ⟨text, cursor, anchor⟩ := same part.1
      refine ⟨follows.1, ?_⟩
      have waits := follows.2
      simp only [SurroundingReport.Waits] at waits ⊢
      rw [text, cursor, anchor]
      exact waits

theorem Follows.start (inst : Instance) (shortcuts : ShortcutConfig) (world : World)
    (vk : VkOutcome) : (start inst shortcuts world vk).Follows := by
  cases vk <;> exact rfl

section Engine

variable (engine : Engine) {watched : Watched}

/-- An activation forgets what waits. -/
theorem Follows.activate (follows : watched.Follows) : (watched.step engine .activate).Follows := by
  have reset (frontend : Frontend) (session : Session) (held : frontend.session = some session) :
      frontend.activateSession.textPart =
        some ({ session.reset.pending with active := true }, session.ctx.surrounding) := by
    unfold Frontend.activateSession
    dsimp only
    split <;> simp [Frontend.textPart, Frontend.sessionReset, Frontend.setPendingActive,
      Frontend.setPhase, Session.textPart, Session.reset, Session.resetTracking, held]
  unfold Follows at follows ⊢
  show Frontend.FollowsReports none watched.handedOver watched.frontend.imHandleActivate.textPart
  unfold Frontend.imHandleActivate
  cases session_eq : watched.frontend.session with
  | some session =>
      have part : watched.frontend.textPart = some session.textPart := by
        rw [Frontend.textPart, session_eq, Option.map_some]
      rw [part] at follows
      simp only [Frontend.log_session, session_eq]
      rw [reset (watched.frontend.log .imActivate) session session_eq]
      exact ⟨follows.1, rfl⟩
  | none =>
      have part : watched.frontend.textPart = none := by
        rw [Frontend.textPart, session_eq, Option.map_none]
      rw [part] at follows
      simp only [Frontend.log_session, session_eq]
      split
      · rw [reset _ Session.new rfl]
        exact ⟨Eq.symm follows, rfl⟩
      · have still : (watched.frontend.log .imActivate).textPart = none := part
        rw [still]
        exact follows

/-- A report replaces what waits. -/
theorem Follows.surroundingText (follows : watched.Follows) (text : Option Text)
    (cursor anchor : Nat) : (watched.step engine (.surroundingText text cursor anchor)).Follows := by
  have part : (watched.step engine (.surroundingText text cursor anchor)).frontend.textPart =
      watched.frontend.textPart.map fun part =>
        ({ part.1 with surroundingText := text, cursor := cursor, anchor := anchor }, part.2) := by
    simp [step, FocusEvent.event, Frontend.handle, Frontend.imHandleSurroundingText,
      Frontend.textPart, Session.textPart, Function.comp_def]
  unfold Follows at follows ⊢
  rw [part]
  cases before : watched.frontend.textPart with
  | none =>
      rw [before] at follows
      exact follows
  | some part =>
      rw [before] at follows
      refine ⟨follows.1, ?_⟩
      cases text with
      | none => exact rfl
      | some text => exact .inl ⟨rfl, rfl, rfl⟩

/-- A `done` hands the latest report over. -/
theorem Follows.done (follows : watched.Follows) : (watched.step engine .done).Follows := by
  have part : (watched.step engine .done).frontend.textPart =
      watched.frontend.session.map fun session => session.applyPending.textPart :=
    Frontend.textPart_imHandleDone engine watched.frontend
  have handed : (watched.step engine .done).handedOver =
      (watched.handedOver || (watched.latest.isSome && watched.frontend.session.isSome)) := rfl
  unfold Follows at follows ⊢
  rw [part, handed]
  cases session_eq : watched.frontend.session with
  | none =>
      rw [Frontend.textPart, session_eq] at follows
      rw [Option.isSome_none, Bool.and_false, Bool.or_false]
      exact follows
  | some session =>
      rw [Frontend.textPart, session_eq] at follows
      rw [Option.isSome_some, Bool.and_true]
      exact (Session.Follows.applyPending follows).1

theorem Follows.step (follows : watched.Follows) (event : FocusEvent) :
    (watched.step engine event).Follows := by
  cases event with
  | activate => exact follows.activate engine
  | surroundingText text cursor anchor => exact follows.surroundingText engine text cursor anchor
  | done => exact follows.done engine
  | contextCalls calls =>
      exact follows.of_kept (Frontend.textPart_contextCalls watched.frontend calls) rfl rfl
  | changeInstance inst => exact follows.of_kept rfl rfl rfl
  | changeWorld world => exact follows.of_kept rfl rfl rfl
  | deactivate =>
      refine follows.of_pending (fun pending => { pending with active := false })
        (fun _ => ⟨rfl, rfl, rfl⟩) ?_ rfl rfl
      simp [Watched.step, FocusEvent.event, Frontend.handle, Frontend.imHandleDeactivate,
        Frontend.setPendingActive, Frontend.setPhase, Frontend.textPart, Session.textPart,
        Function.comp_def]
  | textChangeCause cause =>
      refine follows.of_pending (fun pending => { pending with textChangeCause := cause })
        (fun _ => ⟨rfl, rfl, rfl⟩) ?_ rfl rfl
      simp [Watched.step, FocusEvent.event, Frontend.handle, Frontend.imHandleTextChangeCause,
        Frontend.textPart, Session.textPart, Function.comp_def]
  | contentType hint purpose =>
      refine follows.of_pending
        (fun pending => { pending with contentHint := hint, contentPurpose := purpose })
        (fun _ => ⟨rfl, rfl, rfl⟩) ?_ rfl rfl
      simp [Watched.step, FocusEvent.event, Frontend.handle, Frontend.imHandleContentType,
        Frontend.textPart, Session.textPart, Function.comp_def]

/-- A `done` leaves the text current exactly if it has been reported afresh. -/
theorem Follows.staysCurrent_iff (follows : watched.Follows) (event : FocusEvent) :
    watched.StaysCurrent engine event ↔ watched.ReportedAfresh event := by
  refine forall_congr' fun done => ?_
  subst done
  have focused : (watched.step engine .done).frontend.sessionIsFocused =
      watched.frontend.pendingActive :=
    Frontend.imHandleDone_sessionIsFocused engine watched.frontend
  have part : (watched.step engine .done).frontend.textPart =
      watched.frontend.session.map fun session => session.applyPending.textPart :=
    Frontend.textPart_imHandleDone engine watched.frontend
  have latest : (watched.step engine .done).latest = watched.latest := rfl
  rw [IsCurrent, latest]
  cases session_eq : watched.frontend.session with
  | none =>
      have gone : (watched.step engine .done).frontend.session = none := by
        rw [session_eq] at part
        exact Option.map_eq_none_iff.mp part
      have idle : watched.frontend.pendingActive = false := by
        rw [Frontend.pendingActive, session_eq, Option.any_none]
      simp [gone, idle]
  | some session =>
      rw [session_eq, Option.map_some] at part
      obtain ⟨after, after_eq, after_part⟩ := Option.map_eq_some_iff.mp part
      have held : after.ctx.surrounding = session.applyPending.ctx.surrounding :=
        congrArg Prod.snd after_part
      rw [Frontend.sessionIsFocused, after_eq] at focused
      dsimp only at focused
      rw [Follows, Frontend.textPart, session_eq] at follows
      have current : (∀ session, (watched.step engine .done).frontend.session = some session →
          session.ctx.focused = true →
            session.ctx.surrounding = watched.latest.map SurroundingReport.held) ↔
          (watched.frontend.pendingActive = true →
            session.applyPending.ctx.surrounding = watched.latest.map SurroundingReport.held) := by
        rw [after_eq, ← focused, ← held]
        constructor
        · intro all
          exact all after rfl
        · intro one other same
          obtain rfl := Option.some.inj same
          exact one
      rw [current]
      refine imp_congr_right fun _ => ?_
      obtain ⟨handed, applied⟩ := Session.Follows.applyPending follows
      cases latest_eq : watched.latest with
      | none =>
          have surrounding : session.applyPending.ctx.surrounding.isSome = watched.handedOver := by
            have isSome := handed.1
            rw [latest_eq, Option.isSome_none, Bool.or_false] at isSome
            exact isSome
          rw [← surrounding]
          cases session.applyPending.ctx.surrounding <;> simp
      | some report =>
          rw [applied report latest_eq, Option.map_some, Option.some.injEq]
          exact report.converted_eq_held_iff

end Engine

end Watched

/-- Over every run, each `done` leaves the surrounding text of a focused session current exactly if
each `done` which is about to focus one comes with a text reported since the last `activate`, or
before any text has been handed over. -/
theorem surroundingText_current_iff (engine : Engine) (inst : Instance)
    (shortcuts : ShortcutConfig) (world : World) (vk : VkOutcome) (events : List FocusEvent) :
    Machine.EachStep (Watched.step engine) (Watched.StaysCurrent engine)
        (Watched.start inst shortcuts world vk) events ↔
      Machine.EachStep (Watched.step engine) Watched.ReportedAfresh
        (Watched.start inst shortcuts world vk) events :=
  Machine.eachStep_congr Watched.Follows
    (fun _ event follows => follows.staysCurrent_iff engine event)
    (fun _ event follows => follows.step engine event) (.start inst shortcuts world vk)

/-- An application without surrounding text is focused after one with it: its text is still held. -/
theorem previous_text_held :
    let engine : Engine := fun _ => { handled := false, calls := [], active := none }
    let inst : Instance :=
      { activeEngine := none, printableKeyMode := none, compose := true, voiceAvailable := false }
    ¬ Machine.EachStep (Watched.step engine) (Watched.StaysCurrent engine)
        (Watched.start inst ShortcutConfig.defaults (World.obliging 0) .noManager)
        [.activate, .surroundingText (some [104, 105]) 2 2, .done, .deactivate, .done, .activate,
          .done] := by
  intro engine inst stays
  have current := stays [.activate, .surroundingText (some [104, 105]) 2 2, .done, .deactivate,
    .done, .activate] .done (List.prefix_refl _) rfl
  have held : (Machine.run (Watched.step engine)
      (Watched.start inst ShortcutConfig.defaults (World.obliging 0) .noManager)
      [.activate, .surroundingText (some [104, 105]) 2 2, .done, .deactivate, .done, .activate,
        .done]).frontend.session.map
          (fun session => (session.ctx.focused, session.ctx.surrounding)) =
        some (true, some ([104, 105], 2, 2)) := by
    decide +kernel
  obtain ⟨session, session_eq, parts⟩ := Option.map_eq_some_iff.mp held
  obtain ⟨focused, surrounding⟩ := Prod.mk.inj parts
  exact Option.some_ne_none _ (surrounding.symm.trans (current session session_eq focused))

end Typio
