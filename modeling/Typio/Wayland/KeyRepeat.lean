import Typio.Wayland.Edits

/-!
# Key repeat

The repeat timer belongs to the keyboard grab: it is started when a press is routed and stopped when
the release of its key is.  Every other event leaves it running, or ends it; and no other event adds
to what the arbiter has buffered.
-/

namespace Typio

/-- The key which the keyboard repeats. -/
def Keyboard.repeatSlot (keyboard : Keyboard) : Option Nat :=
  if keyboard.repeating then some keyboard.repeatKey else none

/-- A keyboard without a keymap repeats no key and has buffered nothing, and its arbiter holds
events only while it buffers. -/
structure Keyboard.Keyed (keyboard : Keyboard) : Prop where
  unmapped : keyboard.xkb = none → keyboard.repeatSlot = none ∧ keyboard.arbiter.buffer = []
  idle : keyboard.arbiter.state = .idle → keyboard.arbiter.buffer = []

/-- The last of the events of the key is a press; without one, what was so before. -/
def pressedLast (before : Bool) (events : List KeyEvent) (key : Nat) : Bool :=
  events.foldl (fun pressed event => if event.key = key then event.isPress else pressed) before

theorem pressedLast_mono {before after : Bool} (grows : before = true → after = true)
    {events : List KeyEvent} {key : Nat} (pressed : pressedLast before events key = true) :
    pressedLast after events key = true := by
  induction events generalizing before after with
  | nil => exact grows pressed
  | cons event events ih =>
      refine ih ?_ pressed
      dsimp only
      split
      · exact id
      · exact grows

theorem pressedLast_append (before : Bool) (left right : List KeyEvent) (key : Nat) :
    pressedLast before (left ++ right) key =
      pressedLast (pressedLast before left key) right key := List.foldl_append

theorem pressedLast_concat_self (before : Bool) (events : List KeyEvent) (event : KeyEvent) :
    pressedLast before (events ++ [event]) event.key = event.isPress := by
  rw [pressedLast_append]
  exact if_pos rfl

theorem pressedLast_concat_of_ne (before : Bool) (events : List KeyEvent) {event : KeyEvent}
    {key : Nat} (other : key ≠ event.key) :
    pressedLast before (events ++ [event]) key = pressedLast before events key := by
  rw [pressedLast_append]
  exact if_neg (Ne.symm other)

/-- An event which is pushed tells nothing about the other keys. -/
theorem pressedLast_push_of_ne (arbiter : KeyArbiter) {event : KeyEvent} {key : Nat}
    (other : key ≠ event.key) :
    pressedLast false (arbiter.push event).buffer key = pressedLast false arbiter.buffer key := by
  unfold KeyArbiter.push
  split
  · rfl
  · exact pressedLast_concat_of_ne false arbiter.buffer other

namespace Frontend

/-- The key which is repeated. -/
def repeatSlot (frontend : Frontend) : Option Nat := frontend.keyboard.bind Keyboard.repeatSlot

/-- The events which the arbiter has buffered. -/
def buffered (frontend : Frontend) : List KeyEvent :=
  (frontend.keyboard.map (·.arbiter.buffer)).getD []

/-! ## What leaves the repeat alone -/

theorem repeatSlot_congr {before after : Frontend} (same : after.keyboard = before.keyboard) :
    after.repeatSlot = before.repeatSlot := by rw [repeatSlot, same, repeatSlot]

theorem buffered_congr {before after : Frontend}
    (same : after.keyboard.map (·.arbiter) = before.keyboard.map (·.arbiter)) :
    after.buffered = before.buffered := by
  have buffers (frontend : Frontend) : frontend.keyboard.map (·.arbiter.buffer) =
      (frontend.keyboard.map (·.arbiter)).map (·.buffer) := by rw [Option.map_map]; rfl
  rw [buffered, buffers, same, ← buffers, buffered]

/-- An update of the keyboard may leave the repeat alone. -/
theorem updateKeyboard_repeatSlot (frontend : Frontend) {update : Keyboard → Keyboard}
    (kept : ∀ keyboard, (update keyboard).repeatSlot = keyboard.repeatSlot) :
    (frontend.updateKeyboard update).repeatSlot = frontend.repeatSlot := by
  simp only [repeatSlot, updateKeyboard_keyboard, Option.bind_map, Function.comp_def, kept]

@[simp] theorem log_repeatSlot (frontend : Frontend) (effect : Effect) :
    (frontend.log effect).repeatSlot = frontend.repeatSlot := rfl

@[simp] theorem setKeyState_repeatSlot (frontend : Frontend) (key : Nat) (state : KeyTrackState) :
    (frontend.setKeyState key state).repeatSlot = frontend.repeatSlot := rfl

@[simp] theorem clearKeyTracking_repeatSlot (frontend : Frontend) (key : Nat) :
    (frontend.clearKeyTracking key).repeatSlot = frontend.repeatSlot := rfl

@[simp] theorem updateTracking_repeatSlot (frontend : Frontend)
    (update : KeyTracking → KeyTracking) :
    (frontend.updateTracking update).repeatSlot = frontend.repeatSlot := rfl

@[simp] theorem stop_repeatSlot (frontend : Frontend) :
    frontend.stop.repeatSlot = frontend.repeatSlot := rfl

@[simp] theorem releaseGrab_repeatSlot (frontend : Frontend) :
    frontend.releaseGrab.repeatSlot = frontend.repeatSlot := by
  unfold releaseGrab
  split
  · rfl
  · split
    · exact updateKeyboard_repeatSlot (frontend.log .releaseGrab) fun _ => rfl
    · rfl

@[simp] theorem vkTriggerFailSafe_repeatSlot (frontend : Frontend) :
    frontend.vkTriggerFailSafe.repeatSlot = frontend.repeatSlot := by
  unfold vkTriggerFailSafe
  split
  · simp
  · rfl

theorem whenVkReady_repeatSlot (frontend : Frontend) {send : Frontend → Frontend}
    (sends : ∀ ready, (send ready).repeatSlot = ready.repeatSlot) :
    (frontend.whenVkReady send).repeatSlot = frontend.repeatSlot := by
  have upgraded : frontend.vkUpgrade.repeatSlot = frontend.repeatSlot := by
    rw [vkUpgrade_eq]
    rfl
  unfold whenVkReady
  dsimp only
  split
  · rw [sends, upgraded]
  · split
    · rw [vkTriggerFailSafe_repeatSlot, upgraded]
    · exact upgraded

@[simp] theorem vkForwardKey_repeatSlot (frontend : Frontend) (time key : Nat) (pressed : Bool) :
    (frontend.vkForwardKey time key pressed).repeatSlot = frontend.repeatSlot :=
  whenVkReady_repeatSlot frontend fun _ => rfl

@[simp] theorem vkForwardModifiers_repeatSlot (frontend : Frontend)
    (depressed latched locked group : UInt32) :
    (frontend.vkForwardModifiers depressed latched locked group).repeatSlot =
      frontend.repeatSlot :=
  whenVkReady_repeatSlot frontend fun _ => rfl

theorem repeatSlot_of_text {before after : Frontend} (text : TextFrame before after) :
    after.repeatSlot = before.repeatSlot :=
  repeatSlot_congr (by rw [text.frame])

@[simp] theorem endSuppression_repeatSlot (frontend : Frontend) :
    (frontend.updateKeyboard Keyboard.endSuppression).repeatSlot = frontend.repeatSlot := by
  refine updateKeyboard_repeatSlot frontend fun keyboard => ?_
  unfold Keyboard.endSuppression
  split <;> rfl

/-! ## The router -/

section Engine

variable (engine : Engine)

@[simp] theorem processKey_repeatSlot (frontend : Frontend) (event : KeyEvent) (isRepeat : Bool) :
    (frontend.processKey engine event isRepeat).2.repeatSlot = frontend.repeatSlot := by
  unfold processKey
  split
  · exact (repeatSlot_of_text (TextFrame.callEngine engine _)).trans (log_repeatSlot ..)
  · rfl

@[simp] theorem offerPress_repeatSlot (frontend : Frontend) (event : KeyEvent) :
    (frontend.offerPress engine event).repeatSlot = frontend.repeatSlot := by
  unfold offerPress
  dsimp only
  split
  · simp
  · split
    · simp
    · simp

@[simp] theorem classifyPress_repeatSlot (frontend : Frontend) (event : KeyEvent) :
    (frontend.classifyPress engine event).repeatSlot = frontend.repeatSlot := by
  unfold classifyPress
  split
  · simp
  · split
    · simp
    · simp
  · split
    · simp
    · split
      · simp
      · simp

theorem processPress_repeatSlot (frontend : Frontend) (event : KeyEvent) :
    (frontend.processPress engine event).repeatSlot = frontend.repeatSlot := by
  unfold processPress
  split
  · rfl
  · split
    any_goals rfl
    · split
      · simp
      · rfl
    · simp
    all_goals
      unfold routePress
      dsimp only
      split
      · exact updateKeyboard_repeatSlot _ fun _ => rfl
      · simp

theorem processRelease_repeatSlot (frontend : Frontend) (event : KeyEvent) :
    (frontend.processRelease engine event).repeatSlot = frontend.repeatSlot := by
  unfold processRelease
  split
  · rfl
  · split
    · simp
    · dsimp only
      rw [vkForwardKey_repeatSlot]
      refine updateKeyboard_repeatSlot _ fun keyboard => ?_
      unfold Keyboard.endSuppression
      split <;> rfl
    · simp
    · simp
    · simp
    · simp
    · unfold releaseForwarded
      dsimp only
      split
      · simp
      · simp
    · unfold releaseIdle
      split
      · split
        · simp
        · simp
      · simp

/-- A press may start the repeat of its key. -/
theorem repeatAfterPress_repeatSlot (frontend : Frontend) (event : KeyEvent) :
    (frontend.repeatAfterPress event).repeatSlot = frontend.repeatSlot ∨
      (frontend.repeatAfterPress event).repeatSlot = some event.key := by
  unfold repeatAfterPress
  split
  · exact .inl rfl
  · rename_i keyboard keyboard_eq
    split
    · simp only [repeatMaybeStart, repeatSlot, updateKeyboard_keyboard, keyboard_eq,
        Option.map_some, Option.bind_some]
      split
      · exact .inr rfl
      · exact .inl rfl
    · exact .inl rfl

@[simp] theorem repeatStop_repeatSlot (frontend : Frontend) :
    frontend.repeatStop.repeatSlot = none := by
  unfold repeatStop repeatSlot
  rw [updateKeyboard_keyboard]
  cases frontend.keyboard <;> rfl

theorem repeatSlot_eq_some {frontend : Frontend} {key : Nat} :
    frontend.repeatSlot = some key ↔
      (frontend.keyboard.any fun keyboard =>
        keyboard.repeating && keyboard.repeatKey == key) = true := by
  unfold repeatSlot Keyboard.repeatSlot
  cases frontend.keyboard with
  | none => simp
  | some keyboard => cases repeating : keyboard.repeating <;> simp [repeating]

/-- A release stops the repeat of its key, and of no other. -/
theorem repeatBeforeRelease_repeatSlot (frontend : Frontend) (key : Nat) :
    (frontend.repeatBeforeRelease key).repeatSlot =
      if frontend.repeatSlot = some key then none else frontend.repeatSlot := by
  unfold repeatBeforeRelease
  simp only [← repeatSlot_eq_some]
  split
  · exact repeatStop_repeatSlot frontend
  · rfl

/-- The repeat timer never starts a repeat. -/
theorem dispatchRepeat_repeatSlot (frontend : Frontend) (expired : Bool) (keysym : Keysym)
    (unicode : UInt32) (xkbModifiers : Modifiers) :
    (frontend.dispatchRepeat engine expired keysym unicode xkbModifiers).repeatSlot =
        frontend.repeatSlot ∨
      (frontend.dispatchRepeat engine expired keysym unicode xkbModifiers).repeatSlot = none := by
  have stops := repeatStop_repeatSlot frontend
  unfold dispatchRepeat
  split
  · exact .inl rfl
  · split
    · exact .inl rfl
    · split
      · exact .inr stops
      · split
        · exact .inl rfl
        · split
          · exact .inr stops
          · split
            · exact .inr stops
            · unfold deliverRepeat
              split
              · split
                · exact .inl (by simp)
                · exact .inr stops
              · exact .inl (by simp)
              · exact .inl (by simp)
              · split
                · unfold offerRepeat
                  dsimp only
                  left
                  split
                  · simp
                  · split <;> simp
                · exact .inr stops

/-! ## Routing a key event -/

/-- What becomes of the repeat when a key event is routed. -/
theorem processKeyEvent_repeatSlot (frontend : Frontend) (event : KeyEvent) {key : Nat}
    (repeats : (frontend.processKeyEvent engine event).repeatSlot = some key) :
    pressedLast (frontend.repeatSlot == some key) [event] key = true := by
  rw [pressedLast, List.foldl_cons, List.foldl_nil]
  unfold processKeyEvent at repeats
  cases pressed : event.isPress with
  | true =>
      rw [pressed, if_pos rfl, processKeyPress] at repeats
      have routed := processPress_repeatSlot engine (frontend.log (.routed event)) event
      split
      · rfl
      · rename_i other
        obtain same | started := repeatAfterPress_repeatSlot
          ((frontend.log (.routed event)).processPress engine event) event
        · rw [same, routed] at repeats
          simpa using repeats
        · exact absurd (Option.some.inj (started.symm.trans repeats)) other
  | false =>
      rw [pressed, if_neg Bool.false_ne_true, processKeyRelease, processRelease_repeatSlot,
        repeatBeforeRelease_repeatSlot] at repeats
      split at repeats
      · cases repeats
      · rename_i kept
        have other : event.key ≠ key := by
          rintro rfl
          exact kept repeats
        simpa [other] using repeats

/-- What becomes of the repeat when key events are routed one after the other. -/
theorem processKeyEvents_repeatSlot (frontend : Frontend) (events : List KeyEvent) {key : Nat}
    (repeats : (events.foldl (processKeyEvent engine) frontend).repeatSlot = some key) :
    pressedLast (frontend.repeatSlot == some key) events key = true := by
  induction events generalizing frontend with
  | nil => simpa [pressedLast] using repeats
  | cons event events ih =>
      have later := ih (frontend.processKeyEvent engine event) repeats
      rw [← List.singleton_append, pressedLast_append]
      refine pressedLast_mono ?_ later
      intro still
      exact processKeyEvent_repeatSlot engine frontend event (by simpa using still)

end Engine

/-! ## The other events -/

/-- The keyboard, if there is one, is well kept. -/
def Keyed (frontend : Frontend) : Prop :=
  ∀ keyboard, frontend.keyboard = some keyboard → keyboard.Keyed

end Frontend

/-- No repeat starts, and nothing is added to the buffer. -/
structure Calmer (before after : Frontend) : Prop where
  repeats : after.repeatSlot = before.repeatSlot ∨ after.repeatSlot = none
  buffered : after.buffered = before.buffered ∨ after.buffered = []
  keyed : before.Keyed → after.Keyed

namespace Calmer

variable {before after first second third : Frontend}

theorem of_keyboard (same : after.keyboard = before.keyboard) : Calmer before after where
  repeats := .inl (Frontend.repeatSlot_congr same)
  buffered := .inl (Frontend.buffered_congr (by rw [same]))
  keyed keyed keyboard keyboard_eq := keyed keyboard (same ▸ keyboard_eq)

theorem refl (frontend : Frontend) : Calmer frontend frontend := of_keyboard rfl

theorem trans (left : Calmer first second) (right : Calmer second third) : Calmer first third where
  repeats := by
    rcases right.repeats with same | none
    · rw [same]
      exact left.repeats
    · exact .inr none
  buffered := by
    rcases right.buffered with same | empty
    · rw [same]
      exact left.buffered
    · exact .inr empty
  keyed keyed := right.keyed (left.keyed keyed)

theorem gone (none : after.keyboard = none) : Calmer before after where
  repeats := .inr (by rw [Frontend.repeatSlot, none, Option.bind_none])
  buffered := .inr (by rw [Frontend.buffered, none]; rfl)
  keyed _ keyboard keyboard_eq := by rw [none] at keyboard_eq; cases keyboard_eq

/-- A new keyboard repeats nothing. -/
theorem fresh {keyboard : Keyboard} (grabbed : after.keyboard = some keyboard)
    (quiet : keyboard.repeatSlot = none) (empty : keyboard.arbiter.buffer = []) :
    Calmer before after where
  repeats := .inr (by rw [Frontend.repeatSlot, grabbed, Option.bind_some, quiet])
  buffered := .inr (by rw [Frontend.buffered, grabbed, Option.map_some, empty]; rfl)
  keyed _ other other_eq := by
    obtain rfl : keyboard = other := Option.some.inj (grabbed.symm.trans other_eq)
    exact ⟨fun _ => ⟨quiet, empty⟩, fun _ => empty⟩

theorem updateKeyboard {update : Keyboard → Keyboard}
    (repeats : ∀ keyboard, (update keyboard).repeatSlot = keyboard.repeatSlot ∨
      (update keyboard).repeatSlot = none)
    (arbiter : ∀ keyboard, (update keyboard).arbiter = keyboard.arbiter)
    (xkb : ∀ keyboard, (update keyboard).xkb = none → keyboard.xkb = none) :
    Calmer before (before.updateKeyboard update) := by
  cases keyboard_eq : before.keyboard with
  | none => exact gone (by rw [Frontend.updateKeyboard_keyboard, keyboard_eq, Option.map_none])
  | some keyboard =>
      have updated : (before.updateKeyboard update).keyboard = some (update keyboard) := by
        rw [Frontend.updateKeyboard_keyboard, keyboard_eq, Option.map_some]
      refine ⟨?_, .inl ?_, ?_⟩
      · rw [Frontend.repeatSlot, Frontend.repeatSlot, updated, keyboard_eq]
        exact repeats keyboard
      · exact Frontend.buffered_congr (by rw [updated, keyboard_eq]; simp [arbiter])
      · intro keyed other other_eq
        obtain rfl := Option.some.inj (updated.symm.trans other_eq)
        have kept := keyed keyboard keyboard_eq
        refine ⟨fun missing => ?_, ?_⟩
        · obtain ⟨quiet, empty⟩ := kept.unmapped (xkb keyboard missing)
          rw [arbiter]
          refine ⟨?_, empty⟩
          rcases repeats keyboard with same | none
          · exact same.trans quiet
          · exact none
        · rw [arbiter]
          exact kept.idle

theorem of_route (frame : RouteFrame before after)
    (repeats : after.repeatSlot = before.repeatSlot ∨ after.repeatSlot = none) :
    Calmer before after where
  repeats := repeats
  buffered := .inl (Frontend.buffered_congr frame.arbiter)
  keyed keyed keyboard keyboard_eq := by
    have arbiter := frame.arbiter
    have xkb := frame.xkb
    rw [keyboard_eq] at arbiter xkb
    obtain ⟨other, other_eq, arbiter_eq⟩ := Option.map_eq_some_iff.mp arbiter.symm
    have same : other.arbiter = keyboard.arbiter := arbiter_eq
    have kept := keyed other other_eq
    refine ⟨fun missing => ?_, ?_⟩
    · have other_missing : other.xkb = none := by
        rw [other_eq] at xkb
        exact (Option.some.inj xkb).symm.trans missing
      obtain ⟨quiet, empty⟩ := kept.unmapped other_missing
      rw [Frontend.repeatSlot, Frontend.repeatSlot, keyboard_eq, other_eq, Option.bind_some,
        Option.bind_some, quiet, or_self] at repeats
      refine ⟨repeats, ?_⟩
      rw [← same]
      exact empty
    · rw [← same]
      exact kept.idle

theorem of_text (text : TextFrame before after) : Calmer before after :=
  of_keyboard (by rw [text.frame])

theorem vkTriggerFailSafe (frontend : Frontend) : Calmer frontend frontend.vkTriggerFailSafe :=
  of_route (.of_edits (RouteEdits.vkTriggerFailSafe frontend))
    (.inl (Frontend.vkTriggerFailSafe_repeatSlot frontend))

theorem releaseGrab (frontend : Frontend) : Calmer frontend frontend.releaseGrab :=
  of_route (.of_edits (RouteEdits.releaseGrab frontend))
    (.inl (Frontend.releaseGrab_repeatSlot frontend))

theorem whenVkReady (frontend : Frontend) {send : Frontend → Frontend}
    (sends : ∀ ready, Calmer ready (send ready)) :
    Calmer frontend (frontend.whenVkReady send) := by
  have upgraded : Calmer frontend frontend.vkUpgrade := of_keyboard (by
    rw [Frontend.vkUpgrade_eq]
    rfl)
  refine upgraded.trans ?_
  unfold Frontend.whenVkReady
  dsimp only
  split
  · exact sends _
  · split
    · exact vkTriggerFailSafe _
    · exact refl _

/-! ## Boundaries -/

theorem rebuildKeyboardGrab (frontend : Frontend) :
    Calmer before frontend.rebuildKeyboardGrab.2 := by
  unfold Frontend.rebuildKeyboardGrab
  dsimp only
  cases created_eq : frontend.hardResetKeyboard.keyboardCreate with
  | mk created renewed =>
      cases created with
      | none => exact gone rfl
      | some keyboard =>
          obtain ⟨createdAtEpoch, repeatTimer, rfl⟩ :=
            KeyboardEdits.keyboardCreate_fresh (congrArg Prod.fst created_eq)
          have grabbed : ((renewed.setKeyboard
              (some (Keyboard.fresh createdAtEpoch repeatTimer))).vkExpectKeymap).keyboard =
              some (Keyboard.fresh createdAtEpoch repeatTimer) := by
            rw [Frontend.vkExpectKeymap_eq]
            rfl
          dsimp only
          split
          · exact fresh grabbed rfl rfl
          · exact (fresh grabbed rfl rfl).trans
              (updateKeyboard (fun _ => .inl rfl) (fun _ => rfl) fun _ => id)

theorem setPhase (frontend : Frontend) (phase : Phase) :
    Calmer frontend (frontend.setPhase phase) :=
  of_keyboard rfl

theorem regrab (frontend : Frontend) : Calmer before frontend.regrab := by
  have rebuilt : Calmer before frontend.rebuildKeyboardGrab.2 := rebuildKeyboardGrab frontend
  unfold Frontend.regrab
  dsimp only
  split
  · exact rebuilt.trans (setPhase ..)
  · exact rebuilt.trans (setPhase ..)

theorem resumeRegrab (frontend : Frontend) : Calmer frontend frontend.resumeRegrab := by
  unfold Frontend.resumeRegrab
  split
  · exact refl frontend
  · exact regrab _

theorem onResume (frontend : Frontend) : Calmer before frontend.onResume := by
  have scrubbed : frontend.scrubKeyboard.keyboard = none := by
    have reset := KeyboardEdits.vkResetModifiers_gone _
      (KeyboardEdits.hardResetKeyboard_gone frontend)
    unfold Frontend.scrubKeyboard
    simpa [Frontend.bumpKeyGeneration] using reset
  have committed : Calmer before ((frontend.scrubKeyboard.setPreedit [] (-1) (-1)).commit) :=
    (gone scrubbed).trans (of_text ((TextFrame.setPreedit ..).trans (TextFrame.commit _)))
  have phase (frontend : Frontend) : frontend.scrubPhase.keyboard = frontend.keyboard := by
    unfold Frontend.scrubPhase
    dsimp only
    split
    · split <;> rfl
    · split <;> rfl
  exact committed.trans (of_keyboard (phase _))

theorem handleResume (frontend : Frontend) : Calmer frontend frontend.handleResume := by
  have resumed : Calmer frontend frontend.onResume := onResume frontend
  unfold Frontend.handleResume
  dsimp only
  split
  · exact resumed.trans (resumeRegrab _)
  · exact resumed

theorem reconcileTick (frontend : Frontend) : Calmer frontend frontend.reconcileTick := by
  have noted : Calmer frontend (frontend.setDivergence frontend.reconcileDecision.2) :=
    of_keyboard rfl
  unfold Frontend.reconcileTick
  dsimp only
  split
  · exact noted.trans (handleResume _)
  · exact noted

theorem eventLoopRecover (frontend : Frontend) (outcomes : List BindOutcome) :
    Calmer frontend (frontend.eventLoopRecover outcomes) := by
  have attempts (frontend : Frontend) (outcomes : List BindOutcome) :
      (frontend.reconnectAttempts outcomes).2.keyboard = frontend.keyboard := by
    induction outcomes with
    | nil => rfl
    | cons outcome outcomes ih =>
        unfold Frontend.reconnectAttempts
        split
        · rfl
        · cases outcome with
          | stopped => rfl
          | failed => exact ih
          | bound vk => cases vk <;> rfl
  have unbound : frontend.waylandUnbind.keyboard = none := by
    have destroyed := KeyboardEdits.keyboardDestroy_gone frontend
    unfold Frontend.waylandUnbind Frontend.unbindInputMethod Frontend.unbindVk
    dsimp only
    split
    · split
      · exact destroyed
      · exact destroyed
    · split
      · exact destroyed
      · exact destroyed
  have reconnected : (frontend.reconnect outcomes).2.keyboard = none :=
    (attempts _ _).trans unbound
  unfold Frontend.eventLoopRecover
  dsimp only
  split
  · exact gone reconnected
  · exact gone reconnected

/-! ## The input method -/

theorem imHandleActivate (frontend : Frontend) : Calmer frontend frontend.imHandleActivate := by
  refine of_keyboard ?_
  have activated (frontend : Frontend) :
      frontend.activateSession.keyboard = frontend.keyboard := by
    unfold Frontend.activateSession
    dsimp only
    split
    · rfl
    · rfl
  unfold Frontend.imHandleActivate
  dsimp only
  split
  · exact activated _
  · split
    · exact activated _
    · rfl

section Engine

variable (engine : Engine)

theorem transitionToActive (frontend : Frontend) :
    Calmer frontend (frontend.transitionToActive engine) := by
  have focused : Calmer frontend (frontend.contextFocusIn engine) := by
    unfold Frontend.contextFocusIn
    split
    · exact refl frontend
    · have told := TextFrame.of_edits <| TextEdits.callActiveEngine engine
        (frontend.updateContext fun ctx => { ctx with focused := true })
      exact of_keyboard (by rw [told.frame]; rfl)
  have restored (frontend : Frontend) :
      Calmer frontend (frontend.restoreIdentityEngine engine) := by
    unfold Frontend.restoreIdentityEngine
    split
    · exact refl frontend
    · rename_i active _
      have told := TextFrame.callEngine engine (frontend.setActiveEngine active)
      exact of_keyboard (by rw [told.frame]; rfl)
  refine (focused.trans (restored _)).trans ?_
  unfold Frontend.transitionToActive
  dsimp only
  split
  · exact of_keyboard rfl
  · exact (regrab _).trans (of_keyboard rfl)

theorem handleReactivation (frontend : Frontend) : Calmer frontend frontend.handleReactivation := by
  unfold Frontend.handleReactivation
  dsimp only
  split
  · exact of_keyboard rfl
  · exact (regrab _).trans (of_keyboard rfl)

theorem imHandleDone (frontend : Frontend) : Calmer frontend (frontend.imHandleDone engine) := by
  have counted : Calmer frontend frontend.countDone := of_keyboard rfl
  have applied (frontend : Frontend) :
      Calmer frontend (frontend.updateSession Session.applyPending) := of_keyboard rfl
  unfold Frontend.imHandleDone
  dsimp only
  split
  · exact counted
  · refine (counted.trans (applied _)).trans ?_
    split
    · exact transitionToActive engine _
    · split
      · exact handleReactivation _
      · split
        · exact gone (KeyboardEdits.hardResetKeyboard_gone _)
        · unfold Frontend.recoverStaleGrab
          split
          · split
            · exact gone (KeyboardEdits.hardResetKeyboard_gone _)
            · exact refl _
          · exact refl _

/-! ## The grab -/

theorem onKeymap (frontend : Frontend) (loaded : Option Xkb) :
    Calmer frontend (frontend.onKeymap loaded) := by
  have forwarded : frontend.vkForwardKeymap.keyboard = frontend.keyboard := by
    rcases Frontend.vkForwardKeymap_eq frontend with same | same
    · rw [same]
      rfl
    · rw [same]
      rfl
  unfold Frontend.onKeymap
  split
  · exact refl frontend
  · refine (of_keyboard forwarded).trans
      (updateKeyboard (fun _ => .inl rfl) (fun _ => rfl) fun keyboard missing => ?_)
    exact (Option.or_eq_none_iff.mp missing).2

theorem onModifiers (frontend : Frontend) (depressed latched locked group : UInt32)
    (previous current : Modifiers) :
    Calmer frontend (frontend.onModifiers depressed latched locked group previous current) := by
  unfold Frontend.onModifiers
  split
  · exact refl frontend
  · dsimp only
    refine ((updateKeyboard ?_ ?_ ?_).trans (updateKeyboard ?_ ?_ ?_)).trans
      (whenVkReady _ fun _ => of_keyboard rfl)
    · intro keyboard
      left
      split <;> rfl
    · intro keyboard
      split <;> rfl
    · intro keyboard missing
      split at missing
      · exact missing
      · exact missing
    · intro keyboard
      generalize repeatShouldCancelOnModifierTransition _ _ = cancels
      cases cancels with
      | false => simp [Keyboard.repeatSlot]
      | true => simp [Keyboard.repeatSlot]
    · exact fun _ => rfl
    · exact fun _ => id

theorem dispatchRepeat (frontend : Frontend) (expired : Bool) (keysym : Keysym)
    (unicode : UInt32) (xkbModifiers : Modifiers) :
    Calmer frontend (frontend.dispatchRepeat engine expired keysym unicode xkbModifiers) :=
  of_route (.of_edits (RouteEdits.dispatchRepeat engine ..))
    (Frontend.dispatchRepeat_repeatSlot engine ..)

/-- Every event but one of a key leaves the repeat and the buffer alone, or ends both. -/
theorem handle (frontend : Frontend) {event : Event}
    (keyless : ∀ time key pressed keysym unicode xkbModifiers,
      event ≠ .key time key pressed keysym unicode xkbModifiers) :
    Calmer frontend (frontend.handle engine event) := by
  have onGrab (handle : Frontend → Frontend) (calm : Calmer frontend (handle frontend)) :
      Calmer frontend (frontend.onGrab handle) := by
    unfold Frontend.onGrab
    split
    · exact calm
    · exact refl frontend
  cases event with
  | activate => exact imHandleActivate frontend
  | deactivate => exact of_keyboard rfl
  | surroundingText => exact of_keyboard rfl
  | textChangeCause => exact of_keyboard rfl
  | contentType => exact of_keyboard rfl
  | done => exact imHandleDone engine frontend
  | unavailable => exact of_keyboard rfl
  | keymap loaded => exact onGrab (·.onKeymap loaded) (onKeymap frontend loaded)
  | key => exact (keyless _ _ _ _ _ _ rfl).elim
  | modifiers depressed latched locked group previous current =>
      exact onGrab (·.onModifiers depressed latched locked group previous current)
        (onModifiers frontend ..)
  | repeatInfo rate =>
      exact onGrab (·.onRepeatInfo rate)
        (updateKeyboard (fun _ => .inl rfl) (fun _ => rfl) fun _ => id)
  | repeatTimer => exact dispatchRepeat engine frontend ..
  | resume => exact handleResume frontend
  | reconcileTick => exact reconcileTick frontend
  | flushPopup =>
      unfold Frontend.handle Frontend.flushPendingPopup
      dsimp only
      split
      · exact of_text (TextFrame.updateWaylandTextUi frontend)
      · exact refl frontend
  | healthCheck =>
      unfold Frontend.handle Frontend.vkHealthCheck
      dsimp only
      split
      · exact vkTriggerFailSafe frontend
      · exact refl frontend
  | dispatched => exact of_keyboard rfl
  | disconnected outcomes => exact eventLoopRecover frontend outcomes
  | contextCalls calls => exact of_text (TextFrame.contextCalls frontend calls)
  | reloadShortcuts => exact of_keyboard rfl
  | changeInstance => exact of_keyboard rfl
  | changeWorld => exact of_keyboard rfl

end Engine

/-! ## A key which is not dispatched -/

theorem guardNoteReject (frontend : Frontend) (pressed : Bool) :
    Calmer frontend (frontend.guardNoteReject pressed) := by
  have counted : Calmer frontend frontend.guardCountReject := by
    refine of_keyboard ?_
    unfold Frontend.guardCountReject
    split
    · rfl
    · rfl
  unfold Frontend.guardNoteReject
  split
  · exact refl frontend
  · dsimp only
    split
    · exact counted.trans ((releaseGrab _).trans (of_keyboard rfl))
    · exact counted

theorem repeatBeforeRelease (frontend : Frontend) (key : Nat) :
    Calmer frontend (frontend.repeatBeforeRelease key) := by
  unfold Frontend.repeatBeforeRelease
  split
  · exact updateKeyboard (fun _ => .inr rfl) (fun _ => rfl) fun _ => id
  · exact refl frontend

end Calmer

end Typio
