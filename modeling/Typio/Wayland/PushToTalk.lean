import Typio.Wayland.VoiceLatch

/-!
# Push-to-talk

A key whose press starts the voice session should stay latched until it is released, its release
should stop the session, and no repeat of it should reach the engine or the application.  The
latch depends on the router, on the repeat timer and on the arbiter, which share the tracker: the
timer runs for a latched key whose binding needs neither Ctrl, Alt nor Super, and a release which
the arbiter consumes or the routing guard rejects stops nothing.
-/

namespace Typio

/-! ## Runs -/

/-- A frontend with the keys whose press started the voice session and which are not released. -/
structure PttRun where
  frontend : Frontend
  held : Nat → Bool

/-- A change of the frontend which leaves alone what is recorded of the keys. -/
structure Around where
  change : Frontend → Frontend
  tracking : ∀ frontend, (change frontend).tracking = frontend.tracking
  keyboard : ∀ frontend, (change frontend).keyboard.isSome = frontend.keyboard.isSome

/-- What happens to the keys, in any order. -/
inductive PttEvent
  /-- A key event is handed to the router, at once or out of the buffer of the arbiter. -/
  | routed (event : KeyEvent)
  | repeatTimer (expired : Bool) (keysym : Keysym) (unicode : UInt32) (xkbModifiers : Modifiers)
  /-- The arbiter consumes its buffer. -/
  | consumed (buffer : List KeyEvent)
  /-- The routing guard rejects a key event, or it finds the buffer full. -/
  | lost (event : KeyEvent)
  | hardReset
  /-- A new grab is requested. -/
  | regrab
  | around (around : Around)

/-- The event is the physical release of the key. -/
def PttEvent.releases (key : Nat) : PttEvent → Bool
  | routed event | lost event => event.releases key
  | consumed buffer => buffer.any (KeyEvent.releases key)
  | _ => false

/-- The event is the repeat timer. -/
def PttEvent.isTimer : PttEvent → Bool
  | repeatTimer .. => true
  | _ => false

namespace PttRun

section Engine

variable (engine : Engine)

/-- The frontend after an event. -/
def next (run : PttRun) : PttEvent → Frontend
  | .routed event => run.frontend.processKeyEvent engine event
  | .repeatTimer expired keysym unicode xkbModifiers =>
      run.frontend.dispatchRepeat engine expired keysym unicode xkbModifiers
  | .consumed buffer => run.frontend.arbiterConsume engine buffer
  | .lost _ => run.frontend
  | .hardReset => run.frontend.hardResetKeyboard
  | .regrab => run.frontend.rebuildKeyboardGrab.2
  | .around around => around.change run.frontend

/-- What the frontend sends at an event. -/
def sent (run : PttRun) (event : PttEvent) : List Effect :=
  run.frontend.sentSince (run.next engine event)

/-- The keys held after an event: a press which starts the voice session adds its key, a release
removes it, and a reset of the grab removes all. -/
def heldAfter (run : PttRun) (event : PttEvent) (key : Nat) : Bool :=
  match event with
  | .hardReset | .regrab => false
  | .routed press =>
      (press.isPress && press.key == key && decide (.voiceStart ∈ run.sent engine event)) ||
        run.held key && !press.releases key
  | _ => run.held key && !event.releases key

/-- One event. -/
def step (run : PttRun) (event : PttEvent) : PttRun where
  frontend := run.next engine event
  held := run.heldAfter engine event

/-- The latch holds at an event: every held key stays latched, a released one stops the session,
and no repeat of a held key is delivered. -/
structure LatchKept (run : PttRun) (event : PttEvent) : Prop where
  latched : ∀ key, run.heldAfter engine event key = true →
    (run.next engine event).tracking.getState key = .voicePtt
  stops : ∀ key, run.held key = true → event.releases key = true →
    .voiceStop ∈ run.sent engine event
  unrepeated : ∀ key, run.held key = true → event.isTimer = true →
    (run.sent engine event).any (Effect.repeats key) = false

/-- The latch is served at an event: a press which starts the session has a tracked key, a further
press of a held key starts it again or spares the latch, no repeat of a held key is due or it is
handed to nobody, and no release of a held key is consumed or lost. -/
def LatchServed (run : PttRun) : PttEvent → Prop
  | .routed event =>
      event.isPress = true →
        (run.frontend.startsVoice event = true → event.key < maxTrackedKeys) ∧
          (run.held event.key = true → (run.frontend.startsVoice event ||
            (run.frontend.log (.routed event)).sparesLatch engine event) = true)
  | .repeatTimer expired keysym _ _ =>
      ∀ keyboard, run.frontend.keyboard = some keyboard → run.held keyboard.repeatKey = true →
        (!run.frontend.repeatDue expired || run.frontend.dropsRepeat keysym) = true
  | .consumed buffer => ∀ key, run.held key = true → buffer.any (KeyEvent.releases key) = false
  | .lost event => event.isPress = false → run.held event.key = false
  | .hardReset | .regrab | .around _ => True

/-- Every held key is latched, and there is a keyboard. -/
def Latched (run : PttRun) : Prop :=
  ∀ key, run.held key = true →
    run.frontend.tracking.getState key = .voicePtt ∧ run.frontend.keyboard.isSome = true

variable {engine} {run : PttRun}

/-! ### A press or a release is handed to the router -/

theorem heldAfter_release {event : KeyEvent} (release : event.isPress = false) (key : Nat) :
    run.heldAfter engine (.routed event) key = (run.held key && !event.releases key) := by
  simp [heldAfter, release]

theorem heldAfter_press {event : KeyEvent} (press : event.isPress = true) (key : Nat) :
    run.heldAfter engine (.routed event) key =
      (event.key == key && run.frontend.startsVoice event || run.held key) := by
  have sent_eq : run.sent engine (.routed event) =
      run.frontend.sentSince (run.frontend.processKeyPress engine event) := by
    simp [sent, next, Frontend.processKeyEvent, press]
  have started : decide (.voiceStart ∈ run.sent engine (.routed event)) =
      run.frontend.startsVoice event := by
    rw [sent_eq]
    cases starts : run.frontend.startsVoice event with
    | true => simpa using (Frontend.processKeyPress_starts engine starts).2.2
    | false =>
        simpa using (Frontend.processKeyPress_only engine starts).not_mem_voice
          .voiceStart rfl
  have kept : event.releases key = false := by simp [KeyEvent.releases, press]
  simp only [heldAfter, press, started, kept, Bool.true_and, Bool.not_false, Bool.and_true]

theorem press_kept_iff (latched : run.Latched) {event : KeyEvent} (press : event.isPress = true) :
    run.LatchKept engine (.routed event) ↔ run.LatchServed engine (.routed event) := by
  have next_eq : run.next engine (.routed event) = run.frontend.processKeyPress engine event := by
    simp [next, Frontend.processKeyEvent, press]
  have own : (run.heldAfter engine (.routed event) event.key = true →
      (run.next engine (.routed event)).tracking.getState event.key = .voicePtt) ↔
      run.LatchServed engine (.routed event) := by
    rw [heldAfter_press press, next_eq]
    simp only [LatchServed, press, forall_const, beq_self_eq_true, Bool.true_and]
    cases starts : run.frontend.startsVoice event with
    | true =>
        have left := (Frontend.processKeyPress_starts engine starts).2.1 event.key
        by_cases tracked : event.key < maxTrackedKeys
        · simp [left, tracked]
        · have idle : run.frontend.tracking.getState event.key = .idle :=
            run.frontend.tracking.getState_of_untracked (Nat.not_lt.mp tracked)
          simp [left, tracked, idle]
    | false =>
        cases held : run.held event.key with
        | false => simp
        | true =>
            obtain ⟨state_eq, grabbed⟩ := latched event.key held
            simpa [starts] using Frontend.processKeyPress_latched engine grabbed state_eq
  have others (key : Nat) (distinct : key ≠ event.key)
      (held : run.heldAfter engine (.routed event) key = true) :
      (run.next engine (.routed event)).tracking.getState key = .voicePtt := by
    rw [heldAfter_press press, beq_eq_false_iff_ne.mpr distinct.symm, Bool.false_and,
      Bool.false_or] at held
    have state_eq := (latched key held).1
    rw [next_eq]
    cases starts : run.frontend.startsVoice event with
    | true =>
        rw [(Frontend.processKeyPress_starts engine starts).2.1 key]
        simpa [distinct] using state_eq
    | false => rw [(Frontend.processKeyPress_only engine starts).state key distinct, state_eq]
  rw [← own]
  constructor
  · intro kept
    exact kept.latched event.key
  · intro own_kept
    refine ⟨fun key held => ?_, fun key _ released => ?_, fun key _ timer => ?_⟩
    · by_cases same : key = event.key
      · subst same
        exact own_kept held
      · exact others key same held
    · simp [PttEvent.releases, KeyEvent.releases, press] at released
    · simp [PttEvent.isTimer] at timer

theorem release_kept (latched : run.Latched) {event : KeyEvent} (release : event.isPress = false) :
    run.LatchKept engine (.routed event) := by
  have next_eq : run.next engine (.routed event) =
      run.frontend.processKeyRelease engine event := by
    simp [next, Frontend.processKeyEvent, release]
  have others (key : Nat) (distinct : key ≠ event.key) :
      (run.frontend.processKeyRelease engine event).tracking.getState key =
        run.frontend.tracking.getState key := by
    by_cases own : run.frontend.tracking.getState event.key = .voicePtt ∧
        run.frontend.keyboard.isSome = true
    · exact (Frontend.processKeyRelease_latched engine own.2 own.1).2.2 key distinct
    · by_cases unlatched : run.frontend.tracking.getState event.key = .voicePtt
      · have gone : run.frontend.keyboard = none := by
          simpa using fun grabbed => own ⟨unlatched, grabbed⟩
        simp [Frontend.processKeyRelease, Frontend.repeatBeforeRelease, Frontend.processRelease,
          gone]
      · exact (Frontend.processKeyRelease_only engine unlatched).state key distinct
  refine ⟨fun key held => ?_, fun key held released => ?_, fun key _ timer => ?_⟩
  · rw [heldAfter_release release, Bool.and_eq_true, Bool.not_eq_true'] at held
    obtain ⟨held, unreleased⟩ := held
    have distinct : key ≠ event.key := by
      rintro rfl
      simp [KeyEvent.releases, release] at unreleased
    rw [next_eq, others key distinct]
    exact (latched key held).1
  · have same : event.key = key := by
      simpa [PttEvent.releases, KeyEvent.releases, release] using released
    subst same
    obtain ⟨state_eq, grabbed⟩ := latched event.key held
    rw [sent, next_eq]
    exact (Frontend.processKeyRelease_latched engine grabbed state_eq).1
  · simp [PttEvent.isTimer] at timer

/-! ### The repeat timer -/

theorem repeatTimer_kept_iff (latched : run.Latched) (expired : Bool) (keysym : Keysym)
    (unicode : UInt32) (xkbModifiers : Modifiers) :
    run.LatchKept engine (.repeatTimer expired keysym unicode xkbModifiers) ↔
      run.LatchServed engine (.repeatTimer expired keysym unicode xkbModifiers) := by
  have held_eq (key : Nat) : run.heldAfter engine
      (.repeatTimer expired keysym unicode xkbModifiers) key = run.held key := by
    simp [heldAfter, PttEvent.releases]
  constructor
  · intro kept keyboard keyboard_eq held
    have state_eq := (latched keyboard.repeatKey held).1
    refine (Frontend.dispatchRepeat_latched engine keyboard_eq state_eq expired keysym unicode
      xkbModifiers).mp ⟨?_, ?_⟩
    · exact kept.latched keyboard.repeatKey (by rw [held_eq, held])
    · exact kept.unrepeated keyboard.repeatKey held rfl
  · intro served
    have spared (key : Nat) (held : run.held key = true) :
        (run.next engine (.repeatTimer expired keysym unicode xkbModifiers)).tracking.getState
            key = .voicePtt ∧
          (run.sent engine (.repeatTimer expired keysym unicode xkbModifiers)).any
            (Effect.repeats key) = false := by
      obtain ⟨state_eq, grabbed⟩ := latched key held
      obtain ⟨keyboard, keyboard_eq⟩ := Option.isSome_iff_exists.mp grabbed
      by_cases same : key = keyboard.repeatKey
      · subst same
        exact (Frontend.dispatchRepeat_latched engine keyboard_eq state_eq expired keysym unicode
          xkbModifiers).mpr (served keyboard keyboard_eq held)
      · have only := Frontend.dispatchRepeat_only engine keyboard_eq expired keysym unicode
          xkbModifiers
        exact ⟨(only.state key same).trans state_eq, only.not_repeats same⟩
    refine ⟨fun key held => ?_, fun key _ released => ?_, fun key held _ => ?_⟩
    · rw [held_eq] at held
      exact (spared key held).1
    · simp [PttEvent.releases] at released
    · exact (spared key held).2

/-! ### The arbiter and the routing guard -/

theorem consumed_kept_iff (latched : run.Latched) (buffer : List KeyEvent) :
    run.LatchKept engine (.consumed buffer) ↔ run.LatchServed engine (.consumed buffer) := by
  obtain ⟨effects, trace_eq, silent, -⟩ :=
    Frontend.arbiterConsume_released engine run.frontend buffer
  have sent_eq : run.sent engine (.consumed buffer) = effects := Frontend.sentSince_eq trace_eq
  constructor
  · intro kept key held
    by_contra released
    refine silent ?_
    rw [← sent_eq]
    exact kept.stops key held (Bool.eq_true_of_not_eq_false released)
  · intro served
    refine ⟨fun key held => ?_, fun key held released => ?_, fun key _ timer => ?_⟩
    · simp only [heldAfter, Bool.and_eq_true] at held
      have state_eq := (latched key held.1).1
      exact (Frontend.arbiterConsume_state engine (by rw [state_eq]; simp) buffer).1.trans state_eq
    · have unreleased := served key held
      simp only [PttEvent.releases, unreleased] at released
      cases released
    · simp [PttEvent.isTimer] at timer

theorem lost_kept_iff (latched : run.Latched) (event : KeyEvent) :
    run.LatchKept engine (.lost event) ↔ run.LatchServed engine (.lost event) := by
  have nothing : run.sent engine (.lost event) = [] := Frontend.sentSince_eq rfl
  constructor
  · intro kept release
    by_contra held
    have stopped := kept.stops event.key (by simpa using held)
      (by simp [PttEvent.releases, KeyEvent.releases, release])
    rw [nothing] at stopped
    cases stopped
  · intro served
    refine ⟨fun key held => ?_, fun key held released => ?_, fun key _ timer => ?_⟩
    · simp only [heldAfter, Bool.and_eq_true] at held
      exact (latched key held.1).1
    · simp only [PttEvent.releases, KeyEvent.releases, Bool.and_eq_true, Bool.not_eq_true',
        beq_iff_eq] at released
      obtain ⟨release, rfl⟩ := released
      rw [served release] at held
      cases held
    · simp [PttEvent.isTimer] at timer

/-! ### Runs of events -/

/-- At an event the latch holds exactly when it is served. -/
theorem latchKept_iff (latched : run.Latched) (event : PttEvent) :
    run.LatchKept engine event ↔ run.LatchServed engine event := by
  have reset {event : PttEvent} (forgets : ∀ key, run.heldAfter engine event key = false)
      (unreleasing : ∀ key, event.releases key = false) (untimed : event.isTimer = false) :
      run.LatchKept engine event :=
    ⟨fun key held => absurd held (by simp [forgets]),
      fun key _ released => absurd released (by simp [unreleasing]),
      fun key _ timer => absurd timer (by simp [untimed])⟩
  cases event with
  | routed event =>
      cases press : event.isPress with
      | true => exact press_kept_iff latched press
      | false => exact iff_of_true (release_kept latched press) (by simp [LatchServed, press])
  | repeatTimer expired keysym unicode xkbModifiers =>
      exact repeatTimer_kept_iff latched expired keysym unicode xkbModifiers
  | consumed buffer => exact consumed_kept_iff latched buffer
  | lost event => exact lost_kept_iff latched event
  | hardReset => exact iff_of_true (reset (fun _ => rfl) (fun _ => rfl) rfl) trivial
  | regrab => exact iff_of_true (reset (fun _ => rfl) (fun _ => rfl) rfl) trivial
  | around around =>
      refine iff_of_true ⟨fun key held => ?_, ?_, ?_⟩ trivial
      · simp only [heldAfter, Bool.and_eq_true] at held
        rw [next, around.tracking]
        exact (latched key held.1).1
      · intro key _ released
        cases released
      · intro key _ timer
        cases timer

/-- The keyboard stays as long as a key is held. -/
theorem next_grabbed (latched : run.Latched) (event : PttEvent) {key : Nat}
    (held : run.heldAfter engine event key = true) :
    (run.next engine event).keyboard.isSome = true := by
  cases event with
  | routed event =>
      cases press : event.isPress with
      | true =>
          rw [heldAfter_press press, Bool.or_eq_true, Bool.and_eq_true] at held
          rw [next, Frontend.processKeyEvent, press, if_pos rfl]
          cases starts : run.frontend.startsVoice event with
          | true =>
              rw [(Frontend.processKeyPress_starts engine starts).1]
              cases keyboard_eq : run.frontend.keyboard with
              | none => simp [Frontend.startsVoice, keyboard_eq] at starts
              | some keyboard => rfl
          | false =>
              rw [(Frontend.processKeyPress_only engine starts).keyboard]
              simp only [starts, Bool.false_eq_true, and_false, false_or] at held
              exact (latched key held).2
      | false =>
          rw [heldAfter_release press, Bool.and_eq_true] at held
          obtain ⟨-, grabbed⟩ := latched key held.1
          rw [next, Frontend.processKeyEvent, press, if_neg (by simp)]
          by_cases own : run.frontend.tracking.getState event.key = .voicePtt
          · rw [(Frontend.processKeyRelease_latched engine grabbed own).2.1, grabbed]
          · rw [(Frontend.processKeyRelease_only engine own).keyboard, grabbed]
  | repeatTimer expired keysym unicode xkbModifiers =>
      simp only [heldAfter, Bool.and_eq_true] at held
      obtain ⟨-, grabbed⟩ := latched key held.1
      obtain ⟨keyboard, keyboard_eq⟩ := Option.isSome_iff_exists.mp grabbed
      rw [next, (Frontend.dispatchRepeat_only engine keyboard_eq ..).keyboard, grabbed]
  | consumed buffer =>
      simp only [heldAfter, Bool.and_eq_true] at held
      obtain ⟨state_eq, grabbed⟩ := latched key held.1
      rw [next, (Frontend.arbiterConsume_state engine (by rw [state_eq]; simp) buffer).2, grabbed]
  | lost event =>
      simp only [heldAfter, Bool.and_eq_true] at held
      exact (latched key held.1).2
  | hardReset => cases held
  | regrab => cases held
  | around around =>
      simp only [heldAfter, Bool.and_eq_true] at held
      rw [next, around.keyboard]
      exact (latched key held.1).2

theorem latched_step (latched : run.Latched) {event : PttEvent}
    (kept : run.LatchKept engine event) : (run.step engine event).Latched :=
  fun key held => ⟨kept.latched key held, next_grabbed latched event held⟩

/-- In every run of presses, releases, repeats, consumed chords and resets the latch holds
throughout if and only if it is served at every event. -/
theorem latchKept_iff_served (engine : Engine) (frontend : Frontend) (events : List PttEvent) :
    Machine.EachStep (step engine) (LatchKept engine) ⟨frontend, fun _ => false⟩ events ↔
      Machine.EachStep (step engine) (LatchServed engine) ⟨frontend, fun _ => false⟩ events :=
  Machine.eachStep_congr_of_left Latched (fun _ event latched => latchKept_iff latched event)
    (fun _ _ latched kept => latched_step latched kept) (fun _ held => absurd held (by simp))

/-! ### The events of the grab -/

/-- `on_key` notes an event. -/
def noted (event : KeyEvent) : Around where
  change := (·.noteKey event)
  tracking _ := rfl
  keyboard frontend := by simp [Frontend.noteKey]

/-- The arbiter of the keyboard changes. -/
def arbitrated (update : KeyArbiter → KeyArbiter) : Around where
  change := (·.updateArbiter update)
  tracking _ := rfl
  keyboard frontend := by simp [Frontend.updateArbiter]

/-- What the arbiter makes of an event: it is routed, stored, or lost for want of room. -/
def arbiterEvents (frontend : Frontend) (keyboard : Keyboard) (event : KeyEvent) :
    List PttEvent :=
  let stored := if maxBuffered ≤ keyboard.arbiter.buffer.length then [.lost event] else []
  .around (noted event) ::
    match frontend.outcome keyboard event with
    | .pass => [.routed event]
    | .start =>
        .around (arbitrated fun arbiter => { arbiter with state := .buffering }.push event) ::
          stored
    | .store => .around (arbitrated (·.push event)) :: stored
    | .replay => keyboard.arbiter.buffer.map .routed ++
        [.around (arbitrated fun _ => KeyArbiter.init), .routed event]
    | .consume => .around (arbitrated (·.push event)) :: stored ++
        [.consumed (keyboard.arbiter.push event).buffer]

theorem run_routed (engine : Engine) (run : PttRun) (buffer : List KeyEvent) :
    (Machine.run (step engine) run (buffer.map .routed)).frontend =
      buffer.foldl (Frontend.processKeyEvent engine) run.frontend := by
  induction buffer generalizing run with
  | nil => rfl
  | cons event buffer induction =>
      rw [List.map_cons, Machine.run_cons, induction]
      rfl

/-- Every key event the arbiter receives is a run of these events. -/
theorem dispatchKey_run (engine : Engine) (run : PttRun) {keyboard : Keyboard}
    (keyboard_eq : run.frontend.keyboard = some keyboard) (event : KeyEvent) :
    (Machine.run (step engine) run (arbiterEvents run.frontend keyboard event)).frontend =
      run.frontend.dispatchKey engine event := by
  have lost (run : PttRun) (full : Prop) [Decidable full] (events : List PttEvent) :
      (Machine.run (step engine) run ((if full then [.lost event] else []) ++ events)).frontend =
        (Machine.run (step engine) ⟨run.frontend,
          (Machine.run (step engine) run (if full then [.lost event] else [])).held⟩
            events).frontend := by
    rw [Machine.run_append]
    split <;> rfl
  have kept (run : PttRun) (full : Prop) [Decidable full] :
      (Machine.run (step engine) run (if full then [.lost event] else [])).frontend =
        run.frontend := by
    split <;> rfl
  rw [Frontend.dispatchKey_eq engine keyboard_eq, arbiterEvents, Machine.run_cons]
  cases outcome_eq : run.frontend.outcome keyboard event with
  | pass => rfl
  | start =>
      rw [Machine.run_cons]
      exact kept ..
  | store =>
      rw [Machine.run_cons]
      exact kept ..
  | replay =>
      rw [Machine.run_append, Machine.run_cons, Machine.run_cons, Machine.run_nil]
      simp only [step, next, run_routed]
      rfl
  | consume =>
      rw [List.cons_append, Machine.run_cons, lost]
      rfl

/-- The grab is released and the loop stopped. -/
def exited : Around where
  change := (·.releaseGrab.stop)
  tracking frontend := frontend.releaseGrab_tracking
  keyboard frontend := (@KeyOnly.releaseGrab 0 frontend).keyboard

theorem guardNoteReject_kept (frontend : Frontend) (pressed : Bool) :
    (frontend.guardNoteReject pressed).tracking = frontend.tracking ∧
      (frontend.guardNoteReject pressed).keyboard.isSome = frontend.keyboard.isSome := by
  have counted : frontend.guardCountReject.tracking = frontend.tracking ∧
      frontend.guardCountReject.keyboard = frontend.keyboard := by
    rw [Frontend.guardCountReject]
    split <;> exact ⟨rfl, rfl⟩
  have released := (@KeyOnly.releaseGrab 0 frontend.guardCountReject).keyboard
  simp only [Frontend.guardNoteReject]
  split
  next => exact ⟨rfl, rfl⟩
  next =>
    split
    next =>
      refine ⟨(Frontend.releaseGrab_tracking _).trans counted.1, ?_⟩
      rw [Frontend.stop_keyboard, released, counted.2]
    next => exact ⟨counted.1, by rw [counted.2]⟩

/-- The routing guard counts an event it rejects. -/
def rejected (event : KeyEvent) : Around where
  change frontend :=
    if event.isPress then frontend.guardNoteReject event.isPress
    else (frontend.guardNoteReject event.isPress).repeatBeforeRelease event.key
  tracking frontend := by
    split
    next press => exact (guardNoteReject_kept frontend _).1
    next release =>
      rw [Frontend.repeatBeforeRelease_tracking, (guardNoteReject_kept frontend _).1]
  keyboard frontend := by
    split
    next press => exact (guardNoteReject_kept frontend _).2
    next release =>
      rw [(Frontend.repeatBeforeRelease_only _ event.key).keyboard,
        (guardNoteReject_kept frontend _).2]

/-- What `on_key` makes of an event. -/
def keyEvents (frontend : Frontend) (keyboard : Keyboard) (event : KeyEvent) : List PttEvent :=
  if keyboard.xkb.isNone then [.lost event]
  else if event.isPress = true ∧
      reservedAction frontend.shortcuts event.keysym event.modifiers = .emergencyExit then
    [.around exited]
  else if frontend.guardRejects then [.around (rejected event), .lost event]
  else arbiterEvents frontend keyboard event

/-- Every key event of the grab is a run of these events. -/
theorem onKey_run (engine : Engine) (run : PttRun) {keyboard : Keyboard}
    (keyboard_eq : run.frontend.keyboard = some keyboard) (time key : Nat) (pressed : Bool)
    (keysym : Keysym) (unicode : UInt32) (xkbModifiers : Modifiers) :
    (Machine.run (step engine) run (keyEvents run.frontend keyboard
      { isPress := pressed, key, keysym, unicode, time
        modifiers := effectiveModifiers keyboard.physicalModifiers xkbModifiers
          run.frontend.tracking.activeGenerationOwnedKeys keysym pressed })).frontend =
      run.frontend.onKey engine time key pressed keysym unicode xkbModifiers := by
  simp only [keyEvents, Frontend.onKey, keyboard_eq]
  split
  next bare => rfl
  next keyed =>
    split
    next exits => rfl
    next stays =>
      split
      next blocked => rfl
      next admitted => exact dispatchKey_run engine run keyboard_eq _

end Engine

/-- F8 alone is bound to push-to-talk and the keyboard repeats its keys: the first repeat of the
held key goes to the engine. -/
theorem held_key_repeated :
    let engine : Engine := fun _ => { handled := false, calls := [], active := some "rime" }
    let shortcuts := { ShortcutConfig.defaults with voicePtt := ⟨0, 0xffc5⟩ }
    let repeats : Around :=
      { change := fun frontend => frontend.updateKeyboard fun keyboard =>
          { keyboard with xkb := some ⟨fun _ => true⟩, repeatRate := 25 }
        tracking := fun _ => rfl
        keyboard := fun _ => by simp }
    ¬Machine.EachStep (step engine) (LatchKept engine)
      ⟨Frontend.attended ⟨some "rime", none, false, true⟩ shortcuts (World.obliging 1000),
        fun _ => false⟩
      [.around repeats, .routed ⟨true, 66, 0xffc5, 0, 0, 1000⟩, .repeatTimer true 0xffc5 0 0] := by
  intro engine shortcuts repeats each
  have kept := each [.around repeats, .routed ⟨true, 66, 0xffc5, 0, 0, 1000⟩]
    (.repeatTimer true 0xffc5 0 0) (List.prefix_refl _)
  have unrepeated := kept.unrepeated 66 (by decide) rfl
  revert unrepeated
  decide

end PttRun

end Typio
