import Typio.Wayland.ChordRelease

/-!
# The latch of a voice key

What the router, the repeat timer and the arbiter each do to a key which is latched for the voice
input, and to the keys beside it: when a press starts the voice session, when it leaves the latch,
and when a repeat is delivered.
-/

namespace Typio

/-- The effect delivers a repeat of the key: the engine is handed one, or the application is sent
another press. -/
def Effect.repeats (key : Nat) : Effect → Bool
  | engineKey event isRepeat => isRepeat && event.key == key
  | vkKey _ other pressed => pressed && other == key
  | _ => false

/-- The effect starts or stops the voice session. -/
def Effect.isVoice : Effect → Bool
  | voiceStart | voiceStop => true
  | _ => false

/-! ## Changes to one key -/

/-- From one state to a later one no other key changes its route or has a repeat delivered, and
the voice session is left alone. -/
structure KeyOnly (key : Nat) (before after : Frontend) : Prop where
  keyboard : after.keyboard.isSome = before.keyboard.isSome
  state : ∀ other, other ≠ key →
    after.tracking.getState other = before.tracking.getState other
  sent : ∃ effects, after.trace = effects ++ before.trace ∧
    ∀ effect ∈ effects, effect.isVoice = false ∧
      ∀ other, other ≠ key → effect.repeats other = false

namespace KeyOnly

variable {key : Nat} {first second third before after : Frontend}

theorem of_same (keyboard : after.keyboard.isSome = before.keyboard.isSome)
    (tracking : after.tracking = before.tracking) (trace : after.trace = before.trace) :
    KeyOnly key before after where
  keyboard := keyboard
  state _ _ := by rw [tracking]
  sent := ⟨[], trace, by simp⟩

theorem refl (frontend : Frontend) : KeyOnly key frontend frontend := of_same rfl rfl rfl

theorem trans (earlier : KeyOnly key first second) (later : KeyOnly key second third) :
    KeyOnly key first third where
  keyboard := later.keyboard.trans earlier.keyboard
  state other distinct := (later.state other distinct).trans (earlier.state other distinct)
  sent := by
    obtain ⟨old, old_trace, old_quiet⟩ := earlier.sent
    obtain ⟨new, new_trace, new_quiet⟩ := later.sent
    refine ⟨new ++ old, by rw [new_trace, old_trace, List.append_assoc], ?_⟩
    intro effect member
    rcases List.mem_append.mp member with newer | older
    · exact new_quiet effect newer
    · exact old_quiet effect older

theorem log {effect : Effect} (voiceless : effect.isVoice = false)
    (own : ∀ other, other ≠ key → effect.repeats other = false) :
    KeyOnly key before (before.log effect) where
  keyboard := rfl
  state _ _ := rfl
  sent := ⟨[effect], rfl, by simpa using ⟨voiceless, own⟩⟩

theorem setKeyState (state : KeyTrackState) :
    KeyOnly key before (before.setKeyState key state) where
  keyboard := rfl
  state other distinct := by simp [KeyTracking.getState_setState, distinct]
  sent := ⟨[], rfl, by simp⟩

theorem clearKeyTracking : KeyOnly key before (before.clearKeyTracking key) where
  keyboard := rfl
  state other distinct := by simp [KeyTracking.getState_clearTracking, distinct]
  sent := ⟨[], rfl, by simp⟩

theorem claim : KeyOnly key before (before.updateTracking (·.claimCurrentGeneration key)) where
  keyboard := rfl
  state _ _ := by simp
  sent := ⟨[], rfl, by simp⟩

theorem updateKeyboard (update : Keyboard → Keyboard) :
    KeyOnly key before (before.updateKeyboard update) :=
  of_same (by simp) rfl rfl

theorem releaseGrab : KeyOnly key before before.releaseGrab := by
  rw [Frontend.releaseGrab]
  split
  next => exact refl before
  next =>
    split
    next => exact (log rfl fun _ _ => rfl).trans (updateKeyboard _)
    next => exact refl before

theorem of_text (text : TextFrame before after) : KeyOnly key before after where
  keyboard := by rw [text.frame]
  state _ _ := by rw [text.frame]
  sent := by
    obtain ⟨effects, trace_eq, textual⟩ := text.sent
    refine ⟨effects, trace_eq, fun effect member => ?_⟩
    have effect_text := textual effect member
    cases effect with
    | engineKey | vkKey | voiceStart | voiceStop => cases effect_text
    | _ => exact ⟨rfl, fun _ _ => rfl⟩

theorem vkForwardKey (time : Nat) (pressed : Bool) :
    KeyOnly key before (before.vkForwardKey time key pressed) := by
  have upgraded : KeyOnly key before before.vkUpgrade := by
    rw [Frontend.vkUpgrade]
    split <;> exact of_same rfl rfl rfl
  rw [Frontend.vkForwardKey, Frontend.whenVkReady]
  split
  next ready =>
    refine upgraded.trans (log rfl fun other distinct => ?_)
    simp [Effect.repeats, Ne.symm distinct]
  next blocked =>
    split
    next broken =>
      refine upgraded.trans ?_
      rw [Frontend.vkTriggerFailSafe]
      split
      next grabbed => exact releaseGrab.trans (of_same rfl rfl rfl)
      next released => exact refl _
    next waiting => exact upgraded

theorem forwardAs (time : Nat) (pressed : Bool) (state : KeyTrackState) :
    KeyOnly key before ((before.vkForwardKey time key pressed).setKeyState key state) :=
  (vkForwardKey time pressed).trans (setKeyState state)

theorem not_mem_voice (only : KeyOnly key before after) (effect : Effect)
    (voice : effect.isVoice = true) : effect ∉ before.sentSince after := by
  obtain ⟨effects, trace_eq, quiet⟩ := only.sent
  rw [Frontend.sentSince_eq trace_eq]
  intro member
  rw [(quiet effect member).1] at voice
  cases voice

theorem not_repeats (only : KeyOnly key before after) {other : Nat} (distinct : other ≠ key) :
    (before.sentSince after).any (Effect.repeats other) = false := by
  obtain ⟨effects, trace_eq, quiet⟩ := only.sent
  rw [Frontend.sentSince_eq trace_eq, List.any_eq_false]
  intro effect member
  simp [(quiet effect member).2 other distinct]

section Engine

variable (engine : Engine) {event : KeyEvent}

theorem processKey (isRepeat : Bool) :
    KeyOnly event.key before (before.processKey engine event isRepeat).2 := by
  rw [Frontend.processKey]
  split
  next active =>
    have logged : KeyOnly event.key before (before.log (.engineKey event isRepeat)) :=
      log rfl fun other distinct => by simp [Effect.repeats, Ne.symm distinct]
    exact logged.trans (of_text (TextFrame.callEngine engine _))
  next none_active => exact refl before

theorem offerPress : KeyOnly event.key before (before.offerPress engine event) := by
  have asked : KeyOnly event.key before (before.processKey engine event false).2 :=
    processKey engine false
  simp only [Frontend.offerPress]
  split
  next reserved => exact asked
  next free =>
    split
    next declined => exact asked.trans (forwardAs ..)
    next handled => exact asked

theorem offerRepeat : KeyOnly event.key before (before.offerRepeat engine event) := by
  have asked : KeyOnly event.key before (before.processKey engine event true).2 :=
    processKey engine true
  simp only [Frontend.offerRepeat]
  split
  next handled => exact asked
  next declined =>
    split
    next reserved => exact asked
    next free => exact asked.trans (forwardAs ..)

theorem repeatStop : KeyOnly key before before.repeatStop := updateKeyboard _

theorem deliverRepeat (keyboard : Keyboard) :
    KeyOnly event.key before (before.deliverRepeat engine keyboard event) := by
  rw [Frontend.deliverRepeat]
  split
  next shortcut =>
    split
    next blocking => exact vkForwardKey ..
    next released => exact repeatStop
  next forwarded => exact vkForwardKey ..
  next basic => exact vkForwardKey ..
  next state other =>
    split
    next runs => exact offerRepeat engine
    next stops => exact repeatStop

end Engine

end KeyOnly

namespace Frontend

/-! ## Presses -/

theorem releaseGrab_tracking (frontend : Frontend) :
    frontend.releaseGrab.tracking = frontend.tracking := by
  rw [releaseGrab]
  repeat' split
  all_goals rfl

theorem processKey_tracking (engine : Engine) (frontend : Frontend) (event : KeyEvent)
    (isRepeat : Bool) :
    (frontend.processKey engine event isRepeat).2.tracking = frontend.tracking := by
  rw [processKey]
  split
  next active => rw [(TextFrame.callEngine engine _).frame]; rfl
  next none_active => rfl

/-- The press is routed afresh: its key is idle, or its route is not latched against another. -/
def routesAfresh (frontend : Frontend) (key : Nat) : Bool :=
  match frontend.tracking.getState key with
  | .idle | .basicPassthrough | .voicePtt | .voicePttUnavail => true
  | _ => false

/-- The press starts the voice session. -/
def startsVoice (frontend : Frontend) (event : KeyEvent) : Bool :=
  frontend.keyboard.any fun keyboard =>
    frontend.routesAfresh event.key && !frontend.suppressesPress keyboard &&
      decide (reservedAction frontend.shortcuts event.keysym event.modifiers = .voicePtt) &&
      frontend.inst.voiceAvailable

section Engine

variable (engine : Engine)

/-- The press of a latched key leaves the latch alone: it is neither suppressed, nor reserved for
the voice input, nor forwarded. -/
def sparesLatch (frontend : Frontend) (event : KeyEvent) : Bool :=
  frontend.keyboard.any fun keyboard =>
    !frontend.suppressesPress keyboard &&
      decide (reservedAction frontend.shortcuts event.keysym event.modifiers ≠ .voicePtt) &&
      !(frontend.takeUp event.key).forwardsPress engine event

theorem classifyPress_only {frontend : Frontend} {event : KeyEvent}
    (silent : ¬(reservedAction frontend.shortcuts event.keysym event.modifiers = .voicePtt ∧
      frontend.inst.voiceAvailable = true)) :
    KeyOnly event.key frontend (frontend.classifyPress engine event) := by
  rw [Frontend.classifyPress]
  split
  next emergency => exact KeyOnly.releaseGrab.trans (KeyOnly.of_same rfl rfl rfl)
  next voice =>
    split
    next available => exact absurd ⟨voice, available⟩ silent
    next unavailable => exact (KeyOnly.setKeyState _).trans (KeyOnly.log rfl fun _ _ => rfl)
  next unreserved =>
    split
    next shortcut => exact KeyOnly.forwardAs ..
    next plain =>
      split
      next basic => exact KeyOnly.forwardAs ..
      next offered => exact KeyOnly.offerPress engine

/-- A press which has passed the startup guard leaves its key latched for the voice input exactly
when it starts the voice session, or is neither reserved for it nor forwarded. -/
theorem classifyPress_latched {frontend : Frontend} {event : KeyEvent}
    (latched : frontend.tracking.getState event.key = .voicePtt) :
    (frontend.classifyPress engine event).tracking.getState event.key = .voicePtt ↔
      (if reservedAction frontend.shortcuts event.keysym event.modifiers = .voicePtt then
        frontend.inst.voiceAvailable else !frontend.forwardsPress engine event) = true := by
  have tracked : event.key < maxTrackedKeys :=
    KeyTracking.tracked_of_getState_ne (by rw [latched]; simp)
  unfold Frontend.classifyPress forwardsPress
  cases reserved : reservedAction frontend.shortcuts event.keysym event.modifiers with
  | emergencyExit => simp [releaseGrab_tracking, latched]
  | voicePtt => cases frontend.inst.voiceAvailable <;> simp [tracked]
  | none =>
      by_cases shortcut : isAppShortcut event.keysym event.modifiers = true
      · simp [shortcut, tracked]
      · by_cases basic : frontend.shouldForwardBasicText event.modifiers event.unicode = true
        · simp [shortcut, basic, tracked]
        · rw [offerPress_eq]
          by_cases declined : frontend.engineDeclines engine event = true
          · simp [shortcut, basic, declined, tracked]
          · simp [shortcut, basic, declined, processKey_tracking, latched]

theorem routePress_eq_of_startsVoice {frontend : Frontend} {keyboard : Keyboard} {event : KeyEvent}
    (keyboard_eq : frontend.keyboard = some keyboard) (starts : frontend.startsVoice event = true) :
    frontend.routePress engine keyboard event =
      ((frontend.takeUp event.key).log .voiceStart).setKeyState event.key .voicePtt := by
  simp only [startsVoice, keyboard_eq, Option.any_some, Bool.and_eq_true, Bool.not_eq_true',
    decide_eq_true_eq] at starts
  obtain ⟨⟨⟨-, admitted⟩, reserved⟩, available⟩ := starts
  have reserved_then : reservedAction (frontend.takeUp event.key).shortcuts event.keysym
      event.modifiers = .voicePtt := reserved
  have available_then : (frontend.takeUp event.key).inst.voiceAvailable = true := available
  rw [routePress_eq, admitted, if_neg (by simp), classifyPress, reserved_then]
  exact if_pos available_then

theorem routePress_only {frontend : Frontend} {keyboard : Keyboard} {event : KeyEvent}
    (keyboard_eq : frontend.keyboard = some keyboard)
    (afresh : frontend.routesAfresh event.key = true)
    (silent : frontend.startsVoice event = false) :
    KeyOnly event.key frontend (frontend.routePress engine keyboard event) := by
  rw [routePress_eq]
  split
  next suppressed =>
    exact (KeyOnly.claim.trans (KeyOnly.setKeyState _)).trans (KeyOnly.updateKeyboard _)
  next admitted =>
    have taken : KeyOnly event.key frontend (frontend.takeUp event.key) :=
      KeyOnly.claim.trans (KeyOnly.updateKeyboard _)
    refine taken.trans (classifyPress_only engine ?_)
    rintro ⟨reserved, available⟩
    have reserved_now : reservedAction frontend.shortcuts event.keysym event.modifiers =
      .voicePtt := reserved
    have available_now : frontend.inst.voiceAvailable = true := available
    simp [startsVoice, keyboard_eq, afresh, admitted, reserved_now, available_now] at silent

/-- What a press leaves of its key: the session is started and the key latched for it, as far as
the key is tracked, or no other key is touched. -/
theorem processPress_starts {frontend : Frontend} {event : KeyEvent}
    (starts : frontend.startsVoice event = true) :
    frontend.processPress engine event =
      ((frontend.takeUp event.key).log .voiceStart).setKeyState event.key .voicePtt := by
  have starts_now := starts
  simp only [startsVoice, Option.any_eq_true, Bool.and_eq_true] at starts
  obtain ⟨keyboard, keyboard_eq, ⟨⟨afresh, -⟩, -⟩, -⟩ := starts
  rw [← routePress_eq_of_startsVoice engine keyboard_eq starts_now]
  unfold processPress routesAfresh at *
  rw [keyboard_eq]
  cases state_eq : frontend.tracking.getState event.key <;> simp_all

theorem processPress_only {frontend : Frontend} {event : KeyEvent}
    (silent : frontend.startsVoice event = false) :
    KeyOnly event.key frontend (frontend.processPress engine event) := by
  unfold processPress
  split
  next => exact KeyOnly.refl frontend
  next keyboard keyboard_eq =>
    have routed (afresh : frontend.routesAfresh event.key = true) :=
      routePress_only engine keyboard_eq afresh silent
    cases state_eq : frontend.tracking.getState event.key with
    | releasedPending | suppressedStartup => exact KeyOnly.refl frontend
    | forwarded => exact KeyOnly.vkForwardKey ..
    | appShortcut =>
        dsimp only
        split
        · exact KeyOnly.vkForwardKey ..
        · exact KeyOnly.refl frontend
    | idle | basicPassthrough | voicePtt | voicePttUnavail =>
        exact routed (by simp [routesAfresh, state_eq])

/-- A press of a latched key leaves the latch exactly when it starts the session again or spares
the latch. -/
theorem processPress_latched {frontend : Frontend} {event : KeyEvent}
    (grabbed : frontend.keyboard.isSome = true)
    (latched : frontend.tracking.getState event.key = .voicePtt) :
    (frontend.processPress engine event).tracking.getState event.key = .voicePtt ↔
      (frontend.startsVoice event || frontend.sparesLatch engine event) = true := by
  obtain ⟨keyboard, keyboard_eq⟩ := Option.isSome_iff_exists.mp grabbed
  have tracked : event.key < maxTrackedKeys :=
    KeyTracking.tracked_of_getState_ne (by rw [latched]; simp)
  have routed : frontend.processPress engine event = frontend.routePress engine keyboard event := by
    simp [processPress, keyboard_eq, latched]
  have afresh : frontend.routesAfresh event.key = true := by simp [routesAfresh, latched]
  simp only [startsVoice, sparesLatch, keyboard_eq, Option.any_some, afresh, routed, routePress_eq,
    Bool.true_and]
  by_cases suppressed : frontend.suppressesPress keyboard = true
  · simp [suppressed, tracked]
  · have latched_then : (frontend.takeUp event.key).tracking.getState event.key = .voicePtt := by
      simpa [takeUp] using latched
    have shortcuts_eq : (frontend.takeUp event.key).shortcuts = frontend.shortcuts := rfl
    have inst_eq : (frontend.takeUp event.key).inst = frontend.inst := rfl
    rw [if_neg suppressed, classifyPress_latched engine latched_then, shortcuts_eq, inst_eq]
    by_cases reserved : reservedAction frontend.shortcuts event.keysym event.modifiers = .voicePtt
    · simp [suppressed, reserved]
    · simp [suppressed, reserved]

/-! ## Releases -/

theorem processRelease_latched {frontend : Frontend} {event : KeyEvent}
    (grabbed : frontend.keyboard.isSome = true)
    (latched : frontend.tracking.getState event.key = .voicePtt) :
    frontend.processRelease engine event =
      (frontend.log .voiceStop).clearKeyTracking event.key := by
  obtain ⟨keyboard, keyboard_eq⟩ := Option.isSome_iff_exists.mp grabbed
  simp [processRelease, keyboard_eq, latched]

theorem processRelease_only {frontend : Frontend} {event : KeyEvent}
    (unlatched : frontend.tracking.getState event.key ≠ .voicePtt) :
    KeyOnly event.key frontend (frontend.processRelease engine event) := by
  have released (start : Frontend) : KeyOnly event.key start
      ((start.clearKeyTracking event.key).vkForwardKey event.time event.key false) :=
    KeyOnly.clearKeyTracking.trans (KeyOnly.vkForwardKey ..)
  have asked (start : Frontend) :
      KeyOnly event.key start (start.processKey engine event false).2 :=
    KeyOnly.processKey engine false
  unfold processRelease
  split
  next => exact KeyOnly.refl frontend
  next keyboard keyboard_eq =>
    cases state_eq : frontend.tracking.getState event.key with
    | voicePtt => exact absurd state_eq unlatched
    | releasedPending => exact KeyOnly.clearKeyTracking
    | suppressedStartup =>
        exact (KeyOnly.clearKeyTracking.trans (KeyOnly.updateKeyboard _)).trans
          (KeyOnly.vkForwardKey ..)
    | appShortcut | basicPassthrough => exact released frontend
    | voicePttUnavail => exact (KeyOnly.log rfl fun _ _ => rfl).trans KeyOnly.clearKeyTracking
    | forwarded =>
        simp only [releaseForwarded]
        have cleared := KeyOnly.clearKeyTracking.trans (asked (frontend.clearKeyTracking event.key))
        split
        next reserved => exact cleared.trans KeyOnly.clearKeyTracking
        next free => exact cleared.trans (KeyOnly.vkForwardKey ..)
    | idle =>
        simp only [releaseIdle]
        split
        next foreign =>
          split
          next orphan => exact (KeyOnly.vkForwardKey ..).trans KeyOnly.clearKeyTracking
          next other => exact KeyOnly.clearKeyTracking
        next own =>
          exact ((KeyOnly.updateKeyboard _).trans (asked _)).trans KeyOnly.clearKeyTracking

/-! ## Events handed to the router -/

theorem repeatAfterPress_only (frontend : Frontend) (event : KeyEvent) :
    KeyOnly event.key frontend (frontend.repeatAfterPress event) := by
  unfold repeatAfterPress
  split
  next => exact KeyOnly.refl frontend
  next =>
    split
    next => exact KeyOnly.updateKeyboard _
    next => exact KeyOnly.refl frontend

theorem repeatAfterPress_tracking (frontend : Frontend) (event : KeyEvent) :
    (frontend.repeatAfterPress event).tracking = frontend.tracking := by
  unfold repeatAfterPress
  repeat' split
  all_goals rfl

theorem repeatBeforeRelease_only (frontend : Frontend) (key : Nat) :
    KeyOnly key frontend (frontend.repeatBeforeRelease key) := by
  unfold repeatBeforeRelease
  split
  next => exact KeyOnly.repeatStop
  next => exact KeyOnly.refl frontend

theorem repeatBeforeRelease_tracking (frontend : Frontend) (key : Nat) :
    (frontend.repeatBeforeRelease key).tracking = frontend.tracking := by
  unfold repeatBeforeRelease
  split <;> rfl

theorem routed_only (frontend : Frontend) (event : KeyEvent) :
    KeyOnly event.key frontend (frontend.log (.routed event)) :=
  KeyOnly.log rfl fun _ _ => rfl

theorem processKeyPress_only {frontend : Frontend} {event : KeyEvent}
    (silent : frontend.startsVoice event = false) :
    KeyOnly event.key frontend (frontend.processKeyPress engine event) := by
  have silent_then : (frontend.log (.routed event)).startsVoice event = false := silent
  exact ((routed_only frontend event).trans (processPress_only engine silent_then)).trans
    (repeatAfterPress_only _ event)

/-- A press which starts the voice session latches its key, as far as the key is tracked. -/
theorem processKeyPress_starts {frontend : Frontend} {event : KeyEvent}
    (starts : frontend.startsVoice event = true) :
    (frontend.processKeyPress engine event).keyboard.isSome = frontend.keyboard.isSome ∧
      (∀ key, (frontend.processKeyPress engine event).tracking.getState key =
        if key = event.key ∧ event.key < maxTrackedKeys then .voicePtt
        else frontend.tracking.getState key) ∧
      .voiceStart ∈ frontend.sentSince (frontend.processKeyPress engine event) := by
  have started := @processPress_starts engine (frontend.log (.routed event)) event starts
  have later := repeatAfterPress_only
    ((((frontend.log (.routed event)).takeUp event.key).log .voiceStart).setKeyState event.key
      .voicePtt) event
  rw [processKeyPress, started]
  refine ⟨?_, fun key => ?_, ?_⟩
  · rw [later.keyboard]
    simp [takeUp]
  · rw [repeatAfterPress_tracking]
    simp [KeyTracking.getState_setState, takeUp]
  · obtain ⟨effects, trace_eq, -⟩ := later.sent
    have whole : (repeatAfterPress ((((frontend.log (.routed event)).takeUp event.key).log
        .voiceStart).setKeyState event.key .voicePtt) event).trace =
        (effects ++ [.voiceStart, .routed event]) ++ frontend.trace := by
      rw [trace_eq]
      simp [takeUp]
    rw [sentSince_eq whole]
    simp

theorem processKeyPress_latched {frontend : Frontend} {event : KeyEvent}
    (grabbed : frontend.keyboard.isSome = true)
    (latched : frontend.tracking.getState event.key = .voicePtt) :
    (frontend.processKeyPress engine event).tracking.getState event.key = .voicePtt ↔
      (frontend.startsVoice event ||
        (frontend.log (.routed event)).sparesLatch engine event) = true := by
  rw [processKeyPress, repeatAfterPress_tracking]
  exact @processPress_latched engine (frontend.log (.routed event)) event grabbed latched

/-- The release of a latched key stops the voice session. -/
theorem processKeyRelease_latched {frontend : Frontend} {event : KeyEvent}
    (grabbed : frontend.keyboard.isSome = true)
    (latched : frontend.tracking.getState event.key = .voicePtt) :
    .voiceStop ∈ frontend.sentSince (frontend.processKeyRelease engine event) ∧
      (frontend.processKeyRelease engine event).keyboard.isSome = frontend.keyboard.isSome ∧
      ∀ key, key ≠ event.key → (frontend.processKeyRelease engine event).tracking.getState key =
        frontend.tracking.getState key := by
  have halted := repeatBeforeRelease_only (frontend.log (.routed event)) event.key
  have kept := repeatBeforeRelease_tracking (frontend.log (.routed event)) event.key
  have stopped := @processRelease_latched engine
    ((frontend.log (.routed event)).repeatBeforeRelease event.key) event
    (by rw [halted.keyboard]; exact grabbed) (by rw [kept]; exact latched)
  rw [processKeyRelease, stopped]
  refine ⟨?_, halted.keyboard, fun key distinct => ?_⟩
  · obtain ⟨effects, trace_eq, -⟩ := halted.sent
    have whole : ((((frontend.log (.routed event)).repeatBeforeRelease event.key).log
        .voiceStop).clearKeyTracking event.key).trace =
        (.voiceStop :: effects ++ [.routed event]) ++ frontend.trace := by
      simp [trace_eq]
    rw [sentSince_eq whole]
    simp
  · simp [KeyTracking.getState_clearTracking, distinct, kept]

theorem processKeyRelease_only {frontend : Frontend} {event : KeyEvent}
    (unlatched : frontend.tracking.getState event.key ≠ .voicePtt) :
    KeyOnly event.key frontend (frontend.processKeyRelease engine event) := by
  have kept := repeatBeforeRelease_tracking (frontend.log (.routed event)) event.key
  refine ((routed_only frontend event).trans (repeatBeforeRelease_only _ event.key)).trans
    (processRelease_only engine ?_)
  rw [kept]
  exact unlatched

/-! ## Repeats -/

/-- A repeat comes due: the timer runs, has expired, and its key may be delivered. -/
def repeatDue (frontend : Frontend) (expired : Bool) : Bool :=
  frontend.keyboard.any fun keyboard =>
    keyboard.repeating && keyboard.repeatTimer && frontend.lifecyclePhase.allowsKeyEvents &&
      expired && keyboard.xkb.isSome && frontend.session.isSome && frontend.sessionIsFocused

theorem dispatchRepeat_eq (frontend : Frontend) (expired : Bool) (keysym : Keysym)
    (unicode : UInt32) (xkbModifiers : Modifiers) {keyboard : Keyboard}
    (keyboard_eq : frontend.keyboard = some keyboard) :
    frontend.dispatchRepeat engine expired keysym unicode xkbModifiers =
        frontend.deliverRepeat engine keyboard
          (repeatEvent keyboard keysym unicode xkbModifiers) ∧
        frontend.repeatDue expired = true ∨
      (frontend.dispatchRepeat engine expired keysym unicode xkbModifiers = frontend ∨
        frontend.dispatchRepeat engine expired keysym unicode xkbModifiers =
          frontend.repeatStop) ∧ frontend.repeatDue expired = false := by
  rw [repeatDue, keyboard_eq, Option.any_some]
  simp only [dispatchRepeat, keyboard_eq]
  split
  next idle => exact .inr ⟨.inl rfl, by rcases idle with idle | idle <;> simp [idle]⟩
  next running =>
    split
    next blocked => exact .inr ⟨.inr rfl, by simp [blocked]⟩
    next allowed =>
      split
      next unread => exact .inr ⟨.inl rfl, by simp [unread]⟩
      next read =>
        split
        next bare =>
          refine .inr ⟨.inr rfl, ?_⟩
          rcases bare with bare | bare
          · simp [Option.isNone_iff_eq_none.mp bare]
          · simp [Option.isNone_iff_eq_none.mp bare]
        next ready =>
          split
          next unfocused => exact .inr ⟨.inr rfl, by simp [unfocused]⟩
          next focused => exact .inl ⟨rfl, by simp_all [Option.isSome_iff_ne_none]⟩

/-- A repeat is handed to nobody: no engine is active, and the candidate list reserves the key. -/
def dropsRepeat (frontend : Frontend) (keysym : Keysym) : Bool :=
  frontend.inst.activeEngine.isNone && frontend.candidateGuardShouldConsume keysym

/-- A due repeat of a key latched for the voice input goes to the engine or to the application,
unless it is handed to nobody. -/
theorem offerRepeat_latched {frontend : Frontend} {event : KeyEvent}
    (latched : frontend.tracking.getState event.key = .voicePtt) :
    ((frontend.offerRepeat engine event).tracking.getState event.key = .voicePtt ∧
      (frontend.sentSince (frontend.offerRepeat engine event)).any
        (Effect.repeats event.key) = false) ↔
      frontend.dropsRepeat event.keysym = true := by
  have tracked : event.key < maxTrackedKeys :=
    KeyTracking.tracked_of_getState_ne (by rw [latched]; simp)
  cases active : frontend.inst.activeEngine with
  | none =>
      have asked : frontend.processKey engine event true = (false, frontend) := by
        simp [processKey, active]
      rw [dropsRepeat, active, offerRepeat, asked]
      by_cases reserved : frontend.candidateGuardShouldConsume event.keysym = true
      · have nothing : frontend.sentSince frontend = [] := sentSince_eq rfl
        simp [reserved, latched, nothing]
      · simp [reserved, tracked]
  | some name =>
      have answered : (frontend.processKey engine event true).2 =
          (frontend.log (.engineKey event true)).callEngine engine := by
        simp [processKey, active]
      have later : ∃ effects, (frontend.offerRepeat engine event).trace =
          effects ++ (frontend.processKey engine event true).2.trace := by
        simp only [offerRepeat]
        split
        next handled => exact ⟨[], rfl⟩
        next declined =>
          split
          next reserved => exact ⟨[], rfl⟩
          next free =>
            obtain ⟨effects, trace_eq, -⟩ := (@KeyOnly.forwardAs event.key
              (frontend.processKey engine event true).2 event.time true .forwarded).sent
            exact ⟨effects, trace_eq⟩
      obtain ⟨effects, trace_eq⟩ := later
      obtain ⟨textual, text_trace, -⟩ :=
        (TextFrame.callEngine engine (frontend.log (.engineKey event true))).sent
      have whole : (frontend.offerRepeat engine event).trace =
          (effects ++ textual ++ [.engineKey event true]) ++ frontend.trace := by
        rw [trace_eq, answered, text_trace]
        simp
      rw [sentSince_eq whole]
      simp [dropsRepeat, active, Effect.repeats]

/-- The timer leaves a latched key alone exactly when no repeat of it is due, or it is handed to
nobody. -/
theorem dispatchRepeat_latched {frontend : Frontend} {keyboard : Keyboard}
    (keyboard_eq : frontend.keyboard = some keyboard)
    (latched : frontend.tracking.getState keyboard.repeatKey = .voicePtt) (expired : Bool)
    (keysym : Keysym) (unicode : UInt32) (xkbModifiers : Modifiers) :
    ((frontend.dispatchRepeat engine expired keysym unicode xkbModifiers).tracking.getState
        keyboard.repeatKey = .voicePtt ∧
      (frontend.sentSince (frontend.dispatchRepeat engine expired keysym unicode
        xkbModifiers)).any (Effect.repeats keyboard.repeatKey) = false) ↔
      (!frontend.repeatDue expired || frontend.dropsRepeat keysym) = true := by
  rcases dispatchRepeat_eq engine frontend expired keysym unicode xkbModifiers keyboard_eq with
    ⟨delivered, due⟩ | ⟨idle, not_due⟩
  · have offered : frontend.deliverRepeat engine keyboard
        (repeatEvent keyboard keysym unicode xkbModifiers) =
        frontend.offerRepeat engine (repeatEvent keyboard keysym unicode xkbModifiers) := by
      simp [deliverRepeat, repeatEvent, latched, repeatShouldRunForState]
    rw [delivered, offered, due, Bool.not_true, Bool.false_or]
    exact @offerRepeat_latched engine frontend
      (repeatEvent keyboard keysym unicode xkbModifiers) latched
  · rw [not_due]
    rcases idle with same | stopped
    · rw [same, @sentSince_eq _ _ [] rfl]
      simp [latched]
    · rw [stopped, @sentSince_eq frontend frontend.repeatStop [] rfl]
      simp [repeatStop, latched]

/-- A repeat of one key leaves the others alone. -/
theorem dispatchRepeat_only {frontend : Frontend} {keyboard : Keyboard}
    (keyboard_eq : frontend.keyboard = some keyboard) (expired : Bool) (keysym : Keysym)
    (unicode : UInt32) (xkbModifiers : Modifiers) :
    KeyOnly keyboard.repeatKey frontend
      (frontend.dispatchRepeat engine expired keysym unicode xkbModifiers) := by
  rcases dispatchRepeat_eq engine frontend expired keysym unicode xkbModifiers keyboard_eq with
    ⟨delivered, -⟩ | ⟨idle, -⟩
  · rw [delivered]
    exact @KeyOnly.deliverRepeat frontend engine
      (repeatEvent keyboard keysym unicode xkbModifiers) keyboard
  · rcases idle with same | stopped
    · rw [same]
      exact KeyOnly.refl frontend
    · rw [stopped]
      exact KeyOnly.repeatStop

/-! ## Consumed chords -/

theorem arbiterReleaseOrphanedKeys_state {frontend : Frontend} {key : Nat}
    (unforwarded : frontend.tracking.getState key ≠ .forwarded) (buffer : List KeyEvent) :
    (frontend.arbiterReleaseOrphanedKeys buffer).tracking.getState key =
        frontend.tracking.getState key ∧
      (frontend.arbiterReleaseOrphanedKeys buffer).keyboard.isSome =
        frontend.keyboard.isSome := by
  induction buffer generalizing frontend with
  | nil => exact ⟨rfl, rfl⟩
  | cons event buffer induction =>
      have unfolded : frontend.arbiterReleaseOrphanedKeys (event :: buffer) =
          (if event.isPress = true ∨ frontend.tracking.getState event.key ≠ .forwarded then frontend
          else (frontend.vkForwardKey event.time event.key false).clearKeyTracking
            event.key).arbiterReleaseOrphanedKeys buffer := rfl
      rw [unfolded]
      split
      next skipped => exact induction unforwarded
      next orphan =>
        obtain ⟨-, forwarded⟩ := not_or.mp orphan
        have distinct : key ≠ event.key := by
          rintro rfl
          exact unforwarded (not_not.mp forwarded)
        have released : KeyOnly event.key frontend
            ((frontend.vkForwardKey event.time event.key false).clearKeyTracking event.key) :=
          (KeyOnly.vkForwardKey ..).trans KeyOnly.clearKeyTracking
        have state_eq := released.state key distinct
        obtain ⟨later_state, later_keyboard⟩ := induction (by rw [state_eq]; exact unforwarded)
        exact ⟨later_state.trans state_eq, later_keyboard.trans released.keyboard⟩

theorem arbiterConsume_state {frontend : Frontend} {key : Nat}
    (unforwarded : frontend.tracking.getState key ≠ .forwarded) (buffer : List KeyEvent) :
    (frontend.arbiterConsume engine buffer).tracking.getState key =
        frontend.tracking.getState key ∧
      (frontend.arbiterConsume engine buffer).keyboard.isSome = frontend.keyboard.isSome := by
  obtain ⟨state_eq, keyboard_eq⟩ := arbiterReleaseOrphanedKeys_state unforwarded buffer
  have switched := TextFrame.callEngine engine
    ((frontend.arbiterReleaseOrphanedKeys buffer).log .nextEngine)
  have tracking_eq : (frontend.arbiterConsume engine buffer).tracking =
      (frontend.arbiterReleaseOrphanedKeys buffer).tracking := by
    simp only [arbiterConsume, updateArbiter, nextEngine, updateKeyboard_tracking,
      setActiveEngine_tracking]
    rw [switched.frame]
    rfl
  have grabbed_eq : (frontend.arbiterConsume engine buffer).keyboard.isSome =
      (frontend.arbiterReleaseOrphanedKeys buffer).keyboard.isSome := by
    simp only [arbiterConsume, updateArbiter, updateKeyboard_keyboard, Option.isSome_map]
    rw [ArbiterRun.nextEngine_keyboard]
  exact ⟨by rw [tracking_eq, state_eq], grabbed_eq.trans keyboard_eq⟩

end Engine

end Frontend

end Typio
