import Typio.Machine
import Typio.Wayland.EventLoop
import Typio.Wayland.RouteEdits

/-!
# Replay of buffered keys

As long as no chord is completed, the events handed to the router, followed by those still
buffered, should be the events received.  A press which would fill the buffer replays it first; a
release is pushed whether or not there is room, and the ninth event is lost.
-/

namespace Typio

/-! ## What the router is handed -/

/-- The key event an effect hands to the router. -/
def Effect.routedEvent : Effect → Option KeyEvent
  | routed event => some event
  | _ => none

/-- The events handed to the router, first event first. -/
def routedEvents (trace : List Effect) : List KeyEvent :=
  (trace.filterMap Effect.routedEvent).reverse

theorem routedEvents_append_of_isRoute {effects : List Effect}
    (route : ∀ effect ∈ effects, effect.isRoute = true) (earlier : List Effect) :
    routedEvents (effects ++ earlier) = routedEvents earlier := by
  have none_routed : effects.filterMap Effect.routedEvent = [] := by
    rw [List.filterMap_eq_nil_iff]
    intro effect mem
    have effect_route := route effect mem
    cases effect with
    | routed event => exact nomatch effect_route
    | _ => rfl
  simp [routedEvents, List.filterMap_append, none_routed]

/-- The events are handed to the router, and the keyboard keeps its arbiter. -/
structure Delivers (events : List KeyEvent) (before after : Frontend) : Prop where
  routed : routedEvents after.trace = routedEvents before.trace ++ events
  arbiter : after.keyboard.map (·.arbiter) = before.keyboard.map (·.arbiter)

namespace Delivers

theorem trans {left right : List KeyEvent} {first second third : Frontend}
    (earlier : Delivers left first second) (later : Delivers right second third) :
    Delivers (left ++ right) first third where
  routed := by rw [later.routed, earlier.routed, List.append_assoc]
  arbiter := later.arbiter.trans earlier.arbiter

theorem processKeyEvent (engine : Engine) (frontend : Frontend) (event : KeyEvent) :
    Delivers [event] frontend (frontend.processKeyEvent engine event) := by
  have frame := RouteFrame.of_edits (RouteEdits.processKeyEvent engine frontend event)
  obtain ⟨effects, trace_eq, route⟩ := frame.sent
  refine ⟨?_, frame.arbiter⟩
  rw [trace_eq, routedEvents_append_of_isRoute route]
  simp [routedEvents, Effect.routedEvent]

theorem processKeyEvents (engine : Engine) (frontend : Frontend) (events : List KeyEvent) :
    Delivers events frontend (events.foldl (Frontend.processKeyEvent engine) frontend) := by
  induction events generalizing frontend with
  | nil => exact ⟨by simp, rfl⟩
  | cons event events induction => exact (processKeyEvent engine frontend event).trans (induction _)

end Delivers

/-! ## Runs -/

/-- A frontend with the key events its arbiter has received. -/
structure ArbiterRun where
  frontend : Frontend
  received : List KeyEvent

namespace ArbiterRun

/-- The arbiter receives an event. -/
def step (engine : Engine) (run : ArbiterRun) (event : KeyEvent) : ArbiterRun where
  frontend := run.frontend.dispatchKey engine event
  received := run.received ++ [event]

/-- The events still buffered. -/
def buffered (run : ArbiterRun) : List KeyEvent :=
  (run.frontend.keyboard.map (·.arbiter.buffer)).getD []

/-- The events handed to the router, followed by those still buffered, are those received. -/
def Delivered (run : ArbiterRun) : Prop :=
  routedEvents run.frontend.trace ++ run.buffered = run.received

/-- What the arbiter does with the next event, if there is a keyboard. -/
def outcome (run : ArbiterRun) (event : KeyEvent) : Option ArbiterOutcome :=
  run.frontend.keyboard.map fun keyboard => run.frontend.outcome keyboard event

/-- The event completes no chord. -/
def NoChord (run : ArbiterRun) (event : KeyEvent) : Prop := run.outcome event ≠ some .consume

/-- An event which is to be buffered finds room. -/
def FindsRoom (run : ArbiterRun) (event : KeyEvent) : Prop :=
  run.outcome event = some .store → run.buffered.length < maxBuffered

instance (run : ArbiterRun) : Decidable run.Delivered := inferInstanceAs (Decidable (_ = _))

instance (run : ArbiterRun) (event : KeyEvent) : Decidable (run.NoChord event) :=
  inferInstanceAs (Decidable (_ ≠ _))

instance (run : ArbiterRun) (event : KeyEvent) : Decidable (run.FindsRoom event) :=
  inferInstanceAs (Decidable (_ → _))

/-- There is a keyboard, and its arbiter holds events only while it buffers. -/
def Grabbed (run : ArbiterRun) : Prop :=
  ∃ keyboard, run.frontend.keyboard = some keyboard ∧
    (keyboard.arbiter.state = .idle → keyboard.arbiter.buffer = [])

/-- What an event leaves behind: the events routed so far, and the arbiter. -/
structure Leaves (run : ArbiterRun) (routed : List KeyEvent) (arbiter : KeyArbiter) : Prop where
  routed : routedEvents run.frontend.trace = routed
  arbiter : run.frontend.keyboard.map (·.arbiter) = some arbiter

theorem Leaves.buffered {run : ArbiterRun} {routed : List KeyEvent} {arbiter : KeyArbiter}
    (leaves : run.Leaves routed arbiter) : run.buffered = arbiter.buffer := by
  obtain ⟨keyboard, keyboard_eq, rfl⟩ := Option.map_eq_some_iff.mp leaves.arbiter
  simp [ArbiterRun.buffered, keyboard_eq]

theorem Leaves.delivered_iff {run : ArbiterRun} {routed : List KeyEvent} {arbiter : KeyArbiter}
    (leaves : run.Leaves routed arbiter) :
    run.Delivered ↔ routed ++ arbiter.buffer = run.received := by
  rw [Delivered, leaves.routed, leaves.buffered]

theorem Leaves.grabbed {run : ArbiterRun} {routed : List KeyEvent} {arbiter : KeyArbiter}
    (leaves : run.Leaves routed arbiter) (empty : arbiter.state = .idle → arbiter.buffer = []) :
    run.Grabbed := by
  obtain ⟨keyboard, keyboard_eq, arbiter_eq⟩ := Option.map_eq_some_iff.mp leaves.arbiter
  exact ⟨keyboard, keyboard_eq, arbiter_eq ▸ empty⟩

section Engine

variable (engine : Engine) {run : ArbiterRun} {keyboard : Keyboard}

theorem nextEngine_keyboard (frontend : Frontend) :
    (frontend.nextEngine engine).keyboard = frontend.keyboard := by
  have switched := TextFrame.callEngine engine (frontend.log .nextEngine)
  rw [Frontend.nextEngine, Frontend.setActiveEngine_keyboard, switched.frame]
  rfl

theorem updateArbiter_init {frontend : Frontend} (grabbed : frontend.keyboard.isSome = true) :
    (frontend.updateArbiter fun _ => KeyArbiter.init).keyboard.map (·.arbiter) =
      some KeyArbiter.init := by
  obtain ⟨keyboard, keyboard_eq⟩ := Option.isSome_iff_exists.mp grabbed
  simp [Frontend.updateArbiter, keyboard_eq]

theorem isSome_of_arbiter {before after : Frontend}
    (kept : after.keyboard.map (·.arbiter) = before.keyboard.map (·.arbiter)) :
    after.keyboard.isSome = before.keyboard.isSome := by
  simpa using congrArg Option.isSome kept

theorem arbiterConsume_arbiter {frontend : Frontend} (grabbed : frontend.keyboard.isSome = true)
    (buffer : List KeyEvent) :
    (frontend.arbiterConsume engine buffer).keyboard.map (·.arbiter) = some KeyArbiter.init := by
  have released := RouteFrame.of_edits (RouteEdits.arbiterReleaseOrphanedKeys frontend buffer)
  refine updateArbiter_init ?_
  rw [nextEngine_keyboard, isSome_of_arbiter released.arbiter, grabbed]

theorem arbiterReplay_arbiter {frontend : Frontend} (grabbed : frontend.keyboard.isSome = true)
    (buffer : List KeyEvent) :
    (frontend.arbiterReplay engine buffer).keyboard.map (·.arbiter) = some KeyArbiter.init := by
  have replayed := Delivers.processKeyEvents engine frontend buffer
  refine updateArbiter_init ?_
  rw [isSome_of_arbiter replayed.arbiter, grabbed]

theorem step_leaves (keyboard_eq : run.frontend.keyboard = some keyboard) (event : KeyEvent) :
    match run.frontend.outcome keyboard event with
    | .pass => (run.step engine event).Leaves (routedEvents run.frontend.trace ++ [event])
        keyboard.arbiter
    | .start => (run.step engine event).Leaves (routedEvents run.frontend.trace)
        ({ keyboard.arbiter with state := .buffering }.push event)
    | .store => (run.step engine event).Leaves (routedEvents run.frontend.trace)
        (keyboard.arbiter.push event)
    | .replay => (run.step engine event).Leaves
        (routedEvents run.frontend.trace ++ keyboard.arbiter.buffer ++ [event]) KeyArbiter.init
    | .consume => ∃ routed, (run.step engine event).Leaves routed KeyArbiter.init := by
  have noted_trace : (run.frontend.noteKey event).trace = run.frontend.trace := rfl
  have noted_arbiter : (run.frontend.noteKey event).keyboard.map (·.arbiter) =
      some keyboard.arbiter := by
    simp [Frontend.noteKey, keyboard_eq]
  have dispatched := Frontend.dispatchKey_eq engine keyboard_eq event
  cases outcome_eq : run.frontend.outcome keyboard event with
  | consume =>
      rw [outcome_eq] at dispatched
      refine ⟨_, rfl, ?_⟩
      rw [step, dispatched]
      exact arbiterConsume_arbiter engine (by simp [Frontend.updateArbiter, Frontend.noteKey,
        keyboard_eq]) _
  | pass =>
      rw [outcome_eq] at dispatched
      have delivered := Delivers.processKeyEvent engine (run.frontend.noteKey event) event
      refine ⟨?_, ?_⟩
      · rw [step, dispatched, delivered.routed, noted_trace]
      · rw [step, dispatched, delivered.arbiter, noted_arbiter]
  | start =>
      rw [outcome_eq] at dispatched
      refine ⟨?_, ?_⟩
      · rw [step, dispatched]
        rfl
      · rw [step, dispatched]
        simp [Frontend.updateArbiter, Frontend.noteKey, keyboard_eq]
  | store =>
      rw [outcome_eq] at dispatched
      refine ⟨?_, ?_⟩
      · rw [step, dispatched]
        rfl
      · rw [step, dispatched]
        simp [Frontend.updateArbiter, Frontend.noteKey, keyboard_eq]
  | replay =>
      rw [outcome_eq] at dispatched
      have replayed := Delivers.processKeyEvents engine (run.frontend.noteKey event)
        keyboard.arbiter.buffer
      have delivered := Delivers.processKeyEvent engine
        ((run.frontend.noteKey event).arbiterReplay engine keyboard.arbiter.buffer) event
      have replay_trace : routedEvents
          ((run.frontend.noteKey event).arbiterReplay engine keyboard.arbiter.buffer).trace =
          routedEvents run.frontend.trace ++ keyboard.arbiter.buffer :=
        replayed.routed
      have noted : (run.frontend.noteKey event).keyboard.isSome = true := by
        simp [Frontend.noteKey, keyboard_eq]
      refine ⟨?_, ?_⟩
      · rw [step, dispatched, delivered.routed, replay_trace]
      · rw [step, dispatched, delivered.arbiter, arbiterReplay_arbiter engine noted]

theorem push_of_room {arbiter : KeyArbiter} (room : arbiter.buffer.length < maxBuffered)
    (event : KeyEvent) : (arbiter.push event).buffer = arbiter.buffer ++ [event] := by
  simp [KeyArbiter.push, Nat.not_le.mpr room]

theorem push_of_full {arbiter : KeyArbiter} (full : maxBuffered ≤ arbiter.buffer.length)
    (event : KeyEvent) : arbiter.push event = arbiter := by
  simp [KeyArbiter.push, full]

theorem push_state (arbiter : KeyArbiter) (event : KeyEvent) :
    (arbiter.push event).state = arbiter.state := by
  unfold KeyArbiter.push
  split <;> rfl

theorem idle_of_outcome {frontend : Frontend} {event : KeyEvent}
    (unbuffered : frontend.outcome keyboard event = .pass ∨
      frontend.outcome keyboard event = .start) : keyboard.arbiter.state = .idle := by
  cases state_eq : keyboard.arbiter.state with
  | idle => rfl
  | buffering =>
      simp only [Frontend.outcome, KeyArbiter.outcome, state_eq] at unbuffered
      split at unbuffered
      · simp at unbuffered
      · split at unbuffered <;> simp at unbuffered

theorem buffering_of_outcome {frontend : Frontend} {event : KeyEvent} {outcome : ArbiterOutcome}
    (outcome_eq : frontend.outcome keyboard event = outcome) (not_passed : outcome ≠ .pass)
    (not_first : outcome ≠ .start) : keyboard.arbiter.state = .buffering := by
  cases state_eq : keyboard.arbiter.state with
  | buffering => rfl
  | idle =>
      simp only [Frontend.outcome, KeyArbiter.outcome, state_eq] at outcome_eq
      split at outcome_eq <;> simp_all

theorem findsRoom_iff (keyboard_eq : run.frontend.keyboard = some keyboard) (event : KeyEvent) :
    run.FindsRoom event ↔ (run.frontend.outcome keyboard event = .store →
      keyboard.arbiter.buffer.length < maxBuffered) := by
  simp [FindsRoom, outcome, buffered, keyboard_eq]

/-- One event keeps the account of the events received exactly when it finds room. -/
theorem step_delivered (grabbed : run.Grabbed) (delivered : run.Delivered) {event : KeyEvent}
    (no_chord : run.NoChord event) :
    ((run.step engine event).Delivered ↔ run.FindsRoom event) ∧
      (run.step engine event).Grabbed := by
  obtain ⟨keyboard, keyboard_eq, empty⟩ := grabbed
  have received_eq : routedEvents run.frontend.trace ++ keyboard.arbiter.buffer = run.received := by
    simpa [Delivered, buffered, keyboard_eq] using delivered
  have received_after : (run.step engine event).received = run.received ++ [event] := rfl
  have leaves := step_leaves engine keyboard_eq event
  rw [findsRoom_iff keyboard_eq]
  cases outcome_eq : run.frontend.outcome keyboard event with
  | consume =>
      have consumes : run.outcome event = some .consume := by
        simp [outcome, keyboard_eq, outcome_eq]
      exact absurd consumes no_chord
  | pass =>
      rw [outcome_eq] at leaves
      have nothing := empty (idle_of_outcome (.inl outcome_eq))
      refine ⟨?_, leaves.grabbed empty⟩
      rw [leaves.delivered_iff, received_after, ← received_eq, nothing]
      simp
  | start =>
      rw [outcome_eq] at leaves
      have nothing := empty (idle_of_outcome (.inr outcome_eq))
      refine ⟨?_, leaves.grabbed ?_⟩
      · rw [leaves.delivered_iff, received_after, ← received_eq, push_of_room]
        · simp [nothing]
        · simp [nothing, maxBuffered]
      · simp [push_state]
  | store =>
      rw [outcome_eq] at leaves
      refine ⟨?_, leaves.grabbed ?_⟩
      · rw [leaves.delivered_iff, received_after, ← received_eq]
        by_cases room : keyboard.arbiter.buffer.length < maxBuffered
        · simp [push_of_room room, room]
        · simp [push_of_full (Nat.not_lt.mp room), room]
      · rw [push_state, buffering_of_outcome outcome_eq (by simp) (by simp)]
        simp
  | replay =>
      rw [outcome_eq] at leaves
      refine ⟨?_, leaves.grabbed fun _ => rfl⟩
      rw [leaves.delivered_iff, received_after, ← received_eq]
      simp [KeyArbiter.init]

/-- In a run which completes no chord, nothing is lost or reordered if and only if every event
which is to be buffered finds room in the buffer. -/
theorem delivered_iff_findsRoom {start : ArbiterRun} (grabbed : start.Grabbed)
    (delivered : start.Delivered) (events : List KeyEvent)
    (no_chord : Machine.EachStep (step engine) NoChord start events) :
    Machine.Always (step engine) Delivered start events ↔
      Machine.EachStep (step engine) FindsRoom start events :=
  Machine.always_iff_eachStep_of_allowed Grabbed
    (fun _ _ carried kept allowed => (step_delivered engine carried kept allowed).1)
    (fun _ _ carried kept allowed _ => (step_delivered engine carried kept allowed).2)
    grabbed delivered no_chord

end Engine

theorem delivered_iff_findsRoom_interrupted :
    let start : ArbiterRun :=
      { frontend := Frontend.attended ⟨some "rime", none, false, false⟩ ShortcutConfig.defaults
          (World.obliging 1000)
        received := [] }
    let engine : Engine := fun _ => { handled := true, calls := [], active := some "rime" }
    let events : List KeyEvent :=
      [⟨true, 29, Keysym.controlL, 0, 0, 1000⟩, ⟨true, 42, Keysym.shiftL, 2, 0, 1001⟩,
        ⟨true, 30, 0x61, 3, 0, 1002⟩, ⟨false, 30, 0x61, 3, 0, 1003⟩]
    Machine.Always (step engine) Delivered start events ↔
      Machine.EachStep (step engine) FindsRoom start events :=
  delivered_iff_findsRoom _ ⟨_, rfl, fun _ => rfl⟩ (by decide) _ (by decide)

/-- Ctrl and Shift are pressed while eight keys are held, which are then released: the last
release is neither routed nor buffered. -/
theorem ninth_event_lost :
    let start : ArbiterRun :=
      { frontend := Frontend.attended ⟨some "rime", none, false, false⟩ ShortcutConfig.defaults
          (World.obliging 1000)
        received := [] }
    let engine : Engine := fun _ => { handled := true, calls := [], active := some "rime" }
    let events : List KeyEvent :=
      [⟨true, 29, Keysym.controlL, 0, 0, 1000⟩, ⟨true, 42, Keysym.shiftL, 2, 0, 1001⟩] ++
        (List.range 8).map fun key => ⟨false, 16 + key, 0x61, 3, 0, 1002⟩
    Machine.EachStep (step engine) NoChord start events ∧
      ¬Machine.Always (step engine) Delivered start events := by
  decide

end ArbiterRun

end Typio
