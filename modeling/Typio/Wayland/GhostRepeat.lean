import Typio.Wayland.ArbiterReplay
import Typio.Wayland.KeyRepeat

/-!
# Keys which repeat while they are up

A release which the arbiter puts aside is not routed, so its key goes on repeating although it is
up: until the buffer is replayed, or, when the chord is completed, until another key is pressed.
-/

namespace Typio

/-! ## A key which is dispatched -/

namespace Frontend

section Engine

variable (engine : Engine) {frontend : Frontend} {keyboard : Keyboard}

@[simp] theorem noteKey_repeatSlot (frontend : Frontend) (event : KeyEvent) :
    (frontend.noteKey event).repeatSlot = frontend.repeatSlot :=
  updateKeyboard_repeatSlot frontend.guardReset fun _ => rfl

@[simp] theorem updateArbiter_repeatSlot (frontend : Frontend) (update : KeyArbiter → KeyArbiter) :
    (frontend.updateArbiter update).repeatSlot = frontend.repeatSlot :=
  updateKeyboard_repeatSlot frontend fun _ => rfl

@[simp] theorem arbiterReleaseOrphanedKeys_repeatSlot (frontend : Frontend)
    (buffer : List KeyEvent) :
    (frontend.arbiterReleaseOrphanedKeys buffer).repeatSlot = frontend.repeatSlot := by
  unfold arbiterReleaseOrphanedKeys
  induction buffer generalizing frontend with
  | nil => rfl
  | cons event buffer induction =>
      rw [List.foldl_cons, induction]
      split
      · rfl
      · simp

@[simp] theorem arbiterConsume_repeatSlot (frontend : Frontend) (buffer : List KeyEvent) :
    (frontend.arbiterConsume engine buffer).repeatSlot = frontend.repeatSlot := by
  rw [arbiterConsume, updateArbiter_repeatSlot,
    repeatSlot_congr (ArbiterRun.nextEngine_keyboard engine _),
    arbiterReleaseOrphanedKeys_repeatSlot]

/-- An event which the arbiter puts aside leaves the repeat alone. -/
theorem dispatchKey_repeatSlot_of_kept (keyboard_eq : frontend.keyboard = some keyboard)
    {event : KeyEvent} (passed : frontend.outcome keyboard event ≠ .pass)
    (replayed : frontend.outcome keyboard event ≠ .replay) :
    (frontend.dispatchKey engine event).repeatSlot = frontend.repeatSlot := by
  rw [dispatchKey_eq engine keyboard_eq]
  cases outcome_eq : frontend.outcome keyboard event with
  | pass => exact absurd outcome_eq passed
  | replay => exact absurd outcome_eq replayed
  | start => simp
  | store => simp
  | consume => simp

/-- An event which passes the arbiter finds its buffer empty. -/
theorem buffer_of_pass {event : KeyEvent}
    (idle : keyboard.arbiter.state = .idle → keyboard.arbiter.buffer = [])
    (passed : frontend.outcome keyboard event = .pass) : keyboard.arbiter.buffer = [] := by
  refine idle ?_
  unfold outcome KeyArbiter.outcome at passed
  split at passed
  · assumption
  · split at passed
    · cases passed
    · split at passed
      · cases passed
      · cases passed

/-- Buffering starts with a press. -/
theorem isPress_of_start {event : KeyEvent}
    (starts : frontend.outcome keyboard event = .start) : event.isPress = true := by
  unfold outcome KeyArbiter.outcome at starts
  split at starts
  · split at starts
    · rename_i begins
      exact (Bool.and_eq_true_iff.mp begins).1
    · cases starts
  · split at starts
    · cases starts
    · split at starts
      · cases starts
      · cases starts

/-- An event which the arbiter lets through is routed after the events it has buffered. -/
theorem dispatchKey_repeatSlot_of_passed (keyboard_eq : frontend.keyboard = some keyboard)
    {event : KeyEvent} {key : Nat} (idle : keyboard.arbiter.state = .idle →
      keyboard.arbiter.buffer = [])
    (passed : frontend.outcome keyboard event = .pass ∨
      frontend.outcome keyboard event = .replay)
    (repeats : (frontend.dispatchKey engine event).repeatSlot = some key) :
    pressedLast (frontend.repeatSlot == some key) (keyboard.arbiter.buffer ++ [event]) key =
      true := by
  rw [dispatchKey_eq engine keyboard_eq] at repeats
  rcases passed with passed | replayed
  · rw [passed] at repeats
    have routed := processKeyEvent_repeatSlot engine (frontend.noteKey event) event repeats
    rw [buffer_of_pass idle passed]
    simpa using routed
  · rw [replayed] at repeats
    have routed := processKeyEvent_repeatSlot engine _ event repeats
    rw [pressedLast_append]
    refine pressedLast_mono ?_ routed
    intro still
    rw [arbiterReplay, updateArbiter_repeatSlot, beq_iff_eq] at still
    simpa using processKeyEvents_repeatSlot engine (frontend.noteKey event)
      keyboard.arbiter.buffer still

theorem dispatchKey_xkb (keyboard_eq : frontend.keyboard = some keyboard) (event : KeyEvent) :
    (frontend.dispatchKey engine event).keyboard.map (·.xkb) = some keyboard.xkb := by
  have noted : (frontend.noteKey event).keyboard.map (·.xkb) = some keyboard.xkb := by
    simp [noteKey, keyboard_eq]
  have updated (frontend : Frontend) (update : KeyArbiter → KeyArbiter) :
      (frontend.updateArbiter update).keyboard.map (·.xkb) = frontend.keyboard.map (·.xkb) := by
    simp [updateArbiter, Function.comp_def]
  have routed (frontend : Frontend) (event : KeyEvent) :
      (frontend.processKeyEvent engine event).keyboard.map (·.xkb) =
        frontend.keyboard.map (·.xkb) :=
    (RouteFrame.of_edits (RouteEdits.processKeyEvent engine frontend event)).xkb
  have replayed (frontend : Frontend) (buffer : List KeyEvent) :
      (buffer.foldl (processKeyEvent engine) frontend).keyboard.map (·.xkb) =
        frontend.keyboard.map (·.xkb) := by
    induction buffer generalizing frontend with
    | nil => rfl
    | cons event buffer induction => rw [List.foldl_cons, induction, routed]
  rw [dispatchKey_eq engine keyboard_eq]
  split
  next pass => rw [routed, noted]
  next start => rw [updated, noted]
  next store => rw [updated, noted]
  next replay => rw [routed, arbiterReplay, updated, replayed, noted]
  next consume =>
    have released := RouteFrame.of_edits (RouteEdits.arbiterReleaseOrphanedKeys
      ((frontend.noteKey event).updateArbiter (·.push event)) (keyboard.arbiter.push event).buffer)
    rw [arbiterConsume, updated, ArbiterRun.nextEngine_keyboard, released.xkb, updated, noted]

/-- What the arbiter has buffered after an event. -/
theorem dispatchKey_buffered (keyboard_eq : frontend.keyboard = some keyboard)
    (event : KeyEvent) :
    (frontend.dispatchKey engine event).buffered =
      match frontend.outcome keyboard event with
      | .pass => keyboard.arbiter.buffer
      | .start => (keyboard.arbiter.push event).buffer
      | .store => (keyboard.arbiter.push event).buffer
      | .replay => []
      | .consume => [] := by
  have leaves := @ArbiterRun.step_leaves engine ⟨frontend, []⟩ keyboard keyboard_eq event
  cases outcome_eq : frontend.outcome keyboard event with
  | pass =>
      rw [outcome_eq] at leaves
      exact leaves.buffered
  | start =>
      rw [outcome_eq] at leaves
      refine leaves.buffered.trans ?_
      unfold KeyArbiter.push
      dsimp only
      split
      · rfl
      · rfl
  | store =>
      rw [outcome_eq] at leaves
      exact leaves.buffered
  | replay =>
      rw [outcome_eq] at leaves
      exact leaves.buffered
  | consume =>
      rw [outcome_eq] at leaves
      obtain ⟨_, leaves⟩ := leaves
      exact leaves.buffered

/-- The arbiter holds events only while it buffers, whatever it does with an event. -/
theorem dispatchKey_keyed (keyboard_eq : frontend.keyboard = some keyboard)
    (mapped : keyboard.xkb ≠ none) (keyed : frontend.Keyed) (event : KeyEvent) :
    (frontend.dispatchKey engine event).Keyed := by
  have xkb := dispatchKey_xkb engine keyboard_eq event
  have leaves := @ArbiterRun.step_leaves engine ⟨frontend, []⟩ keyboard keyboard_eq event
  have kept : ∃ routed arbiter, (ArbiterRun.step engine ⟨frontend, []⟩ event).Leaves routed
      arbiter ∧ (arbiter.state = .idle → arbiter.buffer = []) := by
    have pushed (arbiter : KeyArbiter) : (arbiter.push event).state = arbiter.state := by
      unfold KeyArbiter.push
      split
      · rfl
      · rfl
    cases outcome_eq : frontend.outcome keyboard event with
    | pass =>
        rw [outcome_eq] at leaves
        exact ⟨_, _, leaves, (keyed keyboard keyboard_eq).idle⟩
    | start =>
        rw [outcome_eq] at leaves
        refine ⟨_, _, leaves, fun idle => ?_⟩
        rw [pushed] at idle
        cases idle
    | store =>
        rw [outcome_eq] at leaves
        refine ⟨_, _, leaves, fun idle => ?_⟩
        rw [pushed] at idle
        unfold outcome KeyArbiter.outcome at outcome_eq
        rw [idle] at outcome_eq
        dsimp only at outcome_eq
        split at outcome_eq
        · cases outcome_eq
        · cases outcome_eq
    | replay =>
        rw [outcome_eq] at leaves
        exact ⟨_, _, leaves, fun _ => rfl⟩
    | consume =>
        rw [outcome_eq] at leaves
        obtain ⟨routed, leaves⟩ := leaves
        exact ⟨_, _, leaves, fun _ => rfl⟩
  obtain ⟨routed, arbiter, leaves, empty⟩ := kept
  intro later later_eq
  rw [later_eq] at xkb
  have later_arbiter : later.arbiter = arbiter := by
    have same := leaves.arbiter
    rw [ArbiterRun.step, later_eq] at same
    exact Option.some.inj same
  refine ⟨fun missing => ?_, ?_⟩
  · exact absurd ((Option.some.inj xkb).symm.trans missing) mapped
  · rw [later_arbiter]
    exact empty

end Engine

end Frontend

/-! ## Runs -/

/-- The key event which `on_key` makes of an event of the grab. -/
def Frontend.keyEvent (frontend : Frontend) (keyboard : Keyboard) (time key : Nat) (pressed : Bool)
    (keysym : Keysym) (unicode : UInt32) (xkbModifiers : Modifiers) : KeyEvent where
  isPress := pressed
  key := key
  keysym := keysym
  modifiers := effectiveModifiers keyboard.physicalModifiers xkbModifiers
    frontend.tracking.activeGenerationOwnedKeys keysym pressed
  unicode := unicode
  time := time

/-- A frontend, with the keys whose last event on a grab was a press. -/
structure RepeatRun where
  frontend : Frontend
  down : Nat → Bool

namespace RepeatRun

/-- The keys which are down after an event. -/
def downAfter (run : RepeatRun) : Event → Nat → Bool
  | .key _ key pressed _ _ _ =>
      if run.frontend.display && run.frontend.keyboard.any (·.grab) then
        Function.update run.down key pressed
      else run.down
  | _ => run.down

def step (engine : Engine) (run : RepeatRun) (event : Event) : RepeatRun where
  frontend := run.frontend.step engine event
  down := run.downAfter event

def start (inst : Instance) (shortcuts : ShortcutConfig) (world : World) (vk : VkOutcome) :
    RepeatRun where
  frontend := Frontend.start inst shortcuts world vk
  down := fun _ => false

/-- The key which is repeated is down, and a key whose last buffered event is a press is down. -/
@[mk_iff]
structure Held (run : RepeatRun) : Prop where
  repeated : ∀ key, run.frontend.repeatSlot = some key → run.down key = true
  buffered : ∀ key, pressedLast false run.frontend.buffered key = true → run.down key = true

/-- A release which the arbiter puts aside is not one of the key which is repeated; and if it finds
the buffer full, the key is not waiting there as pressed. -/
def AsideSettled (run : RepeatRun) (keyboard : Keyboard) (event : KeyEvent) : Prop :=
  match run.frontend.outcome keyboard event with
  | .consume => run.frontend.repeatSlot ≠ some event.key
  | .store => run.frontend.repeatSlot ≠ some event.key ∧
      (maxBuffered ≤ run.frontend.buffered.length →
        pressedLast false run.frontend.buffered event.key = false)
  | _ => True

/-- A release which the guard rejects is not one of a key which is waiting in the buffer as pressed;
one which it accepts is settled by the arbiter. -/
def ReleaseSettled (run : RepeatRun) (keyboard : Keyboard) (event : KeyEvent) : Prop :=
  if run.frontend.guardRejects then
    pressedLast false run.frontend.buffered event.key = false
  else run.AsideSettled keyboard event

/-- A release which is delivered to a keyboard with a keymap is settled. -/
def SettlesRelease (run : RepeatRun) : Event → Prop
  | .key time key false keysym unicode xkbModifiers =>
      run.frontend.display = true → ∀ keyboard, run.frontend.keyboard = some keyboard →
        keyboard.grab = true → keyboard.xkb.isSome = true →
          run.ReleaseSettled keyboard
            (run.frontend.keyEvent keyboard time key false keysym unicode xkbModifiers)
  | _ => True

/-- What the repeat and the buffer tell of a key which is down. -/
theorem Held.of_pressedLast {run : RepeatRun} (held : run.Held) {key : Nat}
    (pressed : pressedLast (run.frontend.repeatSlot == some key) run.frontend.buffered key =
      true) : run.down key = true := by
  cases repeated : run.frontend.repeatSlot == some key with
  | true => exact held.repeated key (beq_iff_eq.mp repeated)
  | false =>
      rw [repeated] at pressed
      exact held.buffered key pressed

theorem Held.of_calmer {before after : Frontend} {down downLater : Nat → Bool}
    (calm : Calmer before after) (grows : ∀ key, down key = true → downLater key = true)
    (held : Held ⟨before, down⟩) : Held ⟨after, downLater⟩ where
  repeated key repeats := by
    rcases calm.repeats with same | none
    · exact grows key (held.repeated key (same.symm.trans repeats))
    · cases none.symm.trans repeats
  buffered key pressed := by
    rcases calm.buffered with same | empty
    · exact grows key (held.buffered key (same ▸ pressed))
    · change pressedLast false after.buffered key = true at pressed
      rw [empty] at pressed
      cases pressed

section Engine

variable (engine : Engine) {run : RepeatRun} {keyboard : Keyboard}

/-- The arbiter receives an event. -/
def dispatched (run : RepeatRun) (event : KeyEvent) : RepeatRun where
  frontend := run.frontend.dispatchKey engine event
  down := Function.update run.down event.key event.isPress

theorem dispatched_down_self (run : RepeatRun) (event : KeyEvent) :
    (run.dispatched engine event).down event.key = event.isPress := Function.update_self ..

theorem dispatched_down_of_ne (run : RepeatRun) {event : KeyEvent} {key : Nat}
    (other : key ≠ event.key) : (run.dispatched engine event).down key = run.down key :=
  Function.update_of_ne other ..

theorem buffered_eq (keyboard_eq : run.frontend.keyboard = some keyboard) :
    run.frontend.buffered = keyboard.arbiter.buffer := by
  rw [Frontend.buffered, keyboard_eq]
  rfl

/-- After an event which is routed, the key which is repeated is down. -/
theorem repeated_of_passed (keyboard_eq : run.frontend.keyboard = some keyboard)
    (keyed : run.frontend.Keyed) (held : run.Held) {event : KeyEvent}
    (passed : run.frontend.outcome keyboard event = .pass ∨
      run.frontend.outcome keyboard event = .replay) {key : Nat}
    (repeats : (run.dispatched engine event).frontend.repeatSlot = some key) :
    (run.dispatched engine event).down key = true := by
  have routed := Frontend.dispatchKey_repeatSlot_of_passed engine keyboard_eq
    (keyed keyboard keyboard_eq).idle passed repeats
  by_cases same : key = event.key
  · rw [same, pressedLast_concat_self] at routed
    rw [same, dispatched_down_self]
    exact routed
  · rw [pressedLast_concat_of_ne _ _ same, ← buffered_eq keyboard_eq] at routed
    rw [dispatched_down_of_ne engine run same]
    exact held.of_pressedLast routed

/-- An event which is put aside leaves the repeat alone, so a release must not be one of the key
which is repeated. -/
theorem repeated_iff_of_kept (keyboard_eq : run.frontend.keyboard = some keyboard)
    (held : run.Held) {event : KeyEvent}
    (passed : run.frontend.outcome keyboard event ≠ .pass)
    (replayed : run.frontend.outcome keyboard event ≠ .replay) :
    (∀ key, (run.dispatched engine event).frontend.repeatSlot = some key →
        (run.dispatched engine event).down key = true) ↔
      (event.isPress = false → run.frontend.repeatSlot ≠ some event.key) := by
  have kept : (run.dispatched engine event).frontend.repeatSlot = run.frontend.repeatSlot :=
    Frontend.dispatchKey_repeatSlot_of_kept engine keyboard_eq passed replayed
  rw [kept]
  constructor
  · intro told released repeats
    have down := told event.key repeats
    rw [dispatched_down_self, released] at down
    cases down
  · intro silent key repeats
    by_cases same : key = event.key
    · rw [same, dispatched_down_self]
      cases pressed : event.isPress with
      | true => rfl
      | false => exact absurd (same ▸ repeats) (silent pressed)
    · rw [dispatched_down_of_ne engine run same]
      exact held.repeated key repeats

/-- An event which is buffered tells of its own key, unless the buffer is full. -/
theorem buffered_iff_of_pushed (keyboard_eq : run.frontend.keyboard = some keyboard)
    (held : run.Held) {event : KeyEvent}
    (pushed : (run.dispatched engine event).frontend.buffered =
      (keyboard.arbiter.push event).buffer) :
    (∀ key, pressedLast false (run.dispatched engine event).frontend.buffered key = true →
        (run.dispatched engine event).down key = true) ↔
      (event.isPress = false → maxBuffered ≤ run.frontend.buffered.length →
        pressedLast false run.frontend.buffered event.key = false) := by
  rw [pushed, buffered_eq keyboard_eq]
  constructor
  · intro told released full
    have own := told event.key
    rw [dispatched_down_self, released, KeyArbiter.push, if_pos full] at own
    cases pressed : pressedLast false keyboard.arbiter.buffer event.key with
    | false => rfl
    | true => cases own pressed
  · intro settles key pressed
    by_cases same : key = event.key
    · rw [same, dispatched_down_self]
      cases released : event.isPress with
      | true => rfl
      | false =>
          rw [same] at pressed
          unfold KeyArbiter.push at pressed
          split at pressed
          · rename_i full
            cases (settles released full).symm.trans pressed
          · rw [pressedLast_concat_self, released] at pressed
            cases pressed
    · rw [pressedLast_push_of_ne keyboard.arbiter same, ← buffered_eq keyboard_eq] at pressed
      rw [dispatched_down_of_ne engine run same]
      exact held.buffered key pressed

theorem held_dispatched_iff (keyboard_eq : run.frontend.keyboard = some keyboard)
    (keyed : run.frontend.Keyed) (held : run.Held) (event : KeyEvent) :
    (run.dispatched engine event).Held ↔
      (event.isPress = false → run.AsideSettled keyboard event) := by
  have buffered : (run.dispatched engine event).frontend.buffered = _ :=
    Frontend.dispatchKey_buffered engine keyboard_eq event
  have emptied (empty : (run.dispatched engine event).frontend.buffered = []) (key : Nat)
      (pressed : pressedLast false (run.dispatched engine event).frontend.buffered key = true) :
      (run.dispatched engine event).down key = true := by
    rw [empty] at pressed
    cases pressed
  rw [held_iff, AsideSettled]
  cases outcome_eq : run.frontend.outcome keyboard event with
  | pass =>
      rw [outcome_eq] at buffered
      have empty := Frontend.buffer_of_pass (keyed keyboard keyboard_eq).idle outcome_eq
      refine iff_of_true ⟨fun key repeats => ?_, emptied (buffered.trans empty)⟩ fun _ => trivial
      exact repeated_of_passed engine keyboard_eq keyed held (.inl outcome_eq) repeats
  | start =>
      rw [outcome_eq] at buffered
      have pressed := Frontend.isPress_of_start outcome_eq
      have passed : run.frontend.outcome keyboard event ≠ .pass := by simp [outcome_eq]
      have replayed : run.frontend.outcome keyboard event ≠ .replay := by simp [outcome_eq]
      have kept := repeated_iff_of_kept engine keyboard_eq held passed replayed
      have pushed := buffered_iff_of_pushed engine keyboard_eq held buffered
      rw [kept, pushed, pressed]
      simp
  | store =>
      rw [outcome_eq] at buffered
      have passed : run.frontend.outcome keyboard event ≠ .pass := by simp [outcome_eq]
      have replayed : run.frontend.outcome keyboard event ≠ .replay := by simp [outcome_eq]
      have kept := repeated_iff_of_kept engine keyboard_eq held passed replayed
      have pushed := buffered_iff_of_pushed engine keyboard_eq held buffered
      rw [kept, pushed, ← imp_and]
  | replay =>
      rw [outcome_eq] at buffered
      refine iff_of_true ⟨fun key repeats => ?_, emptied buffered⟩ fun _ => trivial
      exact repeated_of_passed engine keyboard_eq keyed held (.inr outcome_eq) repeats
  | consume =>
      rw [outcome_eq] at buffered
      have passed : run.frontend.outcome keyboard event ≠ .pass := by simp [outcome_eq]
      have replayed : run.frontend.outcome keyboard event ≠ .replay := by simp [outcome_eq]
      have kept := repeated_iff_of_kept engine keyboard_eq held passed replayed
      rw [kept, and_iff_left (emptied buffered)]

end Engine

end RepeatRun

/-! ## Key events -/

namespace Frontend

section Engine

variable (engine : Engine) {frontend : Frontend} {keyboard : Keyboard}

theorem onKey_unmapped (keyboard_eq : frontend.keyboard = some keyboard)
    (unmapped : keyboard.xkb = none) (time key : Nat) (pressed : Bool) (keysym : Keysym)
    (unicode : UInt32) (xkbModifiers : Modifiers) :
    frontend.onKey engine time key pressed keysym unicode xkbModifiers = frontend := by
  unfold onKey
  simp only [keyboard_eq, unmapped, Option.isNone_none, if_true]

/-- A press is dispatched, unless it is rejected or is the emergency exit. -/
theorem onKey_press (keyboard_eq : frontend.keyboard = some keyboard)
    (mapped : keyboard.xkb.isSome = true) (time key : Nat) (keysym : Keysym) (unicode : UInt32)
    (xkbModifiers : Modifiers) :
    Calmer frontend (frontend.onKey engine time key true keysym unicode xkbModifiers) ∨
      frontend.onKey engine time key true keysym unicode xkbModifiers =
        frontend.dispatchKey engine
          (frontend.keyEvent keyboard time key true keysym unicode xkbModifiers) := by
  have has_keymap : ¬keyboard.xkb.isNone = true := by
    rw [Option.isNone_iff_eq_none]
    exact Option.isSome_iff_ne_none.mp mapped
  unfold onKey
  simp only [keyboard_eq, if_neg has_keymap, if_true]
  split
  · exact .inl ((Calmer.releaseGrab frontend).trans (Calmer.of_keyboard rfl))
  · split
    · exact .inl (Calmer.guardNoteReject frontend true)
    · exact .inr rfl

/-- A release is dispatched, unless it is rejected. -/
theorem onKey_release (keyboard_eq : frontend.keyboard = some keyboard)
    (mapped : keyboard.xkb.isSome = true) (time key : Nat) (keysym : Keysym) (unicode : UInt32)
    (xkbModifiers : Modifiers) :
    frontend.onKey engine time key false keysym unicode xkbModifiers =
      if frontend.guardRejects then frontend.repeatBeforeRelease key
      else frontend.dispatchKey engine
        (frontend.keyEvent keyboard time key false keysym unicode xkbModifiers) := by
  have has_keymap : ¬keyboard.xkb.isNone = true := by
    rw [Option.isNone_iff_eq_none]
    exact Option.isSome_iff_ne_none.mp mapped
  unfold onKey
  simp only [keyboard_eq, if_neg has_keymap, Bool.false_eq_true, false_and, if_false]
  rfl

end Engine

end Frontend

namespace RepeatRun

section Engine

variable (engine : Engine) {run : RepeatRun}

/-- A release which the guard rejects ends the repeat of its key, but leaves the buffer alone. -/
theorem held_rejected_iff (held : run.Held) (key : Nat) :
    Held ⟨run.frontend.repeatBeforeRelease key, Function.update run.down key false⟩ ↔
      pressedLast false run.frontend.buffered key = false := by
  have buffered : (run.frontend.repeatBeforeRelease key).buffered = run.frontend.buffered := by
    unfold Frontend.repeatBeforeRelease
    split
    · refine Frontend.buffered_congr ?_
      unfold Frontend.repeatStop
      simp [Function.comp_def]
    · rfl
  rw [held_iff]
  dsimp only
  rw [buffered, Frontend.repeatBeforeRelease_repeatSlot]
  have stopped (other : Nat)
      (repeats : (if run.frontend.repeatSlot = some key then none
        else run.frontend.repeatSlot) = some other) :
      Function.update run.down key false other = true := by
    split at repeats
    · cases repeats
    · rename_i silent
      have differs : other ≠ key := by
        rintro rfl
        exact silent repeats
      rw [Function.update_of_ne differs]
      exact held.repeated other repeats
  rw [and_iff_right stopped]
  constructor
  · intro told
    cases pressed : pressedLast false run.frontend.buffered key with
    | false => rfl
    | true =>
        have down := told key pressed
        rw [Function.update_self] at down
        cases down
  · intro settled other pressed
    have differs : other ≠ key := by
      rintro rfl
      cases settled.symm.trans pressed
    rw [Function.update_of_ne differs]
    exact held.buffered other pressed

/-- A key event which reaches a grab, and the keys which are down after it. -/
def received (run : RepeatRun) (time key : Nat) (pressed : Bool) (keysym : Keysym)
    (unicode : UInt32) (xkbModifiers : Modifiers) : RepeatRun where
  frontend := run.frontend.onKey engine time key pressed keysym unicode xkbModifiers
  down := Function.update run.down key pressed

theorem keyed_received (keyed : run.frontend.Keyed) (time key : Nat) (pressed : Bool)
    (keysym : Keysym) (unicode : UInt32) (xkbModifiers : Modifiers) :
    (run.received engine time key pressed keysym unicode xkbModifiers).frontend.Keyed := by
  unfold received
  cases keyboard_eq : run.frontend.keyboard with
  | none =>
      unfold Frontend.onKey
      rw [keyboard_eq]
      exact keyed
  | some keyboard =>
      cases mapped : keyboard.xkb with
      | none =>
          rw [Frontend.onKey_unmapped engine keyboard_eq mapped]
          exact keyed
      | some xkb =>
          have has_keymap : keyboard.xkb.isSome = true := by rw [mapped]; rfl
          have dispatched := Frontend.dispatchKey_keyed engine keyboard_eq
            (Option.isSome_iff_ne_none.mp has_keymap) keyed
          cases pressed with
          | true =>
              rcases Frontend.onKey_press engine keyboard_eq has_keymap time key keysym unicode
                xkbModifiers with calm | same
              · exact calm.keyed keyed
              · rw [same]
                exact dispatched _
          | false =>
              rw [Frontend.onKey_release engine keyboard_eq has_keymap]
              split
              · exact (Calmer.repeatBeforeRelease run.frontend key).keyed keyed
              · exact dispatched _

/-- What the keys must meet when a key event reaches a grab. -/
theorem held_received_iff {keyboard : Keyboard}
    (keyboard_eq : run.frontend.keyboard = some keyboard)
    (keyed : run.frontend.Keyed) (held : run.Held) (time key : Nat) (pressed : Bool)
    (keysym : Keysym) (unicode : UInt32) (xkbModifiers : Modifiers) :
    (run.received engine time key pressed keysym unicode xkbModifiers).Held ↔
      (pressed = false → keyboard.xkb.isSome = true → run.ReleaseSettled keyboard
        (run.frontend.keyEvent keyboard time key pressed keysym unicode xkbModifiers)) := by
  have grows (other : Nat) (down : run.down other = true) :
      Function.update run.down key true other = true := by
    by_cases same : other = key
    · rw [same, Function.update_self]
    · rw [Function.update_of_ne same]
      exact down
  unfold received
  cases mapped : keyboard.xkb with
  | none =>
      refine iff_of_true ?_ fun _ missing => by cases missing
      rw [Frontend.onKey_unmapped engine keyboard_eq mapped]
      obtain ⟨quiet, empty⟩ := (keyed keyboard keyboard_eq).unmapped mapped
      refine ⟨fun other repeats => ?_, fun other waits => ?_⟩
      · rw [Frontend.repeatSlot, keyboard_eq, Option.bind_some, quiet] at repeats
        cases repeats
      · rw [buffered_eq keyboard_eq, empty] at waits
        cases waits
  | some xkb =>
      have has_keymap : keyboard.xkb.isSome = true := by rw [mapped]; rfl
      cases pressed with
      | true =>
          refine iff_of_true ?_ fun released => by cases released
          rcases Frontend.onKey_press engine keyboard_eq has_keymap time key keysym unicode
            xkbModifiers with calm | same
          · exact Held.of_calmer calm grows held
          · rw [same]
            refine (held_dispatched_iff engine keyboard_eq keyed held
              (run.frontend.keyEvent keyboard time key true keysym unicode xkbModifiers)).mpr ?_
            intro released
            cases released
      | false =>
          rw [Frontend.onKey_release engine keyboard_eq has_keymap, ReleaseSettled]
          simp only [Option.isSome_some, forall_const]
          cases rejects : run.frontend.guardRejects with
          | true => exact held_rejected_iff held key
          | false =>
              have settled := held_dispatched_iff engine keyboard_eq keyed held
                (run.frontend.keyEvent keyboard time key false keysym unicode xkbModifiers)
              exact settled.trans ⟨fun settles => settles rfl, fun settles _ => settles⟩

/-- Every event leaves the keyboard well kept. -/
theorem keyed_step (keyed : run.frontend.Keyed) (event : Event) :
    (run.step engine event).frontend.Keyed := by
  unfold step Frontend.step
  dsimp only
  split
  · cases event with
    | key time key pressed keysym unicode xkbModifiers =>
        unfold Frontend.handle Frontend.onGrab
        dsimp only
        split
        · exact keyed_received engine keyed time key pressed keysym unicode xkbModifiers
        · exact keyed
    | _ =>
        refine (Calmer.handle engine run.frontend ?_).keyed keyed
        intro _ _ _ _ _ _ same
        cases same
  · exact keyed

theorem held_step_iff (keyed : run.frontend.Keyed) (held : run.Held) (event : Event) :
    (run.step engine event).Held ↔ run.SettlesRelease event := by
  cases event with
  | key time key pressed keysym unicode xkbModifiers =>
      have stepped : run.step engine (.key time key pressed keysym unicode xkbModifiers) =
          if run.frontend.display && run.frontend.keyboard.any (·.grab) then
            run.received engine time key pressed keysym unicode xkbModifiers
          else run := by
        unfold step received downAfter Frontend.step Frontend.handle Frontend.onGrab
        cases display : run.frontend.display with
        | true => cases grabbed : run.frontend.keyboard.any (·.grab) <;> simp
        | false => simp
      rw [stepped]
      cases keyboard_eq : run.frontend.keyboard with
      | none =>
          rw [Option.any_none, Bool.and_false, if_neg Bool.false_ne_true]
          refine iff_of_true held ?_
          cases pressed with
          | true => trivial
          | false =>
              intro _ keyboard grabbed
              cases keyboard_eq.symm.trans grabbed
      | some keyboard =>
          have received := held_received_iff engine keyboard_eq keyed held time key pressed keysym
            unicode xkbModifiers
          split
          · rename_i reaches
            obtain ⟨display, grab⟩ := Bool.and_eq_true_iff.mp reaches
            rw [received]
            cases pressed with
            | true => exact iff_of_true (fun released => by cases released) trivial
            | false =>
                constructor
                · intro settles _ other other_eq _ mapped
                  obtain rfl := Option.some.inj (keyboard_eq.symm.trans other_eq)
                  exact settles rfl mapped
                · intro settles _ mapped
                  exact settles display keyboard keyboard_eq grab mapped
          · rename_i missed
            refine iff_of_true held ?_
            cases pressed with
            | true => trivial
            | false =>
                intro display other other_eq grab _
                obtain rfl := Option.some.inj (keyboard_eq.symm.trans other_eq)
                exact absurd (Bool.and_eq_true_iff.mpr ⟨display, grab⟩) missed
  | _ =>
      refine iff_of_true ?_ trivial
      refine Held.of_calmer ?_ (fun _ down => down) held
      unfold Frontend.step
      split
      · refine Calmer.handle engine run.frontend ?_
        intro _ _ _ _ _ _ same
        cases same
      · exact Calmer.refl run.frontend

end Engine

-- Engines are switched by Shift alone; Shift goes down while a key repeats, and the key comes up.
example : ¬ Machine.Always (step fun _ => ⟨false, [], none⟩) Held
    (start ⟨some "rime", none, false, false⟩
      { ShortcutConfig.defaults with switchEngine := ⟨Modifiers.shift, 0⟩ } (World.obliging 1000)
      .created)
    [.activate, .done, .keymap (some ⟨fun _ => true⟩), .repeatInfo 25,
      .key 1 30 true 0x61 0x61 0, .key 2 42 true Keysym.shiftL 0 0,
      .key 3 30 false 0x61 0x61 0] := by
  intro always
  have down := always.final.repeated 30 (by decide +kernel)
  revert down
  decide +kernel

end RepeatRun

end Typio
