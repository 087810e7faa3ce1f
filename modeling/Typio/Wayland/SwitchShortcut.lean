import Typio.Wayland.PhysicalModifiers
import Typio.Wayland.ShortcutConfig

/-!
# The engine-switch shortcut

The arbiter knows the modifiers of the binding and not its key.  It switches the engine exactly when
the whole binding was pressed as long as it takes up chords only for bindings without a key, and
only where no other key was pressed since the first of the modifiers, and as long as no chord fills
its buffer.
-/

namespace Typio

/-! ## Switches -/

/-- How often the engine was switched to the next one. -/
def switches (trace : List Effect) : Nat := trace.count .nextEngine

theorem switches_append (effects earlier : List Effect) :
    switches (effects ++ earlier) = switches effects + switches earlier :=
  List.count_append ..

theorem switches_of_isRoute {effects : List Effect}
    (route : ∀ effect ∈ effects, effect.isRoute = true) : switches effects = 0 := by
  refine List.count_eq_zero.mpr fun member => ?_
  have next := route .nextEngine member
  simp [Effect.isRoute, Effect.isRouting, Effect.isTextUi] at next

theorem RouteFrame.switches {before after : Frontend} (frame : RouteFrame before after) :
    switches after.trace = switches before.trace := by
  obtain ⟨effects, trace_eq, route⟩ := frame.sent
  rw [trace_eq, switches_append, switches_of_isRoute route, Nat.zero_add]

theorem RouteFrame.shortcuts {before after : Frontend} (frame : RouteFrame before after) :
    after.shortcuts = before.shortcuts := by rw [frame.frame]

/-- Nothing is switched, and the shortcuts are the same. -/
structure NoSwitch (before after : Frontend) : Prop where
  switches : switches after.trace = switches before.trace
  shortcuts : after.shortcuts = before.shortcuts

namespace NoSwitch

variable (engine : Engine)

theorem trans {first second third : Frontend} (earlier : NoSwitch first second)
    (later : NoSwitch second third) : NoSwitch first third :=
  ⟨later.switches.trans earlier.switches, later.shortcuts.trans earlier.shortcuts⟩

theorem processKeyEvent (frontend : Frontend) (event : KeyEvent) :
    NoSwitch frontend (frontend.processKeyEvent engine event) :=
  have frame := RouteFrame.of_edits (RouteEdits.processKeyEvent engine frontend event)
  ⟨frame.switches.trans (List.count_cons_of_ne (by simp)), frame.shortcuts⟩

theorem processKeyEvents (frontend : Frontend) (events : List KeyEvent) :
    NoSwitch frontend (events.foldl (Frontend.processKeyEvent engine) frontend) := by
  induction events generalizing frontend with
  | nil => exact ⟨rfl, rfl⟩
  | cons event events induction => exact (processKeyEvent engine frontend event).trans (induction _)

theorem updateArbiter (frontend : Frontend) (update : KeyArbiter → KeyArbiter) :
    NoSwitch frontend (frontend.updateArbiter update) := ⟨rfl, rfl⟩

theorem arbiterReplay (frontend : Frontend) (buffer : List KeyEvent) :
    NoSwitch frontend (frontend.arbiterReplay engine buffer) :=
  (processKeyEvents engine frontend buffer).trans (updateArbiter ..)

end NoSwitch

namespace Frontend

variable (engine : Engine)

/-- The next engine is switched to once, whatever the engines do. -/
theorem switches_nextEngine (frontend : Frontend) :
    switches (frontend.nextEngine engine).trace = switches frontend.trace + 1 ∧
      (frontend.nextEngine engine).shortcuts = frontend.shortcuts := by
  have called := TextFrame.callEngine engine (frontend.log .nextEngine)
  obtain ⟨effects, trace_eq, text⟩ := called.sent
  have route : ∀ effect ∈ effects, effect.isRoute = true := fun effect member => by
    have of_text := text effect member
    cases effect <;> simp_all [Effect.isRoute, Effect.isTextUi]
  have trace : (frontend.nextEngine engine).trace =
      ((frontend.log .nextEngine).callEngine engine).trace := rfl
  have shortcuts : (frontend.nextEngine engine).shortcuts =
      ((frontend.log .nextEngine).callEngine engine).shortcuts := rfl
  constructor
  · rw [trace, trace_eq, switches_append, switches_of_isRoute route, Nat.zero_add]
    exact List.count_cons_self
  · rw [shortcuts, called.frame]
    rfl

theorem switches_arbiterConsume (frontend : Frontend) (buffer : List KeyEvent) :
    switches (frontend.arbiterConsume engine buffer).trace = switches frontend.trace + 1 ∧
      (frontend.arbiterConsume engine buffer).shortcuts = frontend.shortcuts := by
  have released := RouteFrame.of_edits (RouteEdits.arbiterReleaseOrphanedKeys frontend buffer)
  obtain ⟨switched, shortcuts⟩ :=
    switches_nextEngine engine (frontend.arbiterReleaseOrphanedKeys buffer)
  exact ⟨switched.trans (congrArg (· + 1) released.switches), shortcuts.trans released.shortcuts⟩

/-- An event switches the engine exactly when it completes a chord. -/
theorem switches_dispatchKey {frontend : Frontend} {keyboard : Keyboard}
    (keyboard_eq : frontend.keyboard = some keyboard) (event : KeyEvent) :
    switches (frontend.dispatchKey engine event).trace = switches frontend.trace +
        (if frontend.outcome keyboard event = .consume then 1 else 0) ∧
      (frontend.dispatchKey engine event).shortcuts = frontend.shortcuts := by
  have noted : NoSwitch frontend (frontend.noteKey event) := ⟨rfl, rfl⟩
  rw [dispatchKey_eq engine keyboard_eq]
  split
  next pass =>
    have routed := noted.trans (NoSwitch.processKeyEvent engine _ event)
    simpa [pass] using ⟨routed.switches, routed.shortcuts⟩
  next start =>
    have buffered := noted.trans (NoSwitch.updateArbiter _ fun arbiter =>
      { arbiter with state := .buffering }.push event)
    simpa [start] using ⟨buffered.switches, buffered.shortcuts⟩
  next store =>
    have buffered := noted.trans (NoSwitch.updateArbiter _ (·.push event))
    simpa [store] using ⟨buffered.switches, buffered.shortcuts⟩
  next replay =>
    have routed := (noted.trans (NoSwitch.arbiterReplay engine _ keyboard.arbiter.buffer)).trans
      (NoSwitch.processKeyEvent engine _ event)
    simpa [replay] using ⟨routed.switches, routed.shortcuts⟩
  next consume =>
    obtain ⟨switched, shortcuts⟩ := switches_arbiterConsume engine
      ((frontend.noteKey event).updateArbiter (·.push event)) (keyboard.arbiter.push event).buffer
    rw [if_pos consume]
    exact ⟨switched, shortcuts⟩

end Frontend

/-! ## Modifiers of a binding -/

/-- A key of the binding's modifiers sets a bit of them. -/
theorem bit_of_isSwitchModifier {binding : ShortcutBinding} {keysym : Keysym}
    (modifier : isSwitchModifier binding keysym = true) :
    binding.modifiers &&& modifierBitForKeysym keysym ≠ 0 := by
  simp only [isSwitchModifier, keysymIsModifierFor, Bool.or_eq_true, Bool.and_eq_true,
    bne_iff_ne, beq_iff_eq] at modifier
  obtain ((⟨held, rfl | rfl⟩ | ⟨held, rfl | rfl⟩) | ⟨held, rfl | rfl⟩) | ⟨held, rfl | rfl⟩ := modifier
  all_goals exact held

/-- While such a key is pressed, some modifier of the binding is held. -/
theorem held_of_isSwitchModifier {binding : ShortcutBinding} {keysym : Keysym}
    (modifier : isSwitchModifier binding keysym = true) (physical : Modifiers) :
    modifiersForCurrentKey physical keysym true &&& binding.modifiers ≠ 0 := by
  intro none
  rw [modifiersForCurrentKey, if_pos rfl, Modifiers.or_and_distrib, ← UInt32.toNat_inj,
    UInt32.toNat_or] at none
  have bit : modifierBitForKeysym keysym &&& binding.modifiers = 0 := by
    rw [← UInt32.toNat_inj]
    exact (Nat.or_eq_zero_iff.mp none).2
  rw [UInt32.and_comm] at bit
  exact bit_of_isSwitchModifier modifier bit

/-! ## The whole binding -/

/-- A key event with the modifiers which are held after it. -/
abbrev HeldEvent := KeyEvent × Modifiers

/-- A press completes the modifiers of the binding, and no other modifier is held from then on. -/
structure Chord (binding : ShortcutBinding) (first : HeldEvent) (rest : List HeldEvent) : Prop where
  press : first.1.isPress = true
  modifier : isSwitchModifier binding first.1.keysym = true
  held : first.2 &&& binding.modifiers = binding.modifiers
  alone : ∀ entry ∈ first :: rest, entry.2 &&& binding.forbidden = 0

/-- No key is pressed but those of the binding. -/
def NoOtherKey (binding : ShortcutBinding) (events : List HeldEvent) : Prop :=
  ∀ entry ∈ events, entry.1.isPress = true → isSwitchModifier binding entry.1.keysym = true ∨
    (binding.keysym ≠ 0 ∧ entry.1.keysym = binding.keysym)

/-- The modifiers of the binding were pressed, with no other key in between. -/
def ModifiersPressed (binding : ShortcutBinding) (events : List HeldEvent) : Prop :=
  NoOtherKey binding events ∧
    ∃ before first rest, events = before ++ first :: rest ∧ Chord binding first rest

/-- The whole binding was pressed: its modifiers and, if it has one, its key while they were held,
with no other key in between. -/
def BindingPressed (binding : ShortcutBinding) (events : List HeldEvent) : Prop :=
  NoOtherKey binding events ∧
    ∃ before first rest, events = before ++ first :: rest ∧ Chord binding first rest ∧
      (binding.keysym ≠ 0 → ∃ entry ∈ rest, entry.1.isPress = true ∧
        entry.1.keysym = binding.keysym ∧ entry.2 &&& binding.modifiers = binding.modifiers)

section Pressed

variable {binding : ShortcutBinding} {events : List HeldEvent} {entry : HeldEvent}

theorem BindingPressed.modifiers (pressed : BindingPressed binding events) :
    ModifiersPressed binding events := by
  obtain ⟨clean, before, first, rest, shape, chord, -⟩ := pressed
  exact ⟨clean, before, first, rest, shape, chord⟩

theorem ModifiersPressed.whole (pressed : ModifiersPressed binding events)
    (modifiersOnly : binding.keysym = 0) : BindingPressed binding events := by
  obtain ⟨clean, before, first, rest, shape, chord⟩ := pressed
  exact ⟨clean, before, first, rest, shape, chord, fun key => absurd modifiersOnly key⟩

theorem not_modifiersPressed_nil : ¬ ModifiersPressed binding [] := by
  rintro ⟨-, before, first, rest, shape, -⟩
  simp at shape

/-- The last event continues a chord, or it begins one. -/
theorem ModifiersPressed.concat (pressed : ModifiersPressed binding (events ++ [entry])) :
    ModifiersPressed binding events ∨ Chord binding entry [] := by
  obtain ⟨clean, before, first, rest, shape, chord⟩ := pressed
  rcases List.eq_nil_or_concat' rest with rfl | ⟨front, last, rfl⟩
  · obtain ⟨-, same⟩ := List.append_inj' shape rfl
    obtain rfl := List.singleton_inj.mp same
    exact .inr chord
  · rw [← List.cons_append, ← List.append_assoc] at shape
    obtain ⟨same, -⟩ := List.append_inj' shape rfl
    refine .inl ⟨fun entry member => clean entry (List.mem_append_left _ member), before, first,
      front, same, ⟨chord.press, chord.modifier, chord.held, fun entry member => ?_⟩⟩
    exact chord.alone entry (List.mem_append_left _ member)

/-- The modifiers of a chord which goes on are the binding's alone. -/
theorem ModifiersPressed.alone (pressed : ModifiersPressed binding (events ++ [entry])) :
    entry.2 &&& binding.forbidden = 0 := by
  obtain ⟨-, before, first, rest, shape, chord⟩ := pressed
  refine chord.alone entry ?_
  rcases List.eq_nil_or_concat' rest with rfl | ⟨front, last, rfl⟩
  · obtain ⟨-, same⟩ := List.append_inj' shape rfl
    exact List.singleton_inj.mp same ▸ List.mem_singleton_self _
  · rw [← List.cons_append, ← List.append_assoc] at shape
    obtain ⟨-, same⟩ := List.append_inj' shape rfl
    obtain rfl := List.singleton_inj.mp same
    exact List.mem_cons_of_mem _ (List.mem_append_right _ (List.mem_singleton_self _))

/-- A chord goes on while only keys of the modifiers are pressed and no other one is held. -/
theorem ModifiersPressed.append (pressed : ModifiersPressed binding events)
    (modifier : entry.1.isPress = true → isSwitchModifier binding entry.1.keysym = true)
    (alone : entry.2 &&& binding.forbidden = 0) :
    ModifiersPressed binding (events ++ [entry]) := by
  obtain ⟨clean, before, first, rest, rfl, chord⟩ := pressed
  refine ⟨?_, before, first, rest ++ [entry], by simp, chord.press, chord.modifier, chord.held, ?_⟩
  · intro other member
    obtain old | new := List.mem_append.mp member
    · exact clean other old
    · obtain rfl := List.mem_singleton.mp new
      exact fun press => .inl (modifier press)
  · intro other member
    rw [← List.cons_append] at member
    obtain old | new := List.mem_append.mp member
    · exact chord.alone other old
    · exact List.mem_singleton.mp new ▸ alone

end Pressed

/-! ## Runs -/

/-- A frontend with the key events since no modifier of the binding was held. -/
structure SwitchRun where
  frontend : Frontend
  session : List HeldEvent

namespace SwitchRun

variable (run : SwitchRun)

def binding : ShortcutBinding := run.frontend.shortcuts.switchEngine

/-- The modifiers which are held after an event. -/
def heldAfter (event : KeyEvent) : Modifiers :=
  (run.frontend.keyboard.map (·.physicalAfter event)).getD 0

/-- A key event arrives which the routing guard accepts. -/
def step (engine : Engine) (run : SwitchRun) (event : KeyEvent) : SwitchRun where
  frontend := run.frontend.dispatchKey engine event
  session :=
    if run.heldAfter event &&& run.binding.modifiers = 0 then []
    else run.session ++ [(event, run.heldAfter event)]

/-- A grab has just been made. -/
def start (frontend : Frontend) (createdAtEpoch : Nat) (repeatTimer : Bool) : SwitchRun where
  frontend := { frontend with keyboard := some (Keyboard.fresh createdAtEpoch repeatTimer) }
  session := []

/-- The event switches the engine. -/
def Switches (engine : Engine) (event : KeyEvent) : Prop :=
  switches run.frontend.trace < switches (run.step engine event).frontend.trace

/-- The event releases the last of the modifiers after the whole binding was pressed. -/
def Completes (event : KeyEvent) : Prop :=
  event.isPress = false ∧ run.heldAfter event &&& run.binding.modifiers = 0 ∧
    run.heldAfter event &&& run.binding.forbidden = 0 ∧ BindingPressed run.binding run.session

/-- The event switches the engine exactly if it completes the binding. -/
def Precise (engine : Engine) (event : KeyEvent) : Prop :=
  run.Switches engine event ↔ run.Completes event

/-- A chord is taken up for a binding without a key, where no other key was pressed since the
modifiers were up; and a key of the modifiers finds room in the buffer. -/
def TakesUp (event : KeyEvent) : Prop :=
  ∀ keyboard, run.frontend.keyboard = some keyboard →
    (run.frontend.outcome keyboard event = .start →
      run.binding.keysym = 0 ∧ NoOtherKey run.binding run.session) ∧
    (event.isPress = true → keyboard.arbiter.state = .buffering →
      arbiterShouldCancel run.binding event.keysym (keyboard.physicalAfter event) true = false →
        keyboard.arbiter.buffer.length < maxBuffered - 1)

instance (binding : ShortcutBinding) (events : List HeldEvent) :
    Decidable (NoOtherKey binding events) :=
  inferInstanceAs (Decidable (∀ entry ∈ events, _))

instance (engine : Engine) (event : KeyEvent) : Decidable (run.Switches engine event) :=
  inferInstanceAs (Decidable (_ < _))

instance (event : KeyEvent) : Decidable (run.TakesUp event) :=
  inferInstanceAs (Decidable (∀ keyboard ∈ run.frontend.keyboard, _))

/-- The arbiter buffers exactly while the modifiers were pressed, and then the binding has no
key. -/
structure Sound : Prop where
  grabbed : run.frontend.keyboard.isSome = true
  idle : ∀ keyboard, run.frontend.keyboard = some keyboard → keyboard.arbiter.state = .idle →
    ¬ ModifiersPressed run.binding run.session
  buffering : ∀ keyboard, run.frontend.keyboard = some keyboard →
    keyboard.arbiter.state = .buffering →
      run.binding.keysym = 0 ∧ ModifiersPressed run.binding run.session

/-! ## One event -/

variable {run : SwitchRun} {keyboard : Keyboard} (engine : Engine)

theorem heldAfter_eq (keyboard_eq : run.frontend.keyboard = some keyboard) (event : KeyEvent) :
    run.heldAfter event = keyboard.physicalAfter event := by
  simp [heldAfter, keyboard_eq]

theorem step_binding (keyboard_eq : run.frontend.keyboard = some keyboard) (event : KeyEvent) :
    (run.step engine event).binding = run.binding := by
  have kept := (run.frontend.switches_dispatchKey engine keyboard_eq event).2
  exact congrArg ShortcutConfig.switchEngine kept

theorem switches_iff (keyboard_eq : run.frontend.keyboard = some keyboard) (event : KeyEvent) :
    run.Switches engine event ↔ run.frontend.outcome keyboard event = .consume := by
  have counted := (run.frontend.switches_dispatchKey engine keyboard_eq event).1
  unfold Switches SwitchRun.step
  rw [counted]
  split
  next consume => simp [consume]
  next other => simp [other]

/-- What the arbiter is after the event. -/
theorem step_arbiter (keyboard_eq : run.frontend.keyboard = some keyboard) (event : KeyEvent) :
    ∃ later, (run.step engine event).frontend.keyboard = some later ∧
      later.arbiter.state =
        match run.frontend.outcome keyboard event with
        | .pass => keyboard.arbiter.state
        | .start => .buffering
        | .store => keyboard.arbiter.state
        | .replay | .consume => .idle := by
  let received : ArbiterRun := ⟨run.frontend, []⟩
  have leaves := @ArbiterRun.step_leaves engine received keyboard keyboard_eq event
  have outcome_eq : received.frontend.outcome keyboard event =
    run.frontend.outcome keyboard event := rfl
  cases outcome : run.frontend.outcome keyboard event with
  | pass =>
      rw [outcome_eq, outcome] at leaves
      obtain ⟨later, later_eq, same⟩ := Option.map_eq_some_iff.mp leaves.arbiter
      exact ⟨later, later_eq, by rw [same]⟩
  | start =>
      rw [outcome_eq, outcome] at leaves
      obtain ⟨later, later_eq, same⟩ := Option.map_eq_some_iff.mp leaves.arbiter
      exact ⟨later, later_eq, by rw [same, ArbiterRun.push_state]⟩
  | store =>
      rw [outcome_eq, outcome] at leaves
      obtain ⟨later, later_eq, same⟩ := Option.map_eq_some_iff.mp leaves.arbiter
      exact ⟨later, later_eq, by rw [same, ArbiterRun.push_state]⟩
  | replay =>
      rw [outcome_eq, outcome] at leaves
      obtain ⟨later, later_eq, same⟩ := Option.map_eq_some_iff.mp leaves.arbiter
      exact ⟨later, later_eq, by rw [same]; rfl⟩
  | consume =>
      rw [outcome_eq, outcome] at leaves
      obtain ⟨routed, leaves⟩ := leaves
      obtain ⟨later, later_eq, same⟩ := Option.map_eq_some_iff.mp leaves.arbiter
      exact ⟨later, later_eq, by rw [same]; rfl⟩

/-- The state of the arbiter decides what is to be shown. -/
theorem Sound.of_state {run : SwitchRun} {later : Keyboard}
    (keyboard_eq : run.frontend.keyboard = some later)
    (shown : match later.arbiter.state with
      | .idle => ¬ ModifiersPressed run.binding run.session
      | .buffering => run.binding.keysym = 0 ∧ ModifiersPressed run.binding run.session) :
    run.Sound where
  grabbed := by rw [keyboard_eq]; rfl
  idle other other_eq state := by
    obtain rfl := Option.some.inj (keyboard_eq.symm.trans other_eq)
    rwa [state] at shown
  buffering other other_eq state := by
    obtain rfl := Option.some.inj (keyboard_eq.symm.trans other_eq)
    rwa [state] at shown

theorem step_session_of_up {event : KeyEvent}
    (up : run.heldAfter event &&& run.binding.modifiers = 0) :
    (run.step engine event).session = [] := if_pos up

theorem step_session_of_held {event : KeyEvent}
    (held : run.heldAfter event &&& run.binding.modifiers ≠ 0) :
    (run.step engine event).session = run.session ++ [(event, run.heldAfter event)] := if_neg held

/-- An event which neither continues nor begins a chord leaves none. -/
theorem step_not_pressed {event : KeyEvent}
    (none : ¬ ModifiersPressed run.binding (run.session ++ [(event, run.heldAfter event)])) :
    ¬ ModifiersPressed run.binding (run.step engine event).session := by
  by_cases up : run.heldAfter event &&& run.binding.modifiers = 0
  · rw [step_session_of_up engine up]
    exact not_modifiersPressed_nil
  · rwa [step_session_of_held engine up]

/-- While the arbiter is idle, no binding is completed; it begins to buffer with the press which
completes the modifiers. -/
theorem idle_precise (sound : run.Sound) (keyboard_eq : run.frontend.keyboard = some keyboard)
    (idle : keyboard.arbiter.state = .idle) {event : KeyEvent} (takesUp : run.TakesUp event) :
    run.Precise engine event ∧ (run.step engine event).Sound := by
  have none := sound.idle keyboard keyboard_eq idle
  have held := heldAfter_eq keyboard_eq event
  have kept := step_binding engine keyboard_eq event
  obtain ⟨later, later_eq, state⟩ := step_arbiter engine keyboard_eq event
  have outcome : run.frontend.outcome keyboard event =
      if event.isPress && arbiterShouldStartBuffering run.binding event.keysym
        (run.heldAfter event) then .start else .pass := by
    rw [held]
    unfold Frontend.outcome KeyArbiter.outcome
    rw [idle]
    rfl
  have quiet : ¬ run.Completes event := fun completes => none completes.2.2.2.modifiers
  by_cases begins : (event.isPress && arbiterShouldStartBuffering run.binding event.keysym
      (run.heldAfter event)) = true
  · rw [if_pos begins] at outcome
    obtain ⟨modifiersOnly, clean⟩ := (takesUp keyboard keyboard_eq).1 outcome
    simp only [arbiterShouldStartBuffering, Bool.and_eq_true, beq_iff_eq] at begins
    obtain ⟨press, ⟨modifier, all⟩, alone⟩ := begins
    have some : run.heldAfter event &&& run.binding.modifiers ≠ 0 := by
      rw [held, Keyboard.physicalAfter, press]
      exact held_of_isSwitchModifier modifier _
    have chord : Chord run.binding (event, run.heldAfter event) [] :=
      ⟨press, modifier, all, fun entry member => List.mem_singleton.mp member ▸ alone⟩
    refine ⟨iff_of_false ?_ quiet, Sound.of_state later_eq ?_⟩
    · simp [switches_iff engine keyboard_eq, outcome]
    · rw [state, outcome, kept, step_session_of_held engine some]
      refine ⟨modifiersOnly, fun entry member => ?_, run.session, _, [], rfl, chord⟩
      obtain old | new := List.mem_append.mp member
      · exact clean entry old
      · obtain rfl := List.mem_singleton.mp new
        exact fun _ => .inl modifier
  · rw [if_neg begins] at outcome
    refine ⟨iff_of_false ?_ quiet, Sound.of_state later_eq ?_⟩
    · simp [switches_iff engine keyboard_eq, outcome]
    · rw [state, outcome, idle, kept]
      refine step_not_pressed engine fun pressed => ?_
      obtain before | chord := pressed.concat
      · exact none before
      · refine begins ?_
        have alone := chord.alone _ (List.mem_singleton_self _)
        simp [arbiterShouldStartBuffering, show event.isPress = true from chord.press,
          show isSwitchModifier run.binding event.keysym = true from chord.modifier,
          show run.heldAfter event &&& run.binding.modifiers = run.binding.modifiers from
            chord.held,
          show run.heldAfter event &&& run.binding.forbidden = 0 from alone]

/-- While the arbiter buffers, the modifiers of a binding without a key were pressed; it switches
with the release of the last one, and gives up when another key comes in between. -/
theorem buffering_precise (sound : run.Sound)
    (keyboard_eq : run.frontend.keyboard = some keyboard)
    (buffering : keyboard.arbiter.state = .buffering) {event : KeyEvent}
    (takesUp : run.TakesUp event) :
    run.Precise engine event ∧ (run.step engine event).Sound := by
  obtain ⟨modifiersOnly, pressed⟩ := sound.buffering keyboard keyboard_eq buffering
  have held := heldAfter_eq keyboard_eq event
  have kept := step_binding engine keyboard_eq event
  obtain ⟨later, later_eq, state⟩ := step_arbiter engine keyboard_eq event
  have outcome : run.frontend.outcome keyboard event =
      if arbiterShouldCancel run.binding event.keysym (run.heldAfter event) event.isPress ||
          (event.isPress && decide (maxBuffered - 1 ≤ keyboard.arbiter.buffer.length)) then .replay
      else if !event.isPress && arbiterChordComplete run.binding (run.heldAfter event) then .consume
      else .store := by
    rw [held]
    unfold Frontend.outcome KeyArbiter.outcome
    rw [buffering]
    rfl
  by_cases cancels : arbiterShouldCancel run.binding event.keysym (run.heldAfter event)
      event.isPress = true
  · -- another key, or another modifier
    rw [cancels, Bool.true_or, if_pos rfl] at outcome
    refine ⟨iff_of_false ?_ ?_, Sound.of_state later_eq ?_⟩
    · simp [switches_iff engine keyboard_eq, outcome]
    · rintro ⟨release, -, alone, -⟩
      simp [arbiterShouldCancel, release, alone] at cancels
    · rw [state, outcome, kept]
      refine step_not_pressed engine fun goesOn => ?_
      have alone : run.heldAfter event &&& run.binding.forbidden = 0 := goesOn.alone
      simp only [arbiterShouldCancel, alone, bne_self_eq_false, Bool.or_false, Bool.and_eq_true,
        Bool.not_eq_true'] at cancels
      obtain ⟨press, other⟩ := cancels
      have last : (event, run.heldAfter event) ∈ run.session ++ [(event, run.heldAfter event)] :=
        List.mem_append_right _ (List.mem_singleton_self _)
      obtain modifier | ⟨key, -⟩ := goesOn.1 _ last press
      · exact absurd modifier (by rw [other]; exact Bool.false_ne_true)
      · exact key modifiersOnly
  · rw [Bool.not_eq_true] at cancels
    have alone : run.heldAfter event &&& run.binding.forbidden = 0 := by
      simp only [arbiterShouldCancel, Bool.or_eq_false_iff, bne_eq_false_iff_eq] at cancels
      exact cancels.2
    have modifier : event.isPress = true → isSwitchModifier run.binding event.keysym = true := by
      intro press
      simp only [arbiterShouldCancel, press, Bool.true_and, Bool.or_eq_false_iff,
        Bool.not_eq_false'] at cancels
      exact cancels.1
    have goesOn : ModifiersPressed run.binding (run.session ++ [(event, run.heldAfter event)]) :=
      pressed.append modifier alone
    by_cases press : event.isPress = true
    · -- a key of the modifiers finds room
      have room := (takesUp keyboard keyboard_eq).2 press buffering (by rw [← held, ← press, cancels])
      rw [cancels, press, decide_eq_false (by omega)] at outcome
      simp only [Bool.and_false, Bool.or_false, Bool.not_true, Bool.false_and, Bool.false_eq_true,
        ↓reduceIte] at outcome
      have some : run.heldAfter event &&& run.binding.modifiers ≠ 0 := by
        rw [held, Keyboard.physicalAfter, press]
        exact held_of_isSwitchModifier (modifier press) _
      refine ⟨iff_of_false ?_ ?_, Sound.of_state later_eq ?_⟩
      · simp [switches_iff engine keyboard_eq, outcome]
      · rintro ⟨release, -⟩
        exact absurd (press.symm.trans release) (by decide)
      · rw [state, outcome, buffering, kept, step_session_of_held engine some]
        exact ⟨modifiersOnly, goesOn⟩
    · rw [Bool.not_eq_true] at press
      rw [cancels, press] at outcome
      simp only [Bool.false_and, Bool.or_false, Bool.not_false, Bool.true_and, Bool.false_eq_true,
        ↓reduceIte, arbiterChordComplete, beq_iff_eq] at outcome
      by_cases up : run.heldAfter event &&& run.binding.modifiers = 0
      · rw [if_pos up] at outcome
        refine ⟨iff_of_true ?_ ⟨press, up, alone, pressed.whole modifiersOnly⟩,
          Sound.of_state later_eq ?_⟩
        · rw [switches_iff engine keyboard_eq, outcome]
        · rw [state, outcome, step_session_of_up engine up]
          exact not_modifiersPressed_nil
      · rw [if_neg up] at outcome
        refine ⟨iff_of_false ?_ fun completes => up completes.2.1, Sound.of_state later_eq ?_⟩
        · simp [switches_iff engine keyboard_eq, outcome]
        · rw [state, outcome, buffering, kept, step_session_of_held engine up]
          exact ⟨modifiersOnly, goesOn⟩

theorem step_precise (sound : run.Sound) {event : KeyEvent} (takesUp : run.TakesUp event) :
    run.Precise engine event ∧ (run.step engine event).Sound := by
  obtain ⟨keyboard, keyboard_eq⟩ := Option.isSome_iff_exists.mp sound.grabbed
  cases state : keyboard.arbiter.state with
  | idle => exact idle_precise engine sound keyboard_eq state takesUp
  | buffering => exact buffering_precise engine sound keyboard_eq state takesUp

theorem start_sound (frontend : Frontend) (createdAtEpoch : Nat) (repeatTimer : Bool) :
    (start frontend createdAtEpoch repeatTimer).Sound :=
  Sound.of_state rfl not_modifiersPressed_nil

/-- On every grab and with every binding, an event switches the engine exactly if it completes the
binding, in the runs in which chords are taken up for bindings without a key, where no other key was
pressed since the modifiers were up, and in which the keys of a chord find room in the buffer. -/
theorem precise_of_takesUp (frontend : Frontend) (createdAtEpoch : Nat) (repeatTimer : Bool)
    (events : List KeyEvent)
    (takesUp : Machine.EachStep (step engine) TakesUp
      (start frontend createdAtEpoch repeatTimer) events) :
    Machine.EachStep (step engine) (fun run event => run.Precise engine event)
      (start frontend createdAtEpoch repeatTimer) events := by
  have sound : Machine.Always (step engine) Sound (start frontend createdAtEpoch repeatTimer)
      events :=
    Machine.Always.of_invariant Sound
      (fun run event sound takesUp => (step_precise engine sound takesUp).2)
      (start_sound frontend createdAtEpoch repeatTimer) takesUp
  intro front event shown
  have before := sound front ((List.prefix_append front [event]).trans shown)
  exact (step_precise engine before (takesUp front event shown)).1

/-- A daemon in which the shortcut is configured, with a text field in focus. -/
def configured (switchEngine : String) : SwitchRun :=
  start (Frontend.attended ⟨some "rime", none, false, false⟩
    (ShortcutConfig.load (some switchEngine.toList) none none) (World.obliging 1000)) 0 true

def pressControl : KeyEvent := ⟨true, 29, Keysym.controlL, 0, 0, 1000⟩

def releaseControl : KeyEvent := ⟨false, 29, Keysym.controlL, Modifiers.ctrl, 0, 1001⟩

/-- Control and Shift are tapped together. -/
theorem chord_precise :
    Machine.EachStep (step fun _ => ⟨true, [], some "rime"⟩)
      (fun run event => run.Precise (fun _ => ⟨true, [], some "rime"⟩) event)
      (configured "Ctrl+Shift")
      [pressControl, ⟨true, 42, Keysym.shiftL, Modifiers.ctrl, 0, 1000⟩,
        ⟨false, 42, Keysym.shiftL, Modifiers.ctrl ||| Modifiers.shift, 0, 1000⟩, releaseControl] :=
  precise_of_takesUp _ _ _ _ _ (by decide +kernel)

/-- Control is tapped alone, and the engine is switched. -/
theorem tapped_control_switches :
    ¬ Machine.EachStep (step fun _ => ⟨true, [], some "rime"⟩)
      (fun run event => run.Precise (fun _ => ⟨true, [], some "rime"⟩) event)
      (configured "Ctrl+space") [pressControl, releaseControl] := by
  intro precise
  have last := precise [pressControl] releaseControl (List.prefix_refl _)
  obtain ⟨-, -, -, -, before, first, rest, shape, -, key⟩ := last.mp (by decide +kernel)
  obtain ⟨entry, member, press, space, -⟩ := key (by decide +kernel)
  have pressed : entry ∈ (Machine.run (step fun _ => ⟨true, [], some "rime"⟩)
      (configured "Ctrl+space") [pressControl]).session := by
    rw [shape]
    exact List.mem_append_right _ (List.mem_cons_of_mem _ member)
  have only : ∀ entry ∈ (Machine.run (step fun _ => ⟨true, [], some "rime"⟩)
      (configured "Ctrl+space") [pressControl]).session, entry.1.keysym = Keysym.controlL := by
    decide +kernel
  rw [only entry pressed] at space
  revert space
  decide +kernel

end SwitchRun

end Typio
