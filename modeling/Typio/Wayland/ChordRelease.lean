import Typio.Wayland.ArbiterReplay
import Typio.Wayland.StuckKeys

/-!
# Releases inside a chord

When a chord is consumed, the keys released meanwhile which were down before it must still be
released: those sent to the application through the virtual keyboard, and a push-to-talk key by
stopping the voice session.  The arbiter does so only for keys whose state is `forwarded`.
-/

namespace Typio

/-- The effect releases the key in the application. -/
def Effect.releases (key : Nat) : Effect → Bool
  | vkKey _ other pressed => other == key && !pressed
  | _ => false

/-- The event releases the key. -/
def KeyEvent.releases (key : Nat) (event : KeyEvent) : Bool := !event.isPress && event.key == key

namespace Frontend

/-! ## The keys released when the buffer is consumed -/

/-- What consuming a buffer sends: the releases of the forwarded keys released in it. -/
structure OrphansReleased (buffer : List KeyEvent) (before after : Frontend)
    (effects : List Effect) : Prop where
  trace : after.trace = effects ++ before.trace
  silent : .voiceStop ∉ effects
  released : ∀ key, effects.any (Effect.releases key) =
    (before.vkIsReady && decide (before.tracking.getState key = .forwarded) &&
      buffer.any (KeyEvent.releases key))

theorem vkIsReady_congr {before after : Frontend} (vk : after.vk = before.vk)
    (generation :
      after.tracking.activeKeyGeneration = before.tracking.activeKeyGeneration) :
    after.vkIsReady = before.vkIsReady := by
  rw [Bool.eq_iff_iff, vkIsReady_iff, vkIsReady_iff, vkHasCurrentGenerationKeymap,
    vkHasCurrentGenerationKeymap, vk, generation]

theorem vkTriggerFailSafe_kept (frontend : Frontend) :
    frontend.vkTriggerFailSafe.vk = frontend.vk ∧
      frontend.vkTriggerFailSafe.tracking = frontend.tracking ∧
      (frontend.vkTriggerFailSafe.trace = frontend.trace ∨
        frontend.vkTriggerFailSafe.trace = .releaseGrab :: frontend.trace) := by
  unfold vkTriggerFailSafe releaseGrab
  repeat' split
  all_goals simp

/-- A forwarded key which is released in the buffer is released in the application, if the virtual
keyboard is ready. -/
theorem releaseOrphan_sent (frontend : Frontend) (event : KeyEvent) :
    ∃ effects,
      ((frontend.vkForwardKey event.time event.key false).clearKeyTracking event.key).trace =
        effects ++ frontend.trace ∧
      .voiceStop ∉ effects ∧
      (∀ key, effects.any (Effect.releases key) = (frontend.vkIsReady && event.key == key)) ∧
      ((frontend.vkForwardKey event.time event.key false).clearKeyTracking
        event.key).vkIsReady = frontend.vkIsReady ∧
      ((frontend.vkForwardKey event.time event.key false).clearKeyTracking
        event.key).tracking = frontend.tracking.clearTracking event.key := by
  cases ready : frontend.vkIsReady with
  | true =>
      have upgraded : frontend.vkUpgrade.vk.state = .ready := by simpa [vkIsReady] using ready
      have tracked : frontend.vkUpgrade.tracking = frontend.tracking := by
        unfold vkUpgrade
        split <;> rfl
      have sent : frontend.vkUpgrade.trace = frontend.trace := by
        unfold vkUpgrade
        split <;> rfl
      rw [vkForwardKey_of_isReady ready]
      refine ⟨[.vkKey event.time event.key false], by simp [sent], by simp, ?_, ?_, ?_⟩
      · simp [Effect.releases]
      · rw [vkIsReady_iff]
        exact .inl upgraded
      · simp [tracked]
  | false =>
      rw [vkForwardKey_of_not_isReady ready]
      obtain ⟨vk_eq, tracking_eq, trace_eq⟩ := vkTriggerFailSafe_kept frontend
      split
      · refine ⟨frontend.sentSince frontend.vkTriggerFailSafe, ?_, ?_, ?_, ?_, ?_⟩
        · rcases trace_eq with same | released
          · simp [sentSince, same]
          · simp [sentSince, released]
        · rcases trace_eq with same | released
          · simp [sentSince, same]
          · simp [sentSince, released]
        · rcases trace_eq with same | released
          · simp [sentSince, same]
          · simp [sentSince, released, Effect.releases]
        · rw [← ready]
          exact vkIsReady_congr vk_eq (by simp [tracking_eq])
        · simp [tracking_eq]
      · refine ⟨[], rfl, by simp, by simp, ?_, rfl⟩
        rw [← ready]
        exact vkIsReady_congr rfl (by simp)

theorem arbiterReleaseOrphanedKeys_released (frontend : Frontend) (buffer : List KeyEvent) :
    ∃ effects,
      OrphansReleased buffer frontend (frontend.arbiterReleaseOrphanedKeys buffer) effects := by
  induction buffer generalizing frontend with
  | nil => exact ⟨[], rfl, by simp, by simp⟩
  | cons event buffer induction =>
      have unfolded : frontend.arbiterReleaseOrphanedKeys (event :: buffer) =
          (if event.isPress = true ∨ frontend.tracking.getState event.key ≠ .forwarded then frontend
          else (frontend.vkForwardKey event.time event.key false).clearKeyTracking
            event.key).arbiterReleaseOrphanedKeys buffer := rfl
      rw [unfolded]
      split
      · rename_i skipped
        obtain ⟨effects, trace_eq, silent, released⟩ := induction frontend
        refine ⟨effects, trace_eq, silent, fun key => ?_⟩
        rw [released key, List.any_cons]
        by_cases forwarded : frontend.tracking.getState key = .forwarded
        · have not_release : event.releases key = false := by
            rcases skipped with press | other
            · simp [KeyEvent.releases, press]
            · have distinct : event.key ≠ key := fun same => other (same ▸ forwarded)
              simp [KeyEvent.releases, distinct]
          simp [not_release]
        · simp [forwarded]
      · rename_i orphan
        obtain ⟨release, forwarded⟩ := not_or.mp orphan
        obtain ⟨first, first_trace, first_silent, first_released, ready_eq, tracking_eq⟩ :=
          releaseOrphan_sent frontend event
        obtain ⟨effects, trace_eq, silent, released⟩ := induction
          ((frontend.vkForwardKey event.time event.key false).clearKeyTracking event.key)
        refine ⟨effects ++ first, by rw [trace_eq, first_trace, List.append_assoc],
          by simp [silent, first_silent], fun key => ?_⟩
        rw [List.any_append, released key, first_released key, ready_eq, tracking_eq,
          KeyTracking.getState_clearTracking, List.any_cons]
        by_cases same : key = event.key
        · subst same
          simp [KeyEvent.releases, not_not.mp forwarded, release]
        · have distinct : (event.key == key) = false :=
            beq_eq_false_iff_ne.mpr fun equal => same equal.symm
          simp [KeyEvent.releases, same, distinct]

theorem nextEngine_sent (engine : Engine) (frontend : Frontend) :
    ∃ effects, (frontend.nextEngine engine).trace = effects ++ frontend.trace ∧
      .voiceStop ∉ effects ∧ ∀ key, effects.any (Effect.releases key) = false := by
  obtain ⟨effects, trace_eq, text⟩ := (TextFrame.callEngine engine (frontend.log .nextEngine)).sent
  refine ⟨effects ++ [.nextEngine], ?_, ?_, fun key => ?_⟩
  · simpa [nextEngine] using trace_eq
  · intro stopped
    rcases List.mem_append.mp stopped with stopped | stopped
    · exact absurd (text _ stopped) (by simp [Effect.isTextUi])
    · simp at stopped
  · rw [List.any_eq_false]
    intro effect mem
    rcases List.mem_append.mp mem with mem | mem
    · have effect_text := text effect mem
      cases effect <;> simp_all [Effect.isTextUi, Effect.releases]
    · rw [List.mem_singleton.mp mem]
      simp [Effect.releases]

/-- Consuming a buffer releases the forwarded keys released in it, and stops no voice session. -/
theorem arbiterConsume_released (engine : Engine) (frontend : Frontend)
    (buffer : List KeyEvent) :
    ∃ effects,
      OrphansReleased buffer frontend (frontend.arbiterConsume engine buffer) effects := by
  obtain ⟨orphans, trace_eq, silent, released⟩ :=
    arbiterReleaseOrphanedKeys_released frontend buffer
  obtain ⟨switch, switch_trace, switch_silent, switch_released⟩ :=
    nextEngine_sent engine (frontend.arbiterReleaseOrphanedKeys buffer)
  refine ⟨switch ++ orphans, ?_, by simp [silent, switch_silent], fun key => ?_⟩
  · rw [List.append_assoc, ← trace_eq, ← switch_trace]
    rfl
  · rw [List.any_append, switch_released, released, Bool.false_or]

end Frontend

/-! ## Runs -/

/-- A frontend with the key events received since its arbiter started to buffer. -/
structure ChordRun where
  frontend : Frontend
  chord : List KeyEvent

namespace Frontend

/-- The arbiter of the frontend's keyboard is buffering. -/
def isBuffering (frontend : Frontend) : Bool :=
  frontend.keyboard.any fun keyboard => decide (keyboard.arbiter.state = .buffering)

/-- The event completes the chord for which the arbiter is buffering. -/
def completesChord (frontend : Frontend) (event : KeyEvent) : Bool :=
  frontend.keyboard.any fun keyboard => decide (frontend.outcome keyboard event = .consume)

end Frontend

namespace ChordRun

/-- The arbiter receives an event. -/
def step (engine : Engine) (run : ChordRun) (event : KeyEvent) : ChordRun :=
  let frontend := run.frontend.dispatchKey engine event
  { frontend, chord := if frontend.isBuffering then run.chord ++ [event] else [] }

/-- When the chord is completed, every key released meanwhile whose press had been sent to the
application is released there, and a released push-to-talk key stops the voice session. -/
def ReleasesKept (engine : Engine) (run : ChordRun) (event : KeyEvent) : Prop :=
  let sent := run.frontend.sentSince (run.frontend.dispatchKey engine event)
  run.frontend.completesChord event = true →
    ∀ key, (run.chord ++ [event]).any (KeyEvent.releases key) = true →
      (run.frontend.owes key = true → sent.any (Effect.releases key) = true) ∧
      (run.frontend.tracking.getState key = .voicePtt → .voiceStop ∈ sent)

/-- When the chord is completed, no key released meanwhile was held as an application shortcut, as
basic text or for push-to-talk, and every forwarded one has a release among the stored events
while the virtual keyboard is ready. -/
def ReleasesServed (run : ChordRun) (event : KeyEvent) : Prop :=
  run.frontend.completesChord event = true →
    ∀ key, (run.chord ++ [event]).any (KeyEvent.releases key) = true →
      match run.frontend.tracking.getState key with
      | .basicPassthrough | .appShortcut | .voicePtt => False
      | .forwarded => run.frontend.vkIsReady = true ∧
          ((run.chord ++ [event]).take maxBuffered).any (KeyEvent.releases key) = true
      | _ => True

/-- The buffer holds the first events of the chord, as many as there is room for. -/
def Stores (run : ChordRun) : Prop :=
  ∀ keyboard, run.frontend.keyboard = some keyboard →
    match keyboard.arbiter.state with
    | .buffering => keyboard.arbiter.buffer = run.chord.take maxBuffered
    | .idle => keyboard.arbiter.buffer = [] ∧ run.chord = []

theorem push_take (arbiter : KeyArbiter) {chord : List KeyEvent}
    (stored : arbiter.buffer = chord.take maxBuffered) (event : KeyEvent) :
    (arbiter.push event).buffer = (chord ++ [event]).take maxBuffered := by
  by_cases room : chord.length < maxBuffered
  · have whole : chord.take maxBuffered = chord := List.take_of_length_le room.le
    have fits : (chord ++ [event]).length ≤ maxBuffered := by
      rw [List.length_append]
      exact room
    rw [ArbiterRun.push_of_room (by rw [stored, whole]; exact room), stored, whole,
      List.take_of_length_le fits]
  · have full : maxBuffered ≤ chord.length := Nat.not_lt.mp room
    rw [ArbiterRun.push_of_full (by simp [stored, full]), stored, List.take_append_of_le_length full]

theorem isBuffering_of_arbiter {frontend : Frontend} {arbiter : KeyArbiter}
    (arbiter_eq : frontend.keyboard.map (·.arbiter) = some arbiter) :
    frontend.isBuffering = decide (arbiter.state = .buffering) := by
  obtain ⟨keyboard, keyboard_eq, rfl⟩ := Option.map_eq_some_iff.mp arbiter_eq
  simp [Frontend.isBuffering, keyboard_eq]

section Engine

variable (engine : Engine) {run : ChordRun}

theorem step_stores_of_arbiter {event : KeyEvent} {arbiter : KeyArbiter}
    (arbiter_eq : (run.step engine event).frontend.keyboard.map (·.arbiter) = some arbiter)
    (idle : arbiter.state = .idle → arbiter.buffer = [])
    (buffering : arbiter.state = .buffering →
      arbiter.buffer = (run.chord ++ [event]).take maxBuffered) :
    (run.step engine event).Stores := by
  intro keyboard keyboard_eq
  have same : keyboard.arbiter = arbiter := by
    rw [keyboard_eq] at arbiter_eq
    exact Option.some.inj arbiter_eq
  have chord_eq : (run.step engine event).chord =
      if (run.step engine event).frontend.isBuffering then run.chord ++ [event] else [] := rfl
  rw [same, chord_eq, isBuffering_of_arbiter arbiter_eq]
  cases state_eq : arbiter.state with
  | idle => simpa using idle state_eq
  | buffering => simpa using buffering state_eq

theorem step_stores (stores : run.Stores) (event : KeyEvent) : (run.step engine event).Stores := by
  cases keyboard_eq : run.frontend.keyboard with
  | none =>
      have gone : (run.step engine event).frontend.keyboard = none := by
        simp [step, Frontend.dispatchKey, Frontend.arbiterPress, Frontend.arbiterRelease,
          keyboard_eq]
      intro keyboard some_eq
      rw [gone] at some_eq
      exact absurd some_eq (by simp)
  | some keyboard =>
      have stored := stores keyboard keyboard_eq
      have leaves := @ArbiterRun.step_leaves engine ⟨run.frontend, []⟩ keyboard keyboard_eq event
      cases outcome_eq : run.frontend.outcome keyboard event with
      | pass =>
          rw [outcome_eq] at leaves
          have idle := ArbiterRun.idle_of_outcome (.inl outcome_eq)
          rw [idle] at stored
          exact step_stores_of_arbiter engine leaves.arbiter (fun _ => stored.1) (by simp [idle])
      | start =>
          rw [outcome_eq] at leaves
          have idle := ArbiterRun.idle_of_outcome (.inr outcome_eq)
          rw [idle] at stored
          refine step_stores_of_arbiter engine leaves.arbiter ?_ fun _ => ?_
          · simp [ArbiterRun.push_state]
          · exact push_take _ (by simp [stored]) event
      | store =>
          rw [outcome_eq] at leaves
          have buffering : keyboard.arbiter.state = .buffering :=
            ArbiterRun.buffering_of_outcome outcome_eq (by simp) (by simp)
          rw [buffering] at stored
          refine step_stores_of_arbiter engine leaves.arbiter ?_ fun _ => ?_
          · simp [ArbiterRun.push_state, buffering]
          · exact push_take _ stored event
      | replay =>
          rw [outcome_eq] at leaves
          exact step_stores_of_arbiter engine leaves.arbiter (fun _ => rfl) (by simp [KeyArbiter.init])
      | consume =>
          rw [outcome_eq] at leaves
          obtain ⟨routed, leaves⟩ := leaves
          exact step_stores_of_arbiter engine leaves.arbiter (fun _ => rfl) (by simp [KeyArbiter.init])

/-- Completing a chord keeps the promise exactly when every release in it is served. -/
theorem releasesKept_iff (stores : run.Stores) (event : KeyEvent) :
    run.ReleasesKept engine event ↔ run.ReleasesServed event := by
  refine imp_congr_right fun completes => forall_congr' fun key => imp_congr_right fun _ => ?_
  obtain ⟨keyboard, keyboard_eq, outcome_eq⟩ : ∃ keyboard, run.frontend.keyboard = some keyboard ∧
      run.frontend.outcome keyboard event = .consume := by
    simpa [Frontend.completesChord, Option.any_eq_true] using completes
  have dispatched := Frontend.dispatchKey_eq engine keyboard_eq event
  rw [outcome_eq] at dispatched
  have buffering : keyboard.arbiter.state = .buffering :=
    ArbiterRun.buffering_of_outcome outcome_eq (by simp) (by simp)
  have stored := stores keyboard keyboard_eq
  rw [buffering] at stored
  obtain ⟨effects, trace_eq, silent, released⟩ := Frontend.arbiterConsume_released engine
    ((run.frontend.noteKey event).updateArbiter (·.push event)) (keyboard.arbiter.push event).buffer
  have sent : run.frontend.sentSince (run.frontend.dispatchKey engine event) = effects := by
    rw [dispatched]
    exact Frontend.sentSince_eq trace_eq
  have released_key : effects.any (Effect.releases key) =
      (run.frontend.vkIsReady && decide (run.frontend.tracking.getState key = .forwarded) &&
        ((run.chord ++ [event]).take maxBuffered).any (KeyEvent.releases key)) := by
    have ready_eq : ((run.frontend.noteKey event).updateArbiter (·.push event)).vkIsReady =
        run.frontend.vkIsReady := Frontend.vkIsReady_congr rfl rfl
    rw [← push_take _ stored event, ← ready_eq]
    exact released key
  rw [sent, released_key, Frontend.owes]
  cases run.frontend.tracking.getState key <;> simp [KeyTrackState.owed, silent]

/-- In every run of the arbiter a chord loses no release if and only if every release in it is
served: none belongs to an application shortcut, to basic text or to push-to-talk, and those of
forwarded keys are stored while the virtual keyboard is ready. -/
theorem releasesKept_iff_served {start : ChordRun} (stores : start.Stores)
    (events : List KeyEvent) :
    Machine.EachStep (step engine) (ReleasesKept engine) start events ↔
      Machine.EachStep (step engine) ReleasesServed start events :=
  Machine.eachStep_congr Stores (fun _ event stored => releasesKept_iff engine stored event)
    (fun _ event stored => step_stores engine stored event) stores

theorem attended_stores (inst : Instance) (shortcuts : ShortcutConfig) (world : World) :
    Stores ⟨Frontend.attended inst shortcuts world, []⟩ := by
  intro keyboard keyboard_eq
  obtain rfl := Option.some.inj keyboard_eq
  exact ⟨rfl, rfl⟩

theorem releasesKept_iff_served_attended :
    let engine : Engine := fun _ => { handled := false, calls := [], active := some "rime" }
    let start : ChordRun :=
      ⟨Frontend.attended ⟨some "rime", none, false, false⟩ ShortcutConfig.defaults
        (World.obliging 1000), []⟩
    let events : List KeyEvent :=
      [⟨true, 29, Keysym.controlL, 0, 0, 1000⟩, ⟨true, 42, Keysym.shiftL, 2, 0, 1001⟩,
        ⟨false, 42, Keysym.shiftL, 3, 0, 1002⟩, ⟨false, 29, Keysym.controlL, 2, 0, 1003⟩]
    Machine.EachStep (step engine) (ReleasesKept engine) start events ↔
      Machine.EachStep (step engine) ReleasesServed start events :=
  releasesKept_iff_served _ (attended_stores _ _ _) _

end Engine

/-- Ctrl+A is sent to the application, and A is released between pressing and releasing Shift: the
chord is consumed, and the application never sees the release of A. -/
theorem shortcut_release_lost :
    let engine : Engine := fun _ => { handled := false, calls := [], active := some "rime" }
    ¬Machine.EachStep (step engine) (ReleasesKept engine)
      ⟨Frontend.attended ⟨some "rime", none, false, false⟩ ShortcutConfig.defaults
        (World.obliging 1000), []⟩
      [⟨true, 29, Keysym.controlL, 0, 0, 1000⟩, ⟨true, 30, 0x61, 2, 0x61, 1001⟩,
        ⟨true, 42, Keysym.shiftL, 2, 0, 1002⟩, ⟨false, 30, 0x61, 3, 0x61, 1003⟩,
        ⟨false, 42, Keysym.shiftL, 3, 0, 1004⟩, ⟨false, 29, Keysym.controlL, 2, 0, 1005⟩] := by
  intro engine each
  have kept := each
    [⟨true, 29, Keysym.controlL, 0, 0, 1000⟩, ⟨true, 30, 0x61, 2, 0x61, 1001⟩,
      ⟨true, 42, Keysym.shiftL, 2, 0, 1002⟩, ⟨false, 30, 0x61, 3, 0x61, 1003⟩,
      ⟨false, 42, Keysym.shiftL, 3, 0, 1004⟩] ⟨false, 29, Keysym.controlL, 2, 0, 1005⟩
    (List.prefix_refl _) (by decide) 30 (by decide)
  exact absurd (kept.1 (by decide)) (by decide)

end ChordRun

end Typio
