import Mathlib.Data.List.Infix
import Mathlib.Algebra.Group.Nat.Defs
import Typio.Machine
import Typio.Wayland.PrepareRead

/-!
# The watchdog

The event loop stores when its heart beat last, its stage and since when it is in it; the watchdog
thread reads the three, sleeps, reads them again and kills the process if nothing has changed and
the heartbeat is three seconds old.  Both threads go one atomic step at a time, in any order.
-/

namespace Typio

/-- What the watchdog compares. -/
structure WatchSample where
  heartbeat : Nat
  stage : LoopStage
  stageSince : Nat
  deriving DecidableEq

/-- What the loop thread is told to do; the keyboard arms and disarms the watchdog. -/
inductive LoopCall
  | heartbeat
  | setStage (stage : LoopStage)
  | arm (armed : Bool)
  | stop
  deriving DecidableEq

/-- Where the loop thread is in `typio_wl_frontend_watchdog_heartbeat` or
`typio_wl_frontend_watchdog_set_stage`, with the clock it read. -/
inductive LoopPoint
  | idle
  | storesHeartbeat (now : Nat)
  | storesSince (now : Nat)
  | readsClock
  deriving DecidableEq

/-- Where `watchdog_thread` is, with what it has loaded. -/
inductive WatchPoint
  | checksStop
  | sleeps
  | checksArmed
  | loadsHeartbeat
  | loadsStage (heartbeat : Nat)
  | loadsSince (heartbeat : Nat) (stage : LoopStage)
  | compares (sample : WatchSample)
  | readsClock (sample : WatchSample)
  | remembers (sample : WatchSample)
  | stopped
  | killed (now : Nat) (sample : WatchSample)
  deriving DecidableEq

/-- The shared variables, the two threads and the `last_` variables of the watchdog.  For the
statements, `beats` are the clock readings of the heartbeats stored so far, newest first, `seen`
those stored when the watchdog loaded the heartbeat, and `seenLast` those when it did so for what it
remembers. -/
structure Watchdog where
  now : Nat
  shared : WatchSample
  armed : Bool
  stop : Bool
  loop : LoopPoint
  watch : WatchPoint
  last : WatchSample
  beats : List Nat
  seen : List Nat
  seenLast : List Nat

namespace Watchdog

/-- The age from which a heartbeat counts as stuck. -/
def stuckMs : Nat := 3000

/-- `runtime_age_ms`, which has 32 bits. -/
def runtimeAgeMs (now start : Nat) : Nat := if start ≤ now then (now - start) % 2 ^ 32 else 0

/-- `typio_wl_frontend_watchdog_start`: the thread starts with its variables zeroed. -/
def start (now : Nat) : Watchdog where
  now := now
  shared := ⟨0, .idle, 0⟩
  armed := false
  stop := false
  loop := .idle
  watch := .checksStop
  last := ⟨0, .idle, 0⟩
  beats := []
  seen := []
  seenLast := []

variable (dog : Watchdog)

def setShared (shared : WatchSample) : Watchdog := { dog with shared }

def loopGoes (loop : LoopPoint) : Watchdog := { dog with loop }

def watchGoes (watch : WatchPoint) : Watchdog := { dog with watch }

/-- A call of the loop thread, up to its first store. -/
def call : LoopCall → Watchdog
  | .heartbeat => dog.loopGoes (.storesHeartbeat dog.now)
  | .setStage stage => (dog.setShared { dog.shared with stage }).loopGoes .readsClock
  | .arm armed => { dog with armed }
  | .stop => { dog with stop := true }

/-- The next atomic step of the call. -/
def loopStep : Watchdog :=
  match dog.loop with
  | .idle => dog
  | .storesHeartbeat now =>
      { dog with
        shared := { dog.shared with heartbeat := now }
        beats := now :: dog.beats
        loop := .storesSince now }
  | .storesSince now => (dog.setShared { dog.shared with stageSince := now }).loopGoes .idle
  | .readsClock => dog.loopGoes (.storesSince dog.now)

/-- The next atomic step of `watchdog_thread`. -/
def watchStep : Watchdog :=
  match dog.watch with
  | .checksStop => dog.watchGoes (if dog.stop then .stopped else .sleeps)
  | .sleeps => dog.watchGoes .checksArmed
  | .checksArmed => dog.watchGoes (if dog.armed then .loadsHeartbeat else .checksStop)
  | .loadsHeartbeat =>
      { dog with watch := .loadsStage dog.shared.heartbeat, seen := dog.beats }
  | .loadsStage heartbeat => dog.watchGoes (.loadsSince heartbeat dog.shared.stage)
  | .loadsSince heartbeat stage =>
      dog.watchGoes (.compares ⟨heartbeat, stage, dog.shared.stageSince⟩)
  | .compares sample =>
      dog.watchGoes (if sample = dog.last then .readsClock sample else .remembers sample)
  | .readsClock sample =>
      dog.watchGoes (if stuckMs ≤ runtimeAgeMs dog.now sample.heartbeat then
        .killed dog.now sample else .remembers sample)
  | .remembers sample =>
      { dog with watch := .checksStop, last := sample, seenLast := dog.seen }
  | .stopped => dog
  | .killed _ _ => dog

inductive Event
  | elapse (ms : Nat)
  /-- The loop thread calls once its last call is done. -/
  | call (call : LoopCall)
  | loop
  | watch
  deriving DecidableEq

/-- A killed process does nothing any more. -/
def step (dog : Watchdog) : Event → Watchdog
  | .elapse ms => { dog with now := dog.now + ms }
  | .call call =>
      match dog.watch, dog.loop with
      | .killed _ _, _ => dog
      | _, .idle => dog.call call
      | _, _ => dog
  | .loop =>
      match dog.watch with
      | .killed _ _ => dog
      | _ => dog.loopStep
  | .watch => dog.watchStep

/-! ## A kill is justified -/

/-- The heartbeat loaded in the round of the watchdog. -/
def loaded : WatchPoint → Option Nat
  | .loadsStage heartbeat | .loadsSince heartbeat _ => some heartbeat
  | .compares sample | .readsClock sample | .remembers sample | .killed _ sample =>
      some sample.heartbeat
  | .checksStop | .sleeps | .checksArmed | .loadsHeartbeat | .stopped => none

/-- When the heartbeat was loaded, the older readings were stored and none of them was later; what
was stored since is no earlier. -/
structure Splits (heartbeat : Nat) (older readings : List Nat) : Prop where
  top : ∀ reading ∈ older, reading ≤ heartbeat
  since : ∃ newer, readings = newer ++ older ∧ ∀ reading ∈ newer, heartbeat ≤ reading

theorem Splits.cons {heartbeat : Nat} {older readings : List Nat}
    (splits : Splits heartbeat older readings) {reading : Nat} (later : heartbeat ≤ reading) :
    Splits heartbeat older (reading :: readings) := by
  obtain ⟨newer, rfl, each⟩ := splits.since
  exact ⟨splits.top, reading :: newer, rfl, List.forall_mem_cons.mpr ⟨later, each⟩⟩

theorem Splits.refl {heartbeat : Nat} {readings : List Nat}
    (top : ∀ reading ∈ readings, reading ≤ heartbeat) : Splits heartbeat readings readings :=
  ⟨top, [], rfl, by simp⟩

/-- Readings which are neither later nor earlier are the heartbeat. -/
theorem Splits.same {heartbeat : Nat} {older readings : List Nat}
    (splits : Splits heartbeat older readings) (top : ∀ reading ∈ readings, reading ≤ heartbeat) :
    ∃ newer, readings = newer ++ older ∧ ∀ reading ∈ newer, reading = heartbeat := by
  obtain ⟨newer, rfl, each⟩ := splits.since
  refine ⟨newer, rfl, ?_⟩
  intro reading member
  exact Nat.le_antisymm (top reading (List.mem_append_left _ member)) (each reading member)

/-- What the watchdog has loaded in this round. -/
structure Loaded (dog : Watchdog) (heartbeat : Nat) : Prop where
  current : heartbeat ≤ dog.shared.heartbeat
  later : dog.last.heartbeat ≤ heartbeat
  splits : Splits heartbeat dog.seen dog.beats
  splitsLast : Splits dog.last.heartbeat dog.seenLast dog.seen

structure Honest : Prop where
  newest : ∀ reading ∈ dog.beats, reading ≤ dog.shared.heartbeat
  past : dog.shared.heartbeat ≤ dog.now
  pending : ∀ now, dog.loop = .storesHeartbeat now → dog.shared.heartbeat ≤ now ∧ now ≤ dog.now
  lastCurrent : dog.last.heartbeat ≤ dog.shared.heartbeat
  splitsLast : Splits dog.last.heartbeat dog.seenLast dog.beats
  loaded : ∀ heartbeat ∈ loaded dog.watch, dog.Loaded heartbeat
  compared : ∀ sample, dog.watch = .readsClock sample → sample = dog.last
  killed : ∀ now sample, dog.watch = .killed now sample →
    sample = dog.last ∧ sample.heartbeat + stuckMs ≤ now

theorem start_honest (now : Nat) : (start now).Honest where
  newest := by simp [start]
  past := Nat.zero_le now
  pending := nofun
  lastCurrent := Nat.le_refl _
  splitsLast := ⟨by simp [start], [], rfl, by simp⟩
  loaded := nofun
  compared := nofun
  killed := nofun

section Steps

variable {dog}

theorem Honest.elapse (honest : dog.Honest) (ms : Nat) :
    ({ dog with now := dog.now + ms } : Watchdog).Honest where
  newest := honest.newest
  past := Nat.le_add_right_of_le honest.past
  pending now point :=
    ⟨(honest.pending now point).1, Nat.le_add_right_of_le (honest.pending now point).2⟩
  lastCurrent := honest.lastCurrent
  splitsLast := honest.splitsLast
  loaded heartbeat member :=
    ⟨(honest.loaded heartbeat member).current, (honest.loaded heartbeat member).later,
      (honest.loaded heartbeat member).splits, (honest.loaded heartbeat member).splitsLast⟩
  compared := honest.compared
  killed := honest.killed

/-- The loop thread changes neither the heartbeat nor what the watchdog has. -/
theorem Honest.of_same (honest : dog.Honest) {after : Watchdog}
    (heartbeat : after.shared.heartbeat = dog.shared.heartbeat) (now : after.now = dog.now)
    (watch : after.watch = dog.watch) (last : after.last = dog.last)
    (beats : after.beats = dog.beats) (seen : after.seen = dog.seen)
    (seenLast : after.seenLast = dog.seenLast)
    (pending : ∀ reading, after.loop = .storesHeartbeat reading → reading = dog.now) :
    after.Honest where
  newest := by rw [beats, heartbeat]; exact honest.newest
  past := by rw [now, heartbeat]; exact honest.past
  pending := by
    intro reading point
    rw [pending reading point, now, heartbeat]
    exact ⟨honest.past, Nat.le_refl _⟩
  lastCurrent := by rw [last, heartbeat]; exact honest.lastCurrent
  splitsLast := by rw [last, seenLast, beats]; exact honest.splitsLast
  loaded := by
    rw [watch]
    intro loaded member
    have before := honest.loaded loaded member
    refine ⟨?_, ?_, ?_, ?_⟩
    · rw [heartbeat]; exact before.current
    · rw [last]; exact before.later
    · rw [seen, beats]; exact before.splits
    · rw [last, seenLast, seen]; exact before.splitsLast
  compared := by rw [watch, last]; exact honest.compared
  killed := by rw [watch, last]; exact honest.killed

theorem Honest.call (honest : dog.Honest) (idle : dog.loop = .idle) (call : LoopCall) :
    (dog.call call).Honest := by
  have nothing : ∀ reading, dog.loop = .storesHeartbeat reading → reading = dog.now := by
    intro reading point
    rw [idle] at point
    cases point
  cases call with
  | heartbeat =>
      refine honest.of_same rfl rfl rfl rfl rfl rfl rfl ?_
      intro reading point
      exact (LoopPoint.storesHeartbeat.inj point).symm
  | setStage stage =>
      exact honest.of_same rfl rfl rfl rfl rfl rfl rfl nofun
  | arm armed => exact honest.of_same rfl rfl rfl rfl rfl rfl rfl nothing
  | stop => exact honest.of_same rfl rfl rfl rfl rfl rfl rfl nothing

theorem Honest.loopStep (honest : dog.Honest) : dog.loopStep.Honest := by
  rw [Watchdog.loopStep]
  split
  next => exact honest
  next reading point =>
    obtain ⟨later, past⟩ := honest.pending reading point
    have newest : ∀ other ∈ reading :: dog.beats, other ≤ reading := by
      rw [List.forall_mem_cons]
      refine ⟨Nat.le_refl _, ?_⟩
      intro other member
      exact (honest.newest other member).trans later
    refine ⟨newest, past, nofun, honest.lastCurrent.trans later, ?_, ?_, honest.compared,
      honest.killed⟩
    · exact honest.splitsLast.cons (honest.lastCurrent.trans later)
    · intro heartbeat member
      have before := honest.loaded heartbeat member
      exact ⟨before.current.trans later, before.later,
        before.splits.cons (before.current.trans later), before.splitsLast⟩
  next => exact honest.of_same rfl rfl rfl rfl rfl rfl rfl nofun
  next => exact honest.of_same rfl rfl rfl rfl rfl rfl rfl nofun

/-- The watchdog goes on with what it has loaded. -/
theorem Honest.watchGoes (honest : dog.Honest) {watch : WatchPoint}
    (same : ∀ heartbeat ∈ Watchdog.loaded watch, heartbeat ∈ Watchdog.loaded dog.watch)
    (compared : ∀ sample, watch = .readsClock sample → sample = dog.last)
    (killed : ∀ now sample, watch = .killed now sample →
      sample = dog.last ∧ sample.heartbeat + stuckMs ≤ now) :
    (dog.watchGoes watch).Honest where
  newest := honest.newest
  past := honest.past
  pending := honest.pending
  lastCurrent := honest.lastCurrent
  splitsLast := honest.splitsLast
  loaded heartbeat member :=
    have before := honest.loaded heartbeat (same heartbeat member)
    ⟨before.current, before.later, before.splits, before.splitsLast⟩
  compared := compared
  killed := killed

theorem stuck_of_age {now heartbeat : Nat} (old : stuckMs ≤ runtimeAgeMs now heartbeat) :
    heartbeat + stuckMs ≤ now := by
  rw [runtimeAgeMs] at old
  split at old
  next past =>
    have shorter := old.trans (Nat.mod_le _ _)
    omega
  next =>
    cases old

theorem Honest.watchStep (honest : dog.Honest) : dog.watchStep.Honest := by
  rw [Watchdog.watchStep]
  split
  next => split <;> exact honest.watchGoes nofun nofun nofun
  next => exact honest.watchGoes nofun nofun nofun
  next => split <;> exact honest.watchGoes nofun nofun nofun
  next =>
    refine ⟨honest.newest, honest.past, honest.pending, honest.lastCurrent, honest.splitsLast, ?_,
      nofun, nofun⟩
    intro heartbeat member
    obtain rfl := Option.some.inj member
    exact ⟨Nat.le_refl _, honest.lastCurrent, .refl honest.newest, honest.splitsLast⟩
  next heartbeat point =>
    refine honest.watchGoes ?_ nofun nofun
    rw [point]
    exact fun _ member => member
  next heartbeat stage point =>
    refine honest.watchGoes ?_ nofun nofun
    rw [point]
    exact fun _ member => member
  next sample point =>
    split
    next same =>
      refine honest.watchGoes ?_ ?_ nofun
      · rw [point]
        exact fun _ member => member
      · rintro other ⟨⟩
        exact same
    next =>
      refine honest.watchGoes ?_ nofun nofun
      rw [point]
      exact fun _ member => member
  next sample point =>
    split
    next old =>
      refine honest.watchGoes ?_ nofun ?_
      · rw [point]
        exact fun _ member => member
      · rintro now other ⟨⟩
        exact ⟨honest.compared sample point, stuck_of_age old⟩
    next =>
      refine honest.watchGoes ?_ nofun nofun
      rw [point]
      exact fun _ member => member
  next sample point =>
    have before := honest.loaded sample.heartbeat (by rw [point]; rfl)
    exact ⟨honest.newest, honest.past, honest.pending, before.current, before.splits, nofun, nofun,
      nofun⟩
  next => exact honest
  next => exact honest

theorem Honest.step (honest : dog.Honest) (event : Event) : (dog.step event).Honest := by
  cases event with
  | elapse ms => exact honest.elapse ms
  | call call =>
      simp only [Watchdog.step]
      split
      · exact honest
      · next idle _ => exact honest.call idle call
      · exact honest
  | loop =>
      simp only [Watchdog.step]
      split
      · exact honest
      · exact honest.loopStep
  | watch => exact honest.watchStep

end Steps

/-! ## A stuck loop is killed -/

/-- The moves it takes to remember what is stored. -/
def memory : Nat := if dog.last = dog.shared then 0 else 9

/-- How many moves of the watchdog from here a loop which stores nothing can survive. -/
def patience : WatchPoint → Nat
  | .checksStop => 9 + dog.memory
  | .sleeps => 8 + dog.memory
  | .checksArmed => 7 + dog.memory
  | .loadsHeartbeat => 6 + dog.memory
  | .loadsStage heartbeat => if heartbeat = dog.shared.heartbeat then 5 + dog.memory else 23
  | .loadsSince heartbeat stage =>
      if heartbeat = dog.shared.heartbeat ∧ stage = dog.shared.stage then 4 + dog.memory else 22
  | .compares sample => if sample = dog.shared then 3 + dog.memory else 21
  | .readsClock sample => if sample = dog.shared then 2 else 20
  | .remembers sample => if sample = dog.shared then 10 else 19
  | .stopped | .killed _ _ => 0

/-- The watchdog watches a loop whose heartbeat is too old. -/
structure Stuck : Prop where
  armed : dog.armed = true
  runs : dog.stop = false
  old : dog.shared.heartbeat + stuckMs ≤ dog.now
  watches : dog.watch ≠ .stopped

section Stuck

variable {dog}

theorem memory_le : dog.memory ≤ 9 := by
  rw [memory]
  split <;> omega

theorem patience_le (watch : WatchPoint) : dog.patience watch ≤ 23 := by
  have memory := dog.memory_le
  cases watch <;> simp only [patience] <;> (try split) <;> omega

theorem killed_of_patience (watches : dog.watch ≠ .stopped)
    (spent : dog.patience dog.watch = 0) : ∃ kill sample, dog.watch = .killed kill sample := by
  cases point : dog.watch with
  | stopped => exact absurd point watches
  | killed kill sample => exact ⟨kill, sample, rfl⟩
  | _ =>
      rw [point] at spent
      simp only [patience] at spent
      (try split at spent) <;> omega

theorem Stuck.elapse (stuck : dog.Stuck) (ms : Nat) :
    ({ dog with now := dog.now + ms } : Watchdog).Stuck :=
  ⟨stuck.armed, stuck.runs, Nat.le_add_right_of_le stuck.old, stuck.watches⟩

theorem Stuck.watchStep (stuck : dog.Stuck) : dog.watchStep.Stuck := by
  obtain ⟨armed, runs, old, watches⟩ := stuck
  rw [Watchdog.watchStep]
  split
  next => exact ⟨armed, runs, old, by simp [watchGoes, runs]⟩
  next => exact ⟨armed, runs, old, nofun⟩
  next => exact ⟨armed, runs, old, by simp [watchGoes, armed]⟩
  next => exact ⟨armed, runs, old, nofun⟩
  next => exact ⟨armed, runs, old, nofun⟩
  next => exact ⟨armed, runs, old, nofun⟩
  next => split <;> exact ⟨armed, runs, old, nofun⟩
  next => split <;> exact ⟨armed, runs, old, nofun⟩
  next => exact ⟨armed, runs, old, nofun⟩
  next point => exact absurd point watches
  next => exact ⟨armed, runs, old, watches⟩

theorem runtimeAgeMs_of_young (old : dog.shared.heartbeat + stuckMs ≤ dog.now)
    (young : dog.now < dog.shared.heartbeat + 2 ^ 32) :
    stuckMs ≤ runtimeAgeMs dog.now dog.shared.heartbeat := by
  rw [runtimeAgeMs, if_pos (by omega), Nat.mod_eq_of_lt (by omega)]
  omega

/-- A move of the watchdog costs one. -/
theorem Stuck.patience_watchStep (stuck : dog.Stuck)
    (young : dog.now < dog.shared.heartbeat + 2 ^ 32) :
    dog.watchStep.patience dog.watchStep.watch ≤ dog.patience dog.watch - 1 := by
  have age := runtimeAgeMs_of_young stuck.old young
  have memory := dog.memory_le
  have goes : ∀ watch, (dog.watchGoes watch).patience (dog.watchGoes watch).watch =
      dog.patience watch := fun _ => rfl
  have remembered : ∀ sample, dog.watch = .remembers sample →
      dog.watchStep.patience dog.watchStep.watch =
        9 + if sample = dog.shared then 0 else 9 := by
    intro sample point
    rw [Watchdog.watchStep, point]
    rfl
  cases point : dog.watch with
  | remembers sample =>
      rw [remembered sample point, patience]
      split <;> omega
  | checksStop =>
      rw [Watchdog.watchStep, point, goes, stuck.runs, if_neg Bool.false_ne_true, patience,
        patience]
      omega
  | checksArmed =>
      rw [Watchdog.watchStep, point, goes, stuck.armed, if_pos rfl, patience, patience]
      omega
  | sleeps =>
      rw [Watchdog.watchStep, point, goes, patience, patience]
      omega
  | loadsHeartbeat =>
      have loads : dog.watchStep.patience dog.watchStep.watch = 5 + dog.memory := by
        rw [Watchdog.watchStep, point]
        exact if_pos rfl
      rw [loads, patience]
      omega
  | loadsStage heartbeat =>
      rw [Watchdog.watchStep, point, goes, patience, patience]
      simp only [and_true]
      split <;> omega
  | loadsSince heartbeat stage =>
      rw [Watchdog.watchStep, point, goes, patience, patience]
      have same : (⟨heartbeat, stage, dog.shared.stageSince⟩ : WatchSample) = dog.shared ↔
          heartbeat = dog.shared.heartbeat ∧ stage = dog.shared.stage := by
        cases dog.shared
        simp
      simp only [same]
      split <;> omega
  | compares sample =>
      rw [Watchdog.watchStep, point, goes, patience]
      rcases eq_or_ne sample dog.shared with rfl | differs
      · rw [if_pos rfl, Watchdog.memory]
        split
        next same => simp [patience, same]
        next other => simp [patience, Ne.symm other]
      · rw [if_neg differs]
        split
        · rw [patience, if_neg differs]
        · rw [patience, if_neg differs]
          omega
  | readsClock sample =>
      rw [Watchdog.watchStep, point, goes, patience]
      rcases eq_or_ne sample dog.shared with rfl | differs
      · rw [if_pos age]
        exact Nat.zero_le _
      · rw [if_neg differs]
        split
        · exact Nat.zero_le _
        · rw [patience, if_neg differs]
  | stopped => exact absurd point stuck.watches
  | killed kill sample =>
      rw [Watchdog.watchStep, point, point]
      exact Nat.zero_le _

theorem watchStep_now : dog.watchStep.now = dog.now ∧ dog.watchStep.shared = dog.shared := by
  rw [Watchdog.watchStep]
  split <;> exact ⟨rfl, rfl⟩

/-- Nothing but time and the watchdog goes on. -/
def Quiet (events : List Event) : Prop :=
  ∀ event ∈ events, event = .watch ∨ ∃ ms, event = .elapse ms

theorem run_quiet {events : List Event} (quiet : Quiet events) :
    dog.now ≤ (Machine.run step dog events).now ∧
      (Machine.run step dog events).shared = dog.shared := by
  induction events generalizing dog with
  | nil => exact ⟨Nat.le_refl _, rfl⟩
  | cons event events ih =>
      obtain ⟨first, rest⟩ := List.forall_mem_cons.mp quiet
      obtain ⟨later, same⟩ : (dog.step event).now ≤ (Machine.run step (dog.step event) events).now ∧
          (Machine.run step (dog.step event) events).shared = (dog.step event).shared := ih rest
      rw [Machine.run_cons]
      rcases first with rfl | ⟨ms, rfl⟩
      · exact ⟨watchStep_now.1.symm.le.trans later, same.trans watchStep_now.2⟩
      · exact ⟨(Nat.le_add_right _ _).trans later, same⟩

theorem Stuck.run (stuck : dog.Stuck) {events : List Event} (quiet : Quiet events)
    (young : (Machine.run Watchdog.step dog events).now < dog.shared.heartbeat + 2 ^ 32) :
    let after := Machine.run Watchdog.step dog events
    after.Stuck ∧ after.patience after.watch ≤ dog.patience dog.watch - events.count .watch := by
  induction events generalizing dog with
  | nil => exact ⟨stuck, Nat.le_refl _⟩
  | cons event events ih =>
      obtain ⟨first, rest⟩ := List.forall_mem_cons.mp quiet
      have now : (dog.step event).now ≤ (Machine.run Watchdog.step (dog.step event) events).now :=
        (run_quiet rest).1
      rw [Machine.run_cons] at young ⊢
      rcases first with rfl | ⟨ms, rfl⟩
      · have goes := stuck.patience_watchStep (watchStep_now.1.symm.le.trans now |>.trans_lt young)
        obtain ⟨still, fewer⟩ := ih stuck.watchStep rest (by rw [watchStep_now.2]; exact young)
        refine ⟨still, fewer.trans ?_⟩
        rw [List.count_cons_self]
        omega
      · obtain ⟨still, fewer⟩ := ih (stuck.elapse ms) rest young
        exact ⟨still, by rwa [List.count_cons_of_ne (by simp)]⟩

end Stuck

/-- A loop whose heartbeat is three seconds old and which stores nothing is killed by the time the
watchdog has made 23 moves, however they and the time come one after the other. -/
theorem stuck_loop_is_killed (stuck : dog.Stuck) (events : List Event) (quiet : Quiet events)
    (young : (Machine.run step dog events).now < dog.shared.heartbeat + 2 ^ 32)
    (moves : 23 ≤ events.count .watch) :
    ∃ kill sample, (Machine.run step dog events).watch = .killed kill sample := by
  obtain ⟨still, fewer⟩ := stuck.run quiet young
  apply killed_of_patience still.watches
  have most := dog.patience_le dog.watch
  omega

/-- The loop beats once, is armed, and the watchdog runs on after three seconds. -/
theorem stuck_loop_is_killed_once :
    let dog := Machine.run step (start 0)
      [.call .heartbeat, .loop, .loop, .call (.arm true), .elapse 3000]
    ∃ kill sample, (Machine.run step dog (List.replicate 23 .watch)).watch =
      .killed kill sample :=
  stuck_loop_is_killed _ ⟨rfl, rfl, by decide, by decide⟩ _
    (fun _ member => .inl (List.eq_of_mem_replicate member)) (by decide) (by decide)

end Watchdog

end Typio
