import Mathlib.Algebra.Group.Nat.Defs
import Mathlib.Data.List.Pairwise
import Typio.Machine

/-!
# Noticing that the system was suspended

A suspend is noticed twice: by the tick of the event loop, which compares a clock that stops during
the suspend with one that does not, and by the signal of logind.  Whatever is noticed within a
cooldown after the last call of the callback counts as the same suspend.  Each suspend is handled
once if and only if both notices of it come within one cooldown, and the notices of two suspends do
not.
-/

namespace Typio

namespace Resume

/-- `TYPIO_WL_RESUME_GAP_THRESHOLD_MS`. -/
def gapThresholdMs : Nat := 2000

/-- `TYPIO_WL_RESUME_COOLDOWN_MS`. -/
def cooldownMs : Nat := 5000

/-! ## The detector -/

/-- `typio_wl_resume_gap_exceeded`, with the gap. -/
def gapExceeded (monoDeltaMs bootDeltaMs thresholdMs : Nat) : Bool × Nat :=
  if bootDeltaMs ≤ monoDeltaMs then (false, 0)
  else (thresholdMs ≤ bootDeltaMs - monoDeltaMs, bootDeltaMs - monoDeltaMs)

/-- The difference of two times in 64 bits. -/
def elapsedMs (nowMs lastMs : Nat) : Nat :=
  if lastMs ≤ nowMs then nowMs - lastMs else nowMs + 2 ^ 64 - lastMs

/-- `typio_wl_resume_in_cooldown`. -/
def inCooldown (nowMs lastFireMs cooldownMs : Nat) : Bool :=
  lastFireMs != 0 && elapsedMs nowMs lastFireMs < cooldownMs

/-- `TypioWlResumeSignal`. -/
structure ResumeSignal where
  lastMonotonicMs : Nat
  lastBoottimeMs : Nat
  lastFireMonotonicMs : Nat

inductive ResumeSource
  | logind
  | boottimeGap
  deriving DecidableEq

/-- The two clocks, the detector, and the calls of the callback with what they were told, newest
first. -/
structure World where
  monotonicMs : Nat
  boottimeMs : Nat
  signal : ResumeSignal
  calls : List (ResumeSource × Nat)

namespace World

/-- `typio_wl_resume_signal_create`. -/
def create (monotonicMs boottimeMs : Nat) : World where
  monotonicMs := monotonicMs
  boottimeMs := boottimeMs
  signal :=
    { lastMonotonicMs := monotonicMs, lastBoottimeMs := boottimeMs, lastFireMonotonicMs := 0 }
  calls := []

/-- `resume_signal_fire`. -/
def fire (world : World) (reason : ResumeSource) (sleepMs : Nat) : World :=
  if inCooldown world.monotonicMs world.signal.lastFireMonotonicMs cooldownMs then world
  else
    { world with
      signal := { world.signal with lastFireMonotonicMs := world.monotonicMs }
      calls := (reason, sleepMs) :: world.calls }

/-- The clocks are read and kept. -/
def sample (world : World) : World :=
  { world with
    signal := { world.signal with
      lastMonotonicMs := world.monotonicMs, lastBoottimeMs := world.boottimeMs } }

/-- `typio_wl_resume_signal_tick`. -/
def tick (world : World) : World :=
  let last := world.signal
  if last.lastMonotonicMs = 0 ∨ last.lastBoottimeMs = 0 then world.sample
  else
    let gap := gapExceeded (world.monotonicMs - last.lastMonotonicMs)
      (world.boottimeMs - last.lastBoottimeMs) gapThresholdMs
    if gap.1 then world.sample.fire .boottimeGap gap.2 else world.sample

end World

/-! ## Histories -/

/-- What happens while the system is awake: time passes, the event loop ticks, or logind sends
`PrepareForSleep`. -/
inductive AwakeEvent
  | elapse (ms : Nat)
  | tick
  | prepareForSleep (goingToSleep : Bool)
  deriving DecidableEq

/-- Both clocks go on while the system is awake. -/
def World.awake (world : World) : AwakeEvent → World
  | .elapse ms =>
      { world with
        monotonicMs := world.monotonicMs + ms, boottimeMs := world.boottimeMs + ms }
  | .tick => world.tick
  | .prepareForSleep true => world
  | .prepareForSleep false => world.fire .logind 0

/-- A suspend and what happens until the next one: there is a tick, and logind reports the end of
the suspend at most once. -/
structure Suspension where
  lastsMs : Nat
  awake : List AwakeEvent
  long : gapThresholdMs ≤ lastsMs
  ticks : .tick ∈ awake
  reported : awake.count (.prepareForSleep false) ≤ 1

/-- Only one of the clocks goes on during the suspend. -/
def World.suspension (world : World) (suspension : Suspension) : World :=
  Machine.run World.awake { world with boottimeMs := world.boottimeMs + suspension.lastsMs }
    suspension.awake

/-- The clocks when the detector is created, what happens before the first suspend, and the
suspends. -/
structure History where
  monotonicMs : Nat
  boottimeMs : Nat
  before : List AwakeEvent
  suspensions : List Suspension
  monotonic_pos : 0 < monotonicMs
  boottime_pos : 0 < boottimeMs
  unreported : .prepareForSleep false ∉ before

def History.start (history : History) : World :=
  Machine.run World.awake (World.create history.monotonicMs history.boottimeMs) history.before

/-- The callback is called once for each suspend, and not before the first one. -/
def HandledOnce (history : History) : Prop :=
  history.start.calls = [] ∧
    Machine.EachStep World.suspension
      (fun world suspension =>
        (world.suspension suspension).calls.length = world.calls.length + 1)
      history.start history.suspensions

/-! ## When suspends are noticed -/

/-- The time which passes while the system is awake. -/
def awakeMs : List AwakeEvent → Nat
  | [] => 0
  | .elapse ms :: events => ms + awakeMs events
  | .tick :: events | .prepareForSleep _ :: events => awakeMs events

/-- The times at which a suspend is noticed: by the first tick after it, if there is one to come,
and by the report of logind. -/
def notices : (monotonicMs : Nat) → (pending : Bool) → List AwakeEvent → List Nat
  | _, _, [] => []
  | now, pending, .elapse ms :: events => notices (now + ms) pending events
  | now, true, .tick :: events => now :: notices now false events
  | now, false, .tick :: events => notices now false events
  | now, pending, .prepareForSleep true :: events => notices now pending events
  | now, pending, .prepareForSleep false :: events => now :: notices now pending events

namespace Suspension

variable (suspension : Suspension)

def firstNotice (monotonicMs : Nat) : Nat :=
  (notices monotonicMs true suspension.awake).headD monotonicMs

def lastNotice (monotonicMs : Nat) : Nat :=
  (notices monotonicMs true suspension.awake).getLastD monotonicMs

end Suspension

/-- The cooldown after the notice which was handled last is over. -/
def Rested (handled : Option Nat) (now : Nat) : Prop := ∀ time ∈ handled, time + cooldownMs ≤ now

/-- The notices are spaced so that each suspend is handled once: by its first notice if the cooldown
is over then, and the other notice comes within the next cooldown; otherwise by the other notice,
when the cooldown is over. -/
def Spaced : (handled : Option Nat) → (monotonicMs : Nat) → List Suspension → Prop
  | _, _, [] => True
  | handled, now, suspension :: suspensions =>
      Rested handled (suspension.firstNotice now) ∧
          suspension.lastNotice now < suspension.firstNotice now + cooldownMs ∧
          Spaced (some (suspension.firstNotice now)) (now + awakeMs suspension.awake)
            suspensions ∨
        ¬Rested handled (suspension.firstNotice now) ∧
          Rested handled (suspension.lastNotice now) ∧
          Spaced (some (suspension.lastNotice now)) (now + awakeMs suspension.awake) suspensions

/-! ## One notice -/

/-- When the callback was called last, and how often it was called. -/
def World.tally (world : World) : Nat × Nat :=
  (world.signal.lastFireMonotonicMs, world.calls.length)

/-- A notice at the time changes the tally unless the cooldown suppresses it. -/
def attempt (tally : Nat × Nat) (now : Nat) : Nat × Nat :=
  if inCooldown now tally.1 cooldownMs then tally else (now, tally.2 + 1)

theorem World.fire_tally (world : World) (reason : ResumeSource) (sleepMs : Nat) :
    (world.fire reason sleepMs).tally = attempt world.tally world.monotonicMs := by
  unfold World.fire attempt World.tally
  split <;> rfl

/-- The detector has read the clocks: since then they went on together, or there was a suspend. -/
structure Sampled (pending : Bool) (world : World) : Prop where
  monotonic_pos : 0 < world.signal.lastMonotonicMs
  boottime_pos : 0 < world.signal.lastBoottimeMs
  monotonic_le : world.signal.lastMonotonicMs ≤ world.monotonicMs
  boottime_le : world.signal.lastBoottimeMs ≤ world.boottimeMs
  together : pending = false →
    world.boottimeMs + world.signal.lastMonotonicMs =
      world.monotonicMs + world.signal.lastBoottimeMs
  apart : pending = true →
    world.monotonicMs + world.signal.lastBoottimeMs + gapThresholdMs ≤
      world.boottimeMs + world.signal.lastMonotonicMs

theorem Sampled.fire {pending : Bool} {world : World} (sampled : Sampled pending world)
    (reason : ResumeSource) (sleepMs : Nat) : Sampled pending (world.fire reason sleepMs) := by
  unfold World.fire
  split
  · exact sampled
  · exact ⟨sampled.monotonic_pos, sampled.boottime_pos, sampled.monotonic_le, sampled.boottime_le,
      sampled.together, sampled.apart⟩

theorem Sampled.sample {pending : Bool} {world : World} (sampled : Sampled pending world) :
    Sampled false world.sample where
  monotonic_pos := Nat.lt_of_lt_of_le sampled.monotonic_pos sampled.monotonic_le
  boottime_pos := Nat.lt_of_lt_of_le sampled.boottime_pos sampled.boottime_le
  monotonic_le := le_rfl
  boottime_le := le_rfl
  together _ := Nat.add_comm ..
  apart := nofun

theorem Sampled.suspend {world : World} (sampled : Sampled false world) {lastsMs : Nat}
    (long : gapThresholdMs ≤ lastsMs) :
    Sampled true { world with boottimeMs := world.boottimeMs + lastsMs } where
  monotonic_pos := sampled.monotonic_pos
  boottime_pos := sampled.boottime_pos
  monotonic_le := sampled.monotonic_le
  boottime_le := Nat.le_add_right_of_le sampled.boottime_le
  together := nofun
  apart _ := by
    have same := sampled.together rfl
    dsimp only
    omega

theorem Sampled.elapse {pending : Bool} {world : World} (sampled : Sampled pending world)
    (ms : Nat) : Sampled pending (world.awake (.elapse ms)) where
  monotonic_pos := sampled.monotonic_pos
  boottime_pos := sampled.boottime_pos
  monotonic_le := Nat.le_add_right_of_le sampled.monotonic_le
  boottime_le := Nat.le_add_right_of_le sampled.boottime_le
  together settled := by
    have same := sampled.together settled
    dsimp only [World.awake]
    omega
  apart waiting := by
    have far := sampled.apart waiting
    dsimp only [World.awake]
    omega

/-- A tick notices exactly a suspend which was not noticed by a tick before. -/
theorem Sampled.tick_eq {pending : Bool} {world : World} (sampled : Sampled pending world) :
    (pending = false → world.tick = world.sample) ∧
      (pending = true → ∃ sleepMs, world.tick = world.sample.fire .boottimeGap sleepMs) := by
  have started : ¬(world.signal.lastMonotonicMs = 0 ∨ world.signal.lastBoottimeMs = 0) := by
    have := sampled.monotonic_pos
    have := sampled.boottime_pos
    omega
  have := sampled.monotonic_le
  have := sampled.boottime_le
  constructor
  · intro settled
    have same := sampled.together settled
    have none : gapExceeded (world.monotonicMs - world.signal.lastMonotonicMs)
        (world.boottimeMs - world.signal.lastBoottimeMs) gapThresholdMs = (false, 0) :=
      if_pos (by omega)
    simp [World.tick, started, none]
  · intro waiting
    have far := sampled.apart waiting
    have gap : gapExceeded (world.monotonicMs - world.signal.lastMonotonicMs)
        (world.boottimeMs - world.signal.lastBoottimeMs) gapThresholdMs = (_, _) :=
      if_neg (by unfold gapThresholdMs at far; omega)
    have long : gapThresholdMs ≤ world.boottimeMs - world.signal.lastBoottimeMs -
        (world.monotonicMs - world.signal.lastMonotonicMs) := by omega
    refine ⟨world.boottimeMs - world.signal.lastBoottimeMs -
      (world.monotonicMs - world.signal.lastMonotonicMs), ?_⟩
    simp [World.tick, started, gap, long]

/-! ## The time between two suspends -/

/-- The tally after a while awake is the one after the notices of that while. -/
theorem Sampled.run {pending : Bool} {world : World} (sampled : Sampled pending world)
    (events : List AwakeEvent) :
    (Machine.run World.awake world events).tally =
        (notices world.monotonicMs pending events).foldl attempt world.tally ∧
      (Machine.run World.awake world events).monotonicMs = world.monotonicMs + awakeMs events ∧
      Sampled (pending && decide (.tick ∉ events)) (Machine.run World.awake world events) := by
  induction events generalizing pending world with
  | nil => exact ⟨rfl, rfl, by simpa using sampled⟩
  | cons event events induction =>
      rw [Machine.run_cons]
      cases event with
      | elapse ms =>
          obtain ⟨tally, time, after⟩ := induction (sampled.elapse ms)
          refine ⟨tally, time.trans (Nat.add_assoc ..), ?_⟩
          simpa using after
      | prepareForSleep goingToSleep =>
          cases goingToSleep with
          | true =>
              obtain ⟨tally, time, after⟩ := induction sampled
              exact ⟨tally, time, by simpa [World.awake] using after⟩
          | false =>
              have same : (world.fire .logind 0).monotonicMs = world.monotonicMs := by
                unfold World.fire
                split <;> rfl
              obtain ⟨tally, time, after⟩ := induction (sampled.fire .logind 0)
              rw [same, World.fire_tally] at tally
              rw [same] at time
              exact ⟨tally, time, by simpa [World.awake] using after⟩
      | tick =>
          cases pending with
          | false =>
              obtain ⟨tally, time, after⟩ := induction sampled.sample
              rw [World.awake, sampled.tick_eq.1 rfl]
              exact ⟨tally, time, by simpa [World.awake] using after⟩
          | true =>
              obtain ⟨sleepMs, ticked⟩ := sampled.tick_eq.2 rfl
              have same : (world.sample.fire .boottimeGap sleepMs).monotonicMs =
                  world.monotonicMs := by
                unfold World.fire
                split <;> rfl
              obtain ⟨tally, time, after⟩ := induction (sampled.sample.fire .boottimeGap sleepMs)
              rw [same, World.fire_tally] at tally
              rw [same] at time
              rw [World.awake, ticked]
              exact ⟨tally, time, by simpa [World.awake] using after⟩

/-- What is noticed is noticed while the system is awake. -/
theorem mem_notices {now : Nat} {pending : Bool} {events : List AwakeEvent} {time : Nat}
    (noticed : time ∈ notices now pending events) : now ≤ time ∧ time ≤ now + awakeMs events := by
  induction events generalizing now pending with
  | nil => cases noticed
  | cons event events induction =>
      match event, pending, noticed with
      | .elapse ms, _, noticed =>
          have bounds := induction noticed
          rw [awakeMs]
          omega
      | .tick, false, noticed => exact induction noticed
      | .prepareForSleep true, _, noticed => exact induction noticed
      | .tick, true, noticed | .prepareForSleep false, _, noticed =>
          obtain rfl | later := List.mem_cons.mp noticed
          · exact ⟨le_rfl, Nat.le_add_right ..⟩
          · exact induction later

theorem sorted_notices (now : Nat) (pending : Bool) (events : List AwakeEvent) :
    (notices now pending events).Pairwise (· ≤ ·) := by
  induction events generalizing now pending with
  | nil => exact .nil
  | cons event events induction =>
      match event, pending with
      | .elapse ms, _ => exact induction ..
      | .tick, false => exact induction ..
      | .prepareForSleep true, _ => exact induction ..
      | .tick, true => exact .cons (fun _ later => (mem_notices later).1) (induction ..)
      | .prepareForSleep false, _ =>
          exact .cons (fun _ later => (mem_notices later).1) (induction ..)

theorem length_notices (now : Nat) (pending : Bool) (events : List AwakeEvent) :
    (notices now pending events).length =
      (if pending = true ∧ .tick ∈ events then 1 else 0) +
        events.count (.prepareForSleep false) := by
  induction events generalizing now pending with
  | nil => simp [notices]
  | cons event events induction =>
      match event, pending with
      | .elapse ms, _ => simp [notices, induction]
      | .tick, false => simp [notices, induction]
      | .prepareForSleep true, _ => simp [notices, induction]
      | .tick, true => simp [notices, induction, Nat.add_comm]
      | .prepareForSleep false, _ => simp [notices, induction, Nat.add_assoc]

/-- A suspend is noticed once or twice. -/
theorem Suspension.notices_cases (suspension : Suspension) (now : Nat) :
    now ≤ suspension.firstNotice now ∧
      (notices now true suspension.awake = [suspension.firstNotice now] ∧
          suspension.lastNotice now = suspension.firstNotice now ∨
        notices now true suspension.awake =
            [suspension.firstNotice now, suspension.lastNotice now] ∧
          suspension.firstNotice now ≤ suspension.lastNotice now) := by
  have length := length_notices now true suspension.awake
  have sorted := sorted_notices now true suspension.awake
  have late : ∀ time ∈ notices now true suspension.awake, now ≤ time :=
    fun _ noticed => (mem_notices noticed).1
  rw [if_pos ⟨rfl, suspension.ticks⟩] at length
  have reported := suspension.reported
  rw [firstNotice, lastNotice]
  generalize notices now true suspension.awake = times at length sorted late
  match times, length with
  | [], length => rw [List.length_nil] at length; omega
  | [first], _ => exact ⟨late first (List.mem_singleton_self first), .inl ⟨rfl, rfl⟩⟩
  | [first, last], _ =>
      exact ⟨late first List.mem_cons_self, .inr ⟨rfl, by simpa using sorted⟩⟩
  | _ :: _ :: _ :: _, length =>
      simp only [List.length_cons] at length
      omega

/-! ## One suspend -/

/-- The tally of a world in which the notice at the given time was handled last. -/
def Tallied (handled : Option Nat) (tally : Nat × Nat) : Prop :=
  tally.1 = handled.getD 0 ∧ ∀ time ∈ handled, 0 < time

theorem inCooldown_eq_false_iff {handled : Option Nat} {tally : Nat × Nat}
    (tallied : Tallied handled tally) {now : Nat} (passed : ∀ time ∈ handled, time ≤ now) :
    inCooldown now tally.1 cooldownMs = false ↔ Rested handled now := by
  obtain ⟨last, positive⟩ := tallied
  cases handled with
  | none => simp [inCooldown, last, Rested]
  | some time =>
      have := positive time rfl
      have := passed time rfl
      rw [Option.getD_some] at last
      rw [inCooldown, last, elapsedMs, if_pos (passed time rfl), Rested]
      simp
      omega

theorem attempt_of_rested {handled : Option Nat} {tally : Nat × Nat}
    (tallied : Tallied handled tally) {now : Nat} (passed : ∀ time ∈ handled, time ≤ now)
    (rested : Rested handled now) : attempt tally now = (now, tally.2 + 1) := by
  rw [attempt, (inCooldown_eq_false_iff tallied passed).mpr rested]
  rfl

theorem attempt_of_not_rested {handled : Option Nat} {tally : Nat × Nat}
    (tallied : Tallied handled tally) {now : Nat} (passed : ∀ time ∈ handled, time ≤ now)
    (early : ¬Rested handled now) : attempt tally now = tally := by
  rw [← inCooldown_eq_false_iff tallied passed, Bool.not_eq_false] at early
  rw [attempt, early]
  rfl

/-- The four ways in which the notices of a suspend can be spaced, and how many calls they make. -/
theorem attempts_cases {handled : Option Nat} {tally : Nat × Nat} (tallied : Tallied handled tally)
    {now : Nat} (awake : 0 < now) (passed : ∀ time ∈ handled, time ≤ now)
    (suspension : Suspension) {first last : Nat} (is_first : suspension.firstNotice now = first)
    (is_last : suspension.lastNotice now = last) {after : Nat × Nat}
    (tallies : (notices now true suspension.awake).foldl attempt tally = after) :
    Rested handled first ∧ last < first + cooldownMs ∧ after = (first, tally.2 + 1) ∨
      ¬Rested handled first ∧ Rested handled last ∧ after = (last, tally.2 + 1) ∨
      Rested handled first ∧ first + cooldownMs ≤ last ∧ after.2 = tally.2 + 2 ∨
      ¬Rested handled last ∧ after.2 = tally.2 := by
  obtain ⟨late, ⟨once, same⟩ | ⟨twice, sorted⟩⟩ := suspension.notices_cases now
  · rw [is_first] at late once
    rw [is_first, is_last] at same
    subst same
    rw [once] at tallies
    change attempt tally last = after at tallies
    have passed' : ∀ time ∈ handled, time ≤ last := fun time held => (passed time held).trans late
    by_cases rested : Rested handled last
    · rw [attempt_of_rested tallied passed' rested] at tallies
      exact .inl ⟨rested, by unfold cooldownMs; omega, tallies.symm⟩
    · rw [attempt_of_not_rested tallied passed' rested] at tallies
      exact .inr (.inr (.inr ⟨rested, tallies ▸ rfl⟩))
  · rw [is_first] at late
    rw [is_first, is_last] at twice sorted
    rw [twice] at tallies
    change attempt (attempt tally first) last = after at tallies
    have passed' : ∀ time ∈ handled, time ≤ first := fun time held => (passed time held).trans late
    have passed'' : ∀ time ∈ handled, time ≤ last :=
      fun time held => (passed' time held).trans sorted
    by_cases rested : Rested handled first
    · rw [attempt_of_rested tallied passed' rested] at tallies
      have fired : Tallied (some first) (first, tally.2 + 1) :=
        ⟨rfl, fun time held => Option.mem_some.mp held ▸ Nat.lt_of_lt_of_le awake late⟩
      have passed_first : ∀ time ∈ some first, time ≤ last :=
        fun time held => Option.mem_some.mp held ▸ sorted
      by_cases far : first + cooldownMs ≤ last
      · rw [attempt_of_rested fired passed_first fun time held => Option.mem_some.mp held ▸ far]
          at tallies
        exact .inr (.inr (.inl ⟨rested, far, tallies ▸ rfl⟩))
      · rw [attempt_of_not_rested fired passed_first fun rested => far (rested first rfl)]
          at tallies
        exact .inl ⟨rested, not_le.mp far, tallies.symm⟩
    · rw [attempt_of_not_rested tallied passed' rested] at tallies
      by_cases later : Rested handled last
      · rw [attempt_of_rested tallied passed'' later] at tallies
        exact .inr (.inl ⟨rested, later, tallies.symm⟩)
      · rw [attempt_of_not_rested tallied passed'' later] at tallies
        exact .inr (.inr (.inr ⟨later, tallies ▸ rfl⟩))

/-! ## Histories of suspends -/

theorem World.suspension_tally {world : World} (sampled : Sampled false world)
    (suspension : Suspension) :
    (world.suspension suspension).tally =
        (notices world.monotonicMs true suspension.awake).foldl attempt world.tally ∧
      (world.suspension suspension).monotonicMs =
        world.monotonicMs + awakeMs suspension.awake ∧
      Sampled false (world.suspension suspension) := by
  obtain ⟨tally, time, after⟩ := (sampled.suspend suspension.long).run suspension.awake
  refine ⟨tally, time, ?_⟩
  rw [decide_eq_false (not_not.mpr suspension.ticks), Bool.and_false] at after
  exact after

/-- The last notice of a suspend comes before the next one. -/
theorem Suspension.lastNotice_le (suspension : Suspension) (now : Nat) :
    suspension.firstNotice now ≤ suspension.lastNotice now ∧
      suspension.lastNotice now ≤ now + awakeMs suspension.awake := by
  obtain ⟨-, ⟨once, same⟩ | ⟨twice, sorted⟩⟩ := suspension.notices_cases now
  · refine ⟨same.ge, same ▸ (@mem_notices now true suspension.awake _ ?_).2⟩
    rw [once]
    exact List.mem_singleton_self _
  · refine ⟨sorted, (@mem_notices now true suspension.awake _ ?_).2⟩
    rw [twice]
    exact List.mem_cons_of_mem _ (List.mem_singleton_self _)

theorem Rested.mono {handled : Option Nat} {first last : Nat} (sorted : first ≤ last)
    (rested : Rested handled first) : Rested handled last :=
  fun time held => (rested time held).trans sorted

/-- The callback is called once for each suspend exactly when the suspends are spaced. -/
theorem eachStep_iff_spaced {world : World} (sampled : Sampled false world) {handled : Option Nat}
    (tallied : Tallied handled world.tally) (passed : ∀ time ∈ handled, time ≤ world.monotonicMs)
    (suspensions : List Suspension) :
    Machine.EachStep World.suspension
        (fun world suspension =>
          (world.suspension suspension).calls.length = world.calls.length + 1)
        world suspensions ↔
      Spaced handled world.monotonicMs suspensions := by
  induction suspensions generalizing world handled with
  | nil => simp [Spaced]
  | cons suspension suspensions induction =>
      obtain ⟨tally, time, after⟩ := world.suspension_tally sampled suspension
      obtain ⟨sorted, ended⟩ := suspension.lastNotice_le world.monotonicMs
      have positive : 0 < world.monotonicMs :=
        Nat.lt_of_lt_of_le sampled.monotonic_pos sampled.monotonic_le
      have started : world.monotonicMs ≤ suspension.firstNotice world.monotonicMs :=
        (suspension.notices_cases world.monotonicMs).1
      have carried {now : Nat} (here : (world.suspension suspension).tally =
          (now, world.calls.length + 1)) (since : world.monotonicMs ≤ now)
          (until_next : now ≤ world.monotonicMs + awakeMs suspension.awake) :
          Machine.EachStep World.suspension
              (fun world suspension =>
                (world.suspension suspension).calls.length = world.calls.length + 1)
              (world.suspension suspension) suspensions ↔
            Spaced (some now) (world.monotonicMs + awakeMs suspension.awake) suspensions := by
        rw [← time]
        refine induction after ⟨congrArg Prod.fst here, fun other held => ?_⟩ fun other held => ?_
        · exact Option.mem_some.mp held ▸ Nat.lt_of_lt_of_le positive since
        · exact Option.mem_some.mp held ▸ time ▸ until_next
      rw [Machine.eachStep_cons, Spaced]
      obtain ⟨rested, near, here⟩ | ⟨early, later, here⟩ | ⟨rested, far, calls⟩ | ⟨early, calls⟩ :=
        attempts_cases tallied positive passed suspension rfl rfl tally.symm
      · rw [carried here started (sorted.trans ended)]
        have called : (world.suspension suspension).calls.length = world.calls.length + 1 :=
          congrArg Prod.snd here
        simp [called, rested, near]
      · rw [carried here (started.trans sorted) ended]
        have called : (world.suspension suspension).calls.length = world.calls.length + 1 :=
          congrArg Prod.snd here
        simp [called, early, later]
      · have twice : (world.suspension suspension).calls.length = world.calls.length + 2 := calls
        simp [twice, rested, not_lt.mpr far]
      · have none : (world.suspension suspension).calls.length = world.calls.length := calls
        simp [none, early, mt (Rested.mono sorted) early]

theorem History.start_sampled (history : History) :
    Sampled false history.start ∧ history.start.tally = (0, 0) ∧
      history.start.monotonicMs = history.monotonicMs + awakeMs history.before := by
  have created : Sampled false (World.create history.monotonicMs history.boottimeMs) :=
    ⟨history.monotonic_pos, history.boottime_pos, le_rfl, le_rfl, fun _ => Nat.add_comm .., nofun⟩
  obtain ⟨tally, time, after⟩ := created.run history.before
  have silent : notices history.monotonicMs false history.before = [] := by
    rw [← List.length_eq_zero_iff, length_notices, List.count_eq_zero.mpr history.unreported]
    rfl
  refine ⟨by rwa [Bool.false_and] at after, ?_, time⟩
  rw [start, tally]
  change (notices history.monotonicMs false history.before).foldl attempt _ = _
  rw [silent]
  rfl

/-- Each suspend is handled exactly once if and only if the notices of the suspends are spaced: the
two notices of one suspend within a cooldown, and those of two suspends a cooldown apart. -/
theorem handledOnce_iff (history : History) :
    HandledOnce history ↔
      Spaced none (history.monotonicMs + awakeMs history.before) history.suspensions := by
  obtain ⟨sampled, tally, time⟩ := history.start_sampled
  have uncalled : history.start.calls = [] := List.length_eq_zero_iff.mp (congrArg Prod.snd tally)
  rw [HandledOnce, and_iff_right uncalled, ← time]
  have tallied : Tallied none history.start.tally :=
    ⟨congrArg Prod.fst tally, fun _ held => nomatch held⟩
  exact eachStep_iff_spaced sampled tallied (fun _ held => nomatch held) _

/-- The lid is closed a second time one second after the first resume. -/
theorem second_suspend_lost :
    ¬HandledOnce
      { monotonicMs := 1
        boottimeMs := 1
        before := []
        suspensions := List.replicate 2
          { lastsMs := 3000
            awake := [.tick, .elapse 1000]
            long := by decide
            ticks := by decide
            reported := by decide }
        monotonic_pos := Nat.one_pos
        boottime_pos := Nat.one_pos
        unreported := by decide } := by
  unfold HandledOnce
  decide

end Resume

end Typio
