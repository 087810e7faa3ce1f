import Typio.Wayland.LifecycleModel
import Typio.Machine
import Mathlib.Data.List.Basic

/-!
# The debounce of the reconciler

The reconciler notes when a divergence was first seen and repairs once it has lasted for the
threshold.  Nothing else is carried from one tick to the next, and a time of zero means that nothing
was noted, so that the clock has to be positive.
-/

namespace Typio

open Machine

/-- A tick of the reconciler: the time, and whether the observed state agrees. -/
structure ReconcileTick where
  now : Nat
  agree : Bool
  deriving DecidableEq

namespace ReconcileTick

/-! ## Runs of ticks -/

variable (threshold : Nat)

/-- The time noted after the tick. -/
def noted (since : Nat) (tick : ReconcileTick) : Nat :=
  (reconcileDecide tick.agree tick.now since threshold).2

/-- The time noted after the ticks. -/
def since (ticks : List ReconcileTick) : Nat := run (noted threshold) 0 ticks

/-- What the tick decides after the ticks before it. -/
def decision (ticks : List ReconcileTick) (tick : ReconcileTick) : ReconcileAction :=
  (reconcileDecide tick.agree tick.now (since threshold ticks) threshold).1

/-- The clock is positive and does not go back. -/
structure SteadyClock (ticks : List ReconcileTick) : Prop where
  positive : ∀ tick ∈ ticks, 0 < tick.now
  ordered : ticks.Pairwise fun earlier later => earlier.now ≤ later.now

/-- The tick finds a divergence and leaves it. -/
def Leaves (noted : Nat) (tick : ReconcileTick) : Prop :=
  tick.agree = false ∧ (reconcileDecide tick.agree tick.now noted threshold).1 ≠ .repair

/-- All of the later ticks find a divergence, and none of them repairs it. -/
def Lasts (earlier later : List ReconcileTick) : Prop :=
  EachStep (noted threshold) (Leaves threshold) (since threshold earlier) later

variable {threshold} {ticks : List ReconcileTick} {tick : ReconcileTick}

/-! ## A tick -/

theorem decide_agree (noted : Nat) (agree : tick.agree = true) :
    reconcileDecide tick.agree tick.now noted threshold = (.ok, 0) := by
  rw [agree]
  rfl

theorem decide_arm (diverges : tick.agree = false) :
    reconcileDecide tick.agree tick.now 0 threshold = (.arm, tick.now) := by
  rw [diverges]
  rfl

/-- A time which was noted is kept until the divergence is repaired. -/
theorem decide_noted {noted : Nat} (diverges : tick.agree = false) (positive : noted ≠ 0) :
    reconcileDecide tick.agree tick.now noted threshold =
      if noted ≤ tick.now ∧ threshold ≤ tick.now - noted then (.repair, 0)
      else (.wait, noted) := by
  rw [diverges, reconcileDecide, if_neg (by simp), if_neg positive]

/-- The tick repairs if the divergence was noted for the threshold. -/
theorem decide_repair_iff {noted : Nat} :
    (reconcileDecide tick.agree tick.now noted threshold).1 = .repair ↔
      tick.agree = false ∧ noted ≠ 0 ∧ noted + threshold ≤ tick.now := by
  cases agree : tick.agree with
  | true =>
      simp [reconcileDecide]
  | false =>
      by_cases none : noted = 0
      · subst none
        simp [reconcileDecide]
      · rw [← agree, decide_noted agree none]
        split <;> simp <;> omega

/-- The tick at which nothing is noted yet notes its own time. -/
theorem noted_of_leaves {before : Nat} (leaves : Leaves threshold before tick) :
    noted threshold before tick = if before = 0 then tick.now else before := by
  obtain ⟨diverges, waits⟩ := leaves
  rw [noted]
  split
  · next none =>
      rw [none, decide_arm diverges]
  · next positive =>
      rw [decide_noted diverges positive] at waits ⊢
      split at waits
      · exact absurd rfl waits
      · next early => rw [if_neg early]

/-- A tick which agrees or repairs leaves nothing noted. -/
theorem leaves_of_noted {before : Nat} (after : noted threshold before tick ≠ 0) :
    Leaves threshold before tick := by
  rw [noted] at after
  cases agree : tick.agree with
  | true => exact absurd (by rw [decide_agree before agree]) after
  | false =>
      refine ⟨agree, fun repairs => ?_⟩
      obtain ⟨diverges, positive, late⟩ := decide_repair_iff.mp repairs
      rw [decide_noted diverges positive, if_pos (by omega)] at after
      exact after rfl

/-! ## A run -/

@[simp] theorem since_concat (ticks : List ReconcileTick) (tick : ReconcileTick) :
    since threshold (ticks ++ [tick]) = noted threshold (since threshold ticks) tick :=
  run_concat ..

theorem run_noted_of_leaves {noted' : Nat} (positive : noted' ≠ 0) {later : List ReconcileTick}
    (lasts : EachStep (noted threshold) (Leaves threshold) noted' later) :
    run (noted threshold) noted' later = noted' := by
  induction later with
  | nil => rfl
  | cons tick later induction =>
      obtain ⟨leaves, rest⟩ := (eachStep_cons ..).mp lasts
      have kept := noted_of_leaves leaves
      rw [if_neg positive] at kept
      rw [kept] at rest
      rw [run_cons, kept, induction rest]

/-- While a divergence lasts, the time of its first tick stays noted, or an earlier one. -/
theorem since_of_lasts {earlier between : List ReconcileTick} {first : ReconcileTick}
    (positive : 0 < first.now) (lasts : Lasts threshold earlier (first :: between)) :
    since threshold (earlier ++ first :: between) =
      if since threshold earlier = 0 then first.now else since threshold earlier := by
  obtain ⟨leaves, rest⟩ := (eachStep_cons ..).mp lasts
  have kept := noted_of_leaves leaves
  have nonzero : noted threshold (since threshold earlier) first ≠ 0 := by
    rw [kept]
    split <;> omega
  rw [since, run_append, run_cons, ← kept]
  exact run_noted_of_leaves nonzero rest

/-- A time that is noted is that of a tick since which the divergence has lasted. -/
theorem lasts_of_since (noting : since threshold ticks ≠ 0) :
    ∃ earlier first between, ticks = earlier ++ first :: between ∧
      since threshold ticks = first.now ∧ Lasts threshold earlier (first :: between) := by
  induction ticks using List.reverseRecOn with
  | nil => exact absurd rfl noting
  | append_singleton ticks tick induction =>
      rw [since_concat] at noting
      have leaves := leaves_of_noted noting
      have kept := noted_of_leaves leaves
      rw [since_concat, kept]
      by_cases none : since threshold ticks = 0
      · refine ⟨ticks, tick, [], rfl, if_pos none, ?_⟩
        exact (eachStep_cons ..).mpr ⟨leaves, eachStep_nil _ _ _⟩
      · obtain ⟨earlier, first, between, rfl, started, lasts⟩ := induction none
        refine ⟨earlier, first, between ++ [tick], by simp, by rw [if_neg none, started], ?_⟩
        rw [Lasts, ← List.cons_append, eachStep_concat]
        rw [since, run_append] at leaves
        exact ⟨lasts, leaves⟩

theorem SteadyClock.front {later : List ReconcileTick} (clock : SteadyClock (ticks ++ later)) :
    SteadyClock ticks where
  positive tick member := clock.positive tick (List.mem_append_left _ member)
  ordered := (List.pairwise_append.mp clock.ordered).1

/-- What is noted is not later than the ticks that follow. -/
theorem SteadyClock.since_le (clock : SteadyClock (ticks ++ [tick])) :
    since threshold ticks ≤ tick.now := by
  by_cases none : since threshold ticks = 0
  · omega
  · obtain ⟨earlier, first, between, rfl, started, -⟩ := lasts_of_since none
    rw [started]
    exact (List.pairwise_append.mp clock.ordered).2.2 first (by simp) tick (.head _)

/-- A tick repairs exactly if it finds a divergence which has been found by every tick since one
at least the threshold earlier, without a repair between them. -/
theorem decision_repair_iff (clock : SteadyClock (ticks ++ [tick])) :
    decision threshold ticks tick = .repair ↔
      tick.agree = false ∧ ∃ earlier first between, ticks = earlier ++ first :: between ∧
        first.now + threshold ≤ tick.now ∧ Lasts threshold earlier (first :: between) := by
  rw [decision, decide_repair_iff]
  refine and_congr_right fun diverges => ?_
  constructor
  · rintro ⟨noting, late⟩
    obtain ⟨earlier, first, between, split, started, lasts⟩ := lasts_of_since noting
    exact ⟨earlier, first, between, split, by omega, lasts⟩
  · rintro ⟨earlier, first, between, rfl, late, lasts⟩
    have positive := clock.positive first (by simp)
    have until_first : SteadyClock (earlier ++ [first]) := by
      have whole := clock
      rw [List.append_assoc, List.cons_append, ← List.singleton_append, ← List.append_assoc] at whole
      exact whole.front
    have before : since threshold earlier ≤ first.now := until_first.since_le
    rw [since_of_lasts positive lasts]
    split
    · exact ⟨by omega, late⟩
    · next noting => exact ⟨noting, by omega⟩

/-- After a tick which agrees or repairs nothing is noted. -/
theorem since_of_settled (settled : tick.agree = true ∨ decision threshold ticks tick = .repair) :
    since threshold (ticks ++ [tick]) = 0 := by
  by_contra noting
  rw [since_concat] at noting
  obtain ⟨diverges, waits⟩ := leaves_of_noted noting
  rcases settled with agrees | repairs
  · exact Bool.false_ne_true (diverges.symm.trans agrees)
  · exact waits repairs

/-- After a tick which agrees or repairs the reconciler decides as if it had just begun. -/
theorem decision_of_settled (settled : tick.agree = true ∨ decision threshold ticks tick = .repair)
    (between : List ReconcileTick) (next : ReconcileTick) :
    decision threshold (ticks ++ tick :: between) next = decision threshold between next := by
  have fresh : since threshold (ticks ++ tick :: between) = since threshold between := by
    have begun := since_of_settled settled
    rw [since] at begun
    rw [← List.singleton_append, ← List.append_assoc, since, run_append, begun, since]
  rw [decision, decision, fresh]

/-- A repair is decided exactly if every tick since one at least the threshold earlier found a
divergence and none of them repaired it; a tick which agrees and a repair start the wait anew. -/
theorem repair_debounced (threshold : Nat) (ticks : List ReconcileTick) (tick : ReconcileTick)
    (clock : SteadyClock (ticks ++ [tick])) :
    (decision threshold ticks tick = .repair ↔
      tick.agree = false ∧ ∃ earlier first between, ticks = earlier ++ first :: between ∧
        first.now + threshold ≤ tick.now ∧ Lasts threshold earlier (first :: between)) ∧
    (tick.agree = true ∨ decision threshold ticks tick = .repair →
      ∀ between next, decision threshold (ticks ++ tick :: between) next =
        decision threshold between next) :=
  ⟨decision_repair_iff clock, decision_of_settled⟩

/-- The third tick of a divergence repairs it. -/
theorem repair_debounced_third :
    decision 2000 [⟨500, false⟩, ⟨1500, false⟩] ⟨2500, false⟩ = .repair ∧
      ∀ between next, decision 2000 ([⟨500, false⟩, ⟨1500, false⟩] ++ ⟨2500, false⟩ :: between) next =
        decision 2000 between next :=
  have repairs : decision 2000 [⟨500, false⟩, ⟨1500, false⟩] ⟨2500, false⟩ = .repair := by decide
  ⟨repairs, (repair_debounced 2000 [⟨500, false⟩, ⟨1500, false⟩] ⟨2500, false⟩
    ⟨by decide, by decide⟩).2 (.inr repairs)⟩

end ReconcileTick

end Typio
