import Mathlib.Logic.Basic

/-!
# Loops which may not end

A loop runs its body as long as its guard holds.  It is given fuel for its turns; it returns when
some fuel is enough.
-/

namespace WhileLoop

variable {State : Type*} (guard : State → Bool) (body : State → State)

/-- The state in which the loop leaves, unless it needs more turns than it has fuel for. -/
def exec : (fuel : Nat) → State → Option State
  | 0, state => if guard state then none else some state
  | fuel + 1, state => if guard state then exec fuel (body state) else some state

/-- The loop returns in the state, given enough fuel. -/
def ReturnsIn (state final : State) : Prop := ∃ fuel, exec guard body fuel state = some final

variable {guard body} {state final : State}

theorem exec_of_not_guard (left : guard state = false) (fuel : Nat) :
    exec guard body fuel state = some state := by
  cases fuel <;> simp [exec, left]

theorem returnsIn_of_not_guard (left : guard state = false) :
    ReturnsIn guard body state final ↔ final = state := by
  simp only [ReturnsIn, exec_of_not_guard left, Option.some_inj, exists_const, eq_comm]

theorem returnsIn_of_guard (stays : guard state = true) :
    ReturnsIn guard body state final ↔ ReturnsIn guard body (body state) final := by
  constructor
  · rintro ⟨fuel, returned⟩
    cases fuel with
    | zero => simp [exec, stays] at returned
    | succ fuel => exact ⟨fuel, by simpa [exec, stays] using returned⟩
  · rintro ⟨fuel, returned⟩
    exact ⟨fuel + 1, by simpa [exec, stays] using returned⟩

theorem not_guard_of_returnsIn (returned : ReturnsIn guard body state final) :
    guard final = false := by
  obtain ⟨fuel, returned⟩ := returned
  induction fuel generalizing state with
  | zero =>
      rw [exec] at returned
      split at returned
      · cases returned
      · next left => exact Option.some.inj returned ▸ Bool.eq_false_iff.mpr left
  | succ fuel induction =>
      rw [exec] at returned
      split at returned
      · exact induction returned
      · next left => exact Option.some.inj returned ▸ Bool.eq_false_iff.mpr left

/-- A loop whose guard holds under an invariant that its body keeps never returns. -/
theorem exec_eq_none_of_invariant {invariant : State → Prop}
    (kept : ∀ state, invariant state → guard state = true ∧ invariant (body state))
    (holds : invariant state) (fuel : Nat) : exec guard body fuel state = none := by
  induction fuel generalizing state with
  | zero => simp [exec, (kept state holds).1]
  | succ fuel induction => simpa [exec, (kept state holds).1] using induction (kept state holds).2

theorem not_returnsIn_of_invariant {invariant : State → Prop}
    (kept : ∀ state, invariant state → guard state = true ∧ invariant (body state))
    (holds : invariant state) : ¬ReturnsIn guard body state final := by
  rintro ⟨fuel, returned⟩
  rw [exec_eq_none_of_invariant kept holds fuel] at returned
  cases returned

end WhileLoop
