import Mathlib.Data.List.DropRight

/-!
# Queues of bounded length

A new element joins the end of a queue; once the queue has its full length the first element leaves.
What has joined is told apart by consecutive numbers.  From the last clearing on the queue is a
window: an element is in it until as many have joined after it as the queue is long.
-/

namespace Fifo

variable {α : Type*}

def push (cap : Nat) (queue : List α) (new : α) : List α :=
  if queue.length < cap then queue ++ [new] else queue.tail ++ [new]

/-- What leaves the queue when an element joins. -/
def evicted (cap : Nat) (queue : List α) : Option α :=
  if queue.length < cap then none else queue.head?

/-- The queue is what has joined it, number by number, since it was cleared. -/
structure Window (cap : Nat) (number : α → Nat) (queue : List α) (cleared next : Nat) : Prop where
  cleared_le : cleared ≤ next
  numbers : queue.map number =
    List.range' (max cleared (next - cap)) (next - max cleared (next - cap))

namespace Window

variable {cap : Nat} {number : α → Nat} {queue : List α} {cleared next : Nat}

theorem cleared_nil (next : Nat) : Window cap number ([] : List α) next next where
  cleared_le := le_rfl
  numbers := by
    rw [max_eq_left (Nat.sub_le next cap), Nat.sub_self]
    simp

theorem length_eq (window : Window cap number queue cleared next) :
    queue.length = next - max cleared (next - cap) := by
  rw [← List.length_map number, window.numbers, List.length_range']

theorem mem_numbers (window : Window cap number queue cleared next) (joiner : Nat) :
    joiner ∈ queue.map number ↔ cleared ≤ joiner ∧ joiner < next ∧ next ≤ joiner + cap := by
  have before := window.cleared_le
  rw [window.numbers, List.mem_range'_1]
  omega

theorem nodup (window : Window cap number queue cleared next) : (queue.map number).Nodup := by
  rw [window.numbers]
  exact List.nodup_range'

theorem push (window : Window cap number queue cleared next) (positive : 0 < cap) {new : α}
    (numbered : number new = next) :
    Window cap number (Fifo.push cap queue new) cleared (next + 1) where
  cleared_le := Nat.le_succ_of_le window.cleared_le
  numbers := by
    have before := window.cleared_le
    have length := window.length_eq
    unfold Fifo.push
    split
    · rw [List.map_append, window.numbers, List.map_singleton, numbered,
        show max cleared (next + 1 - cap) = max cleared (next - cap) by omega,
        show next + 1 - max cleared (next - cap) = next - max cleared (next - cap) + 1 by omega,
        List.range'_1_concat]
      congr 2
      omega
    · rw [List.map_append, List.map_tail, window.numbers, List.tail_range', List.map_singleton,
        numbered, show max cleared (next + 1 - cap) = max cleared (next - cap) + 1 by omega,
        show next + 1 - (max cleared (next - cap) + 1) =
          next - max cleared (next - cap) - 1 + 1 by omega, List.range'_1_concat]
      congr 2
      omega

/-- What leaves is the oldest of the window, which is no longer in it afterwards. -/
theorem evicted_iff (window : Window cap number queue cleared next) (positive : 0 < cap)
    (joiner : Nat) :
    (evicted cap queue).map number = some joiner ↔
      cleared ≤ joiner ∧ joiner + cap = next := by
  have before := window.cleared_le
  have length := window.length_eq
  have head : queue.head?.map number = (queue.map number).head? := by rw [List.head?_map]
  unfold evicted
  split
  · simp only [Option.map_none, reduceCtorEq, false_iff]
    omega
  · rw [head, window.numbers, List.head?_range', if_neg (by omega), Option.some_inj]
    omega

end Window

end Fifo
