import Mathlib.Data.List.Basic
import Mathlib.Data.List.Pairwise
import Mathlib.Order.MinMax

/-!
# Boxes in the plane

Boxes with sides along the axes, which lie inside one another or apart, and items which follow one
another along a line.
-/

namespace Boxes

/-- A box: its least corner and its size. -/
structure Box (α : Type*) where
  x : α
  y : α
  w : α
  h : α

section Order

variable {α : Type*} [Add α] [Preorder α]

/-- The box does not reach beyond the outer one. -/
structure Box.Inside (inner outer : Box α) : Prop where
  left : outer.x ≤ inner.x
  right : inner.x + inner.w ≤ outer.x + outer.w
  top : outer.y ≤ inner.y
  bottom : inner.y + inner.h ≤ outer.y + outer.h

/-- A line along an axis separates the boxes. -/
def Box.Apart (left right : Box α) : Prop :=
  left.x + left.w ≤ right.x ∨ right.x + right.w ≤ left.x ∨
    left.y + left.h ≤ right.y ∨ right.y + right.h ≤ left.y

end Order

/-! ## Items along a line -/

section Line

variable {α Item : Type*} [Preorder α] {low high : Item → α} {start stop further : α}
  {items : List Item}

/-- The items follow one another between the two points. -/
def InLine (low high : Item → α) : (start : α) → List Item → (stop : α) → Prop
  | start, [], stop => start ≤ stop
  | start, item :: items, stop =>
      start ≤ low item ∧ low item ≤ high item ∧ InLine low high (high item) items stop

theorem InLine.le (line : InLine low high start items stop) : start ≤ stop := by
  induction items generalizing start with
  | nil => exact line
  | cons item items induction =>
      obtain ⟨first, spans, rest⟩ := line
      exact (first.trans spans).trans (induction rest)

theorem InLine.mono (line : InLine low high start items stop) (le : stop ≤ further) :
    InLine low high start items further := by
  induction items generalizing start with
  | nil => exact le_trans line le
  | cons item items induction =>
      obtain ⟨first, spans, rest⟩ := line
      exact ⟨first, spans, induction rest⟩

/-- The line may begin earlier. -/
theorem InLine.of_le {earlier : α} (line : InLine low high start items stop)
    (le : earlier ≤ start) : InLine low high earlier items stop := by
  cases items with
  | nil => exact le.trans line
  | cons item items => exact ⟨le.trans line.1, line.2⟩

/-- Every item lies between the two points. -/
theorem InLine.bounds (line : InLine low high start items stop) {item : Item}
    (member : item ∈ items) : start ≤ low item ∧ high item ≤ stop := by
  induction items generalizing start with
  | nil => cases member
  | cons first items induction =>
      obtain ⟨begins, spans, rest⟩ := line
      rcases List.mem_cons.mp member with rfl | later
      · exact ⟨begins, rest.le⟩
      · obtain ⟨after, before⟩ := induction rest later
        exact ⟨(begins.trans spans).trans after, before⟩

/-- An earlier item ends before a later one begins. -/
theorem InLine.pairwise (line : InLine low high start items stop) :
    items.Pairwise fun earlier later => high earlier ≤ low later := by
  induction items generalizing start with
  | nil => exact .nil
  | cons item items induction =>
      obtain ⟨-, -, rest⟩ := line
      exact .cons (fun later member => (rest.bounds member).1) (induction rest)

end Line

/-! ## The greatest extent -/

section Greatest

variable {α Item : Type*} [LinearOrder α]

/-- A bound is reached by the running maximum exactly if where it began or some item reaches it. -/
theorem le_foldl_max_iff (extent : Item → α) (items : List Item) (start bound : α) :
    bound ≤ items.foldl (fun greatest item => max greatest (extent item)) start ↔
      bound ≤ start ∨ ∃ item ∈ items, bound ≤ extent item := by
  induction items generalizing start with
  | nil => simp
  | cons item items induction =>
      rw [List.foldl_cons, induction, le_max_iff, or_assoc]
      simp only [List.exists_mem_cons_iff]

theorem start_le_foldl_max (extent : Item → α) (items : List Item) (start : α) :
    start ≤ items.foldl (fun greatest item => max greatest (extent item)) start :=
  (le_foldl_max_iff extent items start start).mpr (.inl le_rfl)

theorem le_foldl_max (extent : Item → α) (start : α) {items : List Item} {item : Item}
    (member : item ∈ items) :
    extent item ≤ items.foldl (fun greatest item => max greatest (extent item)) start :=
  (le_foldl_max_iff extent items start _).mpr (.inr ⟨item, member, le_rfl⟩)

end Greatest

end Boxes
