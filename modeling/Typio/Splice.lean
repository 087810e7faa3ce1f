import Mathlib.Data.List.Infix
import Mathlib.Data.List.Nodup

/-!
# Splicing a list at an index

An item is moved by two splices: it is taken out at its index and put back at another one.  The
index of any other item, read before the item is taken out, has to be corrected if it lies behind.
The move is then determined by the list without the item, cut in two where the item goes.
-/

namespace Splice

open scoped List

variable {Item : Type*}

/-- `removals` items at `position` are replaced by `additions`. -/
def splice (items : List Item) (position removals : Nat) (additions : List Item) : List Item :=
  items.take position ++ additions ++ items.drop (position + removals)

/-- An item, which stands at `source`, is taken out there and put back at `target`. -/
def relocate (items : List Item) (item : Item) (source target : Nat) : List Item :=
  splice (splice items source 1 []) target 0 [item]

/-- The items other than `item` are the same and stand in the same order. -/
def OthersKept [DecidableEq Item] (item : Item) (before after : List Item) : Prop :=
  after.filter (· ≠ item) = before.filter (· ≠ item)

/-- Two neighbours change places. -/
def Swapped (first second : Item) (before after : List Item) : Prop :=
  ∃ left right, before = left ++ first :: second :: right ∧
    after = left ++ second :: first :: right

theorem splice_append (left right : List Item) (removals : Nat) (additions : List Item) :
    splice (left ++ right) left.length removals additions =
      left ++ additions ++ right.drop removals := by
  simp [splice, List.drop_append]

@[simp] theorem splice_length (items additions : List Item) :
    splice items items.length 0 additions = items ++ additions := by
  simpa using splice_append items [] 0 additions

@[simp] theorem splice_all (items : List Item) : splice items 0 items.length [] = [] := by
  simp [splice]

/-- `item` has left its place for another one, and all others stay in order. -/
def Relocated (item : Item) (before after : List Item) : Prop :=
  ∃ left right front back, before = left ++ item :: right ∧ after = front ++ item :: back ∧
    left ++ right = front ++ back

section Relocation

variable {item : Item} {before after left right front back : List Item}

theorem relocate_eq (item : Item) (cut : left ++ right = front ++ back) :
    relocate (left ++ item :: right) item left.length front.length = front ++ item :: back := by
  have taken : splice (left ++ item :: right) left.length 1 [] = front ++ back := by
    simpa [← cut] using splice_append left (item :: right) 1 []
  rw [relocate, taken]
  simpa using splice_append front back 0 [item]

theorem relocate_up (other : Item) :
    relocate (left ++ other :: item :: right) item (left.length + 1) left.length =
      left ++ item :: other :: right := by
  have cut : (left ++ [other]) ++ right = left ++ other :: right := by simp
  simpa using relocate_eq item cut

theorem relocate_down (other : Item) :
    relocate (left ++ item :: other :: right) item left.length (left.length + 1) =
      left ++ other :: item :: right := by
  have cut : left ++ other :: right = (left ++ [other]) ++ right := by simp
  simpa using relocate_eq item cut

theorem Relocated.perm (relocated : Relocated item before after) : after ~ before := by
  obtain ⟨left, right, front, back, rfl, rfl, cut⟩ := relocated
  calc
    front ++ item :: back ~ item :: (front ++ back) := List.perm_middle
    _ = item :: (left ++ right) := by rw [cut]
    _ ~ left ++ item :: right := List.perm_middle.symm

theorem Relocated.othersKept [DecidableEq Item] (relocated : Relocated item before after) :
    OthersKept item before after := by
  obtain ⟨left, right, front, back, rfl, rfl, cut⟩ := relocated
  have others := congrArg (List.filter (· ≠ item)) cut
  simpa [OthersKept] using others.symm

theorem Swapped.relocated_first {first second : Item}
    (swapped : Swapped first second before after) : Relocated first before after := by
  obtain ⟨left, right, rfl, rfl⟩ := swapped
  exact ⟨left, second :: right, left ++ [second], right, rfl, by simp, by simp⟩

theorem Swapped.relocated_second {first second : Item}
    (swapped : Swapped first second before after) : Relocated second before after := by
  obtain ⟨left, right, rfl, rfl⟩ := swapped
  exact ⟨left ++ [first], right, left, first :: right, by simp, rfl, by simp⟩

theorem relocated_self (listed : item ∈ before) : Relocated item before before := by
  obtain ⟨left, right, rfl⟩ := List.append_of_mem listed
  exact ⟨left, right, left, right, rfl, rfl, rfl⟩

end Relocation

section Index

variable [DecidableEq Item] {item other : Item} {items left right : List Item} {index : Nat}

/-- The index of an item cuts the list in front of its first occurrence. -/
theorem split_at_index (found : items.idxOf? item = some index) :
    ∃ left right, items = left ++ item :: right ∧ left.length = index := by
  obtain ⟨below, rfl, -⟩ := List.idxOf?_eq_some_iff.mp found
  refine ⟨items.take index, items.drop (index + 1), ?_, by simp; omega⟩
  rw [List.getElem_cons_drop, List.take_append_drop]

/-- Once an item is taken out, the index of any other which lies behind it is one less. -/
theorem index_without (differs : other ≠ item)
    (found : (left ++ item :: right).idxOf? other = some index) :
    (left ++ right).idxOf? other = some (if left.length < index then index - 1 else index) := by
  simp only [List.idxOf?, List.findIdx?_append, List.findIdx?_cons,
    beq_eq_false_iff_ne.mpr differs.symm] at found ⊢
  cases inFront : left.findIdx? (· == other) with
  | some front =>
      have inside : front < left.length := (List.findIdx?_eq_some_iff_getElem.mp inFront).1
      simp only [inFront, Option.some_or, Option.some.injEq] at found ⊢
      subst found
      rw [if_neg (by omega)]
  | none =>
      cases behind : right.findIdx? (· == other) with
      | none => simp [inFront, behind] at found
      | some back =>
          simp [inFront, behind] at found ⊢
          subst found
          rw [if_pos (by omega)]
          omega

end Index

end Splice
