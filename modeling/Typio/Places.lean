import Mathlib.Logic.Function.Basic
import Typio.Lifetime

/-!
# Places which own resources

A place holds a resource or nothing.  A resource is made into a place and ends where it is held.
What a place held before something else was assigned to it is lost: it is in no place, and never
ends.  A place may be above others, and the resources made there are made from the one it holds.
-/

namespace Places

open Lifetime (Trace Entry)

variable {Place Use : Type*}

/-- What the places hold, the number of resources made, which one was made from which, and what
happened to them. -/
structure Store (Place Use : Type*) where
  held : Place → Option Nat
  made : Nat
  parents : List (Nat × Nat)
  trace : Trace Nat Use

namespace Store

def empty : Store Place Use where
  held _ := none
  made := 0
  parents := []
  trace := []

/-- The resource in the place, if there is one, is used. -/
def use (store : Store Place Use) (place : Place) (use : Use) : Store Place Use :=
  match store.held place with
  | none => store
  | some resource => { store with trace := store.trace ++ [.used resource use] }

variable [DecidableEq Place]

/-- The place is assigned what was made for it, which may be nothing. -/
def assign (store : Store Place Use) (above : Place → List Place) (place : Place) (succeeds : Bool) :
    Store Place Use :=
  if succeeds then
    { store with
      held := Function.update store.held place (some store.made)
      made := store.made + 1
      parents := store.parents ++
        ((above place).filterMap store.held).map fun parent => (store.made, parent) }
  else { store with held := Function.update store.held place none }

/-- The resource in the place, if there is one, ends. -/
def finish (store : Store Place Use) (place : Place) : Store Place Use :=
  match store.held place with
  | none => store
  | some resource =>
      { store with
        held := Function.update store.held place none
        trace := store.trace ++ [.ended resource] }

/-- The places are emptied one after the other. -/
def finishAll (store : Store Place Use) (places : List Place) : Store Place Use :=
  places.foldl finish store

section Effects

variable (store : Store Place Use) (above : Place → List Place) (place : Place)

omit [DecidableEq Place] in
@[simp] theorem use_held (use : Use) : (store.use place use).held = store.held := by
  unfold Store.use
  split <;> rfl

omit [DecidableEq Place] in
@[simp] theorem use_made (use : Use) : (store.use place use).made = store.made := by
  unfold Store.use
  split <;> rfl

omit [DecidableEq Place] in
@[simp] theorem use_parents (use : Use) : (store.use place use).parents = store.parents := by
  unfold Store.use
  split <;> rfl

@[simp] theorem assign_held (succeeds : Bool) : (store.assign above place succeeds).held =
    Function.update store.held place (if succeeds then some store.made else none) := by
  unfold assign
  split <;> simp_all

@[simp] theorem assign_trace (succeeds : Bool) :
    (store.assign above place succeeds).trace = store.trace := by
  unfold assign
  split <;> rfl

@[simp] theorem finish_held :
    (store.finish place).held = Function.update store.held place none := by
  unfold finish
  split
  next nothing => rw [← nothing, Function.update_eq_self]
  next => rfl

@[simp] theorem finish_made : (store.finish place).made = store.made := by
  unfold finish
  split <;> rfl

@[simp] theorem finish_parents : (store.finish place).parents = store.parents := by
  unfold finish
  split <;> rfl

theorem finish_of_none {place : Place} (nothing : store.held place = none) :
    store.finish place = store := by
  unfold finish
  rw [nothing]

theorem finish_of_some {place : Place} {resource : Nat} (holds : store.held place = some resource) :
    store.finish place = { store with
      held := Function.update store.held place none
      trace := store.trace ++ [.ended resource] } := by
  unfold finish
  rw [holds]

@[simp] theorem finishAll_nil : store.finishAll [] = store := rfl

@[simp] theorem finishAll_cons (places : List Place) :
    store.finishAll (place :: places) = (store.finish place).finishAll places := rfl

@[simp] theorem finishAll_made (places : List Place) :
    (store.finishAll places).made = store.made := by
  induction places generalizing store with
  | nil => rfl
  | cons place places ih => rw [finishAll_cons, ih, finish_made]

theorem finishAll_held (places : List Place) (other : Place) :
    (store.finishAll places).held other = if other ∈ places then none else store.held other := by
  induction places generalizing store with
  | nil => simp
  | cons place places ih =>
      rw [finishAll_cons, ih, finish_held]
      rcases eq_or_ne other place with rfl | differs
      · simp
      · simp [differs]

end Effects

end Store

/-! ## Nothing happens to a resource after its end -/

/-- No resource is in two places, and what a place holds has not ended. -/
structure Owned (store : Store Place Use) : Prop where
  apart : ∀ left right resource, store.held left = some resource →
    store.held right = some resource → left = right
  bounded : ∀ place resource, store.held place = some resource → resource < store.made
  kept : Lifetime.Kept
    (fun resource => resource < store.made ∧ ∀ place, store.held place ≠ some resource) store.trace

namespace Owned

variable {store : Store Place Use} {place : Place}

theorem empty : Owned (Store.empty : Store Place Use) where
  apart _ _ _ holds := nomatch holds
  bounded _ _ holds := nomatch holds
  kept := .nil

theorem unended (owned : Owned store) {resource : Nat} (holds : store.held place = some resource) :
    .ended resource ∉ store.trace :=
  fun ended => (owned.kept.ended resource ended).2 place holds

theorem use (owned : Owned store) (place : Place) (use : Use) : Owned (store.use place use) := by
  cases holds : store.held place with
  | none =>
      have same : store.use place use = store := by
        unfold Store.use
        rw [holds]
      rwa [same]
  | some resource =>
      have used : store.use place use =
          { store with trace := store.trace ++ [.used resource use] } := by
        unfold Store.use
        rw [holds]
      rw [used]
      exact ⟨owned.apart, owned.bounded, owned.kept.used (fun past => past.2 place holds) use⟩

variable [DecidableEq Place]

theorem assign (owned : Owned store) (above : Place → List Place) (place : Place)
    (succeeds : Bool) : Owned (store.assign above place succeeds) := by
  have fresh : ∀ other, store.held other ≠ some store.made := fun other holds =>
    Nat.lt_irrefl _ (owned.bounded other _ holds)
  have later : store.made ≤ (store.assign above place succeeds).made := by
    unfold Store.assign
    split <;> simp
  have holder (other : Place) (resource : Nat)
      (holds : (store.assign above place succeeds).held other = some resource) :
      (other = place ∧ resource = store.made ∧ succeeds = true) ∨
        (other ≠ place ∧ store.held other = some resource) := by
    rw [Store.assign_held] at holds
    rcases eq_or_ne other place with rfl | differs
    · rw [Function.update_self] at holds
      cases succeeds <;> simp_all
    · rw [Function.update_of_ne differs] at holds
      exact .inr ⟨differs, holds⟩
  refine ⟨?_, ?_, ?_⟩
  · intro left right resource leftHolds rightHolds
    rcases holder left resource leftHolds with ⟨rfl, rfl, -⟩ | ⟨leftOther, leftHolds⟩
    · rcases holder right _ rightHolds with ⟨rfl, -, -⟩ | ⟨-, rightHolds⟩
      · rfl
      · exact absurd rightHolds (fresh right)
    · rcases holder right _ rightHolds with ⟨-, rfl, -⟩ | ⟨-, rightHolds⟩
      · exact absurd leftHolds (fresh left)
      · exact owned.apart left right resource leftHolds rightHolds
  · intro other resource holds
    rcases holder other resource holds with ⟨-, rfl, rfl⟩ | ⟨-, holds⟩
    · simp [Store.assign]
    · exact Nat.lt_of_lt_of_le (owned.bounded other resource holds) later
  · rw [Store.assign_trace]
    refine ⟨owned.kept.sound, ?_⟩
    intro resource ended
    obtain ⟨below, gone⟩ := owned.kept.ended resource ended
    refine ⟨Nat.lt_of_lt_of_le below later, ?_⟩
    intro other holds
    rcases holder other resource holds with ⟨-, rfl, -⟩ | ⟨-, holds⟩
    · exact Nat.lt_irrefl _ below
    · exact gone other holds

theorem finish (owned : Owned store) (place : Place) : Owned (store.finish place) := by
  cases holds : store.held place with
  | none => rwa [Store.finish_of_none _ holds]
  | some resource =>
      rw [Store.finish_of_some _ holds]
      have elsewhere (other : Place) (found : Nat)
          (still : Function.update store.held place none other = some found) :
          other ≠ place ∧ store.held other = some found := by
        rcases eq_or_ne other place with rfl | differs
        · simp at still
        · rw [Function.update_of_ne differs] at still
          exact ⟨differs, still⟩
      refine ⟨?_, ?_, ?_⟩
      · intro left right found leftHolds rightHolds
        exact owned.apart left right found (elsewhere left found leftHolds).2
          (elsewhere right found rightHolds).2
      · intro other found still
        exact owned.bounded other found (elsewhere other found still).2
      · apply owned.kept.finish
        · exact fun past => past.2 place holds
        · rintro other ⟨below, gone⟩
          exact ⟨below, fun there still => gone there (elsewhere there other still).2⟩
        · refine ⟨owned.bounded place resource holds, fun there still => ?_⟩
          obtain ⟨differs, still⟩ := elsewhere there resource still
          exact differs (owned.apart there place resource still holds)

end Owned

/-! ## Nothing is lost -/

/-- Every resource made is in a place or has ended. -/
def Covered (store : Store Place Use) : Prop :=
  ∀ resource < store.made, (∃ place, store.held place = some resource) ∨
    .ended resource ∈ store.trace

section Covered

variable {store : Store Place Use} {place : Place}

theorem covered_empty : Covered (Store.empty : Store Place Use) :=
  fun _ below => absurd below (Nat.not_lt_zero _)

theorem covered_use (use : Use) : Covered (store.use place use) ↔ Covered store := by
  unfold Covered
  rw [Store.use_made, Store.use_held]
  have ended (resource : Nat) : .ended resource ∈ (store.use place use).trace ↔
      .ended resource ∈ store.trace := by
    unfold Store.use
    split <;> simp
  simp only [ended]

variable [DecidableEq Place]

/-- An assignment loses what the place held. -/
theorem covered_assign (owned : Owned store) (above : Place → List Place) (succeeds : Bool) :
    Covered (store.assign above place succeeds) ↔ Covered store ∧ store.held place = none := by
  have older : ∀ other ≠ place, (store.assign above place succeeds).held other =
      store.held other := by
    intro other differs
    rw [Store.assign_held, Function.update_of_ne differs]
  have later : store.made ≤ (store.assign above place succeeds).made := by
    unfold Store.assign
    split <;> simp
  have newest (resource : Nat) (below : resource < store.made) :
      (store.assign above place succeeds).held place ≠ some resource := by
    rw [Store.assign_held, Function.update_self]
    split
    · exact fun same => absurd (Option.some.inj same) (Nat.ne_of_gt below)
    · simp
  constructor
  · intro covered
    have before (resource : Nat) (below : resource < store.made) :
        (∃ other ≠ place, store.held other = some resource) ∨ .ended resource ∈ store.trace := by
      rcases covered resource (Nat.lt_of_lt_of_le below later) with ⟨other, holds⟩ | ended
      · have differs : other ≠ place := by
          rintro rfl
          exact newest resource below holds
        rw [older other differs] at holds
        exact .inl ⟨other, differs, holds⟩
      · rw [Store.assign_trace] at ended
        exact .inr ended
    refine ⟨fun resource below => (before resource below).imp_left ?_, ?_⟩
    · rintro ⟨other, -, holds⟩
      exact ⟨other, holds⟩
    · by_contra occupied
      obtain ⟨resource, holds⟩ := Option.ne_none_iff_exists'.mp occupied
      rcases before resource (owned.bounded place resource holds) with
        ⟨other, differs, again⟩ | ended
      · exact differs (owned.apart other place resource again holds)
      · exact owned.unended holds ended
  · rintro ⟨covered, vacant⟩ resource below
    rw [Store.assign_trace]
    rcases Nat.lt_or_ge resource store.made with earlier | new
    · refine (covered resource earlier).imp_left ?_
      rintro ⟨other, holds⟩
      have differs : other ≠ place := by
        rintro rfl
        rw [vacant] at holds
        cases holds
      exact ⟨other, by rw [older other differs, holds]⟩
    · left
      refine ⟨place, ?_⟩
      cases succeeds with
      | false => exact absurd below (Nat.not_lt_of_ge new)
      | true =>
          obtain rfl : resource = store.made := Nat.le_antisymm (Nat.lt_succ_iff.mp below) new
          simp

theorem covered_finish (place : Place) : Covered (store.finish place) ↔ Covered store := by
  cases holds : store.held place with
  | none => rw [Store.finish_of_none _ holds]
  | some ending =>
      unfold Covered
      rw [Store.finish_of_some _ holds]
      refine forall₂_congr fun resource _ => ?_
      simp only [List.mem_append, List.mem_singleton, Entry.ended.injEq]
      constructor
      · rintro (⟨other, still⟩ | ended | rfl)
        · rcases eq_or_ne other place with rfl | differs
          · simp at still
          · rw [Function.update_of_ne differs] at still
            exact .inl ⟨other, still⟩
        · exact .inr ended
        · exact .inl ⟨place, holds⟩
      · rintro (⟨other, still⟩ | ended)
        · rcases eq_or_ne other place with rfl | differs
          · exact .inr (.inr (Option.some.inj (still.symm.trans holds)))
          · exact .inl ⟨other, by rw [Function.update_of_ne differs, still]⟩
        · exact .inr (.inl ended)

theorem covered_finishAll (places : List Place) :
    Covered (store.finishAll places) ↔ Covered store := by
  induction places generalizing store with
  | nil => rfl
  | cons place places ih => rw [Store.finishAll_cons, ih, covered_finish]

end Covered

/-! ## What was made from a resource ends before it -/

/-- Whenever a resource has ended, so has all that was made from it. -/
def EndsFirst (parents : List (Nat × Nat)) (trace : Trace Nat Use) : Prop :=
  ∀ edge ∈ parents, ∀ front, front <+: trace → .ended edge.2 ∈ front → .ended edge.1 ∈ front

/-- The ends so far came in order, and what was made from a resource and has not ended is in a
place below the one the resource is in. -/
structure Ranked (above : Place → List Place) (store : Store Place Use) : Prop where
  ordered : EndsFirst store.parents store.trace
  below : ∀ edge ∈ store.parents, .ended edge.1 ∈ store.trace ∨
    ∃ child parent, parent ∈ above child ∧ store.held child = some edge.1 ∧
      store.held parent = some edge.2

namespace Ranked

variable {above : Place → List Place} {store : Store Place Use} {place : Place}

theorem empty : Ranked above (Store.empty : Store Place Use) where
  ordered _ member := nomatch member
  below _ member := nomatch member

theorem use (ranked : Ranked above store) (place : Place) (use : Use) :
    Ranked above (store.use place use) := by
  cases holds : store.held place with
  | none =>
      have same : store.use place use = store := by
        unfold Store.use
        rw [holds]
      rwa [same]
  | some resource =>
      have used : store.use place use =
          { store with trace := store.trace ++ [.used resource use] } := by
        unfold Store.use
        rw [holds]
      rw [used]
      refine ⟨?_, ?_⟩
      · intro edge member front front_prefix ended
        rcases List.prefix_concat_iff.mp front_prefix with rfl | earlier
        · simp only [List.mem_append, List.mem_singleton, reduceCtorEq, or_false] at ended ⊢
          exact ranked.ordered edge member _ (List.prefix_refl _) ended
        · exact ranked.ordered edge member front earlier ended
      · intro edge member
        exact (ranked.below edge member).imp_left fun ended => List.mem_append_left _ ended

variable [DecidableEq Place]

/-- A place may be assigned if it is vacant, and also if it has no place above or below it. -/
theorem assign (ranked : Ranked above store) (owned : Owned store) {place : Place}
    (single : store.held place = none ∨ above place = [] ∧ ∀ other, place ∉ above other)
    (apart : place ∉ above place) (succeeds : Bool) :
    Ranked above (store.assign above place succeeds) := by
  have kept (edge : Nat × Nat) (member : edge ∈ store.parents) :
      .ended edge.1 ∈ store.trace ∨ ∃ child parent, parent ∈ above child ∧
        (store.assign above place succeeds).held child = some edge.1 ∧
        (store.assign above place succeeds).held parent = some edge.2 := by
    refine (ranked.below edge member).imp_right ?_
    rintro ⟨child, parent, isAbove, childHolds, parentHolds⟩
    have differs : child ≠ place ∧ parent ≠ place := by
      constructor
      · rintro rfl
        rcases single with vacant | ⟨top, -⟩
        · rw [vacant] at childHolds
          cases childHolds
        · rw [top] at isAbove
          cases isAbove
      · rintro rfl
        rcases single with vacant | ⟨-, bottom⟩
        · rw [vacant] at parentHolds
          cases parentHolds
        · exact bottom child isAbove
    refine ⟨child, parent, isAbove, ?_, ?_⟩
    · rw [Store.assign_held, Function.update_of_ne differs.1, childHolds]
    · rw [Store.assign_held, Function.update_of_ne differs.2, parentHolds]
  cases succeeds with
  | false => exact ⟨ranked.ordered, kept⟩
  | true =>
      have split (edge : Nat × Nat)
          (member : edge ∈ (store.assign above place true).parents) :
          edge ∈ store.parents ∨ ∃ parent, parent ∈ above place ∧
            store.held parent = some edge.2 ∧ edge.1 = store.made := by
        change edge ∈ store.parents ++ _ at member
        rw [List.mem_append, List.mem_map] at member
        refine member.imp_right ?_
        rintro ⟨resource, found, rfl⟩
        obtain ⟨parent, isAbove, holds⟩ := List.mem_filterMap.mp found
        exact ⟨parent, isAbove, holds, rfl⟩
      refine ⟨?_, ?_⟩
      · intro edge member front front_prefix ended
        rcases split edge member with before | ⟨parent, -, holds, -⟩
        · exact ranked.ordered edge before front front_prefix ended
        · exact absurd (List.IsPrefix.subset front_prefix ended) (owned.unended holds)
      · intro edge member
        rcases split edge member with before | ⟨parent, isAbove, holds, child⟩
        · exact kept edge before
        · right
          refine ⟨place, parent, isAbove, by simp [child], ?_⟩
          have differs : parent ≠ place := by
            rintro rfl
            exact apart isAbove
          rw [Store.assign_held, Function.update_of_ne differs, holds]

/-- A resource may end when the places below it are vacant. -/
theorem finish (ranked : Ranked above store) (owned : Owned store)
    (vacant : ∀ child, place ∈ above child → store.held child = none) :
    Ranked above (store.finish place) := by
  cases holds : store.held place with
  | none => rwa [Store.finish_of_none _ holds]
  | some ending =>
      rw [Store.finish_of_some _ holds]
      -- nothing which was made from it is left
      have childless (edge : Nat × Nat) (member : edge ∈ store.parents)
          (parent : edge.2 = ending) : .ended edge.1 ∈ store.trace := by
        rcases ranked.below edge member with ended | ⟨child, there, isAbove, childHolds, thereHolds⟩
        · exact ended
        · rw [parent] at thereHolds
          obtain rfl := owned.apart there place ending thereHolds holds
          rw [vacant child isAbove] at childHolds
          cases childHolds
      refine ⟨?_, ?_⟩
      · intro edge member front front_prefix ended
        rcases List.prefix_concat_iff.mp front_prefix with rfl | earlier
        · rw [List.mem_append] at ended ⊢
          rcases ended with ended | now
          · exact .inl (ranked.ordered edge member _ (List.prefix_refl _) ended)
          · have parent : edge.2 = ending := by simpa using now
            exact .inl (childless edge member parent)
        · exact ranked.ordered edge member front earlier ended
      · intro edge member
        rcases ranked.below edge member with ended | ⟨child, there, isAbove, childHolds, thereHolds⟩
        · exact .inl (List.mem_append_left _ ended)
        · rcases eq_or_ne child place with rfl | childOther
          · obtain rfl : ending = edge.1 := Option.some.inj (holds.symm.trans childHolds)
            exact .inl (by simp)
          · rcases eq_or_ne there place with rfl | thereOther
            · exact .inl (List.mem_append_left _
                (childless edge member (Option.some.inj (thereHolds.symm.trans holds))))
            · right
              refine ⟨child, there, isAbove, ?_, ?_⟩
              · exact (Function.update_of_ne childOther ..).trans childHolds
              · exact (Function.update_of_ne thereOther ..).trans thereHolds

end Ranked

end Places
