import Mathlib.Data.List.Perm.Basic
import Mathlib.Logic.Function.Basic
import Typio.Lifetime

/-!
# Reference counts

Every resource has a count of the references to it, and it ends when the last of them is let go.  As
long as the counts are those of a list of owners, nothing happens to a resource after its end, and
the resources which have ended are those which once had an owner and have none any more.
-/

namespace RefCount

open Lifetime (Trace Entry)

variable {Resource Use : Type*}

/-- The counts, and what happened to the resources. -/
structure Counts (Resource Use : Type*) where
  strong : Resource → Nat
  trace : Trace Resource Use

namespace Counts

def empty : Counts Resource Use where
  strong _ := 0
  trace := []

def use (counts : Counts Resource Use) (resource : Resource) (use : Use) : Counts Resource Use :=
  { counts with trace := counts.trace ++ [.used resource use] }

variable [DecidableEq Resource]

/-- The first reference to a resource. -/
def create (counts : Counts Resource Use) (resource : Resource) : Counts Resource Use :=
  { counts with strong := Function.update counts.strong resource 1 }

/-- One more reference to a resource. -/
def clone (counts : Counts Resource Use) (resource : Resource) : Counts Resource Use :=
  { counts with
    strong := Function.update counts.strong resource (counts.strong resource + 1) }

/-- A reference is let go; with the last one the resource ends. -/
def drop (counts : Counts Resource Use) (resource : Resource) : Counts Resource Use where
  strong := Function.update counts.strong resource (counts.strong resource - 1)
  trace := if counts.strong resource = 1 then counts.trace ++ [.ended resource] else counts.trace

/-- A variable which may hold a reference is let go. -/
def dropOption (counts : Counts Resource Use) (resource : Option Resource) :
    Counts Resource Use :=
  match resource with
  | none => counts
  | some resource => counts.drop resource

end Counts

variable [DecidableEq Resource]

/-- The counts are those of the owners, the resources known so far are the ones which have or had
an owner, and a known resource has ended if and only if it has no owner. -/
structure Balanced (known : Resource → Prop) (owners : List Resource)
    (counts : Counts Resource Use) : Prop where
  counted : ∀ resource, counts.strong resource = owners.count resource
  owned : ∀ resource ∈ owners, known resource
  kept : Lifetime.Kept (fun resource => known resource ∧ resource ∉ owners) counts.trace
  finished : ∀ resource, known resource → resource ∉ owners → .ended resource ∈ counts.trace

namespace Balanced

variable {known : Resource → Prop} {owners : List Resource} {counts : Counts Resource Use}
  {resource : Resource}

theorem empty : Balanced (fun _ => False) [] (Counts.empty : Counts Resource Use) where
  counted _ := rfl
  owned _ member := absurd member List.not_mem_nil
  kept := Lifetime.Kept.nil
  finished _ nothing := nothing.elim

theorem ended_iff (balanced : Balanced known owners counts) (resource : Resource) :
    .ended resource ∈ counts.trace ↔ known resource ∧ resource ∉ owners := by
  constructor
  · exact balanced.kept.ended resource
  · rintro ⟨was, gone⟩
    exact balanced.finished resource was gone

/-- Only how often each owner is counted matters. -/
theorem perm (balanced : Balanced known owners counts) {others : List Resource}
    (same : owners.Perm others) : Balanced known others counts := by
  refine ⟨?_, ?_, ⟨balanced.kept.sound, ?_⟩, ?_⟩
  · intro resource
    rw [balanced.counted, same.count_eq]
  · intro resource member
    exact balanced.owned resource (same.mem_iff.mpr member)
  · intro resource ended
    rw [← same.mem_iff]
    exact balanced.kept.ended resource ended
  · intro resource was gone
    rw [← same.mem_iff] at gone
    exact balanced.finished resource was gone

theorem mono (balanced : Balanced known owners counts) {others : Resource → Prop}
    (same : ∀ resource, known resource ↔ others resource) : Balanced others owners counts := by
  obtain rfl : known = others := funext fun resource => propext (same resource)
  exact balanced

theorem use (balanced : Balanced known owners counts) (owned : resource ∈ owners) (use : Use) :
    Balanced known owners (counts.use resource use) where
  counted := balanced.counted
  owned := balanced.owned
  kept := balanced.kept.used (fun past => past.2 owned) use
  finished other was gone := List.mem_append_left _ (balanced.finished other was gone)

theorem create (balanced : Balanced known owners counts) (fresh : ¬known resource) :
    Balanced (fun other => known other ∨ other = resource) (resource :: owners)
      (counts.create resource) := by
  have unowned : resource ∉ owners := fun owned => fresh (balanced.owned resource owned)
  refine ⟨?_, ?_, ⟨balanced.kept.sound, ?_⟩, ?_⟩
  · intro other
    rcases eq_or_ne other resource with rfl | differs
    · simp [Counts.create, List.count_eq_zero_of_not_mem unowned]
    · simp [Counts.create, differs, Ne.symm differs, balanced.counted]
  · intro other member
    rcases List.mem_cons.mp member with rfl | before
    · exact .inr rfl
    · exact .inl (balanced.owned other before)
  · intro other ended
    obtain ⟨was, gone⟩ := balanced.kept.ended other ended
    refine ⟨.inl was, ?_⟩
    rw [List.mem_cons, not_or]
    refine ⟨?_, gone⟩
    rintro rfl
    exact fresh was
  · intro other was gone
    rw [List.mem_cons, not_or] at gone
    exact balanced.finished other (was.resolve_right gone.1) gone.2

theorem clone (balanced : Balanced known owners counts) (owned : resource ∈ owners) :
    Balanced known (resource :: owners) (counts.clone resource) := by
  have same : ∀ other, other ∈ resource :: owners ↔ other ∈ owners := by
    intro other
    rw [List.mem_cons, or_iff_right_iff_imp]
    rintro rfl
    exact owned
  refine ⟨?_, ?_, ⟨balanced.kept.sound, ?_⟩, ?_⟩
  · intro other
    rcases eq_or_ne other resource with rfl | differs
    · simp [Counts.clone, balanced.counted]
    · simp [Counts.clone, differs, Ne.symm differs, balanced.counted]
  · intro other member
    exact balanced.owned other ((same other).mp member)
  · intro other ended
    rw [same]
    exact balanced.kept.ended other ended
  · intro other was gone
    rw [same] at gone
    exact balanced.finished other was gone

theorem drop (balanced : Balanced known (resource :: owners) counts) :
    Balanced known owners (counts.drop resource) := by
  have count : counts.strong resource = owners.count resource + 1 := by
    rw [balanced.counted, List.count_cons_self]
  have counted : ∀ other, (counts.drop resource).strong other = owners.count other := by
    intro other
    rcases eq_or_ne other resource with rfl | differs
    · simp [Counts.drop, count]
    · simp [Counts.drop, differs, Ne.symm differs, balanced.counted]
  have known' : ∀ other ∈ owners, known other :=
    fun other member => balanced.owned other (List.mem_cons_of_mem _ member)
  by_cases last : resource ∈ owners
  · -- another owner is left, and nothing ends
    have same : ∀ other, other ∈ resource :: owners ↔ other ∈ owners := by
      intro other
      rw [List.mem_cons, or_iff_right_iff_imp]
      rintro rfl
      exact last
    have more : counts.strong resource ≠ 1 := by
      have positive := List.count_pos_iff.mpr last
      omega
    have trace : (counts.drop resource).trace = counts.trace := if_neg more
    refine ⟨counted, known', ?_, ?_⟩
    · rw [trace]
      refine ⟨balanced.kept.sound, ?_⟩
      intro other ended
      rw [← same]
      exact balanced.kept.ended other ended
    · intro other was gone
      rw [trace]
      rw [← same] at gone
      exact balanced.finished other was gone
  · have one : counts.strong resource = 1 := by
      rw [count, List.count_eq_zero_of_not_mem last]
    have trace : (counts.drop resource).trace = counts.trace ++ [.ended resource] := if_pos one
    refine ⟨counted, known', ?_, ?_⟩
    · rw [trace]
      apply balanced.kept.finish
      · rintro ⟨-, gone⟩
        exact gone (List.mem_cons_self ..)
      · rintro other ⟨was, gone⟩
        exact ⟨was, fun member => gone (List.mem_cons_of_mem _ member)⟩
      · exact ⟨balanced.owned resource (List.mem_cons_self ..), last⟩
    · intro other was gone
      rw [trace]
      rcases eq_or_ne other resource with rfl | differs
      · simp
      · apply List.mem_append_left
        apply balanced.finished other was
        rw [List.mem_cons, not_or]
        exact ⟨differs, gone⟩

theorem dropOption {place : Option Resource}
    (balanced : Balanced known (place.toList ++ owners) counts) :
    Balanced known owners (counts.dropOption place) := by
  cases place with
  | none => exact balanced
  | some resource => exact balanced.drop

end Balanced

end RefCount
