import Mathlib.Data.List.Induction
import Mathlib.Data.List.Nodup

/-!
# Traces of uses and ends

A resource is used and ended.  A trace is sound if nothing happens to a resource after its end.
Resources which may have ended are told apart by a predicate, the past ones: a trace of which every
ended resource is past stays sound as long as only resources which are not past are used or ended.
-/

namespace Lifetime

variable {Resource Use : Type*}

inductive Entry (Resource Use : Type*) where
  | used (resource : Resource) (use : Use)
  | ended (resource : Resource)
  deriving DecidableEq, Repr

def Entry.resource : Entry Resource Use → Resource
  | .used resource _ => resource
  | .ended resource => resource

/-- What happened, first entry first. -/
abbrev Trace (Resource Use : Type*) := List (Entry Resource Use)

/-- Nothing happens to a resource after its end. -/
def Sound (trace : Trace Resource Use) : Prop :=
  trace.Pairwise fun earlier later => ∀ resource, earlier = .ended resource →
    later.resource ≠ resource

instance [DecidableEq Resource] (earlier later : Entry Resource Use) :
    Decidable (∀ resource, earlier = .ended resource → later.resource ≠ resource) :=
  match earlier with
  | .used _ _ => .isTrue nofun
  | .ended ended =>
      decidable_of_iff (later.resource ≠ ended)
        ⟨fun other _ is => Entry.ended.inj is ▸ other, fun all => all ended rfl⟩

instance [DecidableEq Resource] (trace : Trace Resource Use) : Decidable (Sound trace) :=
  inferInstanceAs (Decidable (trace.Pairwise _))

theorem sound_nil : Sound ([] : Trace Resource Use) := List.Pairwise.nil

theorem sound_concat (trace : Trace Resource Use) (entry : Entry Resource Use) :
    Sound (trace ++ [entry]) ↔ Sound trace ∧ .ended entry.resource ∉ trace := by
  unfold Sound
  rw [List.pairwise_append]
  constructor
  · rintro ⟨sound, -, apart⟩
    exact ⟨sound, fun ended => apart _ ended entry (by simp) entry.resource rfl rfl⟩
  · rintro ⟨sound, unended⟩
    refine ⟨sound, List.pairwise_singleton _ _, ?_⟩
    rintro earlier member later last resource rfl same
    obtain rfl := List.mem_singleton.mp last
    exact unended (same ▸ member)

/-- Resources which have not ended may all be ended, once each. -/
theorem sound_append_ended {trace : Trace Resource Use} {resources : List Resource}
    (once : resources.Nodup) (unended : ∀ resource ∈ resources, .ended resource ∉ trace) :
    Sound (trace ++ resources.map .ended) ↔ Sound trace := by
  induction resources using List.reverseRecOn with
  | nil => rw [List.map_nil, List.append_nil]
  | append_singleton resources last ih =>
      obtain ⟨before, -, apart⟩ := List.nodup_append.mp once
      have earlier := ih before fun resource member => unended resource (by simp [member])
      rw [List.map_append, ← List.append_assoc, List.map_singleton, sound_concat, earlier]
      refine and_iff_left fun ended => ?_
      rcases List.mem_append.mp ended with inTrace | among
      · exact unended last (by simp) inTrace
      · have member : last ∈ resources := by simpa [Entry.resource] using among
        exact apart last member last (by simp) rfl

/-- The trace is sound, and every resource which ended in it is past. -/
structure Kept (past : Resource → Prop) (trace : Trace Resource Use) : Prop where
  sound : Sound trace
  ended : ∀ resource, .ended resource ∈ trace → past resource

namespace Kept

variable {past : Resource → Prop} {trace : Trace Resource Use}

theorem nil : Kept past ([] : Trace Resource Use) := ⟨sound_nil, by simp⟩

theorem used (kept : Kept past trace) {resource : Resource} (present : ¬past resource) (use : Use) :
    Kept past (trace ++ [.used resource use]) := by
  refine ⟨(sound_concat ..).mpr ⟨kept.sound, fun ended => present (kept.ended _ ended)⟩, ?_⟩
  intro other member
  obtain before | last := List.mem_append.mp member
  · exact kept.ended other before
  · simp at last

/-- A resource is past from its end on. -/
theorem finish (kept : Kept past trace) {later : Resource → Prop} {resource : Resource}
    (present : ¬past resource) (grows : ∀ other, past other → later other)
    (passes : later resource) : Kept later (trace ++ [.ended resource]) := by
  refine ⟨(sound_concat ..).mpr ⟨kept.sound, fun ended => present (kept.ended _ ended)⟩, ?_⟩
  intro other member
  obtain before | last := List.mem_append.mp member
  · exact grows other (kept.ended other before)
  · obtain rfl : other = resource := by simpa using last
    exact passes

/-- Resources which are not past may all be ended, once each. -/
theorem finishAll (kept : Kept past trace) {resources : List Resource}
    (present : ∀ resource ∈ resources, ¬past resource) (once : resources.Nodup) :
    Kept (fun resource => past resource ∨ resource ∈ resources)
      (trace ++ resources.map .ended) := by
  induction resources using List.reverseRecOn with
  | nil =>
      rw [List.map_nil, List.append_nil]
      exact ⟨kept.sound, fun other member => .inl (kept.ended other member)⟩
  | append_singleton resources last ih =>
      obtain ⟨before, -, apart⟩ := List.nodup_append.mp once
      have earlier := ih (fun resource member => present resource (by simp [member])) before
      rw [List.map_append, ← List.append_assoc]
      refine earlier.finish ?_ ?_ (by simp)
      · rintro (gone | member)
        · exact present last (by simp) gone
        · exact apart last member last (by simp) rfl
      · rintro other (gone | member)
        · exact .inl gone
        · exact .inr (by simp [member])

end Kept

end Lifetime
