import Mathlib.Data.List.Count
import Mathlib.Logic.Function.Basic
import Mathlib.Logic.Basic

/-!
# Deferred release of resources used by a pipeline

A pipeline works on submitted frames after the call which submitted them has returned, so a
resource drawn in a frame may not be released at once.  Two things say that the pipeline is done
with it: a wait for the whole pipeline, and a number of later frames.  The log keeps what was drawn,
waited for, passed and released; a ring of slots indexed by the number of frames passed holds the
resources until enough frames have passed.
-/

namespace Reclaim

variable {Handle : Type*}

inductive Event (Handle : Type*) where
  | drew (handles : List Handle)
  | waited
  | advanced
  | released (handle : Handle)
  deriving DecidableEq, Repr

/-- What happened, newest first. -/
abbrev Log (Handle : Type*) := List (Event Handle)

/-- The handles released, newest first. -/
def released : Log Handle → List Handle
  | [] => []
  | .released handle :: log => handle :: released log
  | .drew _ :: log | .waited :: log | .advanced :: log => released log

variable [DecidableEq Handle]

/-- The frames which have passed since the handle was drawn last; none when it was not drawn since
the last wait. -/
def age (handle : Handle) : Log Handle → Option Nat
  | [] => none
  | .waited :: _ => none
  | .advanced :: log => (age handle log).map (· + 1)
  | .released _ :: log => age handle log
  | .drew handles :: log => if handle ∈ handles then some 0 else age handle log

/-- The pipeline has passed this many frames since the handle was drawn last, or was waited for. -/
def Aged (frames : Nat) (handle : Handle) (log : Log Handle) : Prop :=
  ∀ passed ∈ age handle log, frames ≤ passed

instance (frames : Nat) (handle : Handle) (log : Log Handle) :
    Decidable (Aged frames handle log) :=
  inferInstanceAs (Decidable (∀ passed ∈ age handle log, frames ≤ passed))

/-- A handle is released once, and when `depth` frames have passed since it was drawn or the
pipeline was waited for. -/
def Disciplined (depth : Nat) : Log Handle → Prop
  | [] => True
  | .released handle :: log =>
      handle ∉ released log ∧ Aged depth handle log ∧ Disciplined depth log
  | .drew _ :: log | .waited :: log | .advanced :: log => Disciplined depth log

instance decidableDisciplined (depth : Nat) :
    ∀ log : Log Handle, Decidable (Disciplined depth log)
  | [] => .isTrue trivial
  | .released _ :: log =>
      have := decidableDisciplined depth log
      inferInstanceAs (Decidable (_ ∧ _ ∧ _))
  | .drew _ :: log | .waited :: log | .advanced :: log => decidableDisciplined depth log

section Released

omit [DecidableEq Handle]

variable (log : Log Handle)

@[simp] theorem released_nil : released ([] : Log Handle) = [] := rfl

@[simp] theorem released_released (handle : Handle) :
    released (.released handle :: log) = handle :: released log := rfl

@[simp] theorem released_drew (handles : List Handle) :
    released (.drew handles :: log) = released log := rfl

@[simp] theorem released_waited : released (.waited :: log) = released log := rfl

@[simp] theorem released_advanced : released (.advanced :: log) = released log := rfl

end Released

section Age

variable {frames : Nat} {handle : Handle} {log : Log Handle}

@[simp] theorem aged_zero : Aged 0 handle log := fun passed _ => Nat.zero_le passed

/-- What was not drawn since the last wait may be released. -/
theorem Aged.of_undrawn (undrawn : age handle log = none) : Aged frames handle log := by
  intro passed found
  rw [undrawn] at found
  cases found

theorem Aged.advanced (aged : Aged frames handle log) :
    Aged (frames + 1) handle (.advanced :: log) := by
  intro passed found
  simp only [age, Option.mem_def, Option.map_eq_some_iff] at found
  obtain ⟨before, found, rfl⟩ := found
  exact Nat.succ_le_succ (aged before found)

theorem Aged.drew {handles : List Handle} (aged : Aged frames handle log)
    (other : handle ∉ handles) : Aged frames handle (.drew handles :: log) := by
  intro passed found
  rw [age, if_neg other] at found
  exact aged passed found

@[simp] theorem age_released (freed : Handle) :
    age handle (.released freed :: log) = age handle log := rfl

@[simp] theorem age_waited : age handle (.waited :: log) = none := rfl

theorem age_drew_of_not_mem {handles : List Handle} (other : handle ∉ handles) :
    age handle (.drew handles :: log) = age handle log := by
  rw [age, if_neg other]

theorem age_advanced_eq_none (undrawn : age handle log = none) :
    age handle (.advanced :: log) = none := by
  rw [age, undrawn]
  rfl

end Age

/-! ## Releasing several handles -/

/-- The log after the handles were released one by one. -/
def releaseAll (handles : List Handle) (log : Log Handle) : Log Handle :=
  handles.foldl (fun log handle => .released handle :: log) log

omit [DecidableEq Handle] in
@[simp] theorem releaseAll_nil (log : Log Handle) : releaseAll [] log = log := rfl

omit [DecidableEq Handle] in
@[simp] theorem releaseAll_cons (handle : Handle) (handles : List Handle) (log : Log Handle) :
    releaseAll (handle :: handles) log = releaseAll handles (.released handle :: log) := rfl

omit [DecidableEq Handle] in
theorem releaseAll_append (left right : List Handle) (log : Log Handle) :
    releaseAll (left ++ right) log = releaseAll right (releaseAll left log) :=
  List.foldl_append

@[simp] theorem age_releaseAll (handle : Handle) (handles : List Handle) (log : Log Handle) :
    age handle (releaseAll handles log) = age handle log := by
  induction handles generalizing log with
  | nil => rfl
  | cons freed handles induction => exact induction (.released freed :: log)

theorem count_released_releaseAll (handle : Handle) (handles : List Handle) (log : Log Handle) :
    (released (releaseAll handles log)).count handle =
      handles.count handle + (released log).count handle := by
  induction handles generalizing log with
  | nil => simp
  | cons freed handles induction =>
      rw [releaseAll_cons, induction, released_released, List.count_cons, List.count_cons]
      omega

/-- Handles which have aged, none of them released before and none given twice, may be released. -/
theorem Disciplined.releaseAll {depth : Nat} {handles : List Handle} {log : Log Handle}
    (disciplined : Disciplined depth log) (aged : ∀ handle ∈ handles, Aged depth handle log)
    (once : ∀ handle, handles.count handle + (released log).count handle ≤ 1) :
    Disciplined depth (releaseAll handles log) := by
  induction handles generalizing log with
  | nil => exact disciplined
  | cons freed handles induction =>
      apply induction
      · refine ⟨?_, aged freed (List.mem_cons_self ..), disciplined⟩
        intro again
        have only := once freed
        have twice := List.count_pos_iff.mpr again
        rw [List.count_cons_self] at only
        omega
      · intro handle member
        exact aged handle (List.mem_cons_of_mem freed member)
      · intro handle
        have only := once handle
        rw [List.count_cons] at only
        rw [released_released, List.count_cons]
        omega

/-! ## The ring -/

/-- The number of frames which have passed since the slot was the current one. -/
def slotAge (depth epoch slot : Nat) : Nat :=
  if slot ≤ epoch % depth then epoch % depth - slot else epoch % depth + depth - slot

@[simp] theorem slotAge_current (depth epoch : Nat) :
    slotAge depth epoch (epoch % depth) = 0 := by
  simp [slotAge]

theorem succ_mod {depth : Nat} (positive : 0 < depth) (epoch : Nat) :
    (epoch + 1) % depth = if epoch % depth + 1 = depth then 0 else epoch % depth + 1 := by
  have current : epoch % depth < depth := Nat.mod_lt _ positive
  have split := Nat.div_add_mod epoch depth
  split
  next wraps =>
    have whole : epoch + 1 = depth * (epoch / depth + 1) := by
      rw [Nat.mul_add]
      omega
    rw [whole, Nat.mul_mod_right]
  next stays =>
    have whole : epoch + 1 = epoch % depth + 1 + depth * (epoch / depth) := by omega
    rw [whole, Nat.add_mul_mod_self_left, Nat.mod_eq_of_lt (by omega)]

/-- A frame on, every slot but the one which becomes current is one frame older. -/
theorem slotAge_succ {depth : Nat} (epoch : Nat) {slot : Nat} (bounded : slot < depth)
    (other : slot ≠ (epoch + 1) % depth) :
    slotAge depth (epoch + 1) slot = slotAge depth epoch slot + 1 := by
  have positive : 0 < depth := Nat.zero_lt_of_lt bounded
  have current : epoch % depth < depth := Nat.mod_lt _ positive
  rw [succ_mod positive] at other
  simp only [slotAge, succ_mod positive]
  split_ifs at other ⊢ <;> omega

/-- The slot which becomes current has been through the whole ring. -/
theorem slotAge_full {depth : Nat} (positive : 0 < depth) (epoch : Nat) :
    slotAge depth epoch ((epoch + 1) % depth) + 1 = depth := by
  have current : epoch % depth < depth := Nat.mod_lt _ positive
  simp only [slotAge, succ_mod positive]
  split_ifs <;> omega

/-- What lies in a slot of the ring was drawn no later than when the slot was the current one. -/
def Ripening (depth : Nat) (held : Nat → List Handle) (epoch : Nat) (log : Log Handle) : Prop :=
  ∀ slot < depth, ∀ handle ∈ held slot, Aged (slotAge depth epoch slot) handle log

section Ripening

variable {depth epoch : Nat} {held : Nat → List Handle} {log : Log Handle}

theorem Ripening.waited : Ripening depth held epoch (.waited :: log) :=
  fun _ _ _ _ => Aged.of_undrawn rfl

theorem Ripening.releaseAll (ripening : Ripening depth held epoch log) (handles : List Handle) :
    Ripening depth held epoch (releaseAll handles log) := by
  intro slot bounded handle member passed found
  rw [age_releaseAll] at found
  exact ripening slot bounded handle member passed found

theorem Ripening.drew (ripening : Ripening depth held epoch log) {handles : List Handle}
    (apart : ∀ slot < depth, ∀ handle ∈ held slot, handle ∉ handles) :
    Ripening depth held epoch (.drew handles :: log) :=
  fun slot bounded handle member =>
    (ripening slot bounded handle member).drew (apart slot bounded handle member)

/-- Anything may be put into the current slot. -/
theorem Ripening.push (ripening : Ripening depth held epoch log) (handles : List Handle) :
    Ripening depth
      (Function.update held (epoch % depth) (held (epoch % depth) ++ handles)) epoch log := by
  intro slot bounded handle member
  rcases eq_or_ne slot (epoch % depth) with rfl | other
  · rw [slotAge_current]
    exact aged_zero
  · rw [Function.update_of_ne other] at member
    exact ripening slot bounded handle member

theorem Ripening.clear (ripening : Ripening depth held epoch log) (cleared : Nat) :
    Ripening depth (Function.update held cleared []) epoch log := by
  intro slot bounded handle member
  rcases eq_or_ne slot cleared with rfl | other
  · rw [Function.update_self] at member
    cases member
  · rw [Function.update_of_ne other] at member
    exact ripening slot bounded handle member

/-- A frame on, what lies in the slot which becomes current has aged by the depth of the ring. -/
theorem Ripening.ripe (ripening : Ripening depth held epoch log) (positive : 0 < depth) :
    ∀ handle ∈ held ((epoch + 1) % depth), Aged depth handle (.advanced :: log) := by
  intro handle member
  have aged := (ripening _ (Nat.mod_lt _ positive) handle member).advanced
  rwa [slotAge_full positive] at aged

/-- A frame on, with the slot which becomes current emptied, the ring goes on ripening. -/
theorem Ripening.advanced (ripening : Ripening depth held epoch log) :
    Ripening depth (Function.update held ((epoch + 1) % depth) []) (epoch + 1)
      (.advanced :: log) := by
  intro slot bounded handle member
  rcases eq_or_ne slot ((epoch + 1) % depth) with rfl | other
  · rw [Function.update_self] at member
    cases member
  · rw [Function.update_of_ne other] at member
    rw [slotAge_succ epoch bounded other]
    exact (ripening slot bounded handle member).advanced

end Ripening

end Reclaim
