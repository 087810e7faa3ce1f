import Mathlib.Data.List.Nodup
import Typio.Core.Instance
import Typio.Machine

/-!
# The focused context of an instance

Every context keeps a flag of its own, and the instance keeps a pointer to the focused one.  Gaining
the focus does not take it from the context which has it, and losing it clears the pointer whichever
context it names.
-/

namespace Typio

namespace Core

/-- The part of a `TypioInputContext` which the focus is about, at its address. -/
structure ContextEntry where
  address : Nat
  focused : Bool
  deriving DecidableEq

/-- The contexts of an instance.  The log records the calls into the active engine and the
contexts they pass, latest first. -/
structure InstanceContexts where
  contexts : List ContextEntry
  focusedContext : Option Nat
  activeEngine : Option String
  log : List (EngineCall × Nat)
  deriving DecidableEq

namespace InstanceContexts

/-- The instance `typio_instance_new` makes. -/
def new : InstanceContexts where
  contexts := []
  focusedContext := none
  activeEngine := none
  log := []

/-- The live context at the address. -/
def contextAt (inst : InstanceContexts) (address : Nat) : Option ContextEntry :=
  inst.contexts.find? (·.address = address)

/-- A write to the flag of a context. -/
def setFocused (inst : InstanceContexts) (address : Nat) (focused : Bool) : InstanceContexts :=
  { inst with contexts := inst.contexts.map fun entry =>
      if entry.address = address then { entry with focused } else entry }

/-- `typio_instance_set_focused_context`. -/
def setFocusedContext (inst : InstanceContexts) (focusedContext : Option Nat) :
    InstanceContexts :=
  { inst with focusedContext }

/-- A call of the active engine, if there is one. -/
def callActive (inst : InstanceContexts) (call : EngineCall) (address : Nat) :
    InstanceContexts :=
  if inst.activeEngine.isSome then { inst with log := (call, address) :: inst.log } else inst

/-- `typio_instance_create_context`; the allocator answers with the address. -/
def createContext (inst : InstanceContexts) (address : Nat) : InstanceContexts :=
  { inst with contexts := inst.contexts ++ [{ address, focused := false }] }

/-- `typio_instance_destroy_context`. -/
def destroyContext (inst : InstanceContexts) (address : Nat) : InstanceContexts :=
  let inst := { inst with contexts := inst.contexts.filter (·.address ≠ address) }
  if inst.focusedContext = some address then inst.setFocusedContext none else inst

/-- `typio_input_context_focus_in`. -/
def focusIn (inst : InstanceContexts) (address : Nat) : InstanceContexts :=
  match inst.contextAt address with
  | none => inst
  | some entry =>
      if entry.focused then inst
      else
        ((inst.setFocused address true).setFocusedContext (some address)).callActive .focusIn
          address

/-- `typio_input_context_focus_out`. -/
def focusOut (inst : InstanceContexts) (address : Nat) : InstanceContexts :=
  match inst.contextAt address with
  | none => inst
  | some entry =>
      if !entry.focused then inst
      else ((inst.callActive .focusOut address).setFocusedContext none).setFocused address false

/-! ## Events -/

inductive ContextEvent where
  | create (address : Nat)
  | destroy (address : Nat)
  | focusIn (address : Nat)
  | focusOut (address : Nat)
  | changeEngine (active : Option String)

def step (inst : InstanceContexts) : ContextEvent → InstanceContexts
  | .create address => inst.createContext address
  | .destroy address => inst.destroyContext address
  | .focusIn address => inst.focusIn address
  | .focusOut address => inst.focusOut address
  | .changeEngine active => { inst with activeEngine := active }

/-- The addresses of the live contexts. -/
def addresses (inst : InstanceContexts) : List Nat := inst.contexts.map ContextEntry.address

/-- The allocator answers with a free address, and callers pass contexts which are alive. -/
def Allowed (inst : InstanceContexts) : ContextEvent → Prop
  | .create address => address ∉ inst.addresses
  | .destroy address | .focusIn address | .focusOut address => address ∈ inst.addresses
  | .changeEngine _ => True

instance : ∀ (inst : InstanceContexts) event, Decidable (inst.Allowed event)
  | inst, .create address => inferInstanceAs (Decidable (address ∉ inst.addresses))
  | inst, .destroy address => inferInstanceAs (Decidable (address ∈ inst.addresses))
  | inst, .focusIn address => inferInstanceAs (Decidable (address ∈ inst.addresses))
  | inst, .focusOut address => inferInstanceAs (Decidable (address ∈ inst.addresses))
  | _, .changeEngine _ => inferInstanceAs (Decidable True)

/-- A live context at the address has its flag set. -/
def IsFocused (inst : InstanceContexts) (address : Nat) : Prop :=
  { address, focused := true } ∈ inst.contexts

/-- The instance names a context as focused exactly when the context's own flag is set. -/
def FocusAgrees (inst : InstanceContexts) : Prop :=
  ∀ address, inst.focusedContext = some address ↔ inst.IsFocused address

/-- A context which gains the focus gains it while no other context has it. -/
def TakesFreeFocus (inst : InstanceContexts) : ContextEvent → Prop
  | .focusIn address => inst.IsFocused address ∨ inst.focusedContext = none
  | _ => True

/-! ## One context at a time -/

namespace FocusAgrees

variable {inst : InstanceContexts} {first second : Nat}

/-- At most one context is focused. -/
theorem unique (agrees : inst.FocusAgrees) (left : inst.IsFocused first)
    (right : inst.IsFocused second) : first = second :=
  Option.some.inj (((agrees first).mpr left).symm.trans ((agrees second).mpr right))

end FocusAgrees

/-! ## Reading the flags after an operation -/

section Reading

variable {inst : InstanceContexts} {address other : Nat} {focused : Bool}

theorem mem_contexts_setFocused {entry : ContextEntry} :
    entry ∈ (inst.setFocused address focused).contexts ↔
      if entry.address = address then address ∈ inst.addresses ∧ entry.focused = focused
      else entry ∈ inst.contexts := by
  obtain ⟨location, flag⟩ := entry
  simp only [setFocused, addresses, List.mem_map]
  constructor
  · rintro ⟨⟨found, old⟩, member, same⟩
    split at same
    · next here =>
        obtain ⟨rfl, rfl⟩ := ContextEntry.mk.inj same
        rw [if_pos here]
        exact ⟨⟨_, member, here⟩, rfl⟩
    · next elsewhere =>
        obtain ⟨rfl, rfl⟩ := ContextEntry.mk.inj same
        rwa [if_neg elsewhere]
  · split
    · rintro ⟨⟨found, member, here⟩, rfl⟩
      refine ⟨found, member, ?_⟩
      simp_all
    · next elsewhere => exact fun member => ⟨_, member, if_neg elsewhere⟩

/-- The flag of a live context is the one which was written. -/
theorem isFocused_setFocused (live : address ∈ inst.addresses) :
    (inst.setFocused address focused).IsFocused other ↔
      if other = address then focused = true else inst.IsFocused other := by
  rw [IsFocused, mem_contexts_setFocused]
  split
  · rw [and_iff_right live, eq_comm]
  · exact Iff.rfl

/-- The addresses of the contexts are distinct, and the flag of a context is the one at its
address. -/
theorem contextAt_focused {entry : ContextEntry} (distinct : inst.addresses.Nodup)
    (found : inst.contextAt address = some entry) :
    entry.focused = true ↔ inst.IsFocused address := by
  obtain ⟨location, flag⟩ := entry
  have member := List.mem_of_find?_eq_some found
  obtain rfl : location = address := by simpa using List.find?_some found
  constructor
  · rintro rfl
    exact member
  · intro marked
    exact congrArg ContextEntry.focused (List.inj_on_of_nodup_map distinct member marked rfl)

theorem exists_contextAt (live : address ∈ inst.addresses) :
    ∃ entry, inst.contextAt address = some entry := by
  obtain ⟨entry, member, here⟩ := List.mem_map.mp live
  refine Option.isSome_iff_exists.mp (List.find?_isSome.mpr ⟨entry, member, ?_⟩)
  simpa using here

end Reading

/-! ## What the operations do -/

section Operations

variable {inst : InstanceContexts} {address other : Nat}

@[simp] theorem setFocused_addresses (focused : Bool) :
    (inst.setFocused address focused).addresses = inst.addresses := by
  simp only [addresses, setFocused, List.map_map]
  refine List.map_congr_left fun entry _ => ?_
  rw [Function.comp_apply]
  split <;> rfl

@[simp] theorem callActive_contexts (call : EngineCall) :
    (inst.callActive call address).contexts = inst.contexts := by
  unfold callActive
  split <;> rfl

@[simp] theorem callActive_focusedContext (call : EngineCall) :
    (inst.callActive call address).focusedContext = inst.focusedContext := by
  unfold callActive
  split <;> rfl

theorem isFocused_congr {after : InstanceContexts} (same : after.contexts = inst.contexts) :
    after.IsFocused address ↔ inst.IsFocused address := by
  rw [IsFocused, IsFocused, same]

/-- A focused context stays as it is; another one is marked, and named by the instance. -/
theorem focusIn_cases (distinct : inst.addresses.Nodup) (live : address ∈ inst.addresses) :
    (inst.IsFocused address ∧ inst.focusIn address = inst) ∨
      (¬inst.IsFocused address ∧ inst.focusIn address =
        ((inst.setFocused address true).setFocusedContext (some address)).callActive .focusIn
          address) := by
  obtain ⟨entry, found⟩ := exists_contextAt live
  have flag := contextAt_focused distinct found
  rw [focusIn, found]
  dsimp only
  split
  · next marked => exact .inl ⟨flag.mp marked, rfl⟩
  · next unmarked => exact .inr ⟨fun focused => unmarked (flag.mpr focused), rfl⟩

/-- An unfocused context stays as it is; another one is unmarked, and the instance names none. -/
theorem focusOut_cases (distinct : inst.addresses.Nodup) (live : address ∈ inst.addresses) :
    (¬inst.IsFocused address ∧ inst.focusOut address = inst) ∨
      (inst.IsFocused address ∧ inst.focusOut address =
        ((inst.callActive .focusOut address).setFocusedContext none).setFocused address
          false) := by
  obtain ⟨entry, found⟩ := exists_contextAt live
  have flag := contextAt_focused distinct found
  rw [focusOut, found]
  dsimp only
  rw [← flag]
  cases marked : entry.focused with
  | false => exact .inl ⟨Bool.false_ne_true, rfl⟩
  | true => exact .inr ⟨rfl, rfl⟩

theorem destroyContext_focusedContext :
    (inst.destroyContext address).focusedContext =
      if inst.focusedContext = some address then none else inst.focusedContext := by
  unfold destroyContext
  dsimp only
  split <;> rfl

theorem destroyContext_contexts :
    (inst.destroyContext address).contexts =
      inst.contexts.filter (·.address ≠ address) := by
  unfold destroyContext
  dsimp only
  split <;> rfl

end Operations

/-! ## Steps -/

section Steps

variable {inst : InstanceContexts} {address : Nat}

theorem createContext_agrees (agrees : inst.FocusAgrees) :
    (inst.createContext address).FocusAgrees := by
  intro other
  refine (agrees other).trans ?_
  simp [IsFocused, createContext]

theorem destroyContext_agrees (agrees : inst.FocusAgrees) :
    (inst.destroyContext address).FocusAgrees := by
  intro other
  have kept := agrees other
  rw [destroyContext_focusedContext, IsFocused, destroyContext_contexts, List.mem_filter]
  change _ ↔ inst.IsFocused other ∧ _
  rw [← kept]
  split
  · next named =>
      refine iff_of_false (Option.some_ne_none other).symm ?_
      rintro ⟨still, apart⟩
      obtain rfl := Option.some.inj (named.symm.trans still)
      simp at apart
  · next elsewhere =>
      constructor
      · intro named
        refine ⟨named, ?_⟩
        simp only [ne_eq, decide_eq_true_eq]
        rintro rfl
        exact elsewhere named
      · exact And.left

/-- Gaining the focus keeps the instance and the flags together exactly when no other context had
the focus. -/
theorem focusIn_agrees_iff (agrees : inst.FocusAgrees) (distinct : inst.addresses.Nodup)
    (live : address ∈ inst.addresses) :
    (inst.focusIn address).FocusAgrees ↔
      inst.IsFocused address ∨ inst.focusedContext = none := by
  obtain ⟨focused, same⟩ | ⟨unfocused, marked⟩ := focusIn_cases distinct live
  · rw [same]
    exact iff_of_true agrees (.inl focused)
  · have flags (other : Nat) :
        (inst.focusIn address).IsFocused other ↔ other = address ∨ inst.IsFocused other := by
      rw [marked, isFocused_congr (callActive_contexts _)]
      refine (isFocused_setFocused live).trans ?_
      split
      · next here => exact iff_of_true rfl (.inl here)
      · next elsewhere => rw [or_iff_right elsewhere]
    have named : (inst.focusIn address).focusedContext = some address := by
      rw [marked, callActive_focusedContext]
      rfl
    rw [or_iff_right unfocused]
    constructor
    · intro after
      rw [Option.eq_none_iff_forall_ne_some]
      intro other holder
      have still := (agrees other).mp holder
      have taken := (after other).mpr ((flags other).mpr (.inr still))
      obtain rfl := Option.some.inj (named.symm.trans taken)
      exact unfocused still
    · intro free other
      rw [named, flags, ← agrees other, free, or_iff_left (Option.some_ne_none other).symm,
        Option.some.injEq, eq_comm]

theorem focusOut_agrees (agrees : inst.FocusAgrees) (distinct : inst.addresses.Nodup)
    (live : address ∈ inst.addresses) : (inst.focusOut address).FocusAgrees := by
  obtain ⟨-, same⟩ | ⟨focused, cleared⟩ := focusOut_cases distinct live
  · rw [same]
    exact agrees
  · intro other
    have still_live :
        address ∈ ((inst.callActive .focusOut address).setFocusedContext none).addresses := by
      rw [addresses, setFocusedContext, callActive_contexts]
      exact live
    rw [cleared]
    refine iff_of_false (Option.some_ne_none other).symm ?_
    rw [isFocused_setFocused still_live]
    split
    · exact Bool.false_ne_true
    · next elsewhere =>
        intro marked
        refine elsewhere (agrees.unique ?_ focused)
        exact (isFocused_congr (callActive_contexts _)).mp marked

/-- An operation which callers may use keeps the instance and the flags together exactly when it
gives the focus to no context while another one has it. -/
theorem step_agrees_iff (distinct : inst.addresses.Nodup) (agrees : inst.FocusAgrees)
    {event : ContextEvent} (allowed : inst.Allowed event) :
    (inst.step event).FocusAgrees ↔ inst.TakesFreeFocus event := by
  cases event with
  | create address => exact iff_true_intro (createContext_agrees agrees)
  | destroy address => exact iff_true_intro (destroyContext_agrees agrees)
  | focusIn address => exact focusIn_agrees_iff agrees distinct allowed
  | focusOut address => exact iff_true_intro (focusOut_agrees agrees distinct allowed)
  | changeEngine active => exact iff_true_intro agrees

theorem addresses_congr {after : InstanceContexts} (same : after.contexts = inst.contexts) :
    after.addresses = inst.addresses := by
  rw [addresses, addresses, same]

/-- The contexts stay apart. -/
theorem step_addresses_nodup (distinct : inst.addresses.Nodup) {event : ContextEvent}
    (allowed : inst.Allowed event) : (inst.step event).addresses.Nodup := by
  cases event with
  | create address =>
      change ((inst.contexts ++ [_]).map ContextEntry.address).Nodup
      rw [List.map_append, List.nodup_append_comm]
      exact List.nodup_cons.mpr ⟨allowed, distinct⟩
  | destroy address =>
      change ((inst.destroyContext address).contexts.map ContextEntry.address).Nodup
      rw [destroyContext_contexts]
      exact distinct.sublist (List.filter_sublist.map _)
  | focusIn address =>
      change (inst.focusIn address).addresses.Nodup
      obtain ⟨-, same⟩ | ⟨-, marked⟩ := focusIn_cases distinct allowed
      · rwa [same]
      · rw [marked, addresses_congr (callActive_contexts _)]
        exact (setFocused_addresses true).symm ▸ distinct
  | focusOut address =>
      change (inst.focusOut address).addresses.Nodup
      obtain ⟨-, same⟩ | ⟨-, cleared⟩ := focusOut_cases distinct allowed
      · rwa [same]
      · rw [cleared, setFocused_addresses]
        exact (addresses_congr (callActive_contexts .focusOut)).symm ▸ distinct
  | changeEngine active => exact distinct

end Steps

/-! ## Runs -/

theorem new_agrees : new.FocusAgrees := by
  intro address
  simp [new, IsFocused]

/-- In every run of a new instance it names a context as focused exactly when the context's own
flag is set, if and only if no context gains the focus while another one has it. -/
theorem focusAgrees_iff_takesFreeFocus {events : List ContextEvent}
    (allowed : Machine.EachStep step Allowed new events) :
    Machine.Always step FocusAgrees new events ↔
      Machine.EachStep step TakesFreeFocus new events :=
  Machine.always_iff_eachStep_of_allowed (fun inst => inst.addresses.Nodup)
    (fun _ _ distinct agrees allows => step_agrees_iff distinct agrees allows)
    (fun _ _ distinct _ allows _ => step_addresses_nodup distinct allows)
    List.nodup_nil new_agrees allowed

/-- The focus goes from one context to another. -/
theorem focusAgrees_iff_takesFreeFocus_handover :
    Machine.EachStep step Allowed new
        [.create 1, .create 2, .focusIn 1, .focusOut 1, .focusIn 2, .destroy 1] ∧
      (Machine.Always step FocusAgrees new
          [.create 1, .create 2, .focusIn 1, .focusOut 1, .focusIn 2, .destroy 1] ↔
        Machine.EachStep step TakesFreeFocus new
          [.create 1, .create 2, .focusIn 1, .focusOut 1, .focusIn 2, .destroy 1]) :=
  ⟨by decide, focusAgrees_iff_takesFreeFocus (by decide)⟩

/-- The second context gains the focus before the first one loses it: both flags are set, and then
the instance names no context although the second flag is still set. -/
theorem late_focus_out :
    Machine.EachStep step Allowed new
        [.create 1, .create 2, .focusIn 1, .focusIn 2, .focusOut 1] ∧
      ¬Machine.Always step FocusAgrees new
        [.create 1, .create 2, .focusIn 1, .focusIn 2, .focusOut 1] := by
  refine ⟨by decide, fun always => ?_⟩
  have named := (always.final 2).mpr (List.mem_cons_of_mem _ (List.mem_singleton_self _))
  exact Option.some_ne_none 2 named.symm

end InstanceContexts

end Core

end Typio
