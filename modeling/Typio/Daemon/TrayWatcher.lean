import Mathlib.Data.List.Basic
import Typio.Machine

/-!
# The tray and its watcher

The tray registers its item with the watcher that owns a name on the bus.  When the name changes
hands the bus sends a signal, which the tray handles later; its registration, which it sends at
once, reaches whoever owns the name by then.  A signal of a new owner is ignored while the tray is
registered, so a watcher which takes the name over from another one is not registered with.
-/

namespace Typio

namespace Daemon

/-- What becomes of the call to `RegisterStatusNotifierItem` when there is a watcher. -/
inductive RegisterReply where
  | accepted
  /-- The watcher lists the item, but the reply comes too late. -/
  | late
  | refused
  deriving DecidableEq, Repr

/-- The tray and the bus: the owner of the watcher's name and the number of owners so far, the new
owner for each signal which the tray has not handled, the flag of the tray, and the last watcher
which listed the item. -/
structure TrayBus where
  watcher : Option Nat
  owners : Nat
  signals : List (Option Nat)
  registered : Bool
  listedAt : Option Nat
  deriving DecidableEq, Repr

namespace TrayBus

/-- `typio_tray_sni_register`. -/
def sniRegister (bus : TrayBus) (reply : RegisterReply) : TrayBus :=
  match bus.watcher with
  | none => { bus with registered := false }
  | some watcher =>
      match reply with
      | .accepted => { bus with registered := true, listedAt := some watcher }
      | .late => { bus with registered := false, listedAt := some watcher }
      | .refused => { bus with registered := false }

/-- `tray_bus_filter` on the next signal. -/
def busFilter (bus : TrayBus) (reply : RegisterReply) : TrayBus :=
  match bus.signals with
  | [] => bus
  | none :: later => { bus with signals := later, registered := false }
  | some _ :: later =>
      let bus := { bus with signals := later }
      if bus.registered then bus else bus.sniRegister reply

/-- The name goes to a new owner. -/
def appear (bus : TrayBus) : TrayBus :=
  { bus with
    watcher := some bus.owners
    owners := bus.owners + 1
    signals := bus.signals ++ [some bus.owners] }

/-- The name has no owner any more. -/
def vanish (bus : TrayBus) : TrayBus :=
  if bus.watcher.isSome then { bus with watcher := none, signals := bus.signals ++ [none] } else bus

inductive Event where
  | appear
  | vanish
  | dispatch (reply : RegisterReply)
  deriving DecidableEq, Repr

def step (bus : TrayBus) : Event → TrayBus
  | .appear => bus.appear
  | .vanish => bus.vanish
  | .dispatch reply => bus.busFilter reply

/-- `typio_tray_new` has just asked the bus for the signals. -/
def matched (watcher : Bool) : TrayBus where
  watcher := if watcher then some 0 else none
  owners := 1
  signals := []
  registered := false
  listedAt := none

/-- What happens to the name before `typio_tray_new` registers the item. -/
def prepared (watcher : Bool) (changes : List Bool) : TrayBus :=
  changes.foldl (fun bus appears => if appears then bus.appear else bus.vanish) (matched watcher)

/-! ## The property and the conditions -/

/-- All pending signals are handled, and every call is answered in time. -/
def drained (bus : TrayBus) : TrayBus :=
  Machine.run step bus (List.replicate bus.signals.length (.dispatch .accepted))

/-- The tray knows whether there is a watcher, and the watcher there is lists the item. -/
structure Shown (bus : TrayBus) : Prop where
  registered : bus.registered = bus.watcher.isSome
  listed : bus.watcher.isSome = true → bus.listedAt = bus.watcher

/-- A call which reaches a watcher is answered in time, unless a signal comes after it. -/
def Answers (bus : TrayBus) (later : List (Option Nat)) (reply : RegisterReply) : Prop :=
  bus.watcher = none ∨ reply = .accepted ∨ later ≠ []

/-- No watcher takes the name over while the tray is registered and has not yet to be told that the
name lost its owner; and calls are answered in time. -/
def Follows (bus : TrayBus) : Event → Prop
  | .appear => bus.registered = true → bus.watcher.isSome = true → none ∈ bus.signals
  | .vanish => True
  | .dispatch reply =>
      ∀ owner later, bus.signals = some owner :: later → bus.registered = false →
        bus.Answers later reply

/-! ## Steps -/

/-- The last signal tells of the owner there is, and owners are numbered as they come. -/
structure Chained (bus : TrayBus) : Prop where
  last : ∀ signal, bus.signals.getLast? = some signal → signal = bus.watcher
  owner : ∀ owner, bus.watcher = some owner → owner < bus.owners
  listed : ∀ owner, bus.listedAt = some owner → owner < bus.owners
  registered : bus.registered = true → bus.listedAt.isSome = true

/-- The tray is about to be shown: the watcher lists its item, or the signals make it register. -/
def Ahead (bus : TrayBus) : Prop :=
  if bus.registered then bus.listedAt = bus.watcher ∨ none ∈ bus.signals
  else bus.watcher = none ∨ bus.signals ≠ []

variable {bus : TrayBus}

theorem matched_chained (watcher : Bool) : (matched watcher).Chained := by
  constructor
  · simp [matched]
  · cases watcher <;> simp [matched]
  · simp [matched]
  · simp [matched]

theorem Chained.appear (chained : bus.Chained) : bus.appear.Chained where
  last signal last := by
    rw [TrayBus.appear, List.getLast?_concat] at last
    exact (Option.some.inj last).symm
  owner owner same := by
    obtain rfl : bus.owners = owner := Option.some.inj same
    exact Nat.lt_succ_self _
  listed owner same := Nat.lt_succ_of_lt (chained.listed owner same)
  registered := chained.registered

theorem Chained.vanish (chained : bus.Chained) : bus.vanish.Chained := by
  unfold TrayBus.vanish
  split
  · refine ⟨fun signal last => ?_, fun owner same => ?_, chained.listed,
      chained.registered⟩
    · rw [List.getLast?_concat] at last
      exact (Option.some.inj last).symm
    · cases same
  · exact chained

theorem Chained.sniRegister (chained : bus.Chained) (reply : RegisterReply) :
    (bus.sniRegister reply).Chained := by
  unfold TrayBus.sniRegister
  split
  · exact ⟨chained.last, chained.owner, chained.listed, fun up => by cases up⟩
  · rename_i watcher there
    have known (owner : Nat) (same : some watcher = some owner) : owner < bus.owners :=
      chained.owner owner (there.trans same)
    split
    · exact ⟨chained.last, chained.owner, known, fun _ => rfl⟩
    · exact ⟨chained.last, chained.owner, known, fun up => by cases up⟩
    · exact ⟨chained.last, chained.owner, chained.listed, fun up => by cases up⟩

/-- The signals after the first one tell of the owner there is as well. -/
theorem Chained.later (chained : bus.Chained) {signal : Option Nat} {later : List (Option Nat)}
    (pending : bus.signals = signal :: later) : ({ bus with signals := later } : TrayBus).Chained := by
  refine ⟨fun last is => chained.last last ?_, chained.owner, chained.listed, chained.registered⟩
  cases later with
  | nil => cases is
  | cons next later =>
      rw [pending, List.getLast?_cons_cons]
      exact is

theorem Chained.busFilter (chained : bus.Chained) (reply : RegisterReply) :
    (bus.busFilter reply).Chained := by
  unfold TrayBus.busFilter
  split
  · exact chained
  · rename_i later pending
    have kept := chained.later pending
    exact ⟨kept.last, kept.owner, kept.listed, fun up => by cases up⟩
  · rename_i owner later pending
    have kept := chained.later pending
    dsimp only
    split
    · exact kept
    · exact kept.sniRegister reply

theorem Chained.step (chained : bus.Chained) (event : Event) : (bus.step event).Chained := by
  cases event with
  | appear => exact chained.appear
  | vanish => exact chained.vanish
  | dispatch reply => exact chained.busFilter reply

/-- A call for registration shows the tray, or leaves it to the next signal. -/
theorem sniRegister_ahead_iff (reply : RegisterReply) :
    (bus.sniRegister reply).Ahead ↔ bus.Answers bus.signals reply := by
  unfold sniRegister Answers
  cases there : bus.watcher with
  | none => simp [Ahead]
  | some watcher =>
      cases reply with
      | accepted => simp [Ahead]
      | late => simp [Ahead]
      | refused => simp [Ahead]

theorem step_ahead_iff (chained : bus.Chained) (ahead : bus.Ahead) (event : Event) :
    (bus.step event).Ahead ↔ bus.Follows event := by
  cases event with
  | appear =>
      unfold step appear Follows Ahead
      cases registered : bus.registered with
      | false => simp
      | true =>
          have fresh : bus.listedAt ≠ some bus.owners := fun same =>
            Nat.lt_irrefl _ (chained.listed bus.owners same)
          rw [Ahead, registered, if_pos rfl] at ahead
          simp only [if_true, fresh, false_or, List.mem_append, List.mem_singleton, reduceCtorEq,
            or_false, true_implies]
          constructor
          · exact fun told _ => told
          · intro told
            rcases ahead with shown | lost
            · exact told (shown ▸ chained.registered registered)
            · exact lost
  | vanish =>
      refine iff_of_true ?_ trivial
      unfold step vanish
      dsimp only
      split
      · unfold Ahead
        split
        · simp
        · simp
      · exact ahead
  | dispatch reply =>
      unfold step busFilter Follows
      dsimp only
      split
      · rename_i idle
        refine iff_of_true ahead fun owner later pending => ?_
        cases idle.symm.trans pending
      · rename_i later pending
        refine iff_of_true ?_ fun owner rest same => ?_
        · cases later with
          | nil =>
              have gone := chained.last none (by rw [pending]; rfl)
              exact .inl gone.symm
          | cons signal later => exact .inr (List.cons_ne_nil signal later)
        · cases pending.symm.trans same
      · rename_i owner later pending
        cases registered : bus.registered with
        | true =>
            refine iff_of_true ?_ fun _ _ _ out => by cases out
            rw [Ahead, registered, if_pos rfl, pending] at ahead
            simpa [Ahead, registered] using ahead
        | false =>
            rw [if_neg Bool.false_ne_true, sniRegister_ahead_iff]
            constructor
            · intro answers other rest same _
              obtain ⟨-, rfl⟩ := List.cons.inj (pending.symm.trans same)
              exact answers
            · intro answers
              exact answers owner later pending rfl

/-! ## Draining the signals -/

theorem drained_of_idle (idle : bus.signals = []) : bus.drained = bus := by
  rw [drained, idle]
  rfl

theorem busFilter_signals {signal : Option Nat} {later : List (Option Nat)}
    (pending : bus.signals = signal :: later) (reply : RegisterReply) :
    (bus.busFilter reply).signals = later := by
  have registers (bus : TrayBus) : (bus.sniRegister reply).signals = bus.signals := by
    unfold sniRegister
    split
    · rfl
    · split <;> rfl
  unfold busFilter
  rw [pending]
  cases signal with
  | none => rfl
  | some owner =>
      dsimp only
      split
      · rfl
      · exact registers _

theorem drained_of_pending {signal : Option Nat} {later : List (Option Nat)}
    (pending : bus.signals = signal :: later) : bus.drained = (bus.busFilter .accepted).drained := by
  rw [drained, drained, pending, busFilter_signals pending]
  rfl

/-- A signal which is handled, with its call answered, changes nothing about what is to come. -/
theorem busFilter_ahead_iff (chained : bus.Chained) {signal : Option Nat}
    {later : List (Option Nat)} (pending : bus.signals = signal :: later) :
    (bus.busFilter .accepted).Ahead ↔ bus.Ahead := by
  constructor
  · intro ahead
    cases registered : bus.registered with
    | false =>
        rw [Ahead, registered, if_neg Bool.false_ne_true, pending]
        exact .inr (List.cons_ne_nil signal later)
    | true =>
        rw [Ahead, registered, if_pos rfl, pending]
        cases signal with
        | none => exact .inr (List.mem_cons_self ..)
        | some owner =>
            unfold busFilter at ahead
            simp only [pending, registered, if_true, Ahead] at ahead
            exact ahead.imp_right (List.mem_cons_of_mem _)
  · intro ahead
    refine (step_ahead_iff chained ahead (.dispatch .accepted)).mpr ?_
    intro owner rest _ _
    exact .inr (.inl rfl)

/-- Once the signals are handled the tray is shown exactly if it was about to be. -/
theorem drained_shown_iff (chained : bus.Chained) : bus.drained.Shown ↔ bus.Ahead := by
  induction pending : bus.signals generalizing bus with
  | nil =>
      rw [drained_of_idle pending, Ahead, pending]
      cases registered : bus.registered with
      | false =>
          constructor
          · intro shown
            have nobody := shown.registered
            rw [registered] at nobody
            exact .inl (Option.not_isSome_iff_eq_none.mp (by simp [← nobody]))
          · rintro (nobody | more)
            · refine ⟨by rw [registered, nobody]; rfl, fun there => ?_⟩
              rw [nobody] at there
              cases there
            · exact absurd rfl more
      | true =>
          constructor
          · intro shown
            exact .inl (shown.listed (shown.registered.symm.trans registered))
          · rintro (listed | lost)
            · have there : bus.watcher.isSome = true := listed ▸ chained.registered registered
              exact ⟨registered.trans there.symm, fun _ => listed⟩
            · cases lost
  | cons signal later induction =>
      rw [drained_of_pending pending, induction (chained.busFilter .accepted)
        (busFilter_signals pending .accepted), busFilter_ahead_iff chained pending]

/-! ## Runs -/

theorem prepared_chained (watcher : Bool) (changes : List Bool) :
    (prepared watcher changes).Chained := by
  induction changes using List.reverseRecOn with
  | nil => exact matched_chained watcher
  | append_singleton changes appears induction =>
      rw [prepared, List.foldl_append]
      change TrayBus.Chained (if appears then _ else _)
      split
      · exact induction.appear
      · exact induction.vanish

/-- In every run, from the registration of the item on, the tray is to be shown by the watcher there
is, as soon as the signals on their way are handled, exactly if the first call is answered and every
step follows the watcher. -/
theorem shown_iff_follows (watcher : Bool) (changes : List Bool) (reply : RegisterReply)
    (events : List Event) :
    Machine.Always step (fun bus => bus.drained.Shown)
        ((prepared watcher changes).sniRegister reply) events ↔
      (prepared watcher changes).Answers (prepared watcher changes).signals reply ∧
        Machine.EachStep step Follows ((prepared watcher changes).sniRegister reply) events := by
  have chained := (prepared_chained watcher changes).sniRegister reply
  have answers_iff : ((prepared watcher changes).sniRegister reply).drained.Shown ↔
      (prepared watcher changes).Answers (prepared watcher changes).signals reply :=
    (drained_shown_iff chained).trans (sniRegister_ahead_iff reply)
  have decided (bus : TrayBus) (event : Event) (chained : bus.Chained)
      (shown : bus.drained.Shown) : (bus.step event).drained.Shown ↔ bus.Follows event := by
    rw [drained_shown_iff (chained.step event)]
    exact step_ahead_iff chained ((drained_shown_iff chained).mp shown) event
  have steps (shown : ((prepared watcher changes).sniRegister reply).drained.Shown) :
      Machine.Always step (fun bus => bus.drained.Shown)
          ((prepared watcher changes).sniRegister reply) events ↔
        Machine.EachStep step Follows ((prepared watcher changes).sniRegister reply) events :=
    Machine.always_iff_eachStep Chained decided
      (fun bus event chained _ _ => chained.step event) chained shown
  constructor
  · intro always
    have shown := always [] List.nil_prefix
    exact ⟨answers_iff.mp shown, (steps shown).mp always⟩
  · rintro ⟨answers, each⟩
    exact (steps (answers_iff.mpr answers)).mpr each

-- The watcher is replaced by another one: the item is not listed there, however long one waits.
example : ¬((prepared true []).sniRegister .accepted).appear.drained.Shown := by
  intro shown
  have listed := shown.listed rfl
  revert listed
  decide

end TrayBus

end Daemon

end Typio
