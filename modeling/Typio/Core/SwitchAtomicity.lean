import Typio.Core.InstanceSwitch

/-!
# Failed switches

A switch which fails is meant to leave the active engines as they were, in their own eyes too.  The
switch calls `deactivate` of the engine in the slot before it knows that the new engine comes up,
and nothing tells the engine afterwards that it is active again: only the manager's records are
restored.  A failed switch goes unnoticed exactly when it fails before it takes anything down.
-/

namespace Typio

namespace Core

/-- The calls an engine got, latest first. -/
def Instance.callsTo (inst : Instance) (engine : String) : List EngineCall :=
  inst.log.filterMap fun
    | .called name call => if name = engine then some call else none
    | .noticed _ _ => none

/-- The slots, the engines in them, the calls these engines got, and the focus are as before. -/
structure Atomic (before after : Instance) : Prop where
  slots : after.manager.active = before.manager.active
  occupants : ∀ slot, after.manager.occupant slot = before.manager.occupant slot
  calls : ∀ slot, ∀ entry ∈ before.manager.occupant slot,
    after.callsTo entry.name = before.callsTo entry.name
  focused : after.focused = before.focused

/-- The two ways to ask for an engine by name. -/
inductive SwitchRequest where
  | setActive (name : String) (calls : Calls)
  | setActiveVoice (name : String) (calls : Calls)
  deriving DecidableEq, Repr

def SwitchRequest.operation : SwitchRequest → EngineManager.Operation
  | .setActive name calls => .setActive name calls
  | .setActiveVoice name calls => .setActiveVoice name calls

/-- The request names no engine, or its slot is empty or holds the engine already, or the engine
comes up. -/
def EngineManager.Undisturbed (manager : EngineManager) (request : SwitchRequest) : Prop :=
  ∀ name calls, manager.target request.operation = some (name, calls) →
    ∀ index ∈ manager.findEntryIndex name, ∀ entry ∈ manager.entries[index]?, ∀ info ∈ entry.info,
      manager.active (Slot.ofInfo info) = none ∨ manager.active (Slot.ofInfo info) = some index ∨
        entry.ComesUp calls

namespace Hosted

variable {σ : Type*} (handler : Handler σ) (behaviour : Behaviour) (host : Hosted σ)

def request : SwitchRequest → Hosted σ × TypioResult
  | .setActive name calls => host.setActive handler behaviour name calls
  | .setActiveVoice name calls => host.setActiveVoice handler behaviour name calls

/-! ## Calls in the log -/

section Calls

@[simp] theorem callsTo_updateManager (update : EngineManager → EngineManager) (name : String) :
    (host.updateManager update).inst.callsTo name = host.inst.callsTo name := rfl

@[simp] theorem callsTo_clearMode (name : String) :
    host.clearMode.inst.callsTo name = host.inst.callsTo name := rfl

@[simp] theorem callsTo_notice (engine : String) (given : Notice) (name : String) :
    (host.notice handler engine given).inst.callsTo name = host.inst.callsTo name := by
  rw [Instance.callsTo, notice_log]
  rfl

theorem callsTo_callEngine (engine : String) (call : EngineCall) (name : String) :
    (host.callEngine handler behaviour engine call).inst.callsTo name =
      if engine = name then call :: host.inst.callsTo name else host.inst.callsTo name := by
  have called : (host.record (.called engine call)).inst.callsTo name =
      if engine = name then call :: host.inst.callsTo name else host.inst.callsTo name := by
    change List.filterMap _ (_ :: _) = _
    by_cases same : engine = name <;> simp [same, Instance.callsTo]
  rw [← called]
  exact @callEngine_induction _ handler behaviour host
    (fun after => after.inst.callsTo name = (host.record (.called engine call)).inst.callsTo name)
    engine call rfl fun given same notice _ =>
      (callsTo_notice handler given engine notice name).trans same

theorem callsTo_callEntry_of_ne {entry : Option EngineEntry} {name : String}
    (other : ∀ called ∈ entry, called.name ≠ name) (call : EngineCall) :
    (host.callEntry handler behaviour entry call).inst.callsTo name = host.inst.callsTo name := by
  unfold callEntry
  cases entry with
  | none => rfl
  | some called =>
      dsimp only
      split
      · rw [callsTo_callEngine, if_neg (other called rfl)]
      · rfl

theorem callsTo_callEntry_of_reachable {entry : EngineEntry} {engine : Engine}
    (cached : entry.engine = some engine) (present : engine.userData) (call : EngineCall) :
    (host.callEntry handler behaviour (some entry) call).inst.callsTo entry.name =
      call :: host.inst.callsTo entry.name := by
  unfold callEntry
  dsimp only
  rw [cached, Option.any_some, if_pos present, callsTo_callEngine, if_pos rfl]

theorem callsTo_initEntry_of_ne {current : Option Nat} {name : String}
    (other : ∀ called ∈ host.entryAt current, called.name ≠ name) :
    (host.initEntry handler behaviour current).inst.callsTo name = host.inst.callsTo name := by
  unfold initEntry
  split
  · exact callsTo_callEntry_of_ne handler behaviour host other .init
  · rfl

end Calls

/-! ## A failed switch -/

section Failed

variable {host : Hosted σ} {index : Nat} {entry : EngineEntry} {info : EngineInfo} {calls : Calls}

/-- A failed switch has called `deactivate` of the engine in the slot, and nothing else of any
engine but the one it was to switch to. -/
theorem switchTo_failed_callsTo (live : host.inst.manager.Live)
    (here : host.inst.manager.entries[index]? = some entry)
    (failed : (host.switchTo handler behaviour info index calls).2 ≠ .ok)
    (other : host.inst.manager.active (Slot.ofInfo info) ≠ some index) {name : String}
    (aside : entry.name ≠ name) :
    (host.switchTo handler behaviour info index calls).1.inst.callsTo name =
      (host.deactivateEntry handler behaviour
        (host.inst.manager.active (Slot.ofInfo info))).inst.callsTo name := by
  have madeCalls : (host.made handler behaviour (Slot.ofInfo info) index calls).inst.callsTo name =
      (host.deactivateEntry handler behaviour
        (host.inst.manager.active (Slot.ofInfo info))).inst.callsTo name :=
    callsTo_updateManager ..
  have startedCalls :
      (host.started handler behaviour (Slot.ofInfo info) index calls).inst.callsTo name =
        (host.made handler behaviour (Slot.ofInfo info) index calls).inst.callsTo name := by
    rw [started, callsTo_updateManager]
    apply callsTo_initEntry_of_ne
    intro target targeted
    rwa [made_name handler behaviour here targeted]
  obtain ⟨same, -⟩ | ⟨-, ⟨-, ended⟩ | ⟨-, ended⟩⟩ | ⟨-, done⟩ :=
    switchTo_cases handler behaviour host info index calls
  · exact absurd same other
  · rw [ended, made_restored handler behaviour live other, callsTo_updateManager, madeCalls]
  · rw [ended, started_restored handler behaviour live other, callsTo_updateManager, startedCalls,
      madeCalls]
  · exact absurd (congrArg Prod.snd done) failed

theorem switchTo_focused :
    (host.switchTo handler behaviour info index calls).1.inst.focused = host.inst.focused := by
  have initialized (host : Hosted σ) (current : Option Nat) :
      (host.initEntry handler behaviour current).inst.focused = host.inst.focused :=
    (Still.initEntry handler behaviour host current).focused
  have called (host : Hosted σ) (entry : Option EngineEntry) (call : EngineCall) :
      (host.callEntry handler behaviour entry call).inst.focused = host.inst.focused :=
    (Still.callEntry handler behaviour host entry call).focused
  have settled (host : Hosted σ) (slot : Slot) (current : Option Nat) :
      (host.settle handler behaviour slot current index info).inst.focused = host.inst.focused := by
    cases slot with
    | voice => rfl
    | keyboard => exact (Still.rebindFocusedContext handler behaviour _ _ _).focused
  unfold switchTo
  dsimp only
  split
  · rfl
  split
  · simp [tryRestoreEngine, deactivateEntry, initialized, called]
  split
  · simp [tryRestoreEngine, deactivateEntry, initialized, called]
  · simp [settled, deactivateEntry, initialized, called]

theorem switchTo_atomic_iff (orderly : host.inst.manager.Orderly)
    (here : host.inst.manager.entries[index]? = some entry) (known : entry.info = some info) :
    ((host.switchTo handler behaviour info index calls).2 ≠ .ok →
        Atomic host.inst (host.switchTo handler behaviour info index calls).1.inst) ↔
      host.inst.manager.active (Slot.ofInfo info) = none ∨
        host.inst.manager.active (Slot.ofInfo info) = some index ∨ entry.ComesUp calls := by
  have succeeds : (host.switchTo handler behaviour info index calls).2 = .ok ↔
      host.inst.manager.active (Slot.ofInfo info) = some index ∨ entry.ComesUp calls := by
    rw [switchTo_result]
    exact EngineManager.switchTo_ok_iff here calls
  have aside (failed : (host.switchTo handler behaviour info index calls).2 ≠ .ok) (slot : Slot)
      {occupant : EngineEntry} (occupied : host.inst.manager.occupant slot = some occupant) :
      entry.name ≠ occupant.name := by
    obtain ⟨place, active, there⟩ := Option.bind_eq_some_iff.mp occupied
    refine orderly.intact.name_ne here there ?_
    rintro rfl
    have other := not_or.mp (mt succeeds.mpr failed)
    exact orderly.live.vacant here known other.1 slot active
  constructor
  · intro atomic
    by_contra disturbed
    obtain ⟨occupied, apart⟩ := not_or.mp disturbed
    have failed := mt succeeds.mp apart
    obtain ⟨place, active⟩ := Option.ne_none_iff_exists'.mp occupied
    obtain ⟨occupant, there, -, -, engine, cached, -, present, -⟩ :=
      orderly.live (Slot.ofInfo info) place active
    have occupies : host.inst.manager.occupant (Slot.ofInfo info) = some occupant := by
      rw [EngineManager.occupant, active]
      exact there
    have kept := (atomic failed).calls _ occupant occupies
    rw [switchTo_failed_callsTo handler behaviour orderly.live here failed (not_or.mp apart).1
      (aside failed _ occupies), deactivateEntry, callsTo_updateManager,
      show host.entryAt _ = some occupant from occupies,
      callsTo_callEntry_of_reachable handler behaviour host cached present] at kept
    exact List.cons_ne_self _ _ kept
  · intro undisturbed failed
    have apart := mt succeeds.mpr failed
    have empty := undisturbed.resolve_right apart
    have other := (not_or.mp apart).1
    obtain ⟨slots, occupants⟩ :=
      switchTo_failed_occupant handler behaviour orderly.live here known failed other
    refine ⟨slots, occupants, fun slot occupant occupied => ?_, switchTo_focused handler behaviour⟩
    rw [switchTo_failed_callsTo handler behaviour orderly.live here failed other
      (aside failed slot occupied), empty]
    rfl

end Failed

/-! ## Requests -/

/-- A request comes down to a switch, or is turned down at once. -/
theorem request_cases (request : SwitchRequest) :
    (∃ name calls, host.inst.manager.target request.operation = some (name, calls) ∧
        host.request handler behaviour request = host.setActive handler behaviour name calls) ∨
      host.inst.manager.target request.operation = none ∧
        (host.request handler behaviour request).1 = host := by
  cases request with
  | setActive name calls => exact .inl ⟨name, calls, rfl, rfl⟩
  | setActiveVoice name calls =>
      simp only [SwitchRequest.operation, EngineManager.target, Hosted.request, setActiveVoice]
      cases (host.inst.manager.entries.find? (·.name == name)).bind EngineEntry.info with
      | none => exact .inr ⟨rfl, rfl⟩
      | some info =>
          by_cases voice : info.type = .voice
          · exact .inl ⟨name, calls, by simp [voice], by simp [voice]⟩
          · exact .inr ⟨by simp [voice], by simp [voice]⟩

theorem Atomic.refl (inst : Instance) : Atomic inst inst := ⟨rfl, fun _ => rfl, fun _ _ _ => rfl, rfl⟩

theorem setActive_atomic_iff (orderly : host.inst.manager.Orderly) (name : String) (calls : Calls) :
    ((host.setActive handler behaviour name calls).2 ≠ .ok →
        Atomic host.inst (host.setActive handler behaviour name calls).1.inst) ↔
      ∀ index ∈ host.inst.manager.findEntryIndex name, ∀ entry ∈ host.inst.manager.entries[index]?,
        ∀ info ∈ entry.info, host.inst.manager.active (Slot.ofInfo info) = none ∨
          host.inst.manager.active (Slot.ofInfo info) = some index ∨ entry.ComesUp calls := by
  unfold setActive
  cases found : host.inst.manager.findEntryIndex name with
  | none => simp [Atomic.refl]
  | some index =>
      dsimp only
      cases known : (host.inst.manager.entries[index]?).bind EngineEntry.info with
      | none =>
          have unknown : ∀ entry, host.inst.manager.entries[index]? = some entry →
              entry.info = none := by
            intro entry here
            rwa [here, Option.bind_some] at known
          simp +contextual [Atomic.refl, unknown]
      | some info =>
          obtain ⟨entry, here, known'⟩ := Option.bind_eq_some_iff.mp known
          simpa [here, known'] using switchTo_atomic_iff handler behaviour orderly here known'

end Hosted

end Core

end Typio
