import Typio.Core.EngineSwitch
import Typio.Core.Instance

/-!
# What a switch does to an instance

A switch calls into the engine that leaves, into the engine that comes and, if it fails, into the
engine that is put back.  Until the slot takes the new engine the manager names the same engines as
before.  What every call keeps is kept by a switch which fails, and up to the point where a switch
which comes up settles.
-/

namespace Typio

namespace Core

namespace EngineManager

/-- The slots name the same positions, and the entries there keep what identifies them and keep
their engines. -/
structure Keeps (before after : EngineManager) : Prop where
  active : after.active = before.active
  entries : ∀ index : Nat, ∀ entry ∈ before.entries[index]?, ∃ kept ∈ after.entries[index]?,
    label kept = label entry ∧ (entry.engine.isSome → kept.engine.isSome)

namespace Keeps

variable {before middle after : EngineManager}

theorem refl (manager : EngineManager) : Keeps manager manager :=
  ⟨rfl, fun _ entry here => ⟨entry, here, rfl, id⟩⟩

theorem trans (first : Keeps before middle) (second : Keeps middle after) : Keeps before after where
  active := second.active.trans first.active
  entries index entry here := by
    obtain ⟨between, there, same, some⟩ := first.entries index entry here
    obtain ⟨kept, last, same', some'⟩ := second.entries index between there
    exact ⟨kept, last, same'.trans same, some' ∘ some⟩

theorem modifyEntry (manager : EngineManager) (place : Nat) {change : EngineEntry → EngineEntry}
    (labelled : ∀ entry, label (change entry) = label entry)
    (cached : ∀ entry, entry.engine.isSome → (change entry).engine.isSome) :
    Keeps manager (manager.modifyEntry place change) where
  active := rfl
  entries index entry here := by
    by_cases same : place = index
    · refine ⟨change entry, ?_, labelled entry, cached entry⟩
      rw [getElem?_modifyEntry, if_pos same, here]
      rfl
    · exact ⟨entry, (getElem?_modifyEntry ..).trans ((if_neg same).trans here), rfl, id⟩

theorem modifyActive (manager : EngineManager) (current : Option Nat)
    {change : EngineEntry → EngineEntry} (labelled : ∀ entry, label (change entry) = label entry)
    (cached : ∀ entry, entry.engine.isSome → (change entry).engine.isSome) :
    Keeps manager (manager.modifyActive current change) := by
  cases current with
  | none => exact .refl manager
  | some index => exact .modifyEntry manager index labelled cached

theorem activate_isSome (init : TypioResult) (entry : EngineEntry) (cached : entry.engine.isSome) :
    (entry.activate init).1.engine.isSome := by
  unfold EngineEntry.activate
  repeat' split
  all_goals first | exact cached | rfl

theorem ensureEntryInstance (manager : EngineManager) (index : Nat) (made : Option RawEngine) :
    Keeps manager (manager.ensureEntryInstance index made).1 := by
  unfold EngineManager.ensureEntryInstance
  repeat' split
  all_goals
    first
    | exact .refl manager
    | exact .modifyEntry manager index (fun _ => rfl) fun _ _ => rfl

theorem activateEntry (manager : EngineManager) (index : Nat) (init : TypioResult) :
    Keeps manager (manager.activateEntry index init).1 := by
  unfold EngineManager.activateEntry
  split
  · exact .refl manager
  · exact .modifyEntry manager index (InPlace.activate_label · init) (activate_isSome init)

end Keeps

end EngineManager

namespace Hosted

variable {σ : Type*} (handler : Handler σ) (behaviour : Behaviour)

/-- The host of a switch after the instance of the new engine is made. -/
def made (host : Hosted σ) (slot : Slot) (index : Nat) (calls : Calls) : Hosted σ :=
  (host.deactivateEntry handler behaviour (host.inst.manager.active slot)).updateManager
    fun manager => (manager.ensureEntryInstance index calls.made).1

/-- The host of a switch after the new engine is started, before it takes the slot. -/
def started (host : Hosted σ) (slot : Slot) (index : Nat) (calls : Calls) : Hosted σ :=
  ((host.made handler behaviour slot index calls).initEntry handler behaviour
    (some index)).updateManager fun manager => (manager.activateEntry index calls.init).1

section Switch

variable {host : Hosted σ} {info : EngineInfo} {slot : Slot} {index : Nat} {calls : Calls}
  {entry : EngineEntry}

/-- The three ways a switch ends. -/
theorem switchTo_cases (host : Hosted σ) (info : EngineInfo) (index : Nat) (calls : Calls) :
    host.inst.manager.active (Slot.ofInfo info) = some index ∧
        host.switchTo handler behaviour info index calls = (host, .ok) ∨
      (host.switchTo handler behaviour info index calls).2 ≠ .ok ∧
        (((host.inst.manager.modifyActive (host.inst.manager.active (Slot.ofInfo info))
              EngineEntry.deactivate).ensureEntryInstance index calls.made).2 ≠ .ok ∧
            (host.switchTo handler behaviour info index calls).1 =
              (host.made handler behaviour (Slot.ofInfo info) index calls).tryRestoreEngine handler
                behaviour (host.inst.manager.active (Slot.ofInfo info)) calls.restored ∨
          ((host.inst.manager.modifyActive (host.inst.manager.active (Slot.ofInfo info))
              EngineEntry.deactivate).ensureEntryInstance index calls.made).2 = .ok ∧
            (host.switchTo handler behaviour info index calls).1 = (host.started handler behaviour
              (Slot.ofInfo info) index calls).tryRestoreEngine handler behaviour
                (host.inst.manager.active (Slot.ofInfo info)) calls.restored) ∨
      host.inst.manager.active (Slot.ofInfo info) ≠ some index ∧
        host.switchTo handler behaviour info index calls =
          ((host.started handler behaviour (Slot.ofInfo info) index calls).settle handler behaviour
            (Slot.ofInfo info) (host.inst.manager.active (Slot.ofInfo info)) index info, .ok) := by
  unfold switchTo
  dsimp only
  split
  · next same => exact .inl ⟨same, rfl⟩
  next other =>
    split
    · next refused =>
        refine .inr (.inl ⟨refused, .inl ⟨?_, rfl⟩⟩)
        rwa [deactivateEntry_manager] at refused
    next accepted =>
    split
    · next stopped =>
        rw [deactivateEntry_manager] at accepted
        exact .inr (.inl ⟨stopped, .inr ⟨not_not.mp accepted, rfl⟩⟩)
    · exact .inr (.inr ⟨other, rfl⟩)

theorem made_manager :
    (host.made handler behaviour slot index calls).inst.manager =
      ((host.inst.manager.modifyActive (host.inst.manager.active slot)
        EngineEntry.deactivate).ensureEntryInstance index calls.made).1 := by
  simp [made]

theorem started_manager :
    (host.started handler behaviour slot index calls).inst.manager =
      ((host.made handler behaviour slot index calls).inst.manager.activateEntry index
        calls.init).1 := by
  simp [started]

theorem made_keeps :
    host.inst.manager.Keeps (host.made handler behaviour slot index calls).inst.manager := by
  rw [made_manager]
  have idle : host.inst.manager.Keeps
      (host.inst.manager.modifyActive (host.inst.manager.active slot) EngineEntry.deactivate) := by
    refine .modifyActive _ _ (fun _ => rfl) fun entry cached => ?_
    rwa [EngineEntry.deactivate, Option.isSome_map]
  exact idle.trans (.ensureEntryInstance _ index calls.made)

theorem started_keeps :
    host.inst.manager.Keeps (host.started handler behaviour slot index calls).inst.manager := by
  rw [started_manager]
  exact (made_keeps handler behaviour).trans (.activateEntry _ index calls.init)

theorem made_other {place : Nat} (apart : place ≠ index) :
    (host.made handler behaviour slot index calls).inst.manager.entries[place]? =
      (host.inst.manager.modifyActive (host.inst.manager.active slot)
        EngineEntry.deactivate).entries[place]? := by
  rw [made_manager]
  exact EngineManager.ensureEntryInstance_other calls.made apart

theorem started_other {place : Nat} (apart : place ≠ index) :
    (host.started handler behaviour slot index calls).inst.manager.entries[place]? =
      (host.inst.manager.modifyActive (host.inst.manager.active slot)
        EngineEntry.deactivate).entries[place]? := by
  rw [started_manager, EngineManager.activateEntry_other _ apart, made_other handler behaviour apart]

theorem made_name (here : host.inst.manager.entries[index]? = some entry) {target : EngineEntry}
    (targeted : target ∈ (host.made handler behaviour slot index calls).entryAt (some index)) :
    target.name = entry.name := by
  obtain ⟨kept, there, same, -⟩ := (made_keeps handler behaviour).entries index entry here
  obtain rfl : target = kept := Option.mem_unique targeted there
  exact congrArg Prod.fst same

/-- An engine which was initialized is not initialized again when it is restored. -/
theorem initEntry_of_initialized {current : Option Nat}
    (ready : ∀ entry ∈ host.entryAt current, ∀ engine ∈ entry.engine, engine.initialized) :
    host.initEntry handler behaviour current = host := by
  refine if_neg fun fresh => ?_
  cases here : host.entryAt current with
  | none => simp [here] at fresh
  | some entry =>
      cases cached : entry.engine with
      | none => simp [here, cached] at fresh
      | some engine => simp [here, cached, ready entry here engine cached] at fresh

/-- The engine that was deactivated is still initialized when it is restored. -/
theorem restored_ready (live : host.inst.manager.Live) {slot : Slot} {after : Hosted σ}
    (kept : ∀ place ≠ index, after.inst.manager.entries[place]? =
      (host.inst.manager.modifyActive (host.inst.manager.active slot)
        EngineEntry.deactivate).entries[place]?)
    (other : host.inst.manager.active slot ≠ some index) :
    ∀ entry ∈ after.entryAt (host.inst.manager.active slot), ∀ engine ∈ entry.engine,
      engine.initialized := by
  intro entry there engine cached
  obtain ⟨place, active, here⟩ := Option.bind_eq_some_iff.mp there
  obtain ⟨old, was, -, -, engine', cached', -, -, initialized, -⟩ := live slot place active
  rw [kept place fun same => other (same ▸ active), active,
    EngineManager.getElem?_modifyActive_self, was] at here
  obtain rfl : old.deactivate = entry := Option.some.inj here
  rw [EngineEntry.deactivate, Option.mem_def, cached'] at cached
  obtain rfl : { engine' with active := false } = engine := Option.some.inj cached
  exact initialized

theorem made_restored (live : host.inst.manager.Live)
    (other : host.inst.manager.active slot ≠ some index) (init : TypioResult) :
    (host.made handler behaviour slot index calls).tryRestoreEngine handler behaviour
        (host.inst.manager.active slot) init =
      (host.made handler behaviour slot index calls).updateManager
        (·.modifyActive (host.inst.manager.active slot) (·.tryRestore init)) := by
  rw [tryRestoreEngine, initEntry_of_initialized handler behaviour
    (restored_ready live (fun _ apart => made_other handler behaviour apart) other)]

theorem started_restored (live : host.inst.manager.Live)
    (other : host.inst.manager.active slot ≠ some index) (init : TypioResult) :
    (host.started handler behaviour slot index calls).tryRestoreEngine handler behaviour
        (host.inst.manager.active slot) init =
      (host.started handler behaviour slot index calls).updateManager
        (·.modifyActive (host.inst.manager.active slot) (·.tryRestore init)) := by
  rw [tryRestoreEngine, initEntry_of_initialized handler behaviour
    (restored_ready live (fun _ apart => started_other handler behaviour apart) other)]

/-- A failed switch leaves the slots and the engines in them alone. -/
theorem switchTo_failed_occupant (live : host.inst.manager.Live)
    (here : host.inst.manager.entries[index]? = some entry) (known : entry.info = some info)
    (failed : (host.switchTo handler behaviour info index calls).2 ≠ .ok)
    (other : host.inst.manager.active (Slot.ofInfo info) ≠ some index) :
    (host.switchTo handler behaviour info index calls).1.inst.manager.active =
        host.inst.manager.active ∧
      ∀ slot, (host.switchTo handler behaviour info index calls).1.inst.manager.occupant slot =
        host.inst.manager.occupant slot := by
  rw [switchTo_manager]
  rw [switchTo_result] at failed
  obtain ⟨active, others⟩ := EngineManager.switchTo_failed live here failed
  refine ⟨active, fun slot => ?_⟩
  rw [EngineManager.occupant, active, EngineManager.occupant]
  cases set : host.inst.manager.active slot with
  | none => rfl
  | some place =>
      exact others place fun same => live.vacant here known other slot (same ▸ set)

theorem made_focused :
    (host.made handler behaviour slot index calls).inst.focused = host.inst.focused :=
  (Still.callEntry handler behaviour host _ .deactivate).focused

theorem started_focused :
    (host.started handler behaviour slot index calls).inst.focused = host.inst.focused :=
  (Still.initEntry handler behaviour _ (some index)).focused.trans (made_focused handler behaviour)

/-- The engines are found at their positions under their names. -/
theorem started_name {current : Option Nat} {called : EngineEntry}
    (found : called ∈ (host.started handler behaviour slot index calls).entryAt current)
    (live : host.inst.manager.Live) (active : host.inst.manager.active slot = current) :
    ∃ old ∈ host.entryAt current, called.name = old.name := by
  obtain ⟨place, set, there⟩ := Option.bind_eq_some_iff.mp found
  obtain ⟨old, here, -⟩ := live slot place (active.trans set)
  obtain ⟨kept, there', same, -⟩ := (started_keeps handler behaviour).entries place old here
  obtain rfl : called = kept := Option.mem_unique there there'
  refine ⟨old, ?_, congrArg Prod.fst same⟩
  rw [set]
  exact here

/-- The entry of the new engine, after its instance is made. -/
theorem made_entryAt (here : host.inst.manager.entries[index]? = some entry)
    (other : host.inst.manager.active slot ≠ some index) {engine : Engine}
    (candidate : entry.candidate calls.made = some engine) :
    ∃ rejected, (host.made handler behaviour slot index calls).entryAt (some index) =
      some { entry with engine := some engine, rejected := rejected } := by
  have idleHere := EngineManager.deactivated_here here other
  obtain ⟨rejected, there⟩ := EngineManager.ensureEntryInstance_here idleHere candidate
  refine ⟨rejected, ?_⟩
  rw [entryAt, Option.bind_some, made_manager]
  exact there

/-- A switch which comes up settles in its slot. -/
theorem switchTo_done (here : host.inst.manager.entries[index]? = some entry)
    (other : host.inst.manager.active (Slot.ofInfo info) ≠ some index) (up : entry.ComesUp calls) :
    host.switchTo handler behaviour info index calls =
      ((host.started handler behaviour (Slot.ofInfo info) index calls).settle handler behaviour
        (Slot.ofInfo info) (host.inst.manager.active (Slot.ofInfo info)) index info, .ok) := by
  obtain ⟨same, -⟩ | ⟨failed, -⟩ | ⟨-, done⟩ := switchTo_cases handler behaviour host info index calls
  · exact absurd same other
  · rw [switchTo_result] at failed
    exact absurd ((EngineManager.switchTo_ok_iff here calls).mpr (.inr up)) failed
  · exact done

theorem comesUp_of_done (here : host.inst.manager.entries[index]? = some entry)
    (other : host.inst.manager.active (Slot.ofInfo info) ≠ some index)
    (done : (host.switchTo handler behaviour info index calls).2 = .ok) : entry.ComesUp calls := by
  rw [switchTo_result] at done
  exact ((EngineManager.switchTo_ok_iff here calls).mp done).resolve_left other

/-- The entry of the new engine, after it is started. -/
theorem started_entryAt (here : host.inst.manager.entries[index]? = some entry)
    (other : host.inst.manager.active (Slot.ofInfo info) ≠ some index) (up : entry.ComesUp calls) :
    ∃ engine rejected, entry.candidate calls.made = some engine ∧ engine.userData ∧
      (host.started handler behaviour (Slot.ofInfo info) index calls).entryAt (some index) =
        some { entry with
          engine := some { engine with initialized := true, active := true }
          rejected := rejected } := by
  obtain ⟨-, ⟨engine, rejected, candidate, present, filled⟩, -⟩ :=
    EngineManager.switchTo_done here other up
  refine ⟨engine, rejected, candidate, present, ?_⟩
  rw [← switchTo_manager handler behaviour, switchTo_done handler behaviour here other up,
    settle_manager] at filled
  exact filled

/-! ## What calls keep -/

section Rules

variable {invariant : Hosted σ → Prop}

/-- What is kept by the calls a switch makes, and by the changes of the entries, holds when the
instance is made. -/
theorem made_induction
    (left : invariant (host.callEntry handler behaviour
      (host.entryAt (host.inst.manager.active slot)) .deactivate))
    (managed : ∀ (host : Hosted σ) update, invariant host →
      host.inst.manager.Keeps (update host.inst.manager) → invariant (host.updateManager update)) :
    invariant (host.made handler behaviour slot index calls) := by
  have idle : invariant
      (host.deactivateEntry handler behaviour (host.inst.manager.active slot)) := by
    refine managed _ _ left (.modifyActive _ _ (fun _ => rfl) fun entry cached => ?_)
    rwa [EngineEntry.deactivate, Option.isSome_map]
  exact managed _ _ idle (.ensureEntryInstance _ index calls.made)

theorem started_induction
    (made : invariant (host.made handler behaviour slot index calls))
    (come : (host.made handler behaviour slot index calls).entryAt (some index) |>.any
        (fun entry => entry.engine.any (!·.initialized)) →
      invariant ((host.made handler behaviour slot index calls).callEntry handler behaviour
        ((host.made handler behaviour slot index calls).entryAt (some index)) .init))
    (managed : ∀ (host : Hosted σ) update, invariant host →
      host.inst.manager.Keeps (update host.inst.manager) → invariant (host.updateManager update)) :
    invariant (host.started handler behaviour slot index calls) := by
  refine managed _ _ ?_ (.activateEntry _ index calls.init)
  unfold initEntry
  split
  · next fresh => exact come fresh
  · exact made

/-- What holds up to the settling holds after a switch which fails. -/
theorem switchTo_failed_induction (live : host.inst.manager.Live)
    (here : host.inst.manager.entries[index]? = some entry)
    (other : host.inst.manager.active (Slot.ofInfo info) ≠ some index)
    (failed : (host.switchTo handler behaviour info index calls).2 ≠ .ok)
    (made : invariant (host.made handler behaviour (Slot.ofInfo info) index calls))
    (started : ∀ engine, entry.candidate calls.made = some engine →
      entry.engine.isSome ∨ entry.validate engine = .ok →
        invariant (host.started handler behaviour (Slot.ofInfo info) index calls))
    (managed : ∀ (host : Hosted σ) update, invariant host →
      host.inst.manager.Keeps (update host.inst.manager) → invariant (host.updateManager update)) :
    invariant (host.switchTo handler behaviour info index calls).1 := by
  have restores (host : Hosted σ) (current : Option Nat) (holds : invariant host) :
      invariant (host.updateManager (·.modifyActive current (·.tryRestore calls.restored))) :=
    managed host _ holds (.modifyActive _ _ (EngineManager.InPlace.activate_label · calls.restored)
      (EngineManager.Keeps.activate_isSome calls.restored))
  obtain ⟨same, -⟩ | ⟨-, ⟨-, ended⟩ | ⟨accepted, ended⟩⟩ | ⟨-, done⟩ :=
    switchTo_cases handler behaviour host info index calls
  · exact absurd same other
  · rw [ended, made_restored handler behaviour live other]
    exact restores _ _ made
  · have idleHere := EngineManager.deactivated_here here other
    obtain ⟨engine, candidate, checked⟩ :=
      (EngineManager.ensureEntryInstance_ok_iff idleHere calls.made).mp accepted
    rw [ended, started_restored handler behaviour live other]
    exact restores _ _ (started engine candidate checked)
  · exact absurd (congrArg Prod.snd done) failed

end Rules

end Switch

/-! ## Operations -/

section Operations

variable {host : Hosted σ} {operation : EngineManager.Operation}

/-- An operation which asks for a switch performs it. -/
theorem manage_of_target {name : String} {calls : Calls}
    (asks : host.inst.manager.target operation = some (name, calls)) :
    host.manage handler behaviour (.operation operation) =
      (host.setActive handler behaviour name calls).1 := by
  obtain rfl | ⟨rfl, info, found, voice⟩ | ⟨forward, stable, order, rfl, filled, resolved⟩ :=
    EngineManager.target_cases asks
  · rfl
  · simp [manage, setActiveVoice, Option.mem_def.mp found, voice]
  · simp [manage, cycle, filled, resolved]

/-- An operation which asks for no switch changes at most the manager. -/
theorem manage_of_no_target (idle : host.inst.manager.target operation = none) :
    host.manage handler behaviour (.operation operation) =
      host.updateManager (·.step operation) := by
  cases operation with
  | setActive name calls => simp [EngineManager.target] at idle
  | setActiveVoice name calls =>
      simp only [EngineManager.target] at idle
      simp only [manage, setActiveVoice, EngineManager.step, EngineManager.setActiveVoice,
        updateManager, updateInst]
      cases found : (host.inst.manager.entries.find? (·.name == name)).bind EngineEntry.info with
      | none => rfl
      | some info =>
          by_cases voice : info.type = .voice
          · simp [found, voice] at idle
          · simp [voice]
  | cycle forward stable order calls =>
      simp only [EngineManager.target] at idle
      simp only [manage, cycle, EngineManager.step, EngineManager.cycle, updateManager, updateInst]
      split at idle
      · simp [*]
      · rw [Option.map_eq_none_iff] at idle
        simp [*]
  | register _ | getEngine _ _ | notifyCommit | unload _ => rfl

/-- A switch by name is turned down, or is a switch to the entry of that name. -/
theorem setActive_cases (host : Hosted σ) (name : String) (calls : Calls) :
    (host.setActive handler behaviour name calls).1 = host ∨
      ∃ index ∈ host.inst.manager.findEntryIndex name, ∃ entry ∈ host.inst.manager.entries[index]?,
        ∃ info ∈ entry.info, host.setActive handler behaviour name calls =
          host.switchTo handler behaviour info index calls := by
  unfold setActive
  cases found : host.inst.manager.findEntryIndex name with
  | none => exact .inl rfl
  | some index =>
      dsimp only
      cases known : (host.inst.manager.entries[index]?).bind EngineEntry.info with
      | none => exact .inl rfl
      | some info =>
          obtain ⟨entry, here, known⟩ := Option.bind_eq_some_iff.mp known
          exact .inr ⟨index, rfl, entry, here, info, known, rfl⟩

end Operations

/-! ## What every part of a switch keeps -/

/-- The invariant is kept by everything that switches are made of.  None of them calls `set_mode`,
and none gives the focus away. -/
structure Kept (invariant : Hosted σ → Prop) : Prop where
  called : ∀ host engine call, (∀ modeId, call ≠ .setMode modeId) → invariant host →
    invariant (host.record (.called engine call))
  noticed : ∀ host engine given, invariant host → invariant (host.record (.noticed engine given))
  told : ∀ host callback, invariant host → invariant (host.tell handler callback)
  updated : ∀ (host : Hosted σ) update,
    (∀ inst, (update inst).log = inst.log ∧ (update inst).focused = inst.focused) →
      invariant host → invariant (host.updateInst update)

namespace Kept

variable {handler} {invariant : Hosted σ → Prop} {host : Hosted σ}

theorem notice (kept : Kept handler invariant) (engine : String) (given : Notice)
    (holds : invariant host) : invariant (host.notice handler engine given) := by
  have recorded := kept.noticed host engine given holds
  cases given with
  | statusIcon icon =>
      change invariant (Hosted.notifyStatusIcon handler _ icon)
      unfold Hosted.notifyStatusIcon
      split
      · exact recorded
      · exact kept.told _ _ (kept.updated _ _ (fun _ => ⟨rfl, rfl⟩) recorded)
  | mode mode =>
      change invariant (Hosted.notifyMode handler _ mode)
      unfold Hosted.notifyMode
      split
      · exact recorded
      have told := kept.told _ (.modeChanged mode)
        (kept.updated _ (fun inst => { inst with
          lastMode := some mode, lastStatusIcon := mode.iconName.or inst.lastStatusIcon })
          (fun _ => ⟨rfl, rfl⟩) recorded)
      dsimp only
      split
      · exact told
      · exact kept.told _ _ told

theorem callEngine (kept : Kept handler invariant) {engine : String} {call : EngineCall}
    (other : ∀ modeId, call ≠ .setMode modeId) (holds : invariant host) :
    invariant (host.callEngine handler behaviour engine call) :=
  callEngine_induction handler behaviour (kept.called host engine call other holds)
    fun _ holds given _ => kept.notice engine given holds

theorem callEntry (kept : Kept handler invariant) {entry : Option EngineEntry} {call : EngineCall}
    (other : ∀ modeId, call ≠ .setMode modeId) (holds : invariant host) :
    invariant (host.callEntry handler behaviour entry call) :=
  callEntry_induction handler behaviour holds fun _ _ _ => kept.callEngine behaviour other holds

theorem managed (kept : Kept handler invariant) (update : EngineManager → EngineManager)
    (holds : invariant host) : invariant (host.updateManager update) :=
  kept.updated host _ (fun _ => ⟨rfl, rfl⟩) holds

theorem cleared (kept : Kept handler invariant) (holds : invariant host) :
    invariant host.clearStatusIcon.clearMode :=
  kept.updated _ _ (fun _ => ⟨rfl, rfl⟩) (kept.updated host _ (fun _ => ⟨rfl, rfl⟩) holds)

theorem initEntry (kept : Kept handler invariant) (current : Option Nat) (holds : invariant host) :
    invariant (host.initEntry handler behaviour current) := by
  unfold Hosted.initEntry
  split
  · exact kept.callEntry behaviour nofun holds
  · exact holds

theorem tryRestoreEngine (kept : Kept handler invariant) (current : Option Nat)
    (init : TypioResult) (holds : invariant host) :
    invariant (host.tryRestoreEngine handler behaviour current init) :=
  kept.managed _ (kept.initEntry behaviour current holds)

theorem rebindFocusedContext (kept : Kept handler invariant) (old new : Option EngineEntry)
    (holds : invariant host) : invariant (host.rebindFocusedContext handler behaviour old new) := by
  unfold Hosted.rebindFocusedContext
  split
  · exact holds
  have left := kept.cleared (@callEntry _ _ behaviour _ _ kept old .focusOut nofun holds)
  have entered := @callEntry _ _ behaviour _ _ kept new .focusIn nofun
    (@callEntry _ _ behaviour _ _ kept new .reset nofun left)
  dsimp only
  split
  · exact entered
  next entry _ =>
    have asked := @callEngine _ _ behaviour _ _ kept entry.name .getMode nofun entered
    split
    · exact asked
    · exact kept.notice _ _ asked

theorem settle (kept : Kept handler invariant) (slot : Slot) (current : Option Nat) (index : Nat)
    (info : EngineInfo) (holds : invariant host) :
    invariant (host.settle handler behaviour slot current index info) := by
  have settled := kept.managed (fun manager =>
    { manager with active := Function.update manager.active slot (some index) }) holds
  cases slot with
  | voice => exact kept.told _ _ settled
  | keyboard => exact kept.told _ _ (kept.rebindFocusedContext behaviour _ _ (kept.cleared settled))

theorem made (kept : Kept handler invariant) (slot : Slot) (index : Nat) (calls : Calls)
    (holds : invariant host) : invariant (host.made handler behaviour slot index calls) :=
  kept.managed _ (kept.managed _ (kept.callEntry behaviour nofun holds))

theorem started (kept : Kept handler invariant) (slot : Slot) (index : Nat) (calls : Calls)
    (holds : invariant host) : invariant (host.started handler behaviour slot index calls) :=
  kept.managed _ (kept.initEntry behaviour _ (kept.made behaviour slot index calls holds))

theorem setActive (kept : Kept handler invariant) (name : String) (calls : Calls)
    (holds : invariant host) : invariant (host.setActive handler behaviour name calls).1 := by
  obtain same | ⟨index, -, entry, -, info, -, switches⟩ :=
    setActive_cases handler behaviour host name calls
  · rwa [same]
  rw [switches]
  obtain ⟨-, same⟩ | ⟨-, ⟨-, ended⟩ | ⟨-, ended⟩⟩ | ⟨-, done⟩ :=
    switchTo_cases handler behaviour host info index calls
  · rwa [same]
  · rw [ended]
    exact kept.tryRestoreEngine behaviour _ _ (kept.made behaviour _ index calls holds)
  · rw [ended]
    exact kept.tryRestoreEngine behaviour _ _ (kept.started behaviour _ index calls holds)
  · rw [done]
    exact kept.settle behaviour _ _ index info (kept.started behaviour _ index calls holds)

theorem manage (kept : Kept handler invariant) (operation : EngineManager.RegistryOperation)
    (holds : invariant host) : invariant (host.manage handler behaviour operation) := by
  cases operation with
  | load library => exact kept.managed (·.registryStep (.load library)) holds
  | operation operation =>
      cases asks : host.inst.manager.target operation with
      | none =>
          rw [manage_of_no_target handler behaviour asks]
          exact kept.managed _ holds
      | some target =>
          rw [manage_of_target handler behaviour asks]
          exact kept.setActive behaviour _ _ holds

end Kept

end Hosted

end Core

end Typio
