import Typio.Core.EngineRegistry
import Typio.Core.EngineSlots

/-!
# What a switch does to the manager

A switch either finds its engine active already, or it fails and puts back what it took down, or
it comes up: whether it does is decided by the entry it switches to and by what the engine code
returns.  The slots name running engines in every state, so what is put back is what was there.
-/

namespace Typio

namespace Core

namespace EngineEntry

/-- The entry holds an engine for the slot which is initialized and active. -/
def Running (entry : EngineEntry) (slot : Slot) : Prop :=
  ∃ info ∈ entry.info, ∃ engine ∈ entry.engine,
    Slot.ofInfo info = slot ∧ engine.userData ∧ engine.initialized ∧ engine.active

/-- A switch to the entry gets an instance, accepts it, and starts it. -/
def ComesUp (entry : EngineEntry) (calls : Calls) : Prop :=
  ∃ engine, entry.candidate calls.made = some engine ∧
    (entry.engine.isSome ∨ entry.validate engine = .ok) ∧ engine.Starts calls.init

theorem Running.restored {entry : EngineEntry} {slot : Slot} (running : entry.Running slot)
    (init : TypioResult) : entry.deactivate.tryRestore init = entry := by
  obtain ⟨name, info, factory, cached, rejected⟩ := entry
  obtain ⟨-, -, engine, here, -, present, initialized, active⟩ := running
  obtain rfl : cached = some engine := here
  obtain ⟨userData, keyboard, voice, isInitialized, isActive⟩ := engine
  obtain ⟨rfl, rfl, rfl⟩ : userData = true ∧ isInitialized = true ∧ isActive = true :=
    ⟨present, initialized, active⟩
  rfl

theorem Running.slot_unique {entry : EngineEntry} {slot other : Slot}
    (running : entry.Running slot) (again : entry.Running other) : slot = other := by
  obtain ⟨info, known, -, -, rfl, -⟩ := running
  obtain ⟨info', known', -, -, rfl, -⟩ := again
  rw [Option.mem_unique known known']

end EngineEntry

namespace EngineManager

/-! ## The parts of a switch -/

section Parts

variable {manager : EngineManager} {index : Nat} {entry : EngineEntry}

theorem ensureEntryInstance_ok_iff (here : manager.entries[index]? = some entry)
    (made : Option RawEngine) :
    (manager.ensureEntryInstance index made).2 = .ok ↔
      ∃ engine, entry.candidate made = some engine ∧
        (entry.engine.isSome ∨ entry.validate engine = .ok) := by
  unfold ensureEntryInstance EngineEntry.candidate
  rw [here]
  cases cached : entry.engine with
  | some engine => simp [cached]
  | none =>
      by_cases factory : entry.factory
      · cases made <;> simp [cached, factory]
      · simp [cached, factory]

/-- The instance that is there afterwards is the candidate. -/
theorem ensureEntryInstance_here (here : manager.entries[index]? = some entry)
    {made : Option RawEngine} {engine : Engine} (candidate : entry.candidate made = some engine) :
    ∃ rejected, (manager.ensureEntryInstance index made).1.entries[index]? =
      some { entry with engine := some engine, rejected := rejected } := by
  unfold EngineEntry.candidate at candidate
  unfold ensureEntryInstance
  rw [here]
  cases cached : entry.engine with
  | some other =>
      rw [cached] at candidate
      obtain rfl : other = engine := Option.some.inj candidate
      refine ⟨entry.rejected, ?_⟩
      have same : { entry with engine := some other, rejected := entry.rejected } = entry := by
        rw [← cached]
      rw [same]
      simpa [cached] using here
  | none =>
      rw [cached] at candidate
      by_cases factory : entry.factory
      · rw [if_pos factory] at candidate
        cases made with
        | none => cases candidate
        | some raw =>
            obtain rfl : Engine.wrap raw = engine := Option.some.inj candidate
            refine ⟨decide (entry.validate (Engine.wrap raw) ≠ .ok), ?_⟩
            simp [cached, factory, getElem?_modifyEntry, here]
      · rw [if_neg factory] at candidate
        cases candidate

theorem ensureEntryInstance_other (made : Option RawEngine) {place : Nat} (other : place ≠ index) :
    (manager.ensureEntryInstance index made).1.entries[place]? = manager.entries[place]? := by
  unfold ensureEntryInstance
  repeat' split
  all_goals first | rfl | exact (getElem?_modifyEntry ..).trans (if_neg other.symm)

@[simp] theorem ensureEntryInstance_active (made : Option RawEngine) :
    (manager.ensureEntryInstance index made).1.active = manager.active := by
  unfold ensureEntryInstance
  repeat' split
  all_goals rfl

theorem activateEntry_other (init : TypioResult) {place : Nat} (other : place ≠ index) :
    (manager.activateEntry index init).1.entries[place]? = manager.entries[place]? := by
  unfold activateEntry
  split
  · rfl
  · exact (getElem?_modifyEntry ..).trans (if_neg other.symm)

theorem getElem?_modifyActive_self (change : EngineEntry → EngineEntry) :
    (manager.modifyActive (some index) change).entries[index]? =
      (manager.entries[index]?).map change :=
  (getElem?_modifyEntry ..).trans (if_pos rfl)

end Parts

/-! ## The invariant -/

/-- The slots name running engines. -/
def Live (manager : EngineManager) : Prop :=
  ∀ slot, ∀ index ∈ manager.active slot, ∃ entry ∈ manager.entries[index]?, entry.Running slot

theorem new_live (recentPrimary recentSecondary : Option String) :
    (new recentPrimary recentSecondary).Live := by
  intro slot index active
  simp [new] at active

section Switch

variable {manager : EngineManager} {index : Nat} {entry : EngineEntry}

theorem switchTo_same {slot : Slot} (calls : Calls) (same : manager.active slot = some index) :
    manager.switchTo slot index calls = (manager, .ok) := by rw [switchTo, if_pos same]

/-- A switch succeeds if its engine is active already or comes up. -/
theorem switchTo_ok_iff (here : manager.entries[index]? = some entry) {slot : Slot}
    (calls : Calls) :
    (manager.switchTo slot index calls).2 = .ok ↔
      manager.active slot = some index ∨ entry.ComesUp calls := by
  by_cases same : manager.active slot = some index
  · simp [switchTo_same calls same, same]
  have idleHere := deactivated_here here same
  have accepts := ensureEntryInstance_ok_iff idleHere calls.made
  rw [switchTo, if_neg same]
  simp only [same, false_or]
  by_cases accepted : ((manager.modifyActive (manager.active slot)
      EngineEntry.deactivate).ensureEntryInstance index calls.made).2 = .ok
  · obtain ⟨engine, candidate, checked⟩ := accepts.mp accepted
    obtain ⟨rejected, there⟩ := ensureEntryInstance_here idleHere candidate
    have starts := @activateEntry_ok _ _ _ _ calls.init there rfl
    have comesUp : entry.ComesUp calls ↔ engine.Starts calls.init := by
      constructor
      · rintro ⟨other, found, -, started⟩
        rwa [Option.some.inj (candidate.symm.trans found)]
      · exact fun started => ⟨engine, candidate, checked, started⟩
    rw [comesUp, ← starts]
    by_cases started : ((((manager.modifyActive (manager.active slot)
        EngineEntry.deactivate).ensureEntryInstance index calls.made).1).activateEntry index
          calls.init).2 = .ok
    · simp [accepted, started]
    · simp [accepted, started]
  · have stays : ¬ entry.ComesUp calls := fun ⟨engine, candidate, checked, _⟩ =>
      accepted (accepts.mpr ⟨engine, candidate, checked⟩)
    simp [accepted, stays]

/-- A switch which fails leaves the slots alone, and every entry but the one it was to switch to. -/
theorem switchTo_failed (live : manager.Live) (here : manager.entries[index]? = some entry)
    {slot : Slot} {calls : Calls} (failed : (manager.switchTo slot index calls).2 ≠ .ok) :
    (manager.switchTo slot index calls).1.active = manager.active ∧
      ∀ place ≠ index,
        (manager.switchTo slot index calls).1.entries[place]? = manager.entries[place]? := by
  have other : manager.active slot ≠ some index := fun same =>
    failed ((switchTo_ok_iff here calls).mpr (.inl same))
  have restores (between : EngineManager)
      (kept : ∀ place ≠ index, between.entries[place]? =
        (manager.modifyActive (manager.active slot) EngineEntry.deactivate).entries[place]?)
      (place : Nat) (aside : place ≠ index) :
      (between.modifyActive (manager.active slot) (·.tryRestore calls.restored)).entries[place]? =
        manager.entries[place]? := by
    by_cases current : manager.active slot = some place
    · obtain ⟨old, there, running⟩ := live slot place current
      rw [current, getElem?_modifyActive_self, kept place aside, current,
        getElem?_modifyActive_self, there, Option.map_some, Option.map_some, running.restored]
    · rw [getElem?_modifyActive_of_ne _ current, kept place aside,
        getElem?_modifyActive_of_ne _ current]
  have made (place : Nat) (aside : place ≠ index) :=
    @ensureEntryInstance_other (manager.modifyActive (manager.active slot) EngineEntry.deactivate)
      index calls.made place aside
  rw [switchTo, if_neg other] at failed ⊢
  dsimp only at failed ⊢
  by_cases accepted : ((manager.modifyActive (manager.active slot)
      EngineEntry.deactivate).ensureEntryInstance index calls.made).2 ≠ .ok
  · rw [if_pos accepted]
    exact ⟨by simp, restores _ made⟩
  rw [if_neg accepted] at failed ⊢
  by_cases started : ((((manager.modifyActive (manager.active slot)
      EngineEntry.deactivate).ensureEntryInstance index calls.made).1).activateEntry index
        calls.init).2 ≠ .ok
  · rw [if_pos started]
    refine ⟨by simp [activateEntry_active], restores _ fun place aside => ?_⟩
    rw [activateEntry_other _ aside, made place aside]
  · rw [if_neg started] at failed
    exact absurd rfl failed

/-- A switch which comes up fills its slot and deactivates what was there. -/
theorem switchTo_done (here : manager.entries[index]? = some entry) {slot : Slot} {calls : Calls}
    (other : manager.active slot ≠ some index) (up : entry.ComesUp calls) :
    (manager.switchTo slot index calls).1.active =
        Function.update manager.active slot (some index) ∧
      (∃ engine rejected, entry.candidate calls.made = some engine ∧ engine.userData ∧
        (manager.switchTo slot index calls).1.entries[index]? = some { entry with
          engine := some { engine with initialized := true, active := true }
          rejected := rejected }) ∧
      ∀ place ≠ index, (manager.switchTo slot index calls).1.entries[place]? =
        (manager.modifyActive (manager.active slot) EngineEntry.deactivate).entries[place]? := by
  have idleHere := deactivated_here here other
  obtain ⟨engine, candidate, checked, starts⟩ := up
  have accepted := (ensureEntryInstance_ok_iff idleHere calls.made).mpr ⟨engine, candidate, checked⟩
  obtain ⟨rejected, there⟩ := ensureEntryInstance_here idleHere candidate
  have started := (@activateEntry_ok _ _ _ _ calls.init there rfl).mpr starts
  rw [switchTo, if_neg other]
  dsimp only
  rw [if_neg (not_not.mpr accepted), if_neg (not_not.mpr started)]
  refine ⟨by simp [activateEntry_active], ⟨engine, rejected, candidate, starts.1, ?_⟩,
    fun place aside => ?_⟩
  · exact activateEntry_entry there rfl starts
  · exact (activateEntry_other _ aside).trans (ensureEntryInstance_other _ aside)

end Switch

/-! ## The invariant in every run -/

/-- A slot that is set was set before, to an entry which is as it was. -/
theorem Live.of_kept {before after : EngineManager} (live : before.Live)
    (kept : ∀ slot, ∀ index ∈ after.active slot, ∃ place ∈ before.active slot,
      ∀ entry ∈ before.entries[place]?, entry.Running slot → after.entries[index]? = some entry) :
    after.Live := by
  intro slot index active
  obtain ⟨place, was, same⟩ := kept slot index active
  obtain ⟨entry, here, running⟩ := live slot place was
  exact ⟨entry, same entry here running, running⟩

theorem Live.register {manager : EngineManager} (live : manager.Live)
    (info : Option EngineInfo) : (manager.register info).1.Live := by
  unfold EngineManager.register
  repeat' split
  · exact live
  · exact live
  · refine live.of_kept fun slot index active => ⟨index, active, fun entry here _ => ?_⟩
    have inside : index < manager.entries.length := (List.getElem?_eq_some_iff.mp here).1
    exact (List.getElem?_append_left inside).trans here

theorem Live.unload {manager : EngineManager} (live : manager.Live) (name : String) :
    (manager.unload name).1.Live := by
  cases found : manager.findEntryIndex name with
  | none => simpa [EngineManager.unload, found] using live
  | some removed =>
      refine live.of_kept fun slot index active => ?_
      rw [Option.mem_def, unload_active found] at active
      obtain ⟨current, was, now⟩ := Option.bind_eq_some_iff.mp active
      refine ⟨current, was, fun entry here _ => ?_⟩
      rw [unload_entries found, List.getElem?_eraseIdx]
      split at now
      · cases now
      split at now
      · obtain rfl := Option.some.inj now
        rw [if_neg (by omega), Nat.sub_add_cancel (by omega)]
        exact here
      · obtain rfl := Option.some.inj now
        rw [if_pos (by omega)]
        exact here

theorem Live.getEngine {manager : EngineManager} (live : manager.Live) (name : String)
    (made : Option RawEngine) : (manager.getEngine name made).1.Live := by
  unfold EngineManager.getEngine
  split
  · exact live
  next queried _ =>
    split
    · exact live
    next entry here =>
      split
      · exact live
      next uncached =>
        split
        · exact live
        split
        · exact live
        refine live.of_kept fun slot index active => ⟨index, active, fun old there running => ?_⟩
        have other : queried ≠ index := by
          rintro rfl
          obtain rfl : entry = old := Option.some.inj (here.symm.trans there)
          obtain ⟨-, -, engine, present, -⟩ := running
          simp [uncached] at present
        rw [getElem?_modifyEntry, if_neg other]
        exact there

/-- An entry which is not in the slot of its kind is in no slot. -/
theorem Live.vacant {manager : EngineManager} (live : manager.Live) {index : Nat}
    {entry : EngineEntry} {info : EngineInfo} (here : manager.entries[index]? = some entry)
    (known : entry.info = some info) (other : manager.active (Slot.ofInfo info) ≠ some index)
    (slot : Slot) : manager.active slot ≠ some index := by
  intro active
  obtain ⟨old, there, info', known', -, -, kind, -⟩ := live slot index active
  obtain rfl : entry = old := Option.some.inj (here.symm.trans there)
  rw [Option.mem_unique known' known] at kind
  exact other (kind ▸ active)

theorem Live.switchTo {manager : EngineManager} (live : manager.Live) {index : Nat}
    {entry : EngineEntry} {info : EngineInfo} (here : manager.entries[index]? = some entry)
    (known : entry.info = some info) (calls : Calls) :
    (manager.switchTo (Slot.ofInfo info) index calls).1.Live := by
  by_cases same : manager.active (Slot.ofInfo info) = some index
  · rwa [switchTo_same calls same]
  have aside {slot : Slot} {place : Nat} (active : manager.active slot = some place) :
      place ≠ index := fun is => live.vacant here known same slot (is ▸ active)
  by_cases done : (manager.switchTo (Slot.ofInfo info) index calls).2 = .ok
  · have up := ((switchTo_ok_iff here calls).mp done).resolve_left same
    obtain ⟨active, ⟨engine, rejected, -, present, filled⟩, others⟩ := switchTo_done here same up
    intro slot place set
    rw [active] at set
    by_cases differs : slot = Slot.ofInfo info
    · subst differs
      rw [Function.update_self, Option.mem_some_iff] at set
      subst set
      exact ⟨_, filled, info, known, _, rfl, rfl, present, rfl, rfl⟩
    · rw [Function.update_of_ne differs] at set
      obtain ⟨old, there, running⟩ := live slot place set
      have apart : manager.active (Slot.ofInfo info) ≠ some place := by
        intro current
        obtain ⟨other, there', running'⟩ := live _ place current
        obtain rfl : old = other := Option.mem_unique there there'
        exact differs (running.slot_unique running')
      refine ⟨old, ?_, running⟩
      rw [others place (aside set), getElem?_modifyActive_of_ne _ apart]
      exact there
  · obtain ⟨active, others⟩ := switchTo_failed live here done
    refine live.of_kept fun slot place set => ?_
    rw [active] at set
    refine ⟨place, set, fun old there running => ?_⟩
    rw [others place (aside set), there]

/-- A switch which comes up leaves the engine in the other slot alone. -/
theorem Live.switchTo_occupant {manager : EngineManager} (live : manager.Live) {index : Nat}
    {entry : EngineEntry} {info : EngineInfo} {calls : Calls}
    (here : manager.entries[index]? = some entry) (known : entry.info = some info)
    (other : manager.active (Slot.ofInfo info) ≠ some index) (up : entry.ComesUp calls)
    {slot : Slot} (differs : slot ≠ Slot.ofInfo info) :
    (manager.switchTo (Slot.ofInfo info) index calls).1.occupant slot = manager.occupant slot := by
  obtain ⟨active, -, others⟩ := switchTo_done here other up
  rw [occupant, active, Function.update_of_ne differs, occupant]
  cases set : manager.active slot with
  | none => rfl
  | some place =>
      have apart : manager.active (Slot.ofInfo info) ≠ some place := by
        intro current
        obtain ⟨old, there, running⟩ := live slot place set
        obtain ⟨same, there', running'⟩ := live _ place current
        obtain rfl : old = same := Option.mem_unique there there'
        exact differs (running.slot_unique running')
      have aside : place ≠ index := fun is => live.vacant here known other slot (is ▸ set)
      exact (others place aside).trans (getElem?_modifyActive_of_ne _ apart)

theorem Live.occupant_register {manager : EngineManager} (live : manager.Live)
    (info : Option EngineInfo) (slot : Slot) :
    (manager.register info).1.occupant slot = manager.occupant slot := by
  unfold EngineManager.register
  repeat' split
  · rfl
  · rfl
  · cases set : manager.active slot with
    | none => simp [occupant, set]
    | some place =>
        obtain ⟨entry, here, -⟩ := live slot place set
        have inside : place < manager.entries.length := (List.getElem?_eq_some_iff.mp here).1
        simp only [occupant, set, Option.bind_some]
        exact List.getElem?_append_left inside

theorem Live.occupant_getEngine {manager : EngineManager} (live : manager.Live) (name : String)
    (made : Option RawEngine) (slot : Slot) :
    (manager.getEngine name made).1.occupant slot = manager.occupant slot := by
  unfold EngineManager.getEngine
  split
  · rfl
  next queried _ =>
    split
    · rfl
    next entry here =>
      split
      · rfl
      next uncached =>
        split
        · rfl
        split
        · rfl
        cases set : manager.active slot with
        | none => simp [occupant, modifyEntry, set]
        | some place =>
            obtain ⟨old, there, -, -, engine, present, -⟩ := live slot place set
            have other : queried ≠ place := by
              rintro rfl
              obtain rfl : entry = old := Option.some.inj (here.symm.trans there)
              simp [uncached] at present
            have same (change : EngineEntry → EngineEntry) :
                (manager.modifyEntry queried change).entries[place]? = manager.entries[place]? := by
              rw [getElem?_modifyEntry, if_neg other]
            simp only [occupant, modifyEntry, set, Option.bind_some] at same ⊢
            exact same _

theorem occupant_notifyCommit (manager : EngineManager) (slot : Slot) :
    manager.notifyCommit.occupant slot = manager.occupant slot := by
  unfold notifyCommit updateRecentPair
  repeat' split
  all_goals rfl

theorem Live.setActive {manager : EngineManager} (live : manager.Live) (name : String)
    (calls : Calls) : (manager.setActive name calls).1.Live := by
  unfold EngineManager.setActive
  cases manager.findEntryIndex name with
  | none => exact live
  | some index =>
      cases known : (manager.entries[index]?).bind EngineEntry.info with
      | none => simpa [known] using live
      | some info =>
          obtain ⟨entry, here, known'⟩ := Option.bind_eq_some_iff.mp known
          simpa [known] using live.switchTo here known' calls

theorem Live.registryStep {manager : EngineManager} (live : manager.Live)
    (operation : RegistryOperation) : (manager.registryStep operation).Live := by
  cases operation with
  | load library =>
      change (manager.load library).1.Live
      obtain refused | ⟨info, -, registered⟩ := manager.load_cases library
      · rwa [refused]
      · rw [registered]
        exact live.register info
  | operation operation =>
      change (manager.step operation).Live
      cases operation with
      | register info => exact live.register info
      | unload name => exact live.unload name
      | getEngine name made => exact live.getEngine name made
      | setActive name calls => exact live.setActive name calls
      | setActiveVoice name calls =>
          simp only [step, setActiveVoice]
          repeat' split
          all_goals first | exact live | exact live.setActive name calls
      | cycle forward stable order calls =>
          simp only [step, cycle]
          repeat' split
          all_goals first | exact live | exact live.setActive _ calls
      | notifyCommit =>
          simp only [step, notifyCommit, updateRecentPair]
          repeat' split
          all_goals exact live

/-- Every entry has its engine's information, and is registered under the engine's name. -/
def Named (manager : EngineManager) : Prop :=
  ∀ entry ∈ manager.entries, ∃ info ∈ entry.info, info.name = entry.name

theorem Named.inPlace {before after : EngineManager} (named : before.Named)
    (inPlace : InPlace before after) : after.Named := by
  intro entry member
  have listed : label entry ∈ after.entries.map label := List.mem_map_of_mem member
  rw [inPlace.labels] at listed
  obtain ⟨old, before, same⟩ := List.mem_map.mp listed
  obtain ⟨info, known, name⟩ := named old before
  obtain ⟨names, infos⟩ := Prod.mk.inj same
  exact ⟨info, by rwa [← infos], name.trans names⟩

theorem Named.register {manager : EngineManager} (named : manager.Named)
    (info : Option EngineInfo) : (manager.register info).1.Named := by
  unfold EngineManager.register
  repeat' split
  · exact named
  · exact named
  next info _ =>
    intro entry member
    obtain old | new := List.mem_append.mp member
    · exact named entry old
    · rw [List.mem_singleton.mp new]
      exact ⟨info, rfl, rfl⟩

theorem Named.unload {manager : EngineManager} (named : manager.Named) (name : String) :
    (manager.unload name).1.Named := by
  cases found : manager.findEntryIndex name with
  | none => simpa [EngineManager.unload, found] using named
  | some index =>
      intro entry member
      rw [unload_entries found] at member
      exact named entry (List.mem_of_mem_eraseIdx member)

theorem Named.registryStep {manager : EngineManager} (named : manager.Named)
    (operation : RegistryOperation) : (manager.registryStep operation).Named := by
  cases operation with
  | load library =>
      change (manager.load library).1.Named
      obtain refused | ⟨info, -, registered⟩ := manager.load_cases library
      · rwa [refused]
      · rw [registered]
        exact named.register info
  | operation operation =>
      cases operation with
      | register info => exact named.register info
      | unload name => exact named.unload name
      | setActive name calls => exact named.inPlace (.setActive manager name calls)
      | setActiveVoice name calls => exact named.inPlace (.setActiveVoice manager name calls)
      | getEngine name made => exact named.inPlace (.getEngine manager name made)
      | cycle forward stable order calls =>
          exact named.inPlace (.cycle manager forward stable order calls)
      | notifyCommit => exact named.inPlace (.notifyCommit manager)

theorem Integrity.name_ne {manager : EngineManager} (intact : manager.Integrity) {index place : Nat}
    {entry other : EngineEntry} (here : manager.entries[index]? = some entry)
    (there : manager.entries[place]? = some other) (apart : index ≠ place) :
    entry.name ≠ other.name := by
  intro same
  refine apart ((List.getElem?_inj ?_ intact.unique).mp ?_)
  · simpa [names] using (List.getElem?_eq_some_iff.mp here).1
  · simp [names, here, there, same]

/-- Unloading an engine which is in no slot leaves the engines in the slots alone. -/
theorem Integrity.occupant_unload {manager : EngineManager} (intact : manager.Integrity)
    {name : String} (idle : ∀ slot, ∀ entry ∈ manager.occupant slot, entry.name ≠ name)
    (slot : Slot) : (manager.unload name).1.occupant slot = manager.occupant slot := by
  have rightly := intact.unloadsRightly (.operation (.unload name)) slot
  rwa [if_neg] at rightly
  cases occupied : manager.occupant slot with
  | none => simp
  | some entry => simpa using idle slot entry occupied

/-- What holds of a manager in every run. -/
structure Orderly (manager : EngineManager) : Prop where
  intact : manager.Integrity
  live : manager.Live
  named : manager.Named

theorem new_orderly (recentPrimary recentSecondary : Option String) :
    (new recentPrimary recentSecondary).Orderly where
  intact := new_integrity recentPrimary recentSecondary
  live := new_live recentPrimary recentSecondary
  named entry member := by simp [new] at member

theorem Orderly.registryStep {manager : EngineManager} (orderly : manager.Orderly)
    (operation : RegistryOperation) : (manager.registryStep operation).Orderly where
  intact := orderly.intact.registryStep operation
  live := orderly.live.registryStep operation
  named := orderly.named.registryStep operation

/-- An operation which asks for no switch and unloads no active engine leaves the engines in the
slots alone. -/
theorem Orderly.occupant_step {manager : EngineManager} (orderly : manager.Orderly)
    {operation : Operation} (idle : manager.target operation = none)
    (kept : ∀ name, operation = .unload name →
      ∀ slot, ∀ entry ∈ manager.occupant slot, entry.name ≠ name) (slot : Slot) :
    (manager.step operation).occupant slot = manager.occupant slot := by
  obtain same | ⟨info, rfl⟩ | ⟨name, made, rfl⟩ | rfl | ⟨name, rfl⟩ := no_target_cases idle
  · rw [same]
  · exact orderly.live.occupant_register info slot
  · exact orderly.live.occupant_getEngine name made slot
  · exact occupant_notifyCommit manager slot
  · exact orderly.intact.occupant_unload (kept name rfl) slot

theorem Live.occupant_load {manager : EngineManager} (live : manager.Live)
    (library : Option Library) (slot : Slot) :
    (manager.load library).1.occupant slot = manager.occupant slot := by
  obtain refused | ⟨info, -, registered⟩ := manager.load_cases library
  · rw [refused]
  · rw [registered]
    exact live.occupant_register info slot

end EngineManager

end Core

end Typio
