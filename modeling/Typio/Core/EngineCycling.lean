import Mathlib.Algebra.Group.Nat.Defs
import Typio.Core.EngineSwitch
import Typio.Core.KeyboardOrder

/-!
# Cycling through the keyboards

`next` and `prev` pick an engine from the time since the last switch, the recent pair and the
ordered list, and hand it to `set_active`.  The time of the last switch is taken only when the
keyboard slot is filled anew, so a call which fails leaves the next pick as it was.
-/

namespace Typio

namespace Core

namespace EngineEntry

/-- The instance a switch gets can be started, whether or not it would pass validation. -/
def Startable (entry : EngineEntry) (calls : Calls) : Prop :=
  ∃ engine, entry.candidate calls.made = some engine ∧ engine.Starts calls.init

theorem ComesUp.startable {entry : EngineEntry} {calls : Calls} (up : entry.ComesUp calls) :
    entry.Startable calls := by
  obtain ⟨engine, candidate, -, starts⟩ := up
  exact ⟨engine, candidate, starts⟩

/-- An attempt has put the instance into the cache, where nothing checks it again. -/
theorem comesUp_of_attempted {entry : EngineEntry} {calls : Calls} {rejected : Bool} :
    ({ entry with engine := entry.candidate calls.made, rejected := rejected } :
      EngineEntry).ComesUp calls ↔ entry.Startable calls := by
  cases found : entry.candidate calls.made with
  | none =>
      have missing : ({ entry with engine := none, rejected := rejected } :
          EngineEntry).candidate calls.made = none := by
        unfold candidate at found ⊢
        cases cached : entry.engine with
        | none => simpa [cached] using found
        | some engine => simp [cached] at found
      constructor
      · rintro ⟨engine, there, -⟩
        rw [missing] at there
        cases there
      · rintro ⟨engine, there, -⟩
        rw [found] at there
        cases there
  | some engine =>
      constructor
      · rintro ⟨other, there, -, starts⟩
        exact ⟨other, found.trans there, starts⟩
      · rintro ⟨other, there, starts⟩
        exact ⟨other, found.symm.trans there, .inl rfl, starts⟩

theorem startable_of_attempted {entry : EngineEntry} {calls : Calls} {rejected : Bool} :
    ({ entry with engine := entry.candidate calls.made, rejected := rejected } :
      EngineEntry).Startable calls ↔ entry.Startable calls := by
  constructor
  · rintro ⟨engine, there, starts⟩
    refine ⟨engine, ?_, starts⟩
    unfold candidate at there ⊢
    cases cached : entry.engine with
    | none =>
        by_cases factory : entry.factory
        · cases made : calls.made <;> simp_all
        · simp_all
    | some _ => simpa [cached] using there
  · intro startable
    obtain ⟨engine, candidate, -, starts⟩ := comesUp_of_attempted.mpr startable
    exact ⟨engine, candidate, starts⟩

theorem comesUp_deactivate {entry : EngineEntry} {calls : Calls} (up : entry.ComesUp calls)
    (cached : entry.engine.isSome) : entry.deactivate.ComesUp calls := by
  obtain ⟨engine, present⟩ := Option.isSome_iff_exists.mp cached
  obtain ⟨other, candidate, -, starts⟩ := up
  obtain rfl : engine = other := by simpa [EngineEntry.candidate, present] using candidate
  refine ⟨{ engine with active := false }, ?_, .inl ?_, starts⟩ <;>
    simp [EngineEntry.candidate, deactivate, present]

end EngineEntry

namespace EngineManager

/-! ## A switch to a registered engine -/

section Registered

variable {manager : EngineManager} {index : Nat} {entry : EngineEntry}

theorem Integrity.findEntryIndex_named (intact : manager.Integrity)
    (here : manager.entries[index]? = some entry) :
    manager.findEntryIndex entry.name = some index := by
  obtain ⟨inside, rfl⟩ := List.getElem?_eq_some_iff.mp here
  refine List.findIdx?_eq_some_iff_getElem.mpr ⟨inside, by simp, fun place before => ?_⟩
  simpa using intact.name_ne (List.getElem?_eq_getElem (before.trans inside)) here before.ne

theorem Integrity.setActive_named (intact : manager.Integrity)
    (here : manager.entries[index]? = some entry) {info : EngineInfo}
    (known : entry.info = some info) (calls : Calls) :
    manager.setActive entry.name calls = manager.switchTo (Slot.ofInfo info) index calls := by
  simp [setActive, intact.findEntryIndex_named here, here, known]

theorem ensureEntryInstance_entry (here : manager.entries[index]? = some entry)
    (made : Option RawEngine) : ∃ rejected,
      (manager.ensureEntryInstance index made).1.entries[index]? =
        some { entry with engine := entry.candidate made, rejected := rejected } := by
  cases found : entry.candidate made with
  | some engine => exact ensureEntryInstance_here here found
  | none =>
      refine ⟨entry.rejected, ?_⟩
      unfold EngineEntry.candidate at found
      cases cached : entry.engine with
      | some engine => simp [cached] at found
      | none =>
          have same : { entry with engine := none, rejected := entry.rejected } = entry := by
            rw [← cached]
          rw [same]
          by_cases factory : entry.factory
          · cases made with
            | none => simp [ensureEntryInstance, here, cached, factory]
            | some raw => simp [cached, factory] at found
          · simp [ensureEntryInstance, here, cached, factory]

/-- An attempt that fails leaves in the cache the instance it got. -/
theorem switchTo_failed_here (here : manager.entries[index]? = some entry) {slot : Slot}
    {calls : Calls} (failed : (manager.switchTo slot index calls).2 ≠ .ok) : ∃ rejected,
      (manager.switchTo slot index calls).1.entries[index]? =
        some { entry with engine := entry.candidate calls.made, rejected := rejected } := by
  have other : manager.active slot ≠ some index := fun same =>
    failed ((switchTo_ok_iff here calls).mpr (.inl same))
  have idleHere := deactivated_here here other
  obtain ⟨rejected, there⟩ := ensureEntryInstance_entry idleHere calls.made
  rw [switchTo, if_neg other] at failed ⊢
  dsimp only at failed ⊢
  refine ⟨rejected, ?_⟩
  by_cases accepted : ((manager.modifyActive (manager.active slot)
      EngineEntry.deactivate).ensureEntryInstance index calls.made).2 ≠ .ok
  · rw [if_pos accepted, getElem?_modifyActive_of_ne _ other, there]
  rw [if_neg accepted] at failed ⊢
  by_cases started : ((((manager.modifyActive (manager.active slot)
      EngineEntry.deactivate).ensureEntryInstance index calls.made).1).activateEntry index
        calls.init).2 ≠ .ok
  · rw [if_pos started, getElem?_modifyActive_of_ne _ other]
    rw [activateEntry, there] at started ⊢
    have stopped : ∀ engine ∈ entry.candidate calls.made, ¬ engine.Starts calls.init := by
      intro engine candidate starts
      exact started (congrArg Prod.snd (EngineEntry.activate_of_starts (by exact candidate) starts))
    rw [getElem?_modifyEntry, if_pos rfl, there, Option.map_some,
      (EngineEntry.activate_of_not_starts (by exact stopped)).1]
  · rw [if_neg started] at failed
    exact absurd rfl failed

/-- The recent pair of the manager. -/
def recentPair (manager : EngineManager) : Option String × Option String :=
  (manager.recentPrimary, manager.recentSecondary)

@[simp] theorem modifyActive_recentPair (current : Option Nat)
    (change : EngineEntry → EngineEntry) :
    (manager.modifyActive current change).recentPair = manager.recentPair := by
  cases current <;> rfl

@[simp] theorem ensureEntryInstance_recentPair (made : Option RawEngine) :
    (manager.ensureEntryInstance index made).1.recentPair = manager.recentPair := by
  unfold ensureEntryInstance
  repeat' split
  all_goals rfl

@[simp] theorem activateEntry_recentPair (init : TypioResult) :
    (manager.activateEntry index init).1.recentPair = manager.recentPair := by
  unfold activateEntry
  split <;> rfl

theorem switchTo_recentPair (manager : EngineManager) (slot : Slot) (index : Nat) (calls : Calls) :
    (manager.switchTo slot index calls).1.recentPair = manager.recentPair := by
  unfold switchTo
  split
  · rfl
  dsimp only
  split
  · simp
  split
  · simp
  · change (activateEntry _ _ _).1.recentPair = _
    simp

/-- A switch leaves the recent pair alone: it is commits that move it. -/
theorem setActive_recentPair (manager : EngineManager) (name : String) (calls : Calls) :
    (manager.setActive name calls).1.recentPair = manager.recentPair := by
  unfold setActive
  split
  · rfl
  split
  · rfl
  · exact switchTo_recentPair ..

end Registered

/-! ## A switch to a keyboard -/

/-- A switch to the named engine succeeds, in the state of the manager and with the engine code
answering in this way. -/
def Activates (manager : EngineManager) (engines : String → Calls) (name : String) : Prop :=
  ∃ entry ∈ manager.entries, entry.name = name ∧ entry.ComesUp (engines name)

/-- The named engine starts once its instance is in the cache. -/
def Starts (manager : EngineManager) (engines : String → Calls) (name : String) : Prop :=
  ∃ entry ∈ manager.entries, entry.name = name ∧ entry.Startable (engines name)

/-- Every registered keyboard activates successfully. -/
def AllUp (manager : EngineManager) (engines : String → Calls) : Prop :=
  ∀ name ∈ manager.keyboards, manager.Activates engines name

theorem slot_of_isKeyboard {entry : EngineEntry} (keyboard : entry.isKeyboard) :
    ∃ info, entry.info = some info ∧ Slot.ofInfo info = .keyboard := by
  obtain ⟨info, known, kind⟩ := (Option.any_eq_true ..).mp keyboard
  rw [beq_iff_eq] at kind
  exact ⟨info, known, by simp [Slot.ofInfo, kind]⟩

theorem mem_keyboards {manager : EngineManager} {name : String} :
    name ∈ manager.keyboards ↔
      ∃ index : Nat, ∃ entry, manager.entries[index]? = some entry ∧ entry.name = name ∧
        entry.isKeyboard := by
  rw [keyboards, List.mem_map]
  constructor
  · rintro ⟨entry, member, named⟩
    obtain ⟨registered, keyboard⟩ := List.mem_filter.mp member
    obtain ⟨index, here⟩ := List.mem_iff_getElem?.mp registered
    exact ⟨index, entry, here, named, keyboard⟩
  · rintro ⟨index, entry, here, named, keyboard⟩
    exact ⟨entry, List.mem_filter.mpr ⟨List.mem_of_getElem? here, keyboard⟩, named⟩

theorem InPlace.keyboards {before after : EngineManager} (inPlace : InPlace before after) :
    after.keyboards = before.keyboards := by
  have of_labels (manager : EngineManager) : manager.keyboards =
      ((manager.entries.map label).filter fun labelled =>
        labelled.2.any (·.type == .keyboard)).map Prod.fst := by
    rw [List.filter_map, List.map_map]
    rfl
  rw [of_labels, of_labels, inPlace.labels]

theorem Integrity.activates_iff {manager : EngineManager} (intact : manager.Integrity)
    {entry : EngineEntry} (member : entry ∈ manager.entries) (engines : String → Calls) :
    manager.Activates engines entry.name ↔ entry.ComesUp (engines entry.name) := by
  constructor
  · rintro ⟨other, there, named, up⟩
    rwa [intact.entry_unique there member named] at up
  · exact fun up => ⟨entry, member, rfl, up⟩

theorem Integrity.starts_iff {manager : EngineManager} (intact : manager.Integrity)
    {entry : EngineEntry} (member : entry ∈ manager.entries) (engines : String → Calls) :
    manager.Starts engines entry.name ↔ entry.Startable (engines entry.name) := by
  constructor
  · rintro ⟨other, there, named, startable⟩
    rwa [intact.entry_unique there member named] at startable
  · exact fun startable => ⟨entry, member, rfl, startable⟩

theorem activeName_eq_some_iff {manager : EngineManager} {name : String} :
    manager.activeName = some name ↔
      ∃ index, ∃ entry : EngineEntry, manager.active .keyboard = some index ∧
        manager.entries[index]? = some entry ∧ entry.name = name := by
  rw [activeName, Option.bind_eq_some_iff]
  constructor
  · rintro ⟨index, active, found⟩
    obtain ⟨entry, here, named⟩ := Option.map_eq_some_iff.mp found
    exact ⟨index, entry, active, here, named⟩
  · rintro ⟨index, entry, active, here, named⟩
    exact ⟨index, active, Option.map_eq_some_iff.mpr ⟨entry, here, named⟩⟩

/-- A switch to the keyboard that is active does nothing. -/
theorem Orderly.setActive_current {manager : EngineManager} (orderly : manager.Orderly)
    {name : String} (active : manager.activeName = some name) (calls : Calls) :
    manager.setActive name calls = (manager, .ok) := by
  obtain ⟨index, entry, filled, here, rfl⟩ := activeName_eq_some_iff.mp active
  obtain ⟨other, there, info, known, -, -, kind, -⟩ := orderly.live .keyboard index filled
  obtain rfl : entry = other := Option.some.inj (here.symm.trans there)
  rw [orderly.intact.setActive_named here known, kind, switchTo_same calls filled]

/-- A switch to a keyboard which activates makes it the active one, and every engine which
activated before still does. -/
theorem Orderly.setActive_done {manager : EngineManager} (orderly : manager.Orderly)
    {engines : String → Calls} {name : String} (keyboard : name ∈ manager.keyboards)
    (up : manager.Activates engines name) :
    (manager.setActive name (engines name)).2 = .ok ∧
      (manager.setActive name (engines name)).1.activeName = some name ∧
      (manager.setActive name (engines name)).1.active .voice = manager.active .voice ∧
      (manager.activeName ≠ some name →
        (manager.setActive name (engines name)).1.active .keyboard ≠ manager.active .keyboard) ∧
      ∀ tried, manager.Activates engines tried →
        (manager.setActive name (engines name)).1.Activates engines tried := by
  by_cases current : manager.activeName = some name
  · rw [orderly.setActive_current current]
    exact ⟨rfl, current, rfl, fun other => absurd current other, fun _ => id⟩
  obtain ⟨index, entry, here, rfl, isKeyboard⟩ := mem_keyboards.mp keyboard
  obtain ⟨info, known, kind⟩ := slot_of_isKeyboard isKeyboard
  have member : entry ∈ manager.entries := List.mem_of_getElem? here
  have comesUp := (orderly.intact.activates_iff member engines).mp up
  have other : manager.active .keyboard ≠ some index := fun filled =>
    current (activeName_eq_some_iff.mpr ⟨index, entry, filled, here, rfl⟩)
  have after := @switchTo_ok_iff manager index entry here .keyboard (engines entry.name)
  obtain ⟨active, ⟨engine, rejected, candidate, present, filled⟩, others⟩ :=
    switchTo_done here other comesUp
  have inPlace : InPlace manager (manager.setActive entry.name (engines entry.name)).1 :=
    .setActive manager entry.name (engines entry.name)
  have same := orderly.intact.setActive_named here known (engines entry.name)
  rw [kind] at same
  rw [same] at inPlace ⊢
  refine ⟨after.mpr (.inr comesUp), ?_, ?_, ?_, fun tried activates => ?_⟩
  · refine activeName_eq_some_iff.mpr ⟨index, _, ?_, filled, rfl⟩
    rw [active, Function.update_self]
  · rw [active, Function.update_of_ne (by decide)]
  · rw [active, Function.update_self]
    exact fun _ => other.symm
  · obtain ⟨old, registered, rfl, oldUp⟩ := activates
    obtain ⟨place, there⟩ := List.mem_iff_getElem?.mp registered
    by_cases target : place = index
    · subst target
      obtain rfl : entry = old := Option.some.inj (here.symm.trans there)
      refine ⟨_, List.mem_of_getElem? filled, rfl, _, rfl, .inl rfl, present, .inl rfl⟩
    · by_cases deposed : manager.active .keyboard = some place
      · obtain ⟨running, there', -, -, cached, here', -⟩ := orderly.live .keyboard place deposed
        obtain rfl : old = running := Option.some.inj (there.symm.trans there')
        have idle := others place target
        rw [deposed, getElem?_modifyActive_self, there, Option.map_some] at idle
        exact ⟨old.deactivate, List.mem_of_getElem? idle, rfl,
          EngineEntry.comesUp_deactivate oldUp (by simp [Option.mem_def.mp here'])⟩
      · have kept := others place target
        rw [getElem?_modifyActive_of_ne _ deposed, there] at kept
        exact ⟨old, List.mem_of_getElem? kept, rfl, oldUp⟩

/-- A switch to a keyboard which fails leaves the slots alone, and of the other engines what
activates and what starts; the engine itself activates the next time if it starts at all. -/
theorem Orderly.setActive_failed {manager : EngineManager} (orderly : manager.Orderly)
    {engines : String → Calls} {name : String} (keyboard : name ∈ manager.keyboards)
    (other : manager.activeName ≠ some name) (fails : ¬ manager.Activates engines name) :
    (manager.setActive name (engines name)).2 ≠ .ok ∧
      (manager.setActive name (engines name)).1.active = manager.active ∧
      (manager.setActive name (engines name)).1.activeName = manager.activeName ∧
      ∀ tried, ((manager.setActive name (engines name)).1.Starts engines tried ↔
          manager.Starts engines tried) ∧
        ((manager.setActive name (engines name)).1.Activates engines tried ↔
          if tried = name then manager.Starts engines tried
          else manager.Activates engines tried) := by
  obtain ⟨index, entry, here, rfl, isKeyboard⟩ := mem_keyboards.mp keyboard
  obtain ⟨info, known, kind⟩ := slot_of_isKeyboard isKeyboard
  have member : entry ∈ manager.entries := List.mem_of_getElem? here
  have stays : ¬ entry.ComesUp (engines entry.name) := fun up =>
    fails ((orderly.intact.activates_iff member engines).mpr up)
  have vacant : manager.active .keyboard ≠ some index := fun filled =>
    other (activeName_eq_some_iff.mpr ⟨index, entry, filled, here, rfl⟩)
  have inPlace : InPlace manager (manager.setActive entry.name (engines entry.name)).1 :=
    .setActive manager entry.name (engines entry.name)
  have same := orderly.intact.setActive_named here known (engines entry.name)
  rw [kind] at same
  rw [same] at inPlace ⊢
  have failed : (manager.switchTo .keyboard index (engines entry.name)).2 ≠ .ok := fun done =>
    (((switchTo_ok_iff here (engines entry.name)).mp done).elim vacant stays)
  obtain ⟨active, others⟩ := switchTo_failed orderly.live here failed
  obtain ⟨rejected, attempted⟩ := switchTo_failed_here here failed
  have named (property : EngineEntry → Prop) {tried : String} (aside : tried ≠ entry.name) :
      (∃ old ∈ (manager.switchTo .keyboard index (engines entry.name)).1.entries,
          old.name = tried ∧ property old) ↔
        ∃ old ∈ manager.entries, old.name = tried ∧ property old := by
    simp only [List.mem_iff_getElem?]
    constructor
    · rintro ⟨old, ⟨place, there⟩, rfl, holds⟩
      have apart : place ≠ index := by
        rintro rfl
        obtain rfl := Option.some.inj (attempted.symm.trans there)
        exact aside rfl
      exact ⟨old, ⟨place, (others place apart).symm.trans there⟩, rfl, holds⟩
    · rintro ⟨old, ⟨place, there⟩, rfl, holds⟩
      have apart : place ≠ index := by
        rintro rfl
        obtain rfl := Option.some.inj (here.symm.trans there)
        exact aside rfl
      exact ⟨old, ⟨place, (others place apart).trans there⟩, rfl, holds⟩
  refine ⟨failed, active, ?_, fun tried => ?_⟩
  · cases set : manager.active .keyboard with
    | none => simp [activeName, active, set]
    | some place =>
        have apart : place ≠ index := fun is => vacant (is ▸ set)
        rw [activeName, activeName, active, set, Option.bind_some, Option.bind_some,
          others place apart]
  · by_cases target : tried = entry.name
    · subst target
      have intact := inPlace.integrity orderly.intact
      have cached := List.mem_of_getElem? attempted
      have startsBefore := orderly.intact.starts_iff member engines
      have startsAfter := intact.starts_iff cached engines
      have activatesAfter := intact.activates_iff cached engines
      rw [if_pos rfl, startsBefore]
      exact ⟨startsAfter.trans EngineEntry.startable_of_attempted,
        activatesAfter.trans EngineEntry.comesUp_of_attempted⟩
    · rw [if_neg target]
      exact ⟨named _ target, named _ target⟩

/-! ## What the manager picks -/

/-- The engine `next` and `prev` switch to. -/
def pick (manager : EngineManager) (order : List String) (forward stable : Bool) :
    Option String :=
  if manager.entries.isEmpty then none
  else manager.resolveSwitch (manager.listOrderedKeyboards order) forward stable

theorem cycle_eq (manager : EngineManager) (forward stable : Bool) (order : List String)
    (calls : Calls) :
    manager.cycle forward stable order calls =
      match manager.pick order forward stable with
      | none => (manager, .engineNotAvailable)
      | some name => manager.setActive name calls := by
  unfold cycle pick
  split <;> rfl

/-- Only keyboards are picked. -/
theorem Integrity.mem_keyboards_of_pick {manager : EngineManager} (intact : manager.Integrity)
    {order : List String} {forward stable : Bool} {name : String}
    (picked : manager.pick order forward stable = some name) : name ∈ manager.keyboards := by
  have listed (place : Nat) (here : (manager.listOrderedKeyboards order)[place]? = some name) :
      name ∈ manager.keyboards :=
    (mem_listOrderedKeyboards intact order name).mp (List.mem_of_getElem? here)
  unfold pick at picked
  split at picked
  · cases picked
  obtain ⟨current, -, resolved⟩ := Option.bind_eq_some_iff.mp picked
  split at resolved
  next partner recent =>
    obtain rfl := Option.some.inj resolved
    split at recent
    · rw [recentPartner, Option.filter_eq_some_iff] at recent
      exact (intact.nameIsKeyboard_iff partner).mp recent.2
    · cases recent
  next =>
    split at resolved
    · exact listed 0 (List.head?_eq_getElem? ▸ resolved)
    · split at resolved
      · exact listed _ resolved
      · exact listed _ resolved

theorem InPlace.nameIsKeyboard {before after : EngineManager} (inPlace : InPlace before after)
    (name : String) : after.nameIsKeyboard name = before.nameIsKeyboard name := by
  have of_labels (manager : EngineManager) : manager.nameIsKeyboard name =
      ((manager.entries.map label).find? (·.1 == name)).any fun labelled =>
        labelled.2.any (·.type == .keyboard) := by
    rw [EngineManager.nameIsKeyboard, List.find?_map, Option.any_map]
    rfl
  rw [of_labels, of_labels, inPlace.labels]

theorem InPlace.listOrderedKeyboards {before after : EngineManager}
    (inPlace : InPlace before after) (order : List String) :
    after.listOrderedKeyboards order = before.listOrderedKeyboards order := by
  have keyboards := inPlace.keyboards
  unfold EngineManager.keyboards at keyboards
  rw [EngineManager.listOrderedKeyboards, EngineManager.listOrderedKeyboards, keyboards,
    funext inPlace.nameIsKeyboard]

theorem pick_congr {before after : EngineManager} (inPlace : InPlace before after)
    (active : after.activeName = before.activeName) (pair : after.recentPair = before.recentPair)
    (order : List String) (forward stable : Bool) :
    after.pick order forward stable = before.pick order forward stable := by
  obtain ⟨primary, secondary⟩ := Prod.mk.inj pair
  have partner (current : String) : after.recentPartner current = before.recentPartner current := by
    rw [recentPartner, recentPartner, primary, secondary, funext inPlace.nameIsKeyboard]
  have empty : after.entries.isEmpty = before.entries.isEmpty := by
    rw [Bool.eq_iff_iff, List.isEmpty_iff_length_eq_zero, List.isEmpty_iff_length_eq_zero,
      inPlace.length]
  rw [pick, pick, empty, inPlace.listOrderedKeyboards, resolveSwitch, resolveSwitch, active,
    funext partner]

end EngineManager

/-! ## Presses -/

/-- What stays the same during a run of presses: the threshold in milliseconds, the configured
order, and what the code of each engine returns when it is switched to. -/
structure Setting where
  threshold : Nat
  order : List String
  engines : String → Calls

/-- A call of `next` or of `prev`, at a time in nanoseconds. -/
structure Press where
  forward : Bool
  now : Nat
  deriving DecidableEq, Repr

/-- The manager with the time of the last keyboard switch. -/
structure ClockedManager where
  manager : EngineManager
  lastSwitch : Option Nat

/-- `now.duration_since(last).as_millis() as u64`. -/
def millisSince (last now : Nat) : Nat := (now - last) / 1000000 % 2 ^ 64

namespace ClockedManager

def elapsed (clocked : ClockedManager) (now : Nat) : Nat :=
  match clocked.lastSwitch with
  | none => 2 ^ 64 - 1
  | some last => millisSince last now

/-- `typio_engine_manager_set_active` with its clock, which is read when the keyboard slot has been
filled anew. -/
def setActive (clocked : ClockedManager) (name : String) (calls : Calls) (now : Nat) :
    ClockedManager × TypioResult :=
  let (manager, result) := clocked.manager.setActive name calls
  if result = .ok ∧ manager.active .keyboard ≠ clocked.manager.active .keyboard then
    (⟨manager, some now⟩, result)
  else (⟨manager, clocked.lastSwitch⟩, result)

theorem setActive_fst (clocked : ClockedManager) (name : String) (calls : Calls) (now : Nat) :
    (clocked.setActive name calls now).1 =
      ⟨(clocked.manager.setActive name calls).1,
        if (clocked.manager.setActive name calls).2 = .ok ∧
            (clocked.manager.setActive name calls).1.active .keyboard ≠
              clocked.manager.active .keyboard then some now
        else clocked.lastSwitch⟩ := by
  simp only [setActive]
  split <;> rfl

variable (setting : Setting)

/-- The engine a press picks. -/
def target (clocked : ClockedManager) (press : Press) : Option String :=
  clocked.manager.pick setting.order press.forward
    (decide (setting.threshold < clocked.elapsed press.now))

/-- `typio_engine_manager_next` and `typio_engine_manager_prev`. -/
def cycle (clocked : ClockedManager) (press : Press) : ClockedManager × TypioResult :=
  match clocked.target setting press with
  | none => (clocked, .engineNotAvailable)
  | some name => clocked.setActive name (setting.engines name) press.now

def step (clocked : ClockedManager) (press : Press) : ClockedManager :=
  (clocked.cycle setting press).1

/-- Without the clock a press is an operation of the manager. -/
theorem step_manager (clocked : ClockedManager) (press : Press) : ∃ calls,
    (clocked.step setting press).manager =
      (clocked.manager.cycle press.forward
        (decide (setting.threshold < clocked.elapsed press.now)) setting.order calls).1 := by
  simp only [EngineManager.cycle_eq, step, cycle, target]
  cases clocked.manager.pick setting.order press.forward
      (decide (setting.threshold < clocked.elapsed press.now)) with
  | none => exact ⟨setting.engines "", rfl⟩
  | some name =>
      exact ⟨setting.engines name, congrArg manager (setActive_fst ..)⟩

variable {setting} {clocked : ClockedManager} {press : Press}

theorem step_inPlace :
    EngineManager.InPlace clocked.manager (clocked.step setting press).manager := by
  obtain ⟨calls, same⟩ := step_manager setting clocked press
  rw [same]
  exact .cycle ..

theorem step_orderly (orderly : clocked.manager.Orderly) :
    (clocked.step setting press).manager.Orderly := by
  obtain ⟨calls, same⟩ := step_manager setting clocked press
  rw [same]
  exact orderly.registryStep (.operation (.cycle ..))

theorem step_recentPair :
    (clocked.step setting press).manager.recentPair = clocked.manager.recentPair := by
  obtain ⟨calls, same⟩ := step_manager setting clocked press
  rw [same, EngineManager.cycle_eq]
  split
  · rfl
  · exact EngineManager.setActive_recentPair ..

theorem step_of_target {name : String} (picked : clocked.target setting press = some name) :
    clocked.step setting press =
      (clocked.setActive name (setting.engines name) press.now).1 := by
  rw [step, cycle, picked]

/-- A press which picks the active engine does nothing. -/
theorem step_current (orderly : clocked.manager.Orderly) {name : String}
    (picked : clocked.target setting press = some name)
    (active : clocked.manager.activeName = some name) : clocked.step setting press = clocked := by
  rw [step_of_target picked, setActive_fst, orderly.setActive_current active]
  simp

/-- A press which picks another engine that activates makes it the active one, at the time of the
press. -/
theorem step_done (orderly : clocked.manager.Orderly) {name : String}
    (picked : clocked.target setting press = some name)
    (up : clocked.manager.Activates setting.engines name) :
    (clocked.step setting press).manager.activeName = some name ∧
      (clocked.step setting press).manager.active .voice = clocked.manager.active .voice ∧
      (clocked.manager.activeName ≠ some name →
        (clocked.step setting press).lastSwitch = some press.now) ∧
      ∀ tried, clocked.manager.Activates setting.engines tried →
        (clocked.step setting press).manager.Activates setting.engines tried := by
  obtain ⟨ok, active, voice, filled, activates⟩ :=
    orderly.setActive_done (orderly.intact.mem_keyboards_of_pick picked) up
  rw [step_of_target picked, setActive_fst]
  exact ⟨active, voice, fun other => if_pos ⟨ok, filled other⟩, activates⟩

theorem step_allUp
    (kept : ∀ tried, clocked.manager.Activates setting.engines tried →
      (clocked.step setting press).manager.Activates setting.engines tried)
    (allUp : clocked.manager.AllUp setting.engines) :
    (clocked.step setting press).manager.AllUp setting.engines := by
  intro name listed
  rw [step_inPlace.keyboards] at listed
  exact kept name (allUp name listed)

/-- A press which picks an engine that fails changes neither the slots nor the clock. -/
theorem step_failed (orderly : clocked.manager.Orderly) {name : String}
    (picked : clocked.target setting press = some name)
    (other : clocked.manager.activeName ≠ some name)
    (fails : ¬ clocked.manager.Activates setting.engines name) :
    (clocked.step setting press).lastSwitch = clocked.lastSwitch ∧
      (clocked.step setting press).manager.active = clocked.manager.active ∧
      (clocked.step setting press).manager.activeName = clocked.manager.activeName ∧
      ∀ tried, ((clocked.step setting press).manager.Starts setting.engines tried ↔
          clocked.manager.Starts setting.engines tried) ∧
        ((clocked.step setting press).manager.Activates setting.engines tried ↔
          if tried = name then clocked.manager.Starts setting.engines tried
          else clocked.manager.Activates setting.engines tried) := by
  obtain ⟨failed, active, same, tries⟩ :=
    orderly.setActive_failed (orderly.intact.mem_keyboards_of_pick picked) other fails
  rw [step_of_target picked, setActive_fst]
  exact ⟨if_neg fun both => failed both.1, active, same, tries⟩

end ClockedManager

end Core

end Typio
