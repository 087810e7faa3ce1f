import Mathlib.Data.List.Nodup
import Typio.Core.EngineManager
import Typio.Machine

/-!
# The registry of engines

Engines enter the registry by `register` and by `load`, which opens a plugin library, and leave it
by `unload`.  Everything that refers to an engine refers to it by name or by its position: a
removal moves the entries behind it, and the two active slots with them.
-/

namespace Typio

namespace Core

/-! ## Loading -/

/-- `sizeof(TypioEngineInfo)`. -/
def engineInfoSize : Nat := 80

/-- What the `typio_engine_get_info` of a plugin returns.  The name is absent when it is null, and
has no text when it is not UTF-8. -/
structure PluginInfo where
  name : Option (Option String)
  displayName : Option String
  icon : Option String
  type : EngineType
  apiVersion : Int
  structSize : Nat
  deriving DecidableEq, Repr

/-- A library that `dlopen` opened: what its information function returns, if it has one, and
whether it has a factory. -/
structure Library where
  getInfo : Option (Option PluginInfo)
  create : Bool
  deriving DecidableEq, Repr

/-- The name of the engine in the library, if it has one that is UTF-8. -/
def Library.engineName (library : Library) : Option String := do
  let returned ← library.getInfo
  let info ← returned
  let text ← info.name
  text

namespace EngineManager

/-- `typio_engine_manager_load`. -/
def load (manager : EngineManager) (library : Option Library) : EngineManager × TypioResult :=
  match library with
  | none => (manager, .engineLoadFailed)
  | some library =>
      match library.getInfo with
      | none => (manager, .engineLoadFailed)
      | some returned =>
          if !library.create then (manager, .engineLoadFailed)
          else
            match returned with
            | none => (manager, .engineLoadFailed)
            | some info =>
                match info.name with
                | none => (manager, .engineLoadFailed)
                | some text =>
                    if info.apiVersion < 1 ∨ 1 < info.apiVersion then (manager, .engineLoadFailed)
                    else if info.structSize ≠ 0 ∧ info.structSize ≠ engineInfoSize then
                      (manager, .engineLoadFailed)
                    else
                      match text with
                      | none => (manager, .engineLoadFailed)
                      | some name =>
                          manager.register (some
                            { name := name, displayName := info.displayName, icon := info.icon,
                              type := info.type })

/-- A plugin is refused, or enters the registry as a built-in engine does. -/
theorem load_cases (manager : EngineManager) (library : Option Library) :
    (manager.load library).1 = manager ∨
      ∃ info : EngineInfo, library.bind Library.engineName = some info.name ∧
        (manager.load library).1 = (manager.register (some info)).1 := by
  unfold load
  repeat' split
  all_goals first | exact .inl rfl | exact .inr ⟨_, by simp_all [Library.engineName], rfl⟩

/-- An operation on the manager, or the loading of a plugin. -/
inductive RegistryOperation where
  | load (library : Option Library)
  | operation (operation : Operation)
  deriving DecidableEq, Repr

/-- The name of the engine which the operation registers, unless it is refused. -/
def RegistryOperation.engineName : RegistryOperation → Option String
  | .load library => library.bind Library.engineName
  | .operation (.register info) => info.map EngineInfo.name
  | .operation _ => none

def registryStep (manager : EngineManager) : RegistryOperation → EngineManager
  | .load library => (manager.load library).1
  | .operation operation => manager.step operation

/-! ## Integrity -/

def names (manager : EngineManager) : List String := manager.entries.map EngineEntry.name

/-- The entry a slot denotes. -/
def occupant (manager : EngineManager) (slot : Slot) : Option EngineEntry :=
  (manager.active slot).bind (manager.entries[·]?)

structure Integrity (manager : EngineManager) : Prop where
  unique : manager.names.Nodup
  inRange : ∀ slot, ∀ index ∈ manager.active slot, index < manager.entries.length

/-- Unloading clears the slot which denotes the unloaded engine, and every other slot denotes the
same engine as before. -/
def UnloadsRightly (manager : EngineManager) : RegistryOperation → Prop
  | .operation (.unload name) =>
      ∀ slot,
        if (manager.occupant slot).any (·.name == name) then
          (manager.unload name).1.active slot = none
        else (manager.unload name).1.occupant slot = manager.occupant slot
  | _ => True

theorem findEntryIndex_eq_some {manager : EngineManager} {name : String} {index : Nat}
    (found : manager.findEntryIndex name = some index) :
    index < manager.entries.length ∧ manager.names[index]? = some name := by
  obtain ⟨inside, here, -⟩ := List.findIdx?_eq_some_iff_getElem.mp found
  refine ⟨inside, ?_⟩
  rw [names, List.getElem?_map, List.getElem?_eq_getElem inside]
  simpa using here

theorem findEntryIndex_eq_none {manager : EngineManager} {name : String}
    (missing : manager.findEntryIndex name = none) : name ∉ manager.names := by
  intro member
  obtain ⟨entry, listed, rfl⟩ := List.mem_map.mp member
  have differs := List.findIdx?_eq_none_iff.mp missing entry listed
  simp at differs

/-! ## Operations which move no entry -/

/-- What identifies an entry. -/
def label (entry : EngineEntry) : String × Option EngineInfo := (entry.name, entry.info)

/-- The entries stay in place, and a slot is set at most to the position of an entry. -/
structure InPlace (before after : EngineManager) : Prop where
  labels : after.entries.map label = before.entries.map label
  active : ∀ slot, after.active slot = before.active slot ∨
    ∃ index < before.entries.length, after.active slot = some index

namespace InPlace

variable {before middle after : EngineManager}

theorem refl (manager : EngineManager) : InPlace manager manager := ⟨rfl, fun _ => .inl rfl⟩

theorem names (inPlace : InPlace before after) : after.names = before.names := by
  have same := congrArg (List.map Prod.fst) inPlace.labels
  rwa [List.map_map, List.map_map] at same

theorem length (inPlace : InPlace before after) :
    after.entries.length = before.entries.length := by
  simpa using congrArg List.length inPlace.labels

theorem trans (first : InPlace before middle) (second : InPlace middle after) :
    InPlace before after where
  labels := second.labels.trans first.labels
  active slot := by
    obtain same | ⟨index, inside, set⟩ := second.active slot
    · rw [same]
      exact first.active slot
    · exact .inr ⟨index, first.length ▸ inside, set⟩

theorem integrity (inPlace : InPlace before after) (intact : before.Integrity) :
    after.Integrity where
  unique := inPlace.names ▸ intact.unique
  inRange slot index active := by
    rw [inPlace.length]
    obtain same | ⟨place, inside, set⟩ := inPlace.active slot
    · exact intact.inRange slot index (same ▸ active)
    · obtain rfl : place = index := Option.some.inj (set.symm.trans active)
      exact inside

theorem modifyEntry (manager : EngineManager) (index : Nat) {change : EngineEntry → EngineEntry}
    (labelled : ∀ entry, label (change entry) = label entry) :
    InPlace manager (manager.modifyEntry index change) where
  labels := by
    refine List.ext_getElem? fun place => ?_
    simp only [EngineManager.modifyEntry, List.getElem?_map, List.getElem?_modify]
    by_cases here : index = place
    · cases manager.entries[place]? <;> simp [here, labelled]
    · simp [here]
  active _ := .inl rfl

theorem modifyActive (manager : EngineManager) (current : Option Nat)
    {change : EngineEntry → EngineEntry} (labelled : ∀ entry, label (change entry) = label entry) :
    InPlace manager (manager.modifyActive current change) := by
  cases current with
  | none => exact .refl manager
  | some index => exact .modifyEntry manager index labelled

theorem ensureEntryInstance (manager : EngineManager) (index : Nat) (made : Option RawEngine) :
    InPlace manager (manager.ensureEntryInstance index made).1 := by
  unfold EngineManager.ensureEntryInstance
  repeat' split
  all_goals first | exact .refl manager | exact .modifyEntry manager index fun _ => rfl

theorem getEngine (manager : EngineManager) (name : String) (made : Option RawEngine) :
    InPlace manager (manager.getEngine name made).1 := by
  unfold EngineManager.getEngine
  repeat' split
  all_goals first | exact .refl manager | exact .modifyEntry manager _ fun _ => rfl

theorem activate_label (entry : EngineEntry) (init : TypioResult) :
    label (entry.activate init).1 = label entry := by
  unfold EngineEntry.activate
  repeat' split
  all_goals rfl

theorem activateEntry (manager : EngineManager) (index : Nat) (init : TypioResult) :
    InPlace manager (manager.activateEntry index init).1 := by
  unfold EngineManager.activateEntry
  split
  · exact .refl manager
  · exact .modifyEntry manager index fun entry => activate_label entry init

theorem restored (manager : EngineManager) (current : Option Nat) (init : TypioResult) :
    InPlace manager (manager.modifyActive current (·.tryRestore init)) :=
  .modifyActive manager current fun entry => activate_label entry init

theorem switchTo (manager : EngineManager) (slot : Slot) {index : Nat} (calls : Calls)
    (inside : index < manager.entries.length) :
    InPlace manager (manager.switchTo slot index calls).1 := by
  have idle := @modifyActive manager (manager.active slot) EngineEntry.deactivate
    fun _ => rfl
  have made := idle.trans (ensureEntryInstance _ index calls.made)
  have activated := made.trans (activateEntry _ index calls.init)
  unfold EngineManager.switchTo
  split
  · exact .refl manager
  dsimp only
  split
  · exact made.trans (restored _ _ _)
  split
  · exact activated.trans (restored _ _ _)
  · refine ⟨activated.labels, fun other => ?_⟩
    by_cases same : other = slot
    · subst same
      exact .inr ⟨index, inside, Function.update_self ..⟩
    · simpa only [Function.update_of_ne same] using activated.active other

theorem setActive (manager : EngineManager) (name : String) (calls : Calls) :
    InPlace manager (manager.setActive name calls).1 := by
  unfold EngineManager.setActive
  split
  · exact .refl manager
  next index found =>
    split
    · exact .refl manager
    · exact switchTo manager _ calls (findEntryIndex_eq_some found).1

theorem setActiveVoice (manager : EngineManager) (name : String) (calls : Calls) :
    InPlace manager (manager.setActiveVoice name calls).1 := by
  unfold EngineManager.setActiveVoice
  repeat' split
  all_goals first | exact .refl manager | exact setActive manager name calls

theorem cycle (manager : EngineManager) (forward stable : Bool) (order : List String)
    (calls : Calls) : InPlace manager (manager.cycle forward stable order calls).1 := by
  unfold EngineManager.cycle
  repeat' split
  all_goals first | exact .refl manager | exact setActive manager _ calls

theorem notifyCommit (manager : EngineManager) : InPlace manager manager.notifyCommit := by
  unfold EngineManager.notifyCommit EngineManager.updateRecentPair
  repeat' split
  all_goals exact ⟨rfl, fun _ => .inl rfl⟩

end InPlace

/-! ## Registration and removal -/

theorem Integrity.register {manager : EngineManager} (intact : manager.Integrity)
    (info : Option EngineInfo) : (manager.register info).1.Integrity := by
  unfold EngineManager.register
  split
  · exact intact
  next info =>
    split
    · exact intact
    next fresh =>
      have absent := findEntryIndex_eq_none (Option.not_isSome_iff_eq_none.mp fresh)
      refine ⟨?_, fun slot index active => ?_⟩
      · simp only [names, List.map_append, List.map_cons, List.map_nil]
        exact List.nodup_append.mpr ⟨intact.unique, List.nodup_singleton _,
          fun name listed other only => by
            rintro rfl
            rw [List.mem_singleton] at only
            exact absent (only ▸ listed)⟩
      · have inside := intact.inRange slot index active
        rw [List.length_append]
        exact inside.trans_le (Nat.le_add_right ..)

/-- The position of a slot after the entry at `index` is removed. -/
theorem unload_active {manager : EngineManager} {name : String} {index : Nat}
    (found : manager.findEntryIndex name = some index) (slot : Slot) :
    (manager.unload name).1.active slot = (manager.active slot).bind fun current =>
      if index = current then none else if index < current then some (current - 1)
      else some current := by
  rw [unload, found]

theorem unload_entries {manager : EngineManager} {name : String} {index : Nat}
    (found : manager.findEntryIndex name = some index) :
    (manager.unload name).1.entries = manager.entries.eraseIdx index := by
  rw [unload, found]

theorem Integrity.unload {manager : EngineManager} (intact : manager.Integrity) (name : String) :
    (manager.unload name).1.Integrity := by
  cases found : manager.findEntryIndex name with
  | none => simpa [EngineManager.unload, found] using intact
  | some index =>
      have inside := (findEntryIndex_eq_some found).1
      refine ⟨?_, fun slot place active => ?_⟩
      · rw [names, unload_entries found]
        exact intact.unique.sublist ((List.eraseIdx_sublist ..).map _)
      · rw [Option.mem_def, unload_active found] at active
        obtain ⟨current, was, now⟩ := Option.bind_eq_some_iff.mp active
        have bound := intact.inRange slot current was
        rw [unload_entries found, List.length_eraseIdx_of_lt inside]
        split at now
        · cases now
        split at now <;>
          · obtain rfl := Option.some.inj now
            omega

/-- The slot denotes the entry of that name exactly when it names its position. -/
theorem Integrity.occupant_named_iff {manager : EngineManager} (intact : manager.Integrity)
    {name : String} {index current : Nat} (found : manager.findEntryIndex name = some index)
    {slot : Slot} (active : manager.active slot = some current) :
    (manager.occupant slot).any (·.name == name) = true ↔ index = current := by
  have bound := intact.inRange slot current active
  obtain ⟨inside, there⟩ := findEntryIndex_eq_some found
  have here : manager.names[current]? = some manager.entries[current].name := by
    rw [names, List.getElem?_map, List.getElem?_eq_getElem bound, Option.map_some]
  have occupied : manager.occupant slot = some manager.entries[current] := by
    rw [occupant, active, Option.bind_some, List.getElem?_eq_getElem bound]
  rw [occupied, Option.any_some, beq_iff_eq]
  constructor
  · intro named
    rw [named] at here
    exact (List.getElem?_inj (by simpa [names] using inside) intact.unique).mp
      (there.trans here.symm)
  · rintro rfl
    exact Option.some.inj (here.symm.trans there)

theorem occupant_not_named {manager : EngineManager} {name : String}
    (missing : manager.findEntryIndex name = none) (slot : Slot) :
    ¬ (manager.occupant slot).any (·.name == name) = true := by
  intro named
  cases occupied : manager.occupant slot with
  | none => simp [occupied] at named
  | some entry =>
      obtain ⟨index, -, here⟩ := Option.bind_eq_some_iff.mp occupied
      refine findEntryIndex_eq_none missing (List.mem_map.mpr ⟨entry, List.mem_of_getElem? here, ?_⟩)
      simpa [occupied] using named

/-- A slot which names another entry follows it to its new position. -/
theorem unload_occupant {manager : EngineManager} {name : String} {index current : Nat}
    (found : manager.findEntryIndex name = some index) {slot : Slot}
    (active : manager.active slot = some current) (other : index ≠ current) :
    (manager.unload name).1.occupant slot = manager.occupant slot := by
  rw [occupant, unload_active found, unload_entries found, occupant, active, Option.bind_some,
    Option.bind_some, if_neg other]
  by_cases before : index < current
  · rw [if_pos before, Option.bind_some, List.getElem?_eraseIdx, if_neg (by omega),
      Nat.sub_add_cancel (by omega)]
  · rw [if_neg before, Option.bind_some, List.getElem?_eraseIdx, if_pos (by omega)]

theorem Integrity.unloadsRightly {manager : EngineManager} (intact : manager.Integrity)
    (operation : RegistryOperation) : manager.UnloadsRightly operation := by
  cases operation with
  | load library => trivial
  | operation operation =>
      cases operation with
      | unload name =>
          intro slot
          cases found : manager.findEntryIndex name with
          | none =>
              have kept : (manager.unload name).1 = manager := by rw [EngineManager.unload, found]
              rw [kept, if_neg]
              exact occupant_not_named found slot
          | some index =>
              cases active : manager.active slot with
              | none => simp [occupant, unload_active found, active]
              | some current =>
                  by_cases same : index = current
                  · rw [if_pos ((intact.occupant_named_iff found active).mpr same),
                      unload_active found, active, Option.bind_some, if_pos same]
                  · rw [if_neg fun named => same ((intact.occupant_named_iff found active).mp named)]
                    exact unload_occupant found active same
      | _ => trivial

theorem Integrity.registryStep {manager : EngineManager} (intact : manager.Integrity)
    (operation : RegistryOperation) : (manager.registryStep operation).Integrity := by
  cases operation with
  | load library =>
      change (manager.load library).1.Integrity
      obtain refused | ⟨info, -, registered⟩ := manager.load_cases library
      · rwa [refused]
      · rw [registered]
        exact intact.register info
  | operation operation =>
      cases operation with
      | register info => exact intact.register info
      | unload name => exact intact.unload name
      | setActive name calls => exact (InPlace.setActive manager name calls).integrity intact
      | setActiveVoice name calls =>
          exact (InPlace.setActiveVoice manager name calls).integrity intact
      | getEngine name made => exact (InPlace.getEngine manager name made).integrity intact
      | cycle forward stable order calls =>
          exact (InPlace.cycle manager forward stable order calls).integrity intact
      | notifyCommit => exact (InPlace.notifyCommit manager).integrity intact

theorem new_integrity (recentPrimary recentSecondary : Option String) :
    (new recentPrimary recentSecondary).Integrity where
  unique := List.nodup_nil
  inRange slot index active := by simp [new] at active

/-- In every run the names stay unique, the slots stay unset or in range, and every unloading
leaves the slots denoting what they denoted, but for the one of the unloaded engine. -/
theorem registry_integrity (recentPrimary recentSecondary : Option String)
    (operations : List RegistryOperation) :
    Machine.Always registryStep Integrity (new recentPrimary recentSecondary) operations ∧
      Machine.EachStep registryStep UnloadsRightly (new recentPrimary recentSecondary)
        operations := by
  have always : Machine.Always registryStep Integrity (new recentPrimary recentSecondary)
      operations :=
    .of_preserved Integrity (fun _ operation intact => intact.registryStep operation)
      (new_integrity recentPrimary recentSecondary)
  exact ⟨always, .of_always (fun _ operation intact => intact.unloadsRightly operation) always⟩

end EngineManager

end Core

end Typio
