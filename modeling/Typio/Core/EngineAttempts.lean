import Typio.Core.EngineSwitch

/-!
# Attempts to activate an engine

An attempt which fails leaves its engine in the cache, where the next attempt finds it without
validating it again.  So a series of attempts changes what is active unless the entry refuses each
of them, as it was left by the ones before.
-/

namespace Typio

namespace Core

namespace EngineEntry

/-- The entry after an attempt which failed. -/
def tried (entry : EngineEntry) (calls : Calls) : EngineEntry :=
  { entry with engine := entry.candidate calls.made }

/-- The engine comes up in none of the attempts. -/
def Refuses (entry : EngineEntry) : List Calls → Prop
  | [] => True
  | calls :: later => ¬ entry.ComesUp calls ∧ (entry.tried calls).Refuses later

/-- Nothing that an attempt does depends on the record of rejected instances. -/
theorem comesUp_rejected (entry : EngineEntry) (rejected : Bool) (calls : Calls) :
    ({ entry with rejected := rejected } : EngineEntry).ComesUp calls ↔ entry.ComesUp calls :=
  Iff.rfl

theorem refuses_rejected (entry : EngineEntry) (rejected : Bool) (attempts : List Calls) :
    ({ entry with rejected := rejected } : EngineEntry).Refuses attempts ↔
      entry.Refuses attempts := by
  induction attempts generalizing entry with
  | nil => exact Iff.rfl
  | cons calls later induction =>
      exact and_congr (not_congr (comesUp_rejected entry rejected calls))
        (induction (entry.tried calls))

end EngineEntry

namespace EngineManager

/-- The entry which is registered under the name. -/
def entryNamed (manager : EngineManager) (name : String) : Option EngineEntry :=
  manager.entries.find? (·.name == name)

section Lookup

variable {manager : EngineManager} {name : String} {entry : EngineEntry} {index : Nat}

theorem entryNamed_some (found : manager.entryNamed name = some entry) :
    entry.name = name ∧ ∃ index : Nat, manager.entries[index]? = some entry := by
  refine ⟨by simpa using List.find?_some found, ?_⟩
  exact List.getElem?_of_mem (List.mem_of_find?_eq_some found)

theorem entryNamed_none : manager.entryNamed name = none ↔ name ∉ manager.names := by
  rw [entryNamed, List.find?_eq_none, names, List.mem_map]
  constructor
  · rintro none ⟨entry, member, rfl⟩
    exact none entry member (by simp)
  · intro absent entry member same
    exact absent ⟨entry, member, by simpa using same⟩

/-- Names are unique, so an entry is found under its name. -/
theorem Integrity.entryNamed (intact : manager.Integrity)
    (here : manager.entries[index]? = some entry) :
    manager.entryNamed entry.name = some entry := by
  cases found : manager.entryNamed entry.name with
  | none =>
      exact absurd (List.mem_map_of_mem (List.mem_of_getElem? here)) (entryNamed_none.mp found)
  | some other =>
      obtain ⟨same, place, there⟩ := entryNamed_some found
      have position : place = index := by
        by_contra apart
        exact intact.name_ne there here apart same
      rw [position, here] at there
      rw [Option.some.inj there]

theorem Integrity.findEntryIndex (intact : manager.Integrity)
    (here : manager.entries[index]? = some entry) :
    manager.findEntryIndex entry.name = some index := by
  cases found : manager.findEntryIndex entry.name with
  | none =>
      exact absurd (List.mem_map_of_mem (List.mem_of_getElem? here))
        (findEntryIndex_eq_none found)
  | some place =>
      obtain ⟨inside, named⟩ := findEntryIndex_eq_some found
      have there := List.getElem?_eq_getElem inside
      rw [names, List.getElem?_map, there] at named
      refine congrArg some ?_
      by_contra apart
      exact intact.name_ne there here apart (Option.some.inj named)

theorem findEntryIndex_none (absent : manager.entryNamed name = none) :
    manager.findEntryIndex name = none := by
  cases found : manager.findEntryIndex name with
  | none => rfl
  | some index =>
      have member := List.mem_of_getElem? (findEntryIndex_eq_some found).2
      exact absurd member (entryNamed_none.mp absent)

end Lookup

/-- Without an instance to try the entry stays as it is, with none in the cache. -/
theorem ensureEntryInstance_missing {manager : EngineManager} {index : Nat} {entry : EngineEntry}
    (here : manager.entries[index]? = some entry) {made : Option RawEngine}
    (missing : entry.candidate made = none) :
    entry.engine = none ∧ (manager.ensureEntryInstance index made).2 ≠ .ok ∧
      (manager.ensureEntryInstance index made).1.entries[index]? = some entry := by
  have uncached : entry.engine = none := by
    rw [EngineEntry.candidate] at missing
    cases cached : entry.engine with
    | none => rfl
    | some engine => simp [cached] at missing
  refine ⟨uncached, fun succeeded => ?_, ?_⟩
  · obtain ⟨engine, found, -⟩ := (ensureEntryInstance_ok_iff here made).mp succeeded
    cases missing.symm.trans found
  · rw [EngineEntry.candidate, uncached] at missing
    rw [ensureEntryInstance, here]
    by_cases factory : entry.factory
    · rw [if_pos factory] at missing
      rw [Option.map_eq_none_iff.mp missing]
      simpa [uncached, factory] using here
    · simpa [uncached, factory] using here

/-- A switch which fails leaves the engine it tried in the cache. -/
theorem switchTo_tried {manager : EngineManager} {index : Nat} {entry : EngineEntry}
    (here : manager.entries[index]? = some entry) {slot : Slot} {calls : Calls}
    (other : manager.active slot ≠ some index) (refused : ¬ entry.ComesUp calls) :
    ∃ rejected, (manager.switchTo slot index calls).1.entries[index]? =
      some { entry.tried calls with rejected := rejected } := by
  have idleHere := deactivated_here here other
  rw [switchTo, if_neg other]
  dsimp only
  have restored (between : EngineManager) :
      (between.modifyActive (manager.active slot) (·.tryRestore calls.restored)).entries[index]? =
        between.entries[index]? :=
    getElem?_modifyActive_of_ne _ other
  cases candidate : entry.candidate calls.made with
  | none =>
      obtain ⟨uncached, failed, same⟩ := ensureEntryInstance_missing idleHere candidate
      refine ⟨entry.rejected, ?_⟩
      rw [if_pos failed, restored, same, EngineEntry.tried, candidate, ← uncached]
  | some engine =>
      obtain ⟨rejected, there⟩ := ensureEntryInstance_here idleHere candidate
      refine ⟨rejected, ?_⟩
      rw [EngineEntry.tried, candidate]
      split
      next failed => rw [restored, there]
      next accepted =>
        obtain ⟨candidate', found, checked⟩ :=
          (ensureEntryInstance_ok_iff idleHere calls.made).mp (not_not.mp accepted)
        obtain rfl := Option.some.inj (candidate.symm.trans found)
        have stopped : ¬ engine.Starts calls.init := fun starts =>
          refused ⟨engine, candidate, checked, starts⟩
        have idle := @EngineEntry.activate_of_not_starts
          { entry with engine := some engine, rejected := rejected } calls.init
          fun cached found => Option.some.inj found ▸ stopped
        rw [activateEntry, there]
        dsimp only
        rw [if_pos idle.2, restored, getElem?_modifyEntry, if_pos rfl, there, Option.map_some,
          idle.1]

/-- The name of the engine in the slot. -/
def slotName (manager : EngineManager) (slot : Slot) : Option String :=
  (manager.occupant slot).map EngineEntry.name

theorem Orderly.setActive {manager : EngineManager} (orderly : manager.Orderly) (name : String)
    (calls : Calls) : (manager.setActive name calls).1.Orderly :=
  orderly.registryStep (.operation (.setActive name calls))

section Slots

variable {manager : EngineManager} {index : Nat} {entry : EngineEntry} {slot : Slot}

theorem Orderly.slotName_eq_iff (orderly : manager.Orderly)
    (here : manager.entries[index]? = some entry) :
    manager.slotName slot = some entry.name ↔ manager.active slot = some index := by
  rw [slotName, occupant]
  constructor
  · intro same
    obtain ⟨other, occupied, named⟩ := Option.map_eq_some_iff.mp same
    obtain ⟨place, active, there⟩ := Option.bind_eq_some_iff.mp occupied
    rw [active]
    refine congrArg some ?_
    by_contra apart
    exact orderly.intact.name_ne there here apart named
  · intro active
    rw [active, Option.bind_some, here, Option.map_some]

/-- Slots which name the same positions hold engines of the same names. -/
theorem slotName_congr {before after : EngineManager}
    (labels : after.entries.map label = before.entries.map label)
    (active : after.active slot = before.active slot) : after.slotName slot = before.slotName slot := by
  rw [slotName, occupant, active, slotName, occupant]
  cases before.active slot with
  | none => rfl
  | some place =>
      have same := congrArg (·[place]?) labels
      simp only [List.getElem?_map] at same
      have names := congrArg (Option.map Prod.fst) same
      rw [Option.map_map, Option.map_map] at names
      exact names

/-- An engine is only in the slot of its kind. -/
theorem Orderly.slot_of_slotName (orderly : manager.Orderly) {name : String}
    (found : manager.entryNamed name = some entry) {info : EngineInfo}
    (known : entry.info = some info) (there : manager.slotName slot = some name) :
    Slot.ofInfo info = slot := by
  obtain ⟨rfl, index, here⟩ := entryNamed_some found
  have active := (orderly.slotName_eq_iff here).mp there
  by_contra other
  refine orderly.live.vacant here known (fun set => other ?_) slot active
  obtain ⟨occupied, there', running⟩ := orderly.live _ index set
  obtain ⟨occupied', there'', running'⟩ := orderly.live slot index active
  rw [Option.mem_unique there' there''] at running
  exact running.slot_unique running'

end Slots

/-! ## An attempt -/

section Attempt

variable {manager : EngineManager} {name : String} {entry : EngineEntry} {info : EngineInfo}
  (calls : Calls)

theorem setActive_absent (absent : manager.entryNamed name = none) :
    (manager.setActive name calls).1 = manager := by
  rw [setActive, findEntryIndex_none absent]

variable (orderly : manager.Orderly) (found : manager.entryNamed name = some entry)
  (known : entry.info = some info)

include orderly found known

/-- The attempt is a switch to the entry of that name. -/
theorem setActive_entryNamed : ∃ index : Nat, manager.entries[index]? = some entry ∧
    manager.setActive name calls = manager.switchTo (Slot.ofInfo info) index calls := by
  obtain ⟨rfl, index, here⟩ := entryNamed_some found
  refine ⟨index, here, ?_⟩
  simp only [setActive, orderly.intact.findEntryIndex here, here, Option.bind_some, known]

theorem setActive_present (there : manager.slotName (Slot.ofInfo info) = some name) :
    (manager.setActive name calls).1 = manager := by
  obtain ⟨index, here, switches⟩ := setActive_entryNamed calls orderly found known
  obtain ⟨rfl, -⟩ := entryNamed_some found
  rw [switches, switchTo_same calls ((orderly.slotName_eq_iff here).mp there)]

variable {calls} (absent : manager.slotName (Slot.ofInfo info) ≠ some name)

include absent

theorem slotName_setActive_up (up : entry.ComesUp calls) (slot : Slot) :
    (manager.setActive name calls).1.slotName slot =
      if slot = Slot.ofInfo info then some name else manager.slotName slot := by
  obtain ⟨index, here, switches⟩ := setActive_entryNamed calls orderly found known
  obtain ⟨rfl, -⟩ := entryNamed_some found
  have other := mt (orderly.slotName_eq_iff here).mpr absent
  obtain ⟨active, ⟨engine, rejected, -, -, filled⟩, -⟩ := switchTo_done here other up
  split
  next same =>
    rw [switches, slotName, occupant, active, same, Function.update_self, Option.bind_some, filled]
    rfl
  next differs =>
    refine slotName_congr (InPlace.setActive manager entry.name calls).labels ?_
    rw [switches, active, Function.update_of_ne differs]

/-- Another entry is as it was, but for being deactivated. -/
theorem entryNamed_setActive_up (up : entry.ComesUp calls) {other : String} (apart : other ≠ name)
    {old : EngineEntry} (before : manager.entryNamed other = some old) :
    ∃ kept, (manager.setActive name calls).1.entryNamed other = some kept ∧
      (kept = old ∨ kept = old.deactivate) := by
  obtain ⟨index, here, switches⟩ := setActive_entryNamed calls orderly found known
  obtain ⟨rfl, -⟩ := entryNamed_some found
  obtain ⟨rfl, place, there⟩ := entryNamed_some before
  have aside : place ≠ index := by
    rintro rfl
    exact apart (congrArg EngineEntry.name (Option.some.inj (there.symm.trans here)))
  obtain ⟨-, -, others⟩ :=
    switchTo_done here (mt (orderly.slotName_eq_iff here).mpr absent) up
  have after := others place aside
  rw [← switches] at after
  have intact := (orderly.setActive entry.name calls).intact
  by_cases current : manager.active (Slot.ofInfo info) = some place
  · rw [current, getElem?_modifyActive_self, there, Option.map_some] at after
    exact ⟨old.deactivate, intact.entryNamed after, .inr rfl⟩
  · rw [getElem?_modifyActive_of_ne _ current, there] at after
    exact ⟨old, intact.entryNamed after, .inl rfl⟩

variable (refused : ¬ entry.ComesUp calls)

include refused

theorem slotName_setActive_refused (slot : Slot) :
    (manager.setActive name calls).1.slotName slot = manager.slotName slot := by
  obtain ⟨index, here, switches⟩ := setActive_entryNamed calls orderly found known
  obtain ⟨rfl, -⟩ := entryNamed_some found
  have other := mt (orderly.slotName_eq_iff here).mpr absent
  refine slotName_congr (InPlace.setActive manager entry.name calls).labels ?_
  rw [switches, (switchTo_failed orderly.live here fun done =>
    ((switchTo_ok_iff here calls).mp done).elim other refused).1]

theorem entryNamed_setActive_refused :
    (∃ rejected, (manager.setActive name calls).1.entryNamed name =
      some { entry.tried calls with rejected := rejected }) ∧
    ∀ other ≠ name,
      (manager.setActive name calls).1.entryNamed other = manager.entryNamed other := by
  obtain ⟨index, here, switches⟩ := setActive_entryNamed calls orderly found known
  obtain ⟨rfl, -⟩ := entryNamed_some found
  have vacant := mt (orderly.slotName_eq_iff here).mpr absent
  obtain ⟨rejected, there⟩ := switchTo_tried here vacant refused
  have others := (switchTo_failed orderly.live here fun done =>
    ((switchTo_ok_iff here calls).mp done).elim vacant refused).2
  rw [← switches] at there others
  have intact := (orderly.setActive entry.name calls).intact
  refine ⟨⟨rejected, intact.entryNamed there⟩, fun other apart => ?_⟩
  cases before : manager.entryNamed other with
  | none =>
      rwa [entryNamed_none, (InPlace.setActive manager entry.name calls).names, ← entryNamed_none]
  | some old =>
      obtain ⟨rfl, place, found'⟩ := entryNamed_some before
      have aside : place ≠ index := by
        rintro rfl
        exact apart (congrArg EngineEntry.name (Option.some.inj (found'.symm.trans here)))
      exact intact.entryNamed ((others place aside).trans found')

end Attempt

/-! ## Attempts for a slot -/

/-- The engine of that name is activated, if one is named and the slot has another one. -/
def attempt (manager : EngineManager) (slot : Slot) (name : Option String) (calls : Calls) :
    EngineManager :=
  match name with
  | none => manager
  | some name =>
      if manager.slotName slot = some name then manager
      else
        match slot with
        | .keyboard => (manager.setActive name calls).1
        | .voice => (manager.setActiveVoice name calls).1

section Voice

variable {manager : EngineManager} {name : String} {entry : EngineEntry} {calls : Calls}

theorem isVoice_iff {info : EngineInfo} (known : entry.info = some info) :
    entry.isVoice = true ↔ Slot.ofInfo info = .voice := by
  rw [EngineEntry.isVoice, known, Option.any_some, Slot.ofInfo]
  cases info.type <;> simp

/-- Only a voice engine is activated by its kind. -/
theorem setActiveVoice_eq (manager : EngineManager) (name : String) (calls : Calls) :
    (manager.setActiveVoice name calls).1 =
      if (manager.entryNamed name).any EngineEntry.isVoice then (manager.setActive name calls).1
      else manager := by
  rw [setActiveVoice, ← entryNamed]
  cases manager.entryNamed name with
  | none => rfl
  | some entry =>
      rw [Option.bind_some, Option.any_some, EngineEntry.isVoice]
      cases entry.info with
      | none => rfl
      | some info =>
          by_cases voice : info.type = .voice
          · simp [voice]
          · simp [voice]

theorem Orderly.attempt (orderly : manager.Orderly) (slot : Slot) (name : Option String)
    (calls : Calls) : (manager.attempt slot name calls).Orderly := by
  rw [EngineManager.attempt.eq_def]
  cases name with
  | none => exact orderly
  | some name =>
      dsimp only
      split
      · exact orderly
      · cases slot with
        | keyboard => exact orderly.setActive name calls
        | voice => exact orderly.registryStep (.operation (.setActiveVoice name calls))

theorem attempt_voice_idle {name : Option String}
    (idle : ∀ wanted ∈ name, manager.slotName .voice ≠ some wanted →
      (manager.entryNamed wanted).any EngineEntry.isVoice = false) :
    manager.attempt .voice name calls = manager := by
  rw [attempt.eq_def]
  cases name with
  | none => rfl
  | some name =>
      dsimp only
      split
      next there => rfl
      next absent =>
        rw [setActiveVoice_eq, idle name rfl absent]
        rfl

theorem attempt_voice (found : manager.entryNamed name = some entry)
    (voice : entry.isVoice = true) (absent : manager.slotName .voice ≠ some name) :
    manager.attempt .voice (some name) calls = (manager.setActive name calls).1 := by
  rw [attempt, if_neg absent, setActiveVoice_eq, found, Option.any_some, voice, if_pos rfl]

/-- A series of attempts to activate a voice engine. -/
def attempts (manager : EngineManager) (name : Option String) (voice : List Calls) :
    EngineManager :=
  voice.foldl (fun manager calls => manager.attempt .voice name calls) manager

theorem attempts_idle {name : Option String} {voice : List Calls}
    (idle : ∀ wanted ∈ name, manager.slotName .voice ≠ some wanted →
      (manager.entryNamed wanted).any EngineEntry.isVoice = false) :
    manager.attempts name voice = manager := by
  rw [attempts]
  induction voice with
  | nil => rfl
  | cons calls later induction => rw [List.foldl_cons, attempt_voice_idle idle, induction]

theorem Orderly.attempts (orderly : manager.Orderly) (name : Option String)
    (voice : List Calls) : (manager.attempts name voice).Orderly := by
  rw [EngineManager.attempts]
  induction voice generalizing manager with
  | nil => exact orderly
  | cons calls later induction => exact induction (orderly.attempt .voice name calls)

/-- After the attempts the slot has the voice engine, unless its entry refused them all. -/
theorem slotName_attempts (orderly : manager.Orderly)
    (found : manager.entryNamed name = some entry) (voice : entry.isVoice = true)
    (absent : manager.slotName .voice ≠ some name) (tries : List Calls) :
    (manager.attempts (some name) tries).slotName .keyboard = manager.slotName .keyboard ∧
      (entry.Refuses tries →
        (manager.attempts (some name) tries).slotName .voice = manager.slotName .voice) ∧
      (¬ entry.Refuses tries →
        (manager.attempts (some name) tries).slotName .voice = some name) := by
  induction tries generalizing manager entry with
  | nil => exact ⟨rfl, fun _ => rfl, fun kept => absurd trivial kept⟩
  | cons calls later induction =>
      obtain ⟨same, index, here⟩ := entryNamed_some found
      obtain ⟨info, known, -⟩ := orderly.named entry (List.mem_of_getElem? here)
      have kind : Slot.ofInfo info = .voice := (isVoice_iff known).mp voice
      have vacant : manager.slotName (Slot.ofInfo info) ≠ some name := by rwa [kind]
      have step : manager.attempts (some name) (calls :: later) =
          (manager.setActive name calls).1.attempts (some name) later := by
        rw [EngineManager.attempts, List.foldl_cons, attempt_voice found voice absent]
        rfl
      rw [step]
      by_cases up : entry.ComesUp calls
      · have names := slotName_setActive_up orderly found known vacant up
        have filled : (manager.setActive name calls).1.slotName .voice = some name := by
          rw [names, kind, if_pos rfl]
        have settled := @attempts_idle (manager.setActive name calls).1 (some name) later
          fun wanted member absent' => by
            obtain rfl := Option.some.inj member
            exact absurd filled absent'
        rw [settled, filled, names, kind]
        exact ⟨rfl, fun refuses => absurd up refuses.1, fun _ => rfl⟩
      · have names := slotName_setActive_refused orderly found known vacant up
        obtain ⟨⟨rejected, there⟩, -⟩ :=
          entryNamed_setActive_refused orderly found known vacant up
        have later_absent : (manager.setActive name calls).1.slotName .voice ≠ some name := by
          rwa [names]
        obtain ⟨keyboard, refuses, comes⟩ :=
          induction (orderly.setActive name calls) there voice later_absent
        rw [names] at keyboard refuses
        rw [EngineEntry.refuses_rejected] at refuses comes
        refine ⟨keyboard, fun both => refuses both.2, fun not_both => comes fun rest => ?_⟩
        exact not_both ⟨up, rest⟩

/-- The attempts leave the voice slot alone exactly if the engine is there or refuses them. -/
theorem attempts_kept_iff (orderly : manager.Orderly) (name : Option String)
    (tries : List Calls) :
    (manager.attempts name tries).slotName .keyboard = manager.slotName .keyboard ∧
      ((manager.attempts name tries).slotName .voice = manager.slotName .voice ↔
        ∀ wanted ∈ name, manager.slotName .voice ≠ some wanted →
          ∀ entry ∈ manager.entryNamed wanted, entry.isVoice = true → entry.Refuses tries) := by
  by_cases idle : ∀ wanted ∈ name, manager.slotName .voice ≠ some wanted →
      (manager.entryNamed wanted).any EngineEntry.isVoice = false
  · rw [attempts_idle idle]
    refine ⟨rfl, iff_of_true rfl fun wanted member absent entry found voice => ?_⟩
    have no_voice := idle wanted member absent
    rw [Option.mem_def.mp found, Option.any_some, voice] at no_voice
    cases no_voice
  · push Not at idle
    obtain ⟨wanted, rfl, absent, some_voice⟩ := idle
    rw [Ne, Bool.not_eq_false] at some_voice
    obtain ⟨entry, found, voice⟩ := (Option.any_eq_true ..).mp some_voice
    obtain ⟨keyboard, refuses, comes⟩ := slotName_attempts orderly found voice absent tries
    refine ⟨keyboard, fun kept other member _ named found' _ => ?_, fun all => ?_⟩
    · obtain rfl := Option.some.inj member
      obtain rfl := Option.mem_unique found found'
      by_contra not_refused
      exact absent (kept.symm.trans (comes not_refused))
    · exact refuses (all wanted rfl absent entry found voice)

/-- The slot has the engine it had, or the one that was asked for. -/
theorem attempts_cases (orderly : manager.Orderly) (name : Option String) (tries : List Calls) :
    (manager.attempts name tries).slotName .voice = manager.slotName .voice ∨
      ((manager.attempts name tries).slotName .voice = name ∧ name.isSome = true) := by
  by_cases idle : ∀ wanted ∈ name, manager.slotName .voice ≠ some wanted →
      (manager.entryNamed wanted).any EngineEntry.isVoice = false
  · exact .inl (congrArg (slotName · .voice) (attempts_idle idle))
  · push Not at idle
    obtain ⟨wanted, rfl, absent, some_voice⟩ := idle
    rw [Ne, Bool.not_eq_false] at some_voice
    obtain ⟨entry, found, voice⟩ := (Option.any_eq_true ..).mp some_voice
    obtain ⟨-, refuses, comes⟩ := slotName_attempts orderly found voice absent tries
    by_cases refused : entry.Refuses tries
    · exact .inl (refuses refused)
    · exact .inr ⟨comes refused, rfl⟩

theorem comesUp_of_running {slot : Slot} (running : entry.Running slot) (calls : Calls) :
    entry.ComesUp calls ∧ entry.deactivate.ComesUp calls := by
  obtain ⟨-, -, engine, cached, -, reachable, initialized, -⟩ := running
  have here : entry.engine = some engine := cached
  constructor
  · refine ⟨engine, ?_, .inl ?_, reachable, .inl initialized⟩
    · rw [EngineEntry.candidate, here]
    · rw [here]
      rfl
  · refine ⟨{ engine with active := false }, ?_, .inl ?_, reachable, .inl initialized⟩
    · simp [EngineEntry.candidate, EngineEntry.deactivate, here]
    · simp [EngineEntry.deactivate, here]

end Voice

/-! ## A reload -/

/-- The default engine is activated if it is not the active keyboard engine, and the default voice
engine if it is not the active voice engine. -/
def reload (manager : EngineManager) (default defaultVoice : Option String) (first : Calls)
    (tries : List Calls) : EngineManager :=
  (manager.attempt .keyboard default first).attempts defaultVoice tries

/-- The default engine is active, or does not come up as a keyboard engine.  The default voice
engine is active; or neither default is a voice engine that comes up, in any of the attempts. -/
structure SlotsStay (manager : EngineManager) (default defaultVoice : Option String)
    (first : Calls) (tries : List Calls) : Prop where
  keyboard : ∀ name ∈ default, manager.slotName .keyboard ≠ some name →
    ∀ entry ∈ manager.entryNamed name, entry.isVoice = false → ¬ entry.ComesUp first
  voice : (defaultVoice.isSome = true ∧ manager.slotName .voice = defaultVoice) ∨
    (∀ name ∈ default, manager.slotName .voice ≠ some name →
        ∀ entry ∈ manager.entryNamed name, entry.isVoice = true → ¬ entry.ComesUp first) ∧
      ∀ name ∈ defaultVoice, manager.slotName .voice ≠ some name →
        ∀ entry ∈ manager.entryNamed name, entry.isVoice = true →
          entry.Refuses (if default = defaultVoice then first :: tries else tries)

section Reload

variable {manager : EngineManager} {default defaultVoice : Option String} {first : Calls}
  {tries : List Calls}

/-- Nothing is tried for the keyboard slot. -/
theorem slotsStay_iff_of_idle (orderly : manager.Orderly)
    (idle : ∀ name ∈ default, ∀ entry ∈ manager.entryNamed name,
      (manager.slotName .keyboard = some name ∨ manager.slotName .voice = some name)) :
    (manager.attempts defaultVoice tries).slotName .voice = manager.slotName .voice ↔
      SlotsStay manager default defaultVoice first tries := by
  have kind {name : String} {entry : EngineEntry} (member : name ∈ default)
      (found : entry ∈ manager.entryNamed name) :
      entry.isVoice = true ↔ manager.slotName .voice = some name := by
    obtain ⟨-, index, here⟩ := entryNamed_some found
    obtain ⟨info, known, -⟩ := orderly.named entry (List.mem_of_getElem? here)
    rw [isVoice_iff known]
    obtain there | there := idle name member entry found
    · have slot := orderly.slot_of_slotName found known there
      refine ⟨fun voice => absurd (slot.symm.trans voice) nofun, fun both => ?_⟩
      exact absurd (slot.symm.trans (orderly.slot_of_slotName found known both)) nofun
    · exact iff_of_true (orderly.slot_of_slotName found known there) there
  rw [(attempts_kept_iff orderly defaultVoice tries).2]
  constructor
  · intro refuse
    refine ⟨fun name member absent entry found not_voice => ?_, .inr ⟨?_, ?_⟩⟩
    · have there := (idle name member entry found).resolve_left absent
      rw [(kind member found).mpr there] at not_voice
      cases not_voice
    · exact fun name member absent entry found isVoice =>
        absurd ((kind member found).mp isVoice) absent
    · intro name member absent entry found isVoice
      split
      next same => exact absurd ((kind (same ▸ member) found).mp isVoice) absent
      next differs => exact refuse name member absent entry found isVoice
  · intro stay name member absent entry found isVoice
    obtain ⟨-, there⟩ | ⟨-, refuse⟩ := stay.voice
    · exact absurd (there.trans member) absent
    · have refuses := refuse name member absent entry found isVoice
      split at refuses
      next same => exact absurd ((kind (same ▸ member) found).mp isVoice) absent
      next differs => exact refuses

/-- The default engine is a voice engine and has taken the voice slot. -/
theorem slotsStay_iff_of_taken (orderly : manager.Orderly) {name : String} {entry : EngineEntry}
    (found : manager.entryNamed name = some entry) {info : EngineInfo}
    (known : entry.info = some info) (kind : Slot.ofInfo info = .voice)
    (absent : manager.slotName .voice ≠ some name) (up : entry.ComesUp first)
    (some_try : tries ≠ []) :
    ((manager.setActive name first).1.attempts defaultVoice tries).slotName .voice =
        manager.slotName .voice ↔
      SlotsStay manager (some name) defaultVoice first tries := by
  have vacant : manager.slotName (Slot.ofInfo info) ≠ some name := by rwa [kind]
  have taken : (manager.setActive name first).1.slotName .voice = some name := by
    rw [slotName_setActive_up orderly found known vacant up, kind, if_pos rfl]
  have isVoice : entry.isVoice = true := (isVoice_iff known).mpr kind
  constructor
  · intro kept
    refine ⟨fun wanted member _ other found' not_voice => ?_, .inl ?_⟩
    · obtain rfl := Option.some.inj member
      obtain rfl := Option.mem_unique found found'
      rw [isVoice] at not_voice
      cases not_voice
    · obtain same | ⟨reached, is_some⟩ :=
        attempts_cases (orderly.setActive name first) defaultVoice tries
      · exact absurd (kept.symm.trans (same.trans taken)) absent
      · exact ⟨is_some, kept.symm.trans reached⟩
  · intro stay
    obtain ⟨is_some, there⟩ | ⟨stays, -⟩ := stay.voice
    · -- The engine which left its slot comes up again in the first attempt.
      obtain ⟨wanted, rfl⟩ := Option.isSome_iff_exists.mp is_some
      obtain ⟨old, occupied, rfl⟩ := Option.map_eq_some_iff.mp there
      obtain ⟨place, active, here⟩ := Option.bind_eq_some_iff.mp occupied
      obtain ⟨running_entry, here', running⟩ := orderly.live .voice place active
      obtain rfl : old = running_entry := Option.some.inj (here.symm.trans here')
      have apart : old.name ≠ name := fun same => absent (same ▸ there)
      obtain ⟨kept, after, same⟩ := entryNamed_setActive_up orderly found known vacant up apart
        (orderly.intact.entryNamed here)
      have comes : kept.ComesUp (tries.head some_try) := by
        obtain rfl | rfl := same
        · exact (comesUp_of_running running _).1
        · exact (comesUp_of_running running _).2
      have kept_voice : kept.isVoice = true := by
        have old_voice : old.isVoice = true := by
          obtain ⟨info', known', -, -, slot, -⟩ := running
          exact (isVoice_iff known').mpr slot
        obtain rfl | rfl := same
        · exact old_voice
        · exact old_voice
      have away : (manager.setActive name first).1.slotName .voice ≠ some old.name := by
        rw [taken]
        exact fun equal => apart (Option.some.inj equal).symm
      have reached := (slotName_attempts (orderly.setActive name first) after kept_voice away
        tries).2.2
      rw [there]
      refine reached fun refuses => ?_
      cases tries with
      | nil => exact some_try rfl
      | cons calls later => exact refuses.1 comes
    · exact absurd up (stays name rfl absent entry found isVoice)

/-- The default engine was tried and did not come up. -/
theorem slotsStay_iff_of_refused (orderly : manager.Orderly) {name : String} {entry : EngineEntry}
    (found : manager.entryNamed name = some entry) {info : EngineInfo}
    (known : entry.info = some info) (absent : manager.slotName (Slot.ofInfo info) ≠ some name)
    (refused : ¬ entry.ComesUp first) :
    ((manager.setActive name first).1.attempts defaultVoice tries).slotName .voice =
        manager.slotName .voice ↔
      SlotsStay manager (some name) defaultVoice first tries := by
  have names := slotName_setActive_refused orderly found known absent refused
  obtain ⟨⟨rejected, there⟩, others⟩ :=
    entryNamed_setActive_refused orderly found known absent refused
  rw [← names .voice, (attempts_kept_iff (orderly.setActive name first) defaultVoice tries).2,
    names .voice]
  have not_up {wanted : String} (member : wanted ∈ some name) {other : EngineEntry}
      (found' : other ∈ manager.entryNamed wanted) : ¬ other.ComesUp first := by
    obtain rfl := Option.some.inj member
    obtain rfl := Option.mem_unique found found'
    exact refused
  constructor
  · intro refuse
    refine ⟨fun wanted member _ other found' _ => not_up member found',
      .inr ⟨fun wanted member _ other found' _ => not_up member found', ?_⟩⟩
    intro wanted member away other found' isVoice
    split
    next same =>
      obtain rfl : name = wanted := Option.some.inj (same.trans member)
      obtain rfl := Option.mem_unique found found'
      have refuses := refuse name member away _ there isVoice
      exact ⟨refused, (EngineEntry.refuses_rejected ..).mp refuses⟩
    next differs =>
      have apart : wanted ≠ name := fun same => differs ((congrArg some same.symm).trans member.symm)
      exact refuse wanted member away other ((others wanted apart).trans found') isVoice
  · intro stay wanted member away other found' isVoice
    obtain ⟨-, active⟩ | ⟨-, refuse⟩ := stay.voice
    · exact absurd (active.trans member) away
    · by_cases same : wanted = name
      · subst same
        obtain rfl : { entry.tried first with rejected := rejected } = other :=
          Option.mem_unique there found'
        have refuses := refuse wanted member away entry found isVoice
        rw [if_pos member.symm] at refuses
        exact (EngineEntry.refuses_rejected ..).mpr refuses.2
      · rw [others wanted same] at found'
        have refuses := refuse wanted member away other found' isVoice
        rwa [if_neg fun equal => same (Option.some.inj (equal.trans member)).symm] at refuses

/-- A reload leaves the engines in the slots alone exactly if the defaults are active or do not come
up. -/
theorem slotsStay_iff (orderly : manager.Orderly) (some_try : tries ≠ []) :
    (∀ slot, (manager.reload default defaultVoice first tries).slotName slot =
        manager.slotName slot) ↔
      SlotsStay manager default defaultVoice first tries := by
  have both {after : EngineManager} (orderly' : after.Orderly)
      (keyboard : after.slotName .keyboard = manager.slotName .keyboard) :
      (∀ slot, (after.attempts defaultVoice tries).slotName slot = manager.slotName slot) ↔
        (after.attempts defaultVoice tries).slotName .voice = manager.slotName .voice := by
    have kept := (attempts_kept_iff orderly' defaultVoice tries).1
    refine ⟨fun all => all .voice, fun voice slot => ?_⟩
    cases slot with
    | keyboard => exact kept.trans keyboard
    | voice => exact voice
  rw [reload]
  cases default with
  | none => exact (both orderly rfl).trans (slotsStay_iff_of_idle orderly nofun)
  | some name =>
      by_cases there : manager.slotName .keyboard = some name
      · have same : manager.attempt .keyboard (some name) first = manager := if_pos there
        rw [same]
        refine (both orderly rfl).trans (slotsStay_iff_of_idle orderly fun wanted member _ _ => ?_)
        exact .inl (there.trans member)
      have step : manager.attempt .keyboard (some name) first = (manager.setActive name first).1 :=
        if_neg there
      rw [step]
      cases found : manager.entryNamed name with
      | none =>
          rw [setActive_absent first found]
          refine (both orderly rfl).trans (slotsStay_iff_of_idle orderly ?_)
          intro wanted member entry named
          obtain rfl := Option.some.inj member
          rw [found] at named
          cases named
      | some entry =>
          obtain ⟨-, index, here⟩ := entryNamed_some found
          obtain ⟨info, known, -⟩ := orderly.named entry (List.mem_of_getElem? here)
          by_cases present : manager.slotName (Slot.ofInfo info) = some name
          · rw [setActive_present first orderly found known present]
            refine (both orderly rfl).trans (slotsStay_iff_of_idle orderly fun wanted member _ _ => ?_)
            obtain rfl := Option.some.inj member
            cases kind : Slot.ofInfo info with
            | keyboard => exact .inl (kind ▸ present)
            | voice => exact .inr (kind ▸ present)
          have orderly' := orderly.setActive name first
          by_cases up : entry.ComesUp first
          · have names := slotName_setActive_up orderly found known present up
            cases kind : Slot.ofInfo info with
            | keyboard =>
                refine iff_of_false (fun all => there ?_) fun stay => ?_
                · have kept := (attempts_kept_iff orderly' defaultVoice tries).1
                  rw [← all .keyboard, kept, names, kind, if_pos rfl]
                · refine stay.keyboard name rfl there entry found ?_ up
                  rw [← Bool.not_eq_true, isVoice_iff known, kind]
                  nofun
            | voice =>
                rw [kind] at present names
                refine (both orderly' ?_).trans
                  (slotsStay_iff_of_taken orderly found known kind present up some_try)
                rw [names, if_neg nofun]
          · refine (both orderly' ?_).trans
              (slotsStay_iff_of_refused orderly found known present up)
            exact slotName_setActive_refused orderly found known present up .keyboard

end Reload

end EngineManager

end Core

end Typio
