import Typio.Core.EngineManager
import Typio.Machine

/-!
# What the engine slots hold

A slot is meant to name an engine which passed validation for it, and an engine which failed
validation is not to be made active later.  The cache breaks both: an instance is cached before it
is validated, a query caches one without validating it, and a cached instance is not looked at
again.  A run keeps the slots sound exactly when no switch meets such an instance.
-/

namespace Typio

namespace Core

namespace Engine

/-- The interfaces of two wrappers are the same. -/
structure SameBuild (before after : Engine) : Prop where
  userData : after.userData = before.userData
  keyboard : after.keyboard = before.keyboard
  voice : after.voice = before.voice

theorem SameBuild.provided {before after : Engine} (same : SameBuild before after) (slot : Slot) :
    slot.provided after = slot.provided before := by
  cases slot <;> simp [Slot.provided, asKeyboard, asVoice, same.userData, same.keyboard, same.voice]

/-- The engine can be reached through its wrapper and is, or will be, initialized. -/
def Starts (engine : Engine) (init : TypioResult) : Prop :=
  engine.userData ∧ (engine.initialized ∨ init = .ok)

end Engine

namespace EngineEntry

/-- The engine a switch to the entry would activate: the cached instance, or the one which the
factory makes. -/
def candidate (entry : EngineEntry) (made : Option RawEngine) : Option Engine :=
  match entry.engine with
  | some engine => some engine
  | none => if entry.factory then made.map Engine.wrap else none

/-- Nothing checks the engine before it is activated: its instance is in the cache already, or its
type is one which validation passes over. -/
def Unchecked (entry : EngineEntry) (info : EngineInfo) : Prop :=
  entry.engine.isSome ∨ info.type = .handwriting ∨ info.type = .custom

/-- A switch to the entry activates an engine which cannot serve the slot. -/
def Misfit (entry : EngineEntry) (info : EngineInfo) (calls : Calls) : Prop :=
  ∃ engine, entry.candidate calls.made = some engine ∧ (Slot.ofInfo info).provided engine = false ∧
    entry.Unchecked info ∧ engine.Starts calls.init

theorem activate_of_starts {entry : EngineEntry} {engine : Engine} {init : TypioResult}
    (cached : entry.engine = some engine) (starts : engine.Starts init) :
    entry.activate init =
      ({ entry with engine := some { engine with initialized := true, active := true } }, .ok) := by
  obtain ⟨present, initialized | called⟩ := starts <;> simp [activate, *]

theorem activate_of_not_starts {entry : EngineEntry} {init : TypioResult}
    (idle : ∀ engine ∈ entry.engine, ¬ engine.Starts init) :
    (entry.activate init).1 = entry ∧ (entry.activate init).2 ≠ .ok := by
  unfold activate
  cases cached : entry.engine with
  | none => simp
  | some engine =>
      have stopped := idle engine cached
      simp only [Engine.Starts, not_and_or, not_or] at stopped
      obtain absent | ⟨fresh, failed⟩ := stopped
      · simp [absent]
      · by_cases present : engine.userData <;> simp [present, fresh, failed]

end EngineEntry

namespace EngineManager

/-! ## The property -/

/-- The engine the slot names provides the operations of the slot. -/
def Served (manager : EngineManager) (slot : Slot) : Prop :=
  ∀ index ∈ manager.active slot, ∃ entry ∈ manager.entries[index]?, ∃ engine ∈ entry.engine,
    slot.provided engine

/-- No engine which failed validation is in a slot or active. -/
def NoneRevived (manager : EngineManager) : Prop :=
  ∀ index, ∀ entry ∈ manager.entries[index]?, entry.rejected →
    (∀ slot, manager.active slot ≠ some index) ∧ ∀ engine ∈ entry.engine, engine.active = false

structure SlotsSound (manager : EngineManager) : Prop where
  served : ∀ slot, manager.Served slot
  noneRevived : manager.NoneRevived

/-! ## The condition -/

/-- The switch an operation asks for. -/
def target (manager : EngineManager) : Operation → Option (String × Calls)
  | .setActive name calls => some (name, calls)
  | .setActiveVoice name calls =>
      match (manager.entries.find? (·.name == name)).bind EngineEntry.info with
      | none => none
      | some info => if info.type ≠ .voice then none else some (name, calls)
  | .cycle forward stable order calls =>
      if manager.entries.isEmpty then none
      else
        (manager.resolveSwitch (manager.listOrderedKeyboards order) forward stable).map (·, calls)
  | .register _ | .getEngine _ _ | .notifyCommit | .unload _ => none

/-- No switch activates a misfit. -/
def SwitchesSafely (manager : EngineManager) (operation : Operation) : Prop :=
  ∀ name calls, manager.target operation = some (name, calls) →
    ∀ index ∈ manager.findEntryIndex name, ∀ entry ∈ manager.entries[index]?,
      ∀ info ∈ entry.info, manager.active (Slot.ofInfo info) ≠ some index →
        ¬ entry.Misfit info calls

/-! ## The invariant -/

/-- A rejected entry keeps the instance which was rejected, and keeps it inactive. -/
structure Healthy (entry : EngineEntry) : Prop where
  known : entry.info.isSome
  disused : entry.rejected → ∃ engine ∈ entry.engine, engine.active = false ∧
    ∀ info ∈ entry.info, (Slot.ofInfo info).provided engine = false

/-- A slot names an entry of its kind whose instance provides the operations. -/
def Filled (manager : EngineManager) (slot : Slot) (index : Nat) : Prop :=
  ∃ entry ∈ manager.entries[index]?, ∃ info ∈ entry.info, ∃ engine ∈ entry.engine,
    Slot.ofInfo info = slot ∧ slot.provided engine

structure Sane (manager : EngineManager) : Prop where
  healthy : ∀ entry ∈ manager.entries, Healthy entry
  filled : ∀ slot, ∀ index ∈ manager.active slot, manager.Filled slot index

theorem Filled.not_rejected {manager : EngineManager} {slot : Slot} {index : Nat}
    (filled : manager.Filled slot index) (healthy : ∀ entry ∈ manager.entries, Healthy entry)
    {entry : EngineEntry} (here : manager.entries[index]? = some entry) :
    entry.rejected = false := by
  obtain ⟨found, there, info, known, engine, cached, kind, provides⟩ := filled
  obtain rfl : found = entry := by simpa [here] using there.symm
  by_contra rejected
  obtain ⟨engine', cached', -, unfit⟩ :=
    (healthy found (List.mem_of_getElem? here)).disused (by simpa using rejected)
  obtain rfl : engine' = engine := Option.mem_unique cached' cached
  rw [← kind, unfit info known] at provides
  exact Bool.false_ne_true provides

theorem Sane.slotsSound {manager : EngineManager} (sane : manager.Sane) : manager.SlotsSound where
  served slot index active := by
    obtain ⟨entry, here, -, -, engine, cached, -, provides⟩ := sane.filled slot index active
    exact ⟨entry, here, engine, cached, provides⟩
  noneRevived index entry here rejected := by
    refine ⟨fun slot active => ?_, fun engine cached => ?_⟩
    · rw [(sane.filled slot index active).not_rejected sane.healthy here] at rejected
      exact Bool.false_ne_true rejected
    · obtain ⟨engine', cached', inactive, -⟩ :=
        (sane.healthy entry (List.mem_of_getElem? here)).disused rejected
      rwa [Option.mem_unique cached cached']

/-! ## The parts of a switch -/

theorem getElem?_modifyEntry (manager : EngineManager) (place index : Nat)
    (change : EngineEntry → EngineEntry) :
    (manager.modifyEntry place change).entries[index]? =
      if place = index then (manager.entries[index]?).map change
      else manager.entries[index]? := by
  rw [modifyEntry, List.getElem?_modify]
  split <;> simp

theorem mem_modifyEntry {manager : EngineManager} {place : Nat}
    {change : EngineEntry → EngineEntry} {entry : EngineEntry}
    (member : entry ∈ (manager.modifyEntry place change).entries) :
    entry ∈ manager.entries ∨ ∃ old ∈ manager.entries[place]?, entry = change old := by
  obtain ⟨index, here⟩ := List.mem_iff_getElem?.mp member
  rw [getElem?_modifyEntry] at here
  split at here
  · next same =>
      subst same
      obtain ⟨old, there, changed⟩ := Option.map_eq_some_iff.mp here
      exact .inr ⟨old, there, changed.symm⟩
  · exact .inl (List.mem_of_getElem? here)

theorem validate_passes {entry : EngineEntry} {engine : Engine} {info : EngineInfo}
    (known : entry.info = some info) (kind : info.type = .handwriting ∨ info.type = .custom)
    (present : engine.userData) : entry.validate engine = .ok := by
  unfold EngineEntry.validate
  obtain kind | kind := kind <;> simp [known, present, kind]

/-- A change of an entry which keeps it healthy and keeps what its instance provides. -/
structure Harmless (change : EngineEntry → EngineEntry) (old : EngineEntry) : Prop where
  healthy : Healthy old → Healthy (change old)
  info : (change old).info = old.info
  provided : ∀ engine ∈ old.engine, ∃ after ∈ (change old).engine, engine.SameBuild after

theorem Filled.modifyEntry {manager : EngineManager} {slot : Slot} {index place : Nat}
    {change : EngineEntry → EngineEntry} (filled : manager.Filled slot index)
    (harmless : ∀ old ∈ manager.entries[place]?, Harmless change old) :
    (manager.modifyEntry place change).Filled slot index := by
  obtain ⟨entry, here, info, known, engine, cached, kind, provides⟩ := filled
  by_cases same : place = index
  · subst same
    have kept := harmless entry here
    obtain ⟨after, cached', build⟩ := kept.provided engine cached
    refine ⟨change entry, ?_, info, by rwa [kept.info], after, cached', kind, ?_⟩
    · rw [getElem?_modifyEntry, if_pos rfl, here]
      rfl
    · rwa [build.provided]
  · refine ⟨entry, ?_, info, known, engine, cached, kind, provides⟩
    rwa [getElem?_modifyEntry, if_neg same]

theorem Sane.modifyEntry {manager : EngineManager} {place : Nat}
    {change : EngineEntry → EngineEntry} (sane : manager.Sane)
    (harmless : ∀ old ∈ manager.entries[place]?, Harmless change old) :
    (manager.modifyEntry place change).Sane where
  healthy entry member := by
    obtain old | ⟨old, here, rfl⟩ := mem_modifyEntry member
    · exact sane.healthy entry old
    · exact (harmless old here).healthy (sane.healthy old (List.mem_of_getElem? here))
  filled slot index active := (sane.filled slot index active).modifyEntry harmless

theorem deactivate_harmless (entry : EngineEntry) : Harmless EngineEntry.deactivate entry where
  healthy healthy := by
    refine ⟨healthy.known, fun rejected => ?_⟩
    obtain ⟨engine, cached, inactive, unfit⟩ := healthy.disused rejected
    refine ⟨{ engine with active := false }, ?_, rfl, unfit⟩
    rw [EngineEntry.deactivate, cached]
    rfl
  info := rfl
  provided engine cached := by
    refine ⟨{ engine with active := false }, ?_, ⟨rfl, rfl, rfl⟩⟩
    rw [EngineEntry.deactivate, cached]
    rfl

theorem Sane.modifyActive {manager : EngineManager} {current : Option Nat}
    {change : EngineEntry → EngineEntry} (sane : manager.Sane)
    (harmless : ∀ index ∈ current, ∀ old ∈ manager.entries[index]?, Harmless change old) :
    (manager.modifyActive current change).Sane := by
  cases current with
  | none => exact sane
  | some index => exact sane.modifyEntry (harmless index rfl)

/-- An activation is harmless unless it brings back an instance that was rejected. -/
theorem activate_harmless {entry : EngineEntry} {init : TypioResult}
    (fits : entry.rejected → ∀ engine ∈ entry.engine, ¬ engine.Starts init) :
    Harmless (fun entry => (entry.activate init).1) entry := by
  by_cases idle : ∀ engine ∈ entry.engine, ¬ engine.Starts init
  · have same := (EngineEntry.activate_of_not_starts idle).1
    exact ⟨fun healthy => by rwa [same], by simp only [same], fun engine cached =>
      ⟨engine, by simpa only [same] using cached, ⟨rfl, rfl, rfl⟩⟩⟩
  · simp only [not_forall, not_not] at idle
    obtain ⟨engine, cached, starts⟩ := idle
    have result := EngineEntry.activate_of_starts cached starts
    refine ⟨fun healthy => ?_, by simp only [result], fun old there => ?_⟩
    · refine ⟨by simpa only [result] using healthy.known, fun rejected => ?_⟩
      exact absurd starts (fits (by simpa only [result] using rejected) engine cached)
    · obtain rfl := Option.mem_unique cached there
      exact ⟨{ engine with initialized := true, active := true },
        by simp only [result, Option.mem_def], ⟨rfl, rfl, rfl⟩⟩

/-- The engine that was active before is restored without reviving a rejected one. -/
theorem tryRestore_harmless {manager : EngineManager} {slot : Slot} {index : Nat}
    {init : TypioResult} (filled : manager.Filled slot index) (sane : manager.Sane) :
    ∀ old ∈ manager.entries[index]?, Harmless (·.tryRestore init) old := by
  intro old here
  refine activate_harmless fun rejected => ?_
  rw [filled.not_rejected sane.healthy here] at rejected
  exact absurd rejected Bool.false_ne_true

theorem validate_ok {entry : EngineEntry} {engine : Engine} {info : EngineInfo}
    (known : entry.info = some info) (kind : info.type = .keyboard ∨ info.type = .voice)
    (valid : entry.validate engine = .ok) : (Slot.ofInfo info).provided engine := by
  unfold EngineEntry.validate at valid
  rw [known] at valid
  obtain kind | kind := kind <;>
    · simp only [kind, Slot.ofInfo, Slot.provided] at valid ⊢
      revert valid
      cases engine.userData <;> simp

theorem validate_rejects {entry : EngineEntry} {engine : Engine} {info : EngineInfo}
    (known : entry.info = some info) (invalid : entry.validate engine ≠ .ok) :
    (Slot.ofInfo info).provided engine = false := by
  unfold EngineEntry.validate at invalid
  rw [known] at invalid
  cases kind : info.type <;> cases present : engine.userData <;>
    simp_all [Slot.ofInfo, Slot.provided, Engine.asKeyboard, Engine.asVoice]

theorem getElem?_modifyActive_of_ne {manager : EngineManager} {current : Option Nat} {index : Nat}
    (change : EngineEntry → EngineEntry) (other : current ≠ some index) :
    (manager.modifyActive current change).entries[index]? = manager.entries[index]? := by
  cases current with
  | none => rfl
  | some place =>
      rw [modifyActive, getElem?_modifyEntry, if_neg fun same => other (by rw [same])]

/-- The deactivation of the current engine leaves the entry of another one. -/
theorem deactivated_here {manager : EngineManager} {slot : Slot} {index : Nat} {entry : EngineEntry}
    (here : manager.entries[index]? = some entry) (other : manager.active slot ≠ some index) :
    (manager.modifyActive (manager.active slot) EngineEntry.deactivate).entries[index]? =
      some entry := by
  rw [getElem?_modifyActive_of_ne _ other, here]

@[simp] theorem modifyActive_active (manager : EngineManager) (current : Option Nat)
    (change : EngineEntry → EngineEntry) :
    (manager.modifyActive current change).active = manager.active := by cases current <;> rfl

/-- The instance that `ensure_entry_instance` leaves in the entry. -/
structure Ensured (entry : EngineEntry) (calls : Calls) (after : EngineEntry) (engine : Engine) :
    Prop where
  candidate : entry.candidate calls.made = some engine
  cached : after.engine = some engine
  info : after.info = entry.info
  checked : after = entry ∧ entry.engine.isSome ∨
    after.rejected = false ∧ entry.validate engine = .ok

/-- An ensured instance that starts provides what its slot needs, unless it is a misfit. -/
theorem Ensured.provided {entry after : EngineEntry} {engine : Engine} {calls : Calls}
    {info : EngineInfo} (ensured : Ensured entry calls after engine)
    (known : entry.info = some info) (starts : engine.Starts calls.init)
    (fits : ¬ entry.Misfit info calls) : (Slot.ofInfo info).provided engine := by
  by_contra lacks
  have misfit (unchecked : entry.Unchecked info) : entry.Misfit info calls :=
    ⟨engine, ensured.candidate, by simpa using lacks, unchecked, starts⟩
  obtain ⟨-, present⟩ | ⟨-, valid⟩ := ensured.checked
  · exact fits (misfit (.inl present))
  · cases kind : info.type with
    | keyboard => exact lacks (validate_ok known (.inl kind) valid)
    | voice => exact lacks (validate_ok known (.inr kind) valid)
    | handwriting => exact fits (misfit (.inr (.inl kind)))
    | custom => exact fits (misfit (.inr (.inr kind)))

/-- The manager caches at most one new instance, and accepts it if it is valid or was cached. -/
theorem ensureEntryInstance_spec {manager : EngineManager} {index : Nat} {entry : EngineEntry}
    (here : manager.entries[index]? = some entry) (calls : Calls) (sane : manager.Sane) :
    (manager.ensureEntryInstance index calls.made).1.Sane ∧
      (manager.ensureEntryInstance index calls.made).1.active = manager.active ∧
      ((manager.ensureEntryInstance index calls.made).2 = .ok →
        ∃ after engine, (manager.ensureEntryInstance index calls.made).1.entries[index]? =
          some after ∧ Ensured entry calls after engine) ∧
      ∀ engine, entry.candidate calls.made = some engine →
        entry.engine.isSome ∨ entry.validate engine = .ok →
          (manager.ensureEntryInstance index calls.made).2 = .ok := by
  unfold ensureEntryInstance
  rw [here]
  dsimp only
  cases cached : entry.engine with
  | some engine =>
      refine ⟨sane, rfl, fun _ => ⟨entry, engine, here, ?_, cached, rfl, .inl ⟨rfl, ?_⟩⟩,
        fun _ _ _ => rfl⟩ <;> simp [EngineEntry.candidate, cached]
  | none =>
      by_cases factory : entry.factory
      case neg => simpa [factory, EngineEntry.candidate, cached] using sane
      case pos =>
        cases made : calls.made with
        | none => simpa [factory, EngineEntry.candidate, cached] using sane
        | some raw =>
            simp only [Option.isSome_none, Bool.false_eq_true, factory, ↓reduceIte, Bool.not_true]
            refine ⟨sane.modifyEntry fun old there => ?_, rfl, fun valid => ?_,
              fun engine candidate checked => ?_⟩
            · obtain rfl : old = entry := by simpa [here] using there.symm
              refine ⟨fun healthy => ⟨healthy.known, fun rejected => ?_⟩, rfl, fun engine some => ?_⟩
              · exact ⟨Engine.wrap raw, rfl, rfl, fun info known =>
                  validate_rejects known (show old.validate (Engine.wrap raw) ≠ .ok by
                    simpa using rejected)⟩
              · simp [cached] at some
            · refine ⟨{ entry with engine := some (Engine.wrap raw), rejected := false },
                Engine.wrap raw, ?_, ⟨?_, rfl, rfl, .inr ⟨rfl, valid⟩⟩⟩
              · rw [getElem?_modifyEntry, if_pos rfl, here]
                simp [valid]
              · simp [EngineEntry.candidate, cached, factory, made]
            · obtain rfl : Engine.wrap raw = engine := by
                simpa [EngineEntry.candidate, cached, factory] using candidate
              simpa [cached] using checked

theorem Sane.activateEntry {manager : EngineManager} {index : Nat} {entry : EngineEntry}
    (sane : manager.Sane) (here : manager.entries[index]? = some entry) {init : TypioResult}
    (fits : entry.rejected → ∀ engine ∈ entry.engine, ¬ engine.Starts init) :
    (manager.activateEntry index init).1.Sane := by
  unfold EngineManager.activateEntry
  rw [here]
  refine sane.modifyEntry fun old there => ?_
  obtain rfl : old = entry := by simpa [here] using there.symm
  exact activate_harmless fits

theorem activateEntry_ok {manager : EngineManager} {index : Nat} {entry : EngineEntry}
    {engine : Engine} {init : TypioResult} (here : manager.entries[index]? = some entry)
    (cached : entry.engine = some engine) :
    (manager.activateEntry index init).2 = .ok ↔ engine.Starts init := by
  rw [EngineManager.activateEntry, here]
  by_cases starts : engine.Starts init
  · simp [EngineEntry.activate_of_starts cached starts, starts]
  · have stopped : ∀ other ∈ entry.engine, ¬ other.Starts init := fun other there => by
      rwa [Option.mem_unique there cached]
    simpa [starts] using (EngineEntry.activate_of_not_starts stopped).2

theorem activateEntry_entry {manager : EngineManager} {index : Nat} {entry : EngineEntry}
    {engine : Engine} {init : TypioResult} (here : manager.entries[index]? = some entry)
    (cached : entry.engine = some engine) (starts : engine.Starts init) :
    (manager.activateEntry index init).1.entries[index]? =
      some { entry with engine := some { engine with initialized := true, active := true } } := by
  rw [EngineManager.activateEntry, here]
  simp only [getElem?_modifyEntry, if_pos, here, Option.map_some,
    EngineEntry.activate_of_starts cached starts]

theorem activateEntry_active (manager : EngineManager) (index : Nat) (init : TypioResult) :
    (manager.activateEntry index init).1.active = manager.active := by
  unfold activateEntry
  split <;> rfl

theorem Sane.restore {manager : EngineManager} {slot : Slot} (sane : manager.Sane)
    (init : TypioResult) {current : Option Nat} (same : manager.active slot = current) :
    (manager.modifyActive current (·.tryRestore init)).Sane := by
  refine sane.modifyActive fun index is => tryRestore_harmless (sane.filled slot index ?_) sane
  rwa [same]

theorem Sane.fill {manager : EngineManager} {slot : Slot} {index : Nat} (sane : manager.Sane)
    (filled : manager.Filled slot index) :
    ({ manager with active := Function.update manager.active slot (some index) } :
      EngineManager).Sane where
  healthy := sane.healthy
  filled other place active := by
    by_cases same : other = slot
    · subst same
      simp only [Function.update_self, Option.mem_def, Option.some.injEq] at active
      subst active
      exact filled
    · simp only [Function.update_of_ne same] at active
      exact sane.filled other place active

/-- A switch which activates no misfit keeps the slots sound. -/
theorem Sane.switchTo {manager : EngineManager} (sane : manager.Sane) {index : Nat}
    {entry : EngineEntry} {info : EngineInfo} {calls : Calls}
    (here : manager.entries[index]? = some entry) (known : entry.info = some info)
    (safe : manager.active (Slot.ofInfo info) ≠ some index → ¬ entry.Misfit info calls) :
    (manager.switchTo (Slot.ofInfo info) index calls).1.Sane := by
  unfold EngineManager.switchTo
  split
  · exact sane
  · next other =>
      have fits := safe other
      set slot := Slot.ofInfo info
      set idle := manager.modifyActive (manager.active slot) EngineEntry.deactivate with idle_eq
      have idleSane : idle.Sane := sane.modifyActive fun _ _ old _ => deactivate_harmless old
      have idleHere : idle.entries[index]? = some entry := deactivated_here here other
      have idleActive : idle.active = manager.active := by simp [idle_eq]
      obtain ⟨madeSane, madeActive, found, -⟩ := ensureEntryInstance_spec idleHere calls idleSane
      dsimp only
      split
      · exact madeSane.restore calls.restored (by rw [madeActive, idleActive])
      · next valid =>
          obtain ⟨after, engine, madeHere, ensured⟩ := found (not_not.mp valid)
          have revives : after.rejected → ∀ engine ∈ after.engine, ¬ engine.Starts calls.init := by
            intro rejected engine' cached starts
            obtain ⟨rfl, present⟩ | ⟨accepted, -⟩ := ensured.checked
            · obtain ⟨old, cached', -, unfit⟩ :=
                (madeSane.healthy _ (List.mem_of_getElem? madeHere)).disused rejected
              obtain rfl := Option.mem_unique cached cached'
              obtain rfl : engine' = engine := Option.mem_unique cached ensured.cached
              exact fits ⟨engine', ensured.candidate, unfit info known, .inl present, starts⟩
            · simp [accepted] at rejected
          have activatedSane := madeSane.activateEntry madeHere revives
          have activatedActive := activateEntry_active
            (idle.ensureEntryInstance index calls.made).1 index calls.init
          split
          · exact activatedSane.restore calls.restored
              (by rw [activatedActive, madeActive, idleActive])
          · next started =>
              have starts := (activateEntry_ok madeHere ensured.cached).mp (not_not.mp started)
              have same : engine.SameBuild { engine with initialized := true, active := true } :=
                ⟨rfl, rfl, rfl⟩
              exact activatedSane.fill ⟨_, activateEntry_entry madeHere ensured.cached starts, info,
                ensured.info.trans known, _, rfl, rfl,
                (same.provided slot).trans (ensured.provided known starts fits)⟩

/-- A switch to a misfit leaves the slot with an engine that cannot serve it. -/
theorem switchTo_misfit {manager : EngineManager} (sane : manager.Sane) {index : Nat}
    {entry : EngineEntry} {info : EngineInfo} {calls : Calls}
    (here : manager.entries[index]? = some entry) (known : entry.info = some info)
    (other : manager.active (Slot.ofInfo info) ≠ some index) (misfit : entry.Misfit info calls) :
    ¬ (manager.switchTo (Slot.ofInfo info) index calls).1.Served (Slot.ofInfo info) := by
  obtain ⟨engine, candidate, lacks, unchecked, starts⟩ := misfit
  set slot := Slot.ofInfo info
  set idle := manager.modifyActive (manager.active slot) EngineEntry.deactivate with idle_eq
  have idleSane : idle.Sane := sane.modifyActive fun _ _ old _ => deactivate_harmless old
  have idleHere : idle.entries[index]? = some entry := deactivated_here here other
  have checked : entry.engine.isSome ∨ entry.validate engine = .ok :=
    unchecked.imp_right fun kind => validate_passes known kind starts.1
  obtain ⟨-, -, found, accepts⟩ := ensureEntryInstance_spec idleHere calls idleSane
  have valid := accepts engine candidate checked
  obtain ⟨after, engine', madeHere, ensured⟩ := found valid
  obtain rfl : engine = engine' := Option.some.inj (candidate.symm.trans ensured.candidate)
  have started := (activateEntry_ok madeHere ensured.cached).mpr starts
  have same : engine.SameBuild { engine with initialized := true, active := true } :=
    ⟨rfl, rfl, rfl⟩
  intro served
  unfold switchTo at served
  simp only [other, ↓reduceIte, ← idle_eq, valid, started, ne_eq, not_true_eq_false] at served
  obtain ⟨entry', there, engine', cached, provides⟩ := served index (Function.update_self ..)
  obtain rfl := Option.mem_unique there (activateEntry_entry madeHere ensured.cached starts)
  obtain rfl := Option.some.inj cached
  rw [same.provided, lacks] at provides
  exact Bool.false_ne_true provides

/-! ## Operations -/

theorem Sane.register {manager : EngineManager} (sane : manager.Sane) (info : Option EngineInfo) :
    (manager.register info).1.Sane := by
  unfold EngineManager.register
  split
  · exact sane
  split
  · exact sane
  · refine ⟨fun entry member => ?_, fun slot index active => ?_⟩
    · obtain old | new := List.mem_append.mp member
      · exact sane.healthy entry old
      · obtain rfl := List.mem_singleton.mp new
        exact ⟨rfl, by simp⟩
    · obtain ⟨entry, here, rest⟩ := sane.filled slot index active
      have inside : index < manager.entries.length := (List.getElem?_eq_some_iff.mp here).1
      exact ⟨entry, (List.getElem?_append_left inside).trans here, rest⟩

theorem Sane.getEngine {manager : EngineManager} (sane : manager.Sane) (name : String)
    (made : Option RawEngine) : (manager.getEngine name made).1.Sane := by
  unfold EngineManager.getEngine
  split
  · exact sane
  next index _ =>
    split
    · exact sane
    next entry here =>
      split
      · exact sane
      next uncached =>
        split
        · exact sane
        split
        · exact sane
        · refine sane.modifyEntry fun old there => ?_
          obtain rfl : old = entry := by simpa [here] using there.symm
          refine ⟨fun healthy => ⟨healthy.known, fun rejected => ?_⟩, rfl, by simp [uncached]⟩
          obtain ⟨engine, cached, -⟩ := healthy.disused rejected
          simp [uncached] at cached

theorem Sane.unload {manager : EngineManager} (sane : manager.Sane) (name : String) :
    (manager.unload name).1.Sane := by
  unfold EngineManager.unload
  split
  · exact sane
  next index _ =>
    refine ⟨fun entry member => sane.healthy entry (List.mem_of_mem_eraseIdx member), ?_⟩
    intro slot place active
    obtain ⟨current, named, shifted⟩ := Option.bind_eq_some_iff.mp active
    obtain ⟨entry, here, rest⟩ := sane.filled slot current named
    refine ⟨entry, ?_, rest⟩
    simp only [Option.mem_def, List.getElem?_eraseIdx]
    split at shifted
    · simp at shifted
    split at shifted
    · obtain rfl := Option.some.inj shifted
      rw [if_neg (by omega), show current - 1 + 1 = current by omega]
      exact here
    · obtain rfl := Option.some.inj shifted
      rw [if_pos (by omega)]
      exact here

theorem Sane.notifyCommit {manager : EngineManager} (sane : manager.Sane) :
    manager.notifyCommit.Sane := by
  unfold EngineManager.notifyCommit EngineManager.updateRecentPair
  split
  · exact sane
  split
  · exact sane
  · exact ⟨sane.healthy, sane.filled⟩

/-- The operations which ask for a switch. -/
theorem target_cases {manager : EngineManager} {operation : Operation} {name : String}
    {calls : Calls} (asks : manager.target operation = some (name, calls)) :
    operation = .setActive name calls ∨
      (operation = .setActiveVoice name calls ∧
        ∃ info ∈ (manager.entries.find? (·.name == name)).bind EngineEntry.info,
          info.type = .voice) ∨
      ∃ forward stable order, operation = .cycle forward stable order calls ∧
        manager.entries.isEmpty = false ∧
          manager.resolveSwitch (manager.listOrderedKeyboards order) forward stable =
            some name := by
  cases operation with
  | setActive name' calls' =>
      obtain ⟨rfl, rfl⟩ : name' = name ∧ calls' = calls := by simpa [target] using asks
      exact .inl rfl
  | setActiveVoice name' calls' =>
      simp only [target] at asks
      cases found : (manager.entries.find? (·.name == name')).bind EngineEntry.info with
      | none => simp [found] at asks
      | some info =>
          by_cases voice : info.type = .voice
          · obtain ⟨rfl, rfl⟩ : name' = name ∧ calls' = calls := by simpa [found, voice] using asks
            exact .inr (.inl ⟨rfl, info, found, voice⟩)
          · simp [found, voice] at asks
  | cycle forward stable order calls' =>
      simp only [target] at asks
      split at asks
      · simp at asks
      next some_entry =>
        obtain ⟨name', resolved, same⟩ := Option.map_eq_some_iff.mp asks
        obtain ⟨rfl, rfl⟩ : name' = name ∧ calls' = calls := by simpa using same
        exact .inr (.inr ⟨forward, stable, order, rfl, by simpa using some_entry, resolved⟩)
  | register _ | getEngine _ _ | notifyCommit | unload _ => simp [target] at asks

/-- An operation which asks for a switch performs it, and no other operation switches. -/
theorem step_of_target {manager : EngineManager} {operation : Operation} {name : String}
    {calls : Calls} (asks : manager.target operation = some (name, calls)) :
    manager.step operation = (manager.setActive name calls).1 := by
  obtain rfl | ⟨rfl, info, found, voice⟩ | ⟨forward, stable, order, rfl, filled, resolved⟩ :=
    target_cases asks
  · rfl
  · simp [step, setActiveVoice, Option.mem_def.mp found, voice]
  · simp [step, cycle, filled, resolved]

/-- A step which asks for no switch is none of those that may ask for one, or changes nothing. -/
theorem no_target_cases {manager : EngineManager} {operation : Operation}
    (idle : manager.target operation = none) :
    manager.step operation = manager ∨ (∃ info, operation = .register info) ∨
      (∃ name made, operation = .getEngine name made) ∨ operation = .notifyCommit ∨
        ∃ name, operation = .unload name := by
  cases operation with
  | setActive name calls => simp [target] at idle
  | setActiveVoice name calls =>
      refine .inl ?_
      simp only [target] at idle
      simp only [step, setActiveVoice]
      cases found : (manager.entries.find? (·.name == name)).bind EngineEntry.info with
      | none => rfl
      | some info =>
          by_cases voice : info.type = .voice
          · simp [found, voice] at idle
          · simp [voice]
  | cycle forward stable order calls =>
      refine .inl ?_
      simp only [target] at idle
      simp only [step, cycle]
      split at idle
      · simp [*]
      · rw [Option.map_eq_none_iff] at idle
        simp [*]
  | register info => exact .inr (.inl ⟨info, rfl⟩)
  | getEngine name made => exact .inr (.inr (.inl ⟨name, made, rfl⟩))
  | notifyCommit => exact .inr (.inr (.inr (.inl rfl)))
  | unload name => exact .inr (.inr (.inr (.inr ⟨name, rfl⟩)))

theorem Sane.of_no_target {manager : EngineManager} (sane : manager.Sane) {operation : Operation}
    (idle : manager.target operation = none) : (manager.step operation).Sane := by
  obtain same | ⟨info, rfl⟩ | ⟨name, made, rfl⟩ | rfl | ⟨name, rfl⟩ := no_target_cases idle
  · rwa [same]
  · exact sane.register info
  · exact sane.getEngine name made
  · exact sane.notifyCommit
  · exact sane.unload name

/-- A step keeps the slots sound exactly when it activates no misfit. -/
theorem Sane.step {manager : EngineManager} (sane : manager.Sane) {operation : Operation}
    (safe : manager.SwitchesSafely operation) : (manager.step operation).Sane := by
  cases asks : manager.target operation with
  | none => exact sane.of_no_target asks
  | some pair =>
      obtain ⟨name, calls⟩ := pair
      rw [step_of_target asks, EngineManager.setActive]
      split
      · exact sane
      next index found =>
        split
        · exact sane
        next info known =>
          obtain ⟨entry, here, known⟩ := Option.bind_eq_some_iff.mp known
          exact sane.switchTo here known (safe name calls asks index found entry here info known)

theorem switchesSafely_of_sound {manager : EngineManager} (sane : manager.Sane)
    {operation : Operation} (sound : (manager.step operation).SlotsSound) :
    manager.SwitchesSafely operation := by
  intro name calls asks index found entry here info known other misfit
  refine switchTo_misfit sane here known other misfit ?_
  have switched : (manager.setActive name calls).1 =
      (manager.switchTo (Slot.ofInfo info) index calls).1 := by
    rw [setActive, found]
    simp only [Option.mem_def.mp here, Option.bind_some, Option.mem_def.mp known]
  rw [← switched, ← step_of_target asks]
  exact sound.served _

theorem new_sane (recentPrimary recentSecondary : Option String) :
    (new recentPrimary recentSecondary).Sane where
  healthy entry member := by simp [new] at member
  filled slot index active := by simp [new] at active

/-- In every run the slots stay sound exactly when no operation switches to a misfit. -/
theorem slotsSound_iff_switchesSafely (recentPrimary recentSecondary : Option String)
    (operations : List Operation) :
    Machine.Always step SlotsSound (new recentPrimary recentSecondary) operations ↔
      Machine.EachStep step SwitchesSafely (new recentPrimary recentSecondary) operations :=
  Machine.always_iff_eachStep Sane
    (fun _ _ sane _ => ⟨switchesSafely_of_sound sane, fun safe => (sane.step safe).slotsSound⟩)
    (fun _ _ sane _ safe => sane.step safe) (new_sane _ _) (new_sane _ _).slotsSound

/-- A plugin without keyboard operations which calls itself a keyboard engine is refused once; the
second call finds its instance in the cache and makes it the active keyboard. -/
theorem rejected_engine_activated :
    let broken : RawEngine :=
      { unified := false, userData := false, keyboard := false, voice := false }
    let calls : Calls := { made := some broken, init := .ok, restored := .ok }
    ¬ Machine.Always step SlotsSound (new none none)
      [.register (some { name := "broken", type := .keyboard }), .setActive "broken" calls,
        .setActive "broken" calls] := by
  intro broken calls always
  obtain ⟨entry, here, engine, cached, provides⟩ := always.final.served .keyboard 0 (by decide)
  obtain rfl := Option.some.inj here
  obtain rfl := Option.some.inj cached
  exact absurd provides (by decide)

end EngineManager

end Core

end Typio
