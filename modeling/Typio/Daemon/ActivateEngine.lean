import Typio.Core.EngineSwitch
import Typio.Daemon.StateController
import Typio.Machine

/-!
# Persisting the active engine

A request to activate an engine stores the engine's name as the default engine, whichever slot the
engine belongs to.  The default engine is what a start of the instance activates, and what a reload
of the configuration compares with the active keyboard engine.  The keyboard engine that was asked
for last is active again after a restart, and a request for a voice engine leaves the stored name
alone, exactly when no request for a voice engine finds another name stored.
-/

namespace Typio

namespace Daemon

open Typio.Core

/-! ## Engines -/

/-- The entry of an engine that has just been registered. -/
def registeredEntry (info : EngineInfo) : EngineEntry where
  name := info.name
  info := some info
  factory := true
  engine := none
  rejected := false

/-- The engines that are there and what their factories make, which is accepted and starts. -/
structure Fleet where
  infos : List EngineInfo
  distinct : (infos.map EngineInfo.name).Nodup
  make : String → RawEngine
  serves : ∀ info ∈ infos,
    (registeredEntry info).validate (Engine.wrap (make info.name)) = .ok

namespace Fleet

def calls (fleet : Fleet) (name : String) : Calls where
  made := some (fleet.make name)
  init := .ok
  restored := .ok

/-- A request names a keyboard engine or a voice engine. -/
structure Request (fleet : Fleet) where
  name : String
  offered : ∃ info ∈ fleet.infos, info.name = name ∧ (info.type = .keyboard ∨ info.type = .voice)

end Fleet

/-! ## Sessions -/

/-- The two keys of the configuration which name engines. -/
structure Settings where
  defaultEngine : Option String
  defaultVoiceEngine : Option String
  deriving DecidableEq, Repr

/-- The manager, the configuration, and what its file holds.  The keyboard engine which a request
activated last is kept for the statements; no function reads it. -/
structure Session where
  manager : EngineManager
  config : Settings
  saved : Settings
  chosen : Option String

namespace Session

variable (fleet : Fleet)

/-- The engines are registered one after the other. -/
def register (order : List EngineInfo) (recentPrimary recentSecondary : Option String) :
    EngineManager :=
  order.foldl (fun manager info => (manager.register (some info)).1)
    (EngineManager.new recentPrimary recentSecondary)

/-- The engine of that name is activated, if one is named. -/
def activateDefault (name : Option String) (manager : EngineManager) : EngineManager :=
  match name with
  | none => manager
  | some name => (manager.setActive name (fleet.calls name)).1

/-- Without a keyboard engine the first one that is listed is tried. -/
def activateFirst (manager : EngineManager) : EngineManager :=
  if (activeEngine manager .keyboard).isSome then manager
  else activateDefault fleet (manager.entries.head?.map EngineEntry.name) manager

/-- `typio_instance_init`, with the engines registered in that order and no engine given on the
command line. -/
def init (order : List EngineInfo) (recentPrimary recentSecondary : Option String)
    (saved : Settings) : Session where
  manager := activateFirst fleet (activateDefault fleet saved.defaultEngine
    (register order recentPrimary recentSecondary))
  config := saved
  saved := saved
  chosen := none

/-- The keyboard part of a reload. -/
def reloadKeyboard (config : Settings) (manager : EngineManager) : EngineManager :=
  match config.defaultEngine.filter (· ≠ "") with
  | none => manager
  | some name =>
      if (activeEngine manager .keyboard).map EngineInfo.name = some name then manager
      else (manager.setActive name (fleet.calls name)).1

/-- The voice part of a reload. -/
def reloadVoice (config : Settings) (manager : EngineManager) : EngineManager :=
  match config.defaultVoiceEngine.filter (· ≠ "") with
  | none => manager
  | some name =>
      if (activeEngine manager .voice).map EngineInfo.name = some name then manager
      else (manager.setActiveVoice name (fleet.calls name)).1

/-- `typio_instance_reload_config`. -/
def reloadConfig (session : Session) : Session :=
  { session with
    manager := reloadVoice fleet session.saved (reloadKeyboard fleet session.saved session.manager)
    config := session.saved }

/-- `handle_activate_engine`. -/
def handleActivateEngine (session : Session) (name : String) : Session :=
  if name = "" then session
  else
    let (manager, result) := session.manager.setActive name (fleet.calls name)
    if result ≠ .ok then { session with manager := manager }
    else
      let config := { session.config with defaultEngine := some name }
      { manager := manager, config := config, saved := config,
        chosen := if manager.nameIsKeyboard name then some name else session.chosen }

def step (session : Session) (request : fleet.Request) : Session :=
  session.handleActivateEngine fleet request.name

/-- The name of the active keyboard engine. -/
def keyboard (session : Session) : Option String :=
  (activeEngine session.manager .keyboard).map EngineInfo.name

end Session

/-! ## The property -/

section Property

variable (fleet : Fleet)

def NamesVoice (request : fleet.Request) : Prop :=
  ∃ info ∈ fleet.infos, info.name = request.name ∧ info.type = .voice

/-- A request for a voice engine changes neither the active keyboard engine nor what is stored. -/
def KeepsKeyboard (session : Session) (request : fleet.Request) : Prop :=
  NamesVoice fleet request →
    (session.step fleet request).keyboard = session.keyboard ∧
      (session.step fleet request).saved.defaultEngine = session.saved.defaultEngine

/-- A restart and a reload end with the keyboard engine that was activated last. -/
def Resumes (session : Session) : Prop :=
  ∀ name ∈ session.chosen,
    (∀ order : List EngineInfo, order.Perm fleet.infos → ∀ recentPrimary recentSecondary,
      (Session.init fleet order recentPrimary recentSecondary session.saved).keyboard =
        some name) ∧
      (session.reloadConfig fleet).keyboard = some name

/-- A request for a voice engine finds the engine's name stored already; an empty name is turned
down. -/
def FindsItsName (session : Session) (request : fleet.Request) : Prop :=
  NamesVoice fleet request → request.name = "" ∨ session.saved.defaultEngine = some request.name

end Property

/-! ## The manager of a session -/

section Manager

variable {fleet : Fleet} {order : List EngineInfo} {manager : EngineManager} {info : EngineInfo}

/-- The engines are registered, and their instances can be reached. -/
structure Manned (fleet : Fleet) (manager : EngineManager) : Prop where
  known : ∀ entry ∈ manager.entries, ∃ info ∈ fleet.infos,
    entry.name = info.name ∧ entry.info = some info
  listed : ∀ info ∈ fleet.infos, info.name ∈ manager.names
  ready : ∀ entry ∈ manager.entries, entry.factory = true ∧
    ∀ engine ∈ entry.engine, engine.userData = true
  live : manager.Live

theorem Fleet.info_unique (fleet : Fleet) {other : EngineInfo} (member : info ∈ fleet.infos)
    (member' : other ∈ fleet.infos) (same : info.name = other.name) : info = other :=
  List.inj_on_of_nodup_map fleet.distinct member member' same

theorem Manned.find (manned : Manned fleet manager) (member : info ∈ fleet.infos) :
    ∃ index, manager.findEntryIndex info.name = some index ∧
      ∃ entry ∈ manager.entries[index]?, entry.name = info.name ∧ entry.info = some info := by
  cases found : manager.findEntryIndex info.name with
  | none => exact absurd (manned.listed info member) (EngineManager.findEntryIndex_eq_none found)
  | some index =>
      obtain ⟨inside, named⟩ := EngineManager.findEntryIndex_eq_some found
      have here := List.getElem?_eq_getElem inside
      have name : manager.entries[index].name = info.name := by
        simpa [EngineManager.names, here] using named
      obtain ⟨other, member', same, known⟩ :=
        manned.known _ (List.mem_of_getElem? here)
      obtain rfl := fleet.info_unique member member' (name.symm.trans same)
      exact ⟨index, rfl, _, here, name, known⟩

/-- Every switch comes up. -/
theorem Manned.comesUp (manned : Manned fleet manager) (member : info ∈ fleet.infos)
    {entry : EngineEntry} (here : entry ∈ manager.entries) (known : entry.info = some info) :
    entry.ComesUp (fleet.calls info.name) := by
  obtain ⟨factory, ready⟩ := manned.ready entry here
  cases cached : entry.engine with
  | some engine =>
      exact ⟨engine, by simp [EngineEntry.candidate, cached], .inl (by rw [cached]; rfl),
        ready engine cached, .inr rfl⟩
  | none =>
      have serves := fleet.serves info member
      have same : entry.validate (Engine.wrap (fleet.make info.name)) = .ok := by
        rw [← serves]
        simp [EngineEntry.validate, known, registeredEntry]
      refine ⟨Engine.wrap (fleet.make info.name), ?_, .inr same, ?_, .inr rfl⟩
      · simp [EngineEntry.candidate, cached, factory, Fleet.calls]
      · by_contra unreachable
        rw [Bool.not_eq_true] at unreachable
        simp [EngineEntry.validate, known, unreachable] at same

/-- An engine which is deactivated can still be reached. -/
theorem Manned.idle (manned : Manned fleet manager) (current : Option Nat) {place : Nat}
    (changed : EngineEntry)
    (there : (manager.modifyActive current EngineEntry.deactivate).entries[place]? = some changed) :
    changed.factory = true ∧ ∀ engine ∈ changed.engine, engine.userData = true := by
  by_cases left : current = some place
  · subst left
    rw [EngineManager.getElem?_modifyActive_self] at there
    obtain ⟨old, here, rfl⟩ := Option.map_eq_some_iff.mp there
    obtain ⟨factory, ready⟩ := manned.ready old (List.mem_of_getElem? here)
    refine ⟨factory, fun engine cached => ?_⟩
    obtain ⟨engine', cached', rfl⟩ := Option.map_eq_some_iff.mp cached
    exact ready engine' cached'
  · rw [EngineManager.getElem?_modifyActive_of_ne _ left] at there
    exact manned.ready changed (List.mem_of_getElem? there)

/-- Activating an engine fills its slot and leaves the other one alone. -/
theorem Manned.setActive (manned : Manned fleet manager) (member : info ∈ fleet.infos) :
    (manager.setActive info.name (fleet.calls info.name)).2 = .ok ∧
      Manned fleet (manager.setActive info.name (fleet.calls info.name)).1 ∧
      activeEngine (manager.setActive info.name (fleet.calls info.name)).1 =
        Function.update (activeEngine manager) (Slot.ofInfo info) (some info) := by
  obtain ⟨index, found, entry, here, -, known⟩ := manned.find member
  have switches : manager.setActive info.name (fleet.calls info.name) =
      manager.switchTo (Slot.ofInfo info) index (fleet.calls info.name) := by
    simp only [EngineManager.setActive, found, Option.mem_def.mp here, Option.bind_some, known]
  have liveAfter := manned.live.switchTo here known (fleet.calls info.name)
  have inPlace := EngineManager.InPlace.setActive manager info.name (fleet.calls info.name)
  rw [switches] at inPlace ⊢
  by_cases same : manager.active (Slot.ofInfo info) = some index
  · rw [EngineManager.switchTo_same _ same]
    refine ⟨rfl, manned, ?_⟩
    have active : activeEngine manager (Slot.ofInfo info) = some info := by
      rw [activeEngine_of_live manned.live, EngineManager.occupant, same, Option.bind_some,
        Option.mem_def.mp here, Option.bind_some, known]
    rw [← active, Function.update_eq_self]
  · have up := manned.comesUp member (List.mem_of_getElem? here) known
    obtain ⟨active, ⟨engine, rejected, -, present, filled⟩, others⟩ :=
      EngineManager.switchTo_done here same up
    refine ⟨(EngineManager.switchTo_ok_iff here _).mpr (.inr up), ⟨?_, ?_, ?_, liveAfter⟩, ?_⟩
    · intro changed listed
      have labelled : EngineManager.label changed ∈ manager.entries.map EngineManager.label := by
        rw [← inPlace.labels]
        exact List.mem_map_of_mem listed
      obtain ⟨old, there, label⟩ := List.mem_map.mp labelled
      obtain ⟨names, infos⟩ := Prod.mk.inj label
      rw [← names, ← infos]
      exact manned.known old there
    · rw [inPlace.names]
      exact manned.listed
    · intro changed listed
      obtain ⟨place, there⟩ := List.mem_iff_getElem?.mp listed
      by_cases at_index : place = index
      · subst at_index
        obtain rfl := Option.some.inj (filled.symm.trans there)
        refine ⟨(manned.ready entry (List.mem_of_getElem? here)).1, ?_⟩
        intro held cached
        obtain rfl := Option.some.inj cached
        exact present
      · rw [others place at_index] at there
        exact manned.idle (manager.active (Slot.ofInfo info)) changed there
    · funext slot
      rw [activeEngine_of_live liveAfter]
      by_cases this : slot = Slot.ofInfo info
      · subst this
        rw [Function.update_self, EngineManager.occupant, active, Function.update_self,
          Option.bind_some, filled, Option.bind_some, known]
      · rw [Function.update_of_ne this, manned.live.switchTo_occupant here known same up this,
          activeEngine_of_live manned.live]

/-- A name which no engine has is turned down. -/
theorem Manned.setActive_unknown (manned : Manned fleet manager) {name : String}
    (unknown : ∀ info ∈ fleet.infos, info.name ≠ name) (calls : Calls) :
    (manager.setActive name calls).1 = manager := by
  have missing : manager.findEntryIndex name = none := by
    cases found : manager.findEntryIndex name with
    | none => rfl
    | some index =>
        obtain ⟨inside, named⟩ := EngineManager.findEntryIndex_eq_some found
        obtain ⟨info, member, same, -⟩ := manned.known _ (List.getElem_mem inside)
        rw [EngineManager.names, List.getElem?_map, List.getElem?_eq_getElem inside] at named
        exact absurd (same.symm.trans (Option.some.inj named)) (unknown info member)
  simp [EngineManager.setActive, missing]

theorem Manned.setActive_any (manned : Manned fleet manager) (name : String) :
    Manned fleet (manager.setActive name (fleet.calls name)).1 := by
  by_cases offered : ∃ info ∈ fleet.infos, info.name = name
  · obtain ⟨info, member, rfl⟩ := offered
    exact (manned.setActive member).2.1
  · rw [manned.setActive_unknown (by simpa using offered)]
    exact manned

theorem Manned.find_entry (manned : Manned fleet manager) (member : info ∈ fleet.infos) :
    ∃ entry, manager.entries.find? (·.name == info.name) = some entry ∧ entry.info = some info := by
  cases found : manager.entries.find? (·.name == info.name) with
  | none =>
      obtain ⟨entry, listed, named⟩ := List.mem_map.mp (manned.listed info member)
      exact absurd named (by simpa using List.find?_eq_none.mp found entry listed)
  | some entry =>
      obtain ⟨other, member', same, known⟩ := manned.known entry (List.mem_of_find?_eq_some found)
      have named : entry.name = info.name := by simpa using List.find?_some found
      obtain rfl := fleet.info_unique member member' (named.symm.trans same)
      exact ⟨entry, rfl, known⟩

theorem Manned.nameIsKeyboard (manned : Manned fleet manager) (member : info ∈ fleet.infos) :
    manager.nameIsKeyboard info.name = (info.type == .keyboard) := by
  obtain ⟨entry, found, known⟩ := manned.find_entry member
  simp [EngineManager.nameIsKeyboard, found, EngineEntry.isKeyboard, known]

/-- A voice engine leaves the active keyboard engine alone. -/
theorem Manned.setActiveVoice_keyboard (manned : Manned fleet manager) (name : String) :
    activeEngine (manager.setActiveVoice name (fleet.calls name)).1 .keyboard =
      activeEngine manager .keyboard := by
  by_cases offered : ∃ info ∈ fleet.infos, info.name = name
  · obtain ⟨info, member, rfl⟩ := offered
    obtain ⟨entry, found, known⟩ := manned.find_entry member
    simp only [EngineManager.setActiveVoice, found, Option.bind_some, known]
    split
    · rfl
    · next voice =>
        have slot : Slot.ofInfo info = .voice := if_pos (not_not.mp voice)
        rw [(manned.setActive member).2.2, slot]
        rfl
  · have still := manned.setActive_unknown (by simpa using offered) (fleet.calls name)
    unfold EngineManager.setActiveVoice
    split
    · rfl
    · split
      · rfl
      · rw [still]

/-! ## Starting -/

/-- Engines of different names are all registered, in their order. -/
theorem register_foldl (distinct : (manager.names ++ order.map EngineInfo.name).Nodup) :
    (order.foldl (fun manager info => (manager.register (some info)).1) manager).entries =
        manager.entries ++ order.map registeredEntry ∧
      (order.foldl (fun manager info => (manager.register (some info)).1) manager).active =
        manager.active := by
  induction order generalizing manager with
  | nil => simp
  | cons info order ih =>
      have fresh : manager.findEntryIndex info.name = none := by
        cases found : manager.findEntryIndex info.name with
        | none => rfl
        | some index =>
            have named := List.mem_of_getElem? (EngineManager.findEntryIndex_eq_some found).2
            have apart := (List.nodup_append.mp distinct).2.2 info.name named info.name (by simp)
            exact absurd rfl apart
      have registered : (manager.register (some info)).1 =
          { manager with entries := manager.entries ++ [registeredEntry info] } := by
        simp [EngineManager.register, fresh, registeredEntry]
      rw [List.foldl_cons, registered]
      obtain ⟨entries, active⟩ := @ih
        { manager with entries := manager.entries ++ [registeredEntry info] }
        (by simpa [EngineManager.names, registeredEntry] using distinct)
      exact ⟨by rw [entries]; simp, active⟩

/-- All engines are registered, and none is active. -/
theorem registered_manned (perm : order.Perm fleet.infos)
    (recentPrimary recentSecondary : Option String) :
    Manned fleet (Session.register order recentPrimary recentSecondary) := by
  have distinct : (order.map EngineInfo.name).Nodup := (perm.map EngineInfo.name).nodup_iff.mpr
    fleet.distinct
  obtain ⟨entries, active⟩ := @register_foldl order (EngineManager.new recentPrimary recentSecondary)
    (by simpa [EngineManager.names, EngineManager.new] using distinct)
  rw [Session.register]
  generalize order.foldl _ _ = registered at entries active ⊢
  rw [EngineManager.new, List.nil_append] at entries
  refine ⟨fun entry listed => ?_, fun info member => ?_, fun entry listed => ?_, ?_⟩
  · rw [entries] at listed
    obtain ⟨info, member, rfl⟩ := List.mem_map.mp listed
    exact ⟨info, perm.mem_iff.mp member, rfl, rfl⟩
  · rw [EngineManager.names, entries]
    exact List.mem_map.mpr ⟨_, List.mem_map_of_mem (perm.mem_iff.mpr member), rfl⟩
  · rw [entries] at listed
    obtain ⟨info, -, rfl⟩ := List.mem_map.mp listed
    exact ⟨rfl, fun _ cached => by cases cached⟩
  · intro slot index set
    rw [active] at set
    cases set

end Manager

/-! ## Sessions -/

section Sessions

variable {fleet : Fleet} {session : Session} {info : EngineInfo}

theorem Manned.activateDefault {manager : EngineManager} (manned : Manned fleet manager)
    (name : Option String) : Manned fleet (Session.activateDefault fleet name manager) := by
  cases name with
  | none => exact manned
  | some name => exact manned.setActive_any name

theorem init_manned {order : List EngineInfo} (perm : order.Perm fleet.infos)
    (recentPrimary recentSecondary : Option String) (saved : Settings) :
    Manned fleet (Session.init fleet order recentPrimary recentSecondary saved).manager := by
  have configured := (registered_manned perm recentPrimary recentSecondary).activateDefault
    saved.defaultEngine
  change Manned fleet (Session.activateFirst fleet _)
  unfold Session.activateFirst
  split
  · exact configured
  · exact configured.activateDefault _

/-- The keyboard engine which is stored is active after a start. -/
theorem init_keyboard {order : List EngineInfo} (perm : order.Perm fleet.infos)
    (recentPrimary recentSecondary : Option String) {saved : Settings}
    (member : info ∈ fleet.infos) (stored : saved.defaultEngine = some info.name)
    (kind : Slot.ofInfo info = .keyboard) :
    (Session.init fleet order recentPrimary recentSecondary saved).keyboard = some info.name := by
  have registered := registered_manned perm recentPrimary recentSecondary
  have active := congrFun (registered.setActive member).2.2 .keyboard
  rw [kind, Function.update_self] at active
  simp [Session.init, Session.keyboard, Session.activateDefault, Session.activateFirst, stored, active]

/-- A reload leaves the keyboard engine alone which is stored and active. -/
theorem reloadConfig_keyboard (manned : Manned fleet session.manager) {name : String}
    (stored : session.saved.defaultEngine = some name) (active : session.keyboard = some name) :
    (session.reloadConfig fleet).keyboard = some name := by
  have unchanged : Session.reloadKeyboard fleet session.saved session.manager = session.manager := by
    unfold Session.reloadKeyboard
    rw [stored]
    split
    · rfl
    · next configured given =>
        obtain rfl := Option.some.inj (Option.filter_eq_some_iff.mp given).1
        exact if_pos active
  rw [← active]
  unfold Session.reloadConfig Session.keyboard
  rw [unchanged]
  unfold Session.reloadVoice
  dsimp only
  split
  · rfl
  · split
    · rfl
    · rw [manned.setActiveVoice_keyboard]

/-- A request which names an engine activates and stores it. -/
theorem step_eq (manned : Manned fleet session.manager) (member : info ∈ fleet.infos)
    (nonempty : info.name ≠ "") (offered) :
    session.step fleet ⟨info.name, offered⟩ =
      { manager := (session.manager.setActive info.name (fleet.calls info.name)).1
        config := { session.config with defaultEngine := some info.name }
        saved := { session.config with defaultEngine := some info.name }
        chosen := if info.type = .keyboard then some info.name else session.chosen } := by
  obtain ⟨done, after, -⟩ := manned.setActive member
  simp only [Session.step, Session.handleActivateEngine, if_neg nonempty, done, ne_eq,
    not_true_eq_false, ↓reduceIte, after.nameIsKeyboard member, beq_iff_eq]

/-- What holds in every session: the engines are registered, and the configuration is saved. -/
structure Settled (fleet : Fleet) (session : Session) : Prop where
  manned : Manned fleet session.manager
  saved : session.saved = session.config

theorem Settled.step (settled : Settled fleet session) (request : fleet.Request) :
    Settled fleet (session.step fleet request) := by
  obtain ⟨name, offered⟩ := request
  obtain ⟨info, member, rfl, -⟩ := id offered
  by_cases empty : info.name = ""
  · rw [Session.step, Session.handleActivateEngine, if_pos empty]
    exact settled
  · rw [step_eq settled.manned member empty]
    exact ⟨(settled.manned.setActive member).2.1, rfl⟩

/-- A request for a voice engine stores its name, and touches the voice slot only. -/
theorem Settled.keepsKeyboard_iff (settled : Settled fleet session) (request : fleet.Request) :
    KeepsKeyboard fleet session request ↔ FindsItsName fleet session request := by
  obtain ⟨name, offered⟩ := request
  refine forall_congr' fun ⟨info, member, same, voice⟩ => ?_
  obtain rfl : info.name = name := same
  by_cases empty : info.name = ""
  · simp [Session.step, Session.handleActivateEngine, empty]
  · have kept : (session.step fleet ⟨info.name, offered⟩).keyboard = session.keyboard := by
      rw [step_eq settled.manned member empty]
      have slot : Slot.ofInfo info = .voice := if_pos voice
      have active := congrFun (settled.manned.setActive member).2.2 .keyboard
      rw [slot, Function.update_of_ne (by decide)] at active
      exact congrArg (Option.map EngineInfo.name) active
    simp only [kept, true_and, empty, false_or]
    rw [step_eq settled.manned member empty]
    exact eq_comm

/-- The keyboard engine that was activated last is stored and active. -/
structure Intended (fleet : Fleet) (session : Session) : Prop where
  settled : Settled fleet session
  chosen : ∀ name ∈ session.chosen, session.saved.defaultEngine = some name ∧
    session.keyboard = some name ∧ ∃ info ∈ fleet.infos, info.name = name ∧ info.type = .keyboard

theorem Intended.resumes (intended : Intended fleet session) : Resumes fleet session := by
  intro name chose
  obtain ⟨stored, active, info, member, rfl, kind⟩ := intended.chosen name chose
  have slot : Slot.ofInfo info = .keyboard := if_neg (by simp [kind])
  exact ⟨fun order perm recentPrimary recentSecondary =>
    init_keyboard perm recentPrimary recentSecondary member stored slot,
    reloadConfig_keyboard intended.settled.manned stored active⟩

theorem Intended.step (intended : Intended fleet session) {request : fleet.Request}
    (finds : FindsItsName fleet session request) :
    Intended fleet (session.step fleet request) := by
  refine ⟨intended.settled.step request, ?_⟩
  obtain ⟨name, offered⟩ := request
  obtain ⟨info, member, rfl, kind⟩ := id offered
  by_cases empty : info.name = ""
  · rw [Session.step, Session.handleActivateEngine, if_pos empty]
    exact intended.chosen
  rw [step_eq intended.settled.manned member empty]
  have active := congrFun (intended.settled.manned.setActive member).2.2 .keyboard
  obtain keyboard | voice := kind
  · rw [show Slot.ofInfo info = .keyboard from if_neg (by simp [keyboard]),
      Function.update_self] at active
    rintro name chose
    obtain rfl : info.name = name := by simpa [keyboard] using chose
    exact ⟨rfl, congrArg (Option.map EngineInfo.name) active, info, member, rfl, keyboard⟩
  · intro name chose
    have chose' : session.chosen = some name := by simpa [voice] using chose
    obtain ⟨stored, -, other, member', rfl, keyboard⟩ := intended.chosen name chose'
    have same := (finds ⟨info, member, rfl, voice⟩).resolve_left empty
    obtain rfl := fleet.info_unique member member' (Option.some.inj (same.symm.trans stored))
    exact absurd (keyboard.symm.trans voice) (by decide)

end Sessions

/-- In every history of requests, the keyboard engine that was activated last is active again after
a restart or a reload, and no request for a voice engine changes the active keyboard engine or what
is stored, if and only if every request for a voice engine finds its name stored already. -/
theorem activation_persists_iff (fleet : Fleet) (recentPrimary recentSecondary : Option String)
    (saved : Settings) (requests : List fleet.Request) :
    let start := Session.init fleet fleet.infos recentPrimary recentSecondary saved
    (Machine.Always (Session.step fleet) (Resumes fleet) start requests ∧
        Machine.EachStep (Session.step fleet) (KeepsKeyboard fleet) start requests) ↔
      Machine.EachStep (Session.step fleet) (FindsItsName fleet) start requests := by
  intro start
  have settled : Settled fleet start :=
    ⟨init_manned (List.Perm.refl _) recentPrimary recentSecondary saved, rfl⟩
  have agree := @Machine.eachStep_congr _ _ (Session.step fleet) start requests (Settled fleet)
    (KeepsKeyboard fleet) (FindsItsName fleet)
    (fun _ request settled => settled.keepsKeyboard_iff request)
    (fun _ request settled => settled.step request) settled
  refine ⟨fun ⟨_, keeps⟩ => agree.mp keeps, fun finds => ⟨?_, agree.mpr finds⟩⟩
  have always := Machine.Always.of_invariant (Intended fleet)
    (fun _ _ intended finds => intended.step finds) ⟨settled, fun _ chose => by cases chose⟩ finds
  exact always.mono fun _ => Intended.resumes

/-- Two keyboard engines and a voice engine. -/
def threeEngines : Fleet where
  infos := [{ name := "basic", type := .keyboard }, { name := "rime", type := .keyboard },
    { name := "whisper", type := .voice }]
  distinct := by decide
  make _ := ⟨true, true, true, true⟩
  serves := by decide

/-- The voice engine is activated after the second keyboard engine. -/
def voiceLast : List threeEngines.Request :=
  [⟨"rime", { name := "rime", type := .keyboard }, by decide, rfl, .inl rfl⟩,
    ⟨"whisper", { name := "whisper", type := .voice }, by decide, rfl, .inr rfl⟩]

/-- The name of the voice engine is stored over that of the keyboard engine, and a restart ends with
the keyboard engine that is listed first. -/
theorem activation_lost :
    ¬ (Machine.Always (Session.step threeEngines) (Resumes threeEngines)
        (Session.init threeEngines threeEngines.infos none none ⟨none, none⟩) voiceLast ∧
      Machine.EachStep (Session.step threeEngines) (KeepsKeyboard threeEngines)
        (Session.init threeEngines threeEngines.infos none none ⟨none, none⟩) voiceLast) := by
  rintro ⟨always, -⟩
  have restarted := (always.final "rime" (by decide +kernel)).1 threeEngines.infos
    (List.Perm.refl _) none none
  exact absurd restarted (by decide +kernel)

end Daemon

end Typio
