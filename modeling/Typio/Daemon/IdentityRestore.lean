import Typio.Daemon.ModeAttribution

/-!
# Restoring the memory of an application

When an application gains the focus, the engine which is remembered for it is made active and put
into the mode which is remembered.  The switch calls `focus_in` of the engine first, the engine
notifies the mode it is in, and the callback writes this mode over the remembered one before it is
read.  The memory is restored in every run in which the engine is active already when it is wanted,
or is in the remembered mode, or is in a mode without an id.
-/

namespace Typio

namespace Daemon

open Typio.Core

/-! ## Engines with modes -/

/-- How the engines behave: which calls they notify their mode from, beside `focus_in` and
`set_mode`, whether they have `get_mode` and `set_mode`, and which mode `set_mode` accepts. -/
structure Manners where
  alsoNotifies : String → EngineCall → Bool
  hasGetMode : String → Bool
  hasSetMode : String → Bool
  accepts : String → (modeId : String) → Option { mode : EngineMode // mode.modeId = some modeId }

/-- The mode each engine is in. -/
abbrev Modes := String → EngineMode

namespace Manners

variable (manners : Manners)

def notices (modes : Modes) (engine : String) : EngineCall → List Notice
  | .focusIn => [.mode (modes engine)]
  | .setMode modeId => (manners.accepts engine modeId).toList.map fun mode => .mode mode.val
  | call => if manners.alsoNotifies engine call then [.mode (modes engine)] else []

def behaviour (modes : Modes) : Behaviour where
  notices := manners.notices modes
  mode engine := if manners.hasGetMode engine then some (modes engine) else none
  canSetMode := manners.hasSetMode

/-- The modes after a call which is found in the log. -/
def follow : LogEntry → Modes → Modes
  | .called engine (.setMode modeId), modes =>
      match manners.accepts engine modeId with
      | none => modes
      | some mode => Function.update modes engine mode.val
  | _, modes => modes

end Manners

/-! ## The history of a session -/

/-- The daemon and the modes of the engines. -/
structure Desk where
  host : Host
  modes : Modes

/-- What happens: an operation on the manager, an application gains the focus or loses it, or the
user switches the mode of the active engine, which may notify it. -/
inductive Happening where
  | manage (operation : EngineManager.RegistryOperation)
  | gains (identity : Option String) (calls : Calls)
  | loses
  | switchesMode (mode : EngineMode) (notifies : Bool)

namespace Desk

variable (manners : Manners)

def start (recentPrimary recentSecondary : Option String) (memory : String → IdentityMemory)
    (modes : Modes) : Desk where
  host := Hosted.start (.new recentPrimary recentSecondary)
    (App.new (some { currentIdentity := none, preferences := true, memory := memory }))
  modes := modes

/-- The daemon has called the engines. -/
def took (desk : Desk) (host : Host) : Desk where
  host := host
  modes := (host.inst.log.take (host.inst.log.length - desk.host.inst.log.length)).foldr
    manners.follow desk.modes

def step (desk : Desk) : Happening → Desk
  | .manage operation =>
      desk.took manners
        (desk.host.manage App.onCallback (manners.behaviour desk.modes) operation)
  | .gains identity calls =>
      desk.took manners
        (desk.host.transitionToActive identity (manners.behaviour desk.modes) calls)
  | .loses => desk.took manners (desk.host.transitionToInactive (manners.behaviour desk.modes))
  | .switchesMode mode notifies =>
      match desk.host.activeKeyboard with
      | none => desk
      | some entry =>
          { host :=
              if notifies then desk.host.notice App.onCallback entry.name (.mode mode)
              else desk.host
            modes := Function.update desk.modes entry.name mode }

/-- What is remembered for an application. -/
def memory (desk : Desk) (app : String) : Option IdentityMemory :=
  desk.host.owner.frontend.map (·.memory app)

end Desk

/-! ## The property -/

/-- The memory is of the engine in the mode. -/
def IdentityMemory.Records (memory : IdentityMemory) (engine modeId : String) : Prop :=
  memory.loadEngine = some engine ∧ memory.loadMode = some (engine, modeId)

/-- The engine is registered, is active or can be activated, and its `set_mode` accepts the mode. -/
def Recoverable (manners : Manners) (host : Host) (calls : Calls) (engine modeId : String) : Prop :=
  ∃ index ∈ host.inst.manager.findEntryIndex engine,
    ∃ entry ∈ host.inst.manager.entries[index]?, ∃ info ∈ entry.info,
      Slot.ofInfo info = .keyboard ∧
        (host.inst.manager.active .keyboard = some index ∨ entry.ComesUp calls) ∧
        (entry.candidate calls.made).any Engine.asKeyboard ∧
        manners.hasSetMode engine ∧ (manners.accepts engine modeId).isSome

/-- The engine is active in the mode, and this is remembered for the application. -/
structure Restored (desk : Desk) (app engine modeId : String) : Prop where
  active : activeName desk.host = some engine
  mode : (desk.modes engine).modeId = some modeId
  memory : ∃ memory ∈ desk.memory app, memory.Records engine modeId

/-- When an application gains the focus, what is remembered for it is restored if it can be. -/
def RestoresMemory (manners : Manners) (desk : Desk) : Happening → Prop
  | .gains identity calls => ∀ app ∈ identity, ∀ memory ∈ desk.memory app, ∀ engine modeId,
      memory.Records engine modeId → Recoverable manners desk.host calls engine modeId →
        Restored (desk.step manners (.gains identity calls)) app engine modeId
  | _ => True

/-! ## The condition -/

/-- The mode has no id to be remembered. -/
def Unnamed (mode : EngineMode) : Prop := mode.modeId.filter (· ≠ "") = none

/-- The engine notifies no mode from the call that could be remembered. -/
def Mute (manners : Manners) (modes : Modes) (engine : String) (call : EngineCall) : Prop :=
  manners.alsoNotifies engine call = true → Unnamed (modes engine)

/-- The engine that is remembered is active already, or is in the mode that is remembered, or
neither it nor the engine that leaves notifies a mode that could be remembered. -/
def RestoresSafely (manners : Manners) (desk : Desk) : Happening → Prop
  | .gains identity _ => ∀ app ∈ identity, ∀ memory ∈ desk.memory app, ∀ engine modeId,
      memory.Records engine modeId →
        activeName desk.host = some engine ∨ (desk.modes engine).modeId = some modeId ∨
          Unnamed (desk.modes engine) ∧ ∀ old ∈ desk.host.activeKeyboard,
            Mute manners desk.modes old.name .deactivate ∧
              Mute manners desk.modes old.name .focusOut
  | _ => True

/-! ## What notices write -/

theorem IdentityMemory.loadMode_ne {memory : IdentityMemory} {engine modeId : String}
    (loads : memory.loadMode = some (engine, modeId)) : engine ≠ "" ∧ modeId ≠ "" := by
  unfold IdentityMemory.loadMode at loads
  split at loads
  · next given here there =>
      obtain ⟨rfl, rfl⟩ := Prod.mk.inj (Option.some.inj loads)
      simp only [Option.filter_eq_some_iff, decide_eq_true_eq] at here there
      exact ⟨here.2, there.2⟩
  · cases loads

theorem IdentityMemory.storeMode_loadMode (memory : IdentityMemory) {engine modeId : String}
    (named : engine ≠ "") (identified : modeId ≠ "") :
    (memory.storeMode engine modeId).loadMode = some (engine, modeId) := by
  simp [IdentityMemory.storeMode, IdentityMemory.loadMode, Option.filter_some, named, identified]

/-- The engine is stored beside its own mode. -/
theorem IdentityMemory.storeEngine_records {memory : IdentityMemory} {engine modeId : String}
    (loads : memory.loadMode = some (engine, modeId)) :
    (memory.storeEngine engine).Records engine modeId := by
  have ⟨named, _⟩ := IdentityMemory.loadMode_ne loads
  have modeEngine : memory.modeEngine = some engine := by
    unfold IdentityMemory.loadMode at loads
    split at loads
    · next here _ =>
        obtain ⟨rfl, rfl⟩ := Prod.mk.inj (Option.some.inj loads)
        exact (Option.filter_eq_some_iff.mp here).1
    · cases loads
  have same : memory.storeEngine engine =
      { memory with engine := some engine, legacyEngine := some engine } := by
    simp [IdentityMemory.storeEngine, named, modeEngine]
  rw [same]
  exact ⟨by simp [IdentityMemory.loadEngine, Option.filter_some, named], loads⟩

section Memory

variable {host : Host}

@[simp] theorem App.report_frontend (app : App) (inst : Instance) :
    (app.report inst).frontend = app.frontend := by
  unfold App.report
  split <;> rfl

theorem tell_statusIcon_frontend (icon : String) :
    (host.tell App.onCallback (.statusIconChanged icon)).owner.frontend =
      host.owner.frontend :=
  App.report_frontend _ _

theorem notifyStatusIcon_frontend (icon : String) :
    (host.notifyStatusIcon App.onCallback icon).owner.frontend = host.owner.frontend := by
  unfold Hosted.notifyStatusIcon
  split
  · rfl
  · exact tell_statusIcon_frontend icon

/-- A mode which is told is remembered for the active engine. -/
theorem tell_modeChanged_frontend (mode : EngineMode) :
    (host.tell App.onCallback (.modeChanged mode)).owner.frontend =
      (host.owner.rememberMode host.inst mode).frontend :=
  App.report_frontend _ _

theorem notifyMode_frontend (mode : EngineMode) :
    (host.notifyMode App.onCallback mode).owner.frontend =
      if host.inst.lastMode.any (·.equal mode) then host.owner.frontend
      else (host.owner.rememberMode (host.storeMode mode).inst mode).frontend := by
  unfold Hosted.notifyMode
  split
  · rfl
  have told := @tell_modeChanged_frontend (host.storeMode mode) mode
  dsimp only
  split
  · exact told
  · exact (tell_statusIcon_frontend _).trans told

/-- The memory of the focused application after the mode is told. -/
theorem rememberMode_currentMemory (app : App) (inst : Instance) (mode : EngineMode) :
    (app.rememberMode inst mode).currentMemory =
      match activeEngine inst.manager .keyboard, mode.modeId.filter (· ≠ "") with
      | some info, some modeId => app.currentMemory.map (·.storeMode info.name modeId)
      | _, _ => app.currentMemory := by
  unfold App.rememberMode
  cases present : app.frontend with
  | none => cases activeEngine inst.manager .keyboard <;> cases mode.modeId.filter (· ≠ "") <;>
      simp [App.currentMemory, present]
  | some frontend =>
      cases activeEngine inst.manager .keyboard with
      | none => rfl
      | some info =>
          cases mode.modeId.filter (· ≠ "") with
          | none => rfl
          | some modeId =>
              simp only [App.currentMemory, present, Option.bind_some,
                IdentityFrontend.rememberActiveMode]
              cases remembering : frontend.remembering with
              | none => simp [remembering]
              | some app =>
                  have still : (frontend.modifyMemory app
                      (·.storeMode info.name modeId)).remembering = some app := remembering
                  rw [still, Option.map_some, Option.map_some]
                  simp [IdentityFrontend.modifyMemory]

theorem currentMemory_congr {app other : App} (same : app.frontend = other.frontend) :
    app.currentMemory = other.currentMemory := by rw [App.currentMemory, same, App.currentMemory]

theorem notice_statusIcon_currentMemory (engine icon : String) :
    (host.notice App.onCallback engine (.statusIcon icon)).owner.currentMemory =
      host.owner.currentMemory :=
  currentMemory_congr (notifyStatusIcon_frontend icon)

theorem notice_mode_currentMemory (engine : String) (mode : EngineMode) :
    (host.notice App.onCallback engine (.mode mode)).owner.currentMemory =
      if host.inst.lastMode.any (·.equal mode) then host.owner.currentMemory
      else
        match activeEngine host.inst.manager .keyboard, mode.modeId.filter (· ≠ "") with
        | some info, some modeId => host.owner.currentMemory.map (·.storeMode info.name modeId)
        | _, _ => host.owner.currentMemory := by
  have told := @notifyMode_frontend (host.record (.noticed engine (.mode mode))) mode
  by_cases same : host.inst.lastMode.any (·.equal mode)
  · rw [if_pos same]
    exact currentMemory_congr (told.trans (if_pos same))
  · rw [if_neg same]
    exact (currentMemory_congr (told.trans (if_neg same))).trans (rememberMode_currentMemory ..)

theorem notice_mode_lastMode (engine : String) (mode : EngineMode) :
    (host.notice App.onCallback engine (.mode mode)).inst.lastMode =
      if host.inst.lastMode.any (·.equal mode) then host.inst.lastMode else some mode := by
  change (Hosted.notifyMode App.onCallback _ mode).inst.lastMode = _
  unfold Hosted.notifyMode
  change (if host.inst.lastMode.any (·.equal mode) then _ else _ : Host).inst.lastMode = _
  by_cases same : host.inst.lastMode.any (·.equal mode)
  · rw [if_pos same, if_pos same]
    rfl
  · rw [if_neg same, if_neg same]
    dsimp only
    split <;> rfl

theorem notice_statusIcon_lastMode (engine icon : String) :
    (host.notice App.onCallback engine (.statusIcon icon)).inst.lastMode = host.inst.lastMode := by
  change (Hosted.notifyStatusIcon App.onCallback _ icon).inst.lastMode = _
  unfold Hosted.notifyStatusIcon
  split <;> rfl

/-- No notice changes the engine that is remembered. -/
theorem notice_loadEngine (engine : String) (given : Notice) :
    (host.notice App.onCallback engine given).owner.currentMemory.bind IdentityMemory.loadEngine =
      host.owner.currentMemory.bind IdentityMemory.loadEngine := by
  cases given with
  | statusIcon icon => rw [notice_statusIcon_currentMemory]
  | mode mode =>
      rw [notice_mode_currentMemory]
      split
      · rfl
      split
      · cases host.owner.currentMemory with
        | none => rfl
        | some memory => exact IdentityMemory.storeMode_loadEngine memory _ _
      · rfl

end Memory

/-! ## While the engine is active -/

section Active

variable {host : Host} {engine modeId : String}

/-- The mode is the one which is remembered for the focused application. -/
def Loads (host : Host) (engine modeId : String) : Prop :=
  ∃ memory ∈ host.owner.currentMemory, memory.loadMode = some (engine, modeId)

/-- The mode is remembered for the focused application, or a notice of it will be taken. -/
structure WillLoad (host : Host) (engine modeId : String) : Prop where
  active : activeName host = some engine
  pending : ∃ memory ∈ host.owner.currentMemory, memory.loadMode = some (engine, modeId) ∨
    ∀ mode ∈ host.inst.lastMode, mode.modeId ≠ some modeId

theorem Loads.willLoad (loads : Loads host engine modeId) (active : activeName host = some engine) :
    WillLoad host engine modeId := by
  obtain ⟨memory, current, here⟩ := loads
  exact ⟨active, memory, current, .inl here⟩

/-- A notice of a mode without an id writes nothing. -/
theorem Loads.notice_unnamed (loads : Loads host engine modeId) {mode : EngineMode}
    (unnamed : Unnamed mode) (notifier : String) :
    Loads (host.notice App.onCallback notifier (.mode mode)) engine modeId := by
  have same : (host.notice App.onCallback notifier (.mode mode)).owner.currentMemory =
      host.owner.currentMemory := by
    rw [notice_mode_currentMemory, unnamed]
    simp
  rwa [Loads, same]

theorem notice_activeName (notifier : String) (given : Notice) :
    activeName (host.notice App.onCallback notifier given) = activeName host := by
  rw [activeName, (Hosted.Still.notice App.onCallback host notifier given).manager, activeName]

/-- A notice of the mode is taken. -/
theorem WillLoad.notice_same (willLoad : WillLoad host engine modeId) (named : engine ≠ "")
    (identified : modeId ≠ "") {mode : EngineMode} (same : mode.modeId = some modeId)
    (notifier : String) :
    Loads (host.notice App.onCallback notifier (.mode mode)) engine modeId := by
  obtain ⟨memory, current, pending⟩ := willLoad.pending
  rw [Loads, notice_mode_currentMemory]
  split
  · next known =>
      obtain ⟨last, lastly, equal⟩ := (Option.any_eq_true ..).mp known
      have lastId : last.modeId = some modeId := by
        rw [← same]
        simpa [EngineMode.equal] using (Bool.and_eq_true_iff.mp equal).2
      exact ⟨memory, current, pending.resolve_right fun other => other last lastly lastId⟩
  · obtain ⟨info, active, rfl⟩ := Option.map_eq_some_iff.mp willLoad.active
    have filtered : mode.modeId.filter (· ≠ "") = some modeId := by
      rw [same, Option.filter_some, if_pos (by simpa using identified)]
    rw [active, filtered]
    exact ⟨_, by rw [Option.mem_def.mp current]; rfl,
      IdentityMemory.storeMode_loadMode memory named identified⟩

theorem WillLoad.notice (willLoad : WillLoad host engine modeId) (named : engine ≠ "")
    (identified : modeId ≠ "") (notifier : String) (given : Notice) :
    WillLoad (host.notice App.onCallback notifier given) engine modeId := by
  have active := (notice_activeName notifier given).trans willLoad.active
  obtain ⟨memory, current, pending⟩ := willLoad.pending
  cases given with
  | statusIcon icon =>
      refine ⟨active, memory, (notice_statusIcon_currentMemory notifier icon).symm ▸ current, ?_⟩
      rwa [notice_statusIcon_lastMode]
  | mode mode =>
      by_cases same : mode.modeId = some modeId
      · exact (willLoad.notice_same named identified same notifier).willLoad active
      by_cases known : host.inst.lastMode.any (·.equal mode)
      · refine ⟨active, memory, ?_, ?_⟩
        · rwa [notice_mode_currentMemory, if_pos known]
        · rwa [notice_mode_lastMode, if_pos known]
      · have later : ∃ memory, memory ∈
            (host.notice App.onCallback notifier (.mode mode)).owner.currentMemory := by
          rw [notice_mode_currentMemory, if_neg known, Option.mem_def.mp current]
          split
          · exact ⟨_, rfl⟩
          · exact ⟨memory, rfl⟩
        obtain ⟨memory', current'⟩ := later
        refine ⟨active, memory', current', .inr ?_⟩
        rw [notice_mode_lastMode, if_neg known]
        intro last lastly
        obtain rfl := Option.some.inj lastly
        exact same

theorem WillLoad.callEngine {behaviour : Behaviour} (willLoad : WillLoad host engine modeId)
    (named : engine ≠ "") (identified : modeId ≠ "") (called : String) (call : EngineCall) :
    WillLoad (host.callEngine App.onCallback behaviour called call) engine modeId :=
  @Hosted.callEngine_induction _ _ behaviour host (WillLoad · engine modeId) called call
    ⟨willLoad.active, willLoad.pending⟩
    fun _ willLoad given _ => willLoad.notice named identified called given

theorem callEngine_activeName {behaviour : Behaviour} (called : String) (call : EngineCall) :
    activeName (host.callEngine App.onCallback behaviour called call) = activeName host := by
  rw [activeName, (Hosted.Still.callEngine App.onCallback behaviour host called call).manager,
    activeName]

variable {manners : Manners} {modes : Modes}

theorem mem_notices {called : String} {call : EngineCall} {given : Notice}
    (other : ∀ modeId, call ≠ .setMode modeId) (member : given ∈ manners.notices modes called call) :
    given = .mode (modes called) ∧ (call = .focusIn ∨ manners.alsoNotifies called call) := by
  cases call with
  | setMode modeId => exact absurd rfl (other modeId)
  | focusIn => exact ⟨List.mem_singleton.mp member, .inl rfl⟩
  | init | deactivate | focusOut | reset | getMode =>
      simp only [Manners.notices] at member
      split at member
      · next notifies => exact ⟨List.mem_singleton.mp member, .inr notifies⟩
      · cases member

/-- An engine whose notices could not be remembered writes nothing. -/
theorem Loads.callEngine_mute (loads : Loads host engine modeId) {called : String}
    {call : EngineCall} (other : ∀ modeId, call ≠ .setMode modeId)
    (mute : call = .focusIn ∨ manners.alsoNotifies called call → Unnamed (modes called)) :
    Loads (host.callEngine App.onCallback (manners.behaviour modes) called call) engine modeId :=
  @Hosted.callEngine_induction _ _ (manners.behaviour modes) host (Loads · engine modeId) called call
    loads fun host loads given member => by
      obtain ⟨rfl, notifies⟩ := mem_notices other member
      exact loads.notice_unnamed (mute notifies) called

theorem Loads.callEntry_mute (loads : Loads host engine modeId) {entry : Option EngineEntry}
    {call : EngineCall} (other : ∀ modeId, call ≠ .setMode modeId)
    (mute : ∀ called ∈ entry, call = .focusIn ∨ manners.alsoNotifies called.name call →
      Unnamed (modes called.name)) :
    Loads (host.callEntry App.onCallback (manners.behaviour modes) entry call) engine modeId :=
  @Hosted.callEntry_induction _ App.onCallback (manners.behaviour modes) host
    (Loads · engine modeId) entry call loads fun called here _ =>
      loads.callEngine_mute other (mute called here)

/-- The active engine is in the mode, or in a mode without an id. -/
theorem Loads.callEngine_own (loads : Loads host engine modeId)
    (active : activeName host = some engine)
    (own : (modes engine).modeId = some modeId ∨ Unnamed (modes engine)) {call : EngineCall}
    (other : ∀ modeId, call ≠ .setMode modeId) :
    Loads (host.callEngine App.onCallback (manners.behaviour modes) engine call) engine modeId := by
  obtain ⟨named, identified⟩ := IdentityMemory.loadMode_ne loads.choose_spec.2
  obtain same | unnamed := own
  · refine (@Hosted.callEngine_induction _ App.onCallback (manners.behaviour modes) host
      (fun host => Loads host engine modeId ∧ activeName host = some engine) engine call
      ⟨loads, active⟩ fun host holds given member => ?_).1
    obtain ⟨rfl, -⟩ := mem_notices other member
    exact ⟨(holds.1.willLoad holds.2).notice_same named identified same engine,
      (notice_activeName _ _).trans holds.2⟩
  · exact loads.callEngine_mute other fun _ => unnamed

/-- The engine is called, if its entry can be reached. -/
theorem callEntry_reachable {new : EngineEntry} (reachable : new.engine.any (·.userData))
    (behaviour : Behaviour) (call : EngineCall) :
    host.callEntry App.onCallback behaviour (some new) call =
      host.callEngine App.onCallback behaviour new.name call := if_pos reachable

/-- The engine which comes gets `reset` and `focus_in` after the mode is cleared. -/
theorem enter_loads (named : engine ≠ "") (identified : modeId ≠ "")
    (active : activeName host = some engine) (cleared : host.inst.lastMode = none)
    (current : host.owner.currentMemory.isSome)
    (ready : (modes engine).modeId = some modeId ∨
      Unnamed (modes engine) ∧ Loads host engine modeId) :
    Loads ((host.callEngine App.onCallback (manners.behaviour modes) engine .reset).callEngine
      App.onCallback (manners.behaviour modes) engine .focusIn) engine modeId := by
  obtain same | ⟨unnamed, loads⟩ := ready
  · obtain ⟨memory, here⟩ := Option.isSome_iff_exists.mp current
    have willLoad : WillLoad host engine modeId := by
      refine ⟨active, memory, here, .inr ?_⟩
      intro mode last
      rw [cleared] at last
      cases last
    have reset := @WillLoad.callEngine _ _ _ (manners.behaviour modes) willLoad named identified engine
      .reset
    have recorded : WillLoad (Hosted.record (host.callEngine App.onCallback
        (manners.behaviour modes) engine .reset) (.called engine .focusIn)) engine modeId :=
      ⟨reset.active, reset.pending⟩
    exact recorded.notice_same named identified same engine
  · have reset := @Loads.callEngine_own _ _ _ manners _ loads active (.inr unnamed) .reset nofun
    exact reset.callEngine_own ((callEngine_activeName _ _).trans active) (.inr unnamed) nofun

theorem rebind_loads {new : EngineEntry} (named : new.name ≠ "") (identified : modeId ≠ "")
    (reachable : new.engine.any (·.userData)) (focused : host.inst.focused)
    (active : activeName host = some new.name) (old : Option EngineEntry)
    (current : (host.callEntry App.onCallback (manners.behaviour modes) old
      .focusOut).owner.currentMemory.isSome)
    (ready : (modes new.name).modeId = some modeId ∨ Unnamed (modes new.name) ∧
      Loads (host.callEntry App.onCallback (manners.behaviour modes) old .focusOut) new.name modeId) :
    Loads (host.rebindFocusedContext App.onCallback (manners.behaviour modes) old (some new)) new.name
      modeId := by
  have own : (modes new.name).modeId = some modeId ∨ Unnamed (modes new.name) :=
    ready.imp_right And.left
  have stillActive : activeName (host.callEntry App.onCallback (manners.behaviour modes) old
      .focusOut).clearStatusIcon.clearMode = some new.name := by
    rw [← active]
    exact congrArg (fun manager => (activeEngine manager .keyboard).map EngineInfo.name)
      (Hosted.callEntry_manager ..)
  have entered := @enter_loads _ _ _ manners modes named identified stillActive rfl current ready
  have enteredActive : activeName (((host.callEntry App.onCallback (manners.behaviour modes) old
      .focusOut).clearStatusIcon.clearMode.callEngine App.onCallback (manners.behaviour modes) new.name
        .reset).callEngine App.onCallback (manners.behaviour modes) new.name .focusIn) =
      some new.name := by rw [callEngine_activeName, callEngine_activeName, stillActive]
  unfold Hosted.rebindFocusedContext
  rw [if_neg (by simp [focused])]
  dsimp only
  rw [callEntry_reachable reachable, callEntry_reachable reachable]
  split
  · exact entered
  next found is =>
    obtain ⟨same, -⟩ := Option.filter_eq_some_iff.mp is
    obtain rfl := Option.some.inj same
    have asked := @Loads.callEngine_own _ _ _ manners _ entered enteredActive own .getMode nofun
    have askedActive := (@callEngine_activeName _ (manners.behaviour modes) new.name
      .getMode).trans enteredActive
    split
    · exact asked
    next mode given =>
      have mode_eq : mode = modes new.name := by
        simp only [Manners.behaviour] at given
        split at given
        · exact (Option.some.inj given).symm
        · cases given
      subst mode_eq
      obtain same | unnamed := own
      · exact (asked.willLoad askedActive).notice_same named identified same new.name
      · exact asked.notice_unnamed unnamed new.name

theorem callEngine_loadEngine {behaviour : Behaviour} (called : String) (call : EngineCall) :
    (host.callEngine App.onCallback behaviour called call).owner.currentMemory.bind
        IdentityMemory.loadEngine = host.owner.currentMemory.bind IdentityMemory.loadEngine :=
  @Hosted.callEngine_induction _ _ behaviour host (fun after =>
      after.owner.currentMemory.bind IdentityMemory.loadEngine =
        host.owner.currentMemory.bind IdentityMemory.loadEngine) called call rfl
    fun _ same given _ => (notice_loadEngine called given).trans same

theorem Loads.records (loads : Loads host engine modeId)
    (loadsEngine : host.owner.currentMemory.bind IdentityMemory.loadEngine = some engine) :
    ∃ memory ∈ host.owner.currentMemory, memory.Records engine modeId := by
  obtain ⟨memory, current, loadsMode⟩ := loads
  rw [Option.mem_def.mp current] at loadsEngine
  exact ⟨memory, current, loadsEngine, loadsMode⟩

end Active

/-! ## What stays while an application has the focus -/

/-- Preferences are kept and the application is the same. -/
def App.Serves (app : App) (identity : Option String) : Prop :=
  ∃ frontend ∈ app.frontend, frontend.preferences = true ∧ frontend.currentIdentity = identity

theorem App.Serves.of_frontend {app other : App} {identity : Option String}
    (serves : app.Serves identity) (same : other.frontend = app.frontend) :
    other.Serves identity := by rwa [App.Serves, same]

theorem App.Serves.onCallback {app : App} {identity : Option String} (serves : app.Serves identity)
    (inst : Instance) (callback : Callback) :
    (App.onCallback inst callback app).Serves identity := by
  obtain ⟨frontend, here, kept⟩ := serves
  cases callback with
  | statusIconChanged icon => exact ⟨frontend, (App.report_frontend _ _).trans here, kept⟩
  | voiceEngineChanged info => exact ⟨frontend, (App.report_frontend _ _).trans here, kept⟩
  | modeChanged mode =>
      have remembered : (app.rememberMode inst mode).Serves identity := by
        unfold App.rememberMode
        split
        · next other info modeId there _ _ =>
            obtain rfl := Option.some.inj (here.symm.trans there)
            refine ⟨_, rfl, ?_⟩
            unfold IdentityFrontend.rememberActiveMode
            split <;> exact kept
        · exact ⟨frontend, here, kept⟩
      exact remembered.of_frontend (App.report_frontend _ _)
  | engineChanged info =>
      have reported : ((app.updateController (·.notifyEngineChanged inst info)).report
          inst).frontend = app.frontend := App.report_frontend _ _
      change App.Serves (App.rememberEngine _ inst) identity
      unfold App.rememberEngine
      split
      · exact ⟨frontend, reported.trans here, kept⟩
      · next active _ =>
          refine ⟨frontend.rememberActiveEngine active.name, ?_, ?_⟩
          · exact (congrArg (Option.map _) (reported.trans here)).trans rfl
          · unfold IdentityFrontend.rememberActiveEngine
            split <;> exact kept

theorem serves_kept (identity : Option String) :
    Hosted.Kept App.onCallback fun host : Host => host.owner.Serves identity where
  called _ _ _ _ serves := serves
  noticed _ _ _ serves := serves
  told host callback serves := serves.onCallback host.inst callback
  updated _ _ _ serves := serves

/-- The application and the focus are the same, and no mode was set since. -/
structure Stays (identity : Option String) (focused : Bool) (base : List LogEntry) (host : Host) :
    Prop where
  serves : host.owner.Serves identity
  focused : host.inst.focused = focused
  log : ∃ new, host.inst.log = new ++ base ∧ ∀ engine modeId, .called engine (.setMode modeId) ∉ new

theorem Stays.here {identity : Option String} {host : Host} (serves : host.owner.Serves identity) :
    Stays identity host.inst.focused host.inst.log host :=
  ⟨serves, rfl, [], rfl, fun _ _ => List.not_mem_nil⟩

theorem stays_kept (identity : Option String) (focused : Bool) (base : List LogEntry) :
    Hosted.Kept App.onCallback (Stays identity focused base) where
  called host engine call other stays := by
    obtain ⟨new, grown, unset⟩ := stays.log
    refine ⟨stays.serves, stays.focused, .called engine call :: new, congrArg _ grown, ?_⟩
    intro setter modeId member
    obtain same | old := List.mem_cons.mp member
    · exact other modeId (by cases same; rfl)
    · exact unset setter modeId old
  noticed host engine given stays := by
    obtain ⟨new, grown, unset⟩ := stays.log
    refine ⟨stays.serves, stays.focused, .noticed engine given :: new, congrArg _ grown, ?_⟩
    intro setter modeId member
    obtain same | old := List.mem_cons.mp member
    · cases same
    · exact unset setter modeId old
  told host callback stays :=
    ⟨stays.serves.onCallback host.inst callback, stays.focused, stays.log⟩
  updated host update same stays := by
    obtain ⟨log, focus⟩ := same host.inst
    exact ⟨stays.serves, focus.trans stays.focused, by
      rw [Hosted.updateInst_inst, log]; exact stays.log⟩

theorem Stays.currentMemory {app : String} {focused : Bool} {base : List LogEntry} {host : Host}
    (stays : Stays (some app) focused base host) : host.owner.currentMemory.isSome := by
  obtain ⟨frontend, here, preferences, identity⟩ := stays.serves
  rw [App.currentMemory, Option.mem_def.mp here]
  simp [IdentityFrontend.remembering, preferences, identity]

/-! ## Restoring the mode -/

section RestoreMode

variable {host : Host} {manners : Manners} {modes : Modes} {app engine modeId : String}
  {base : List LogEntry}

theorem follow_of_unset {new : List LogEntry}
    (unset : ∀ engine modeId, .called engine (.setMode modeId) ∉ new) :
    new.foldr manners.follow modes = modes := by
  induction new with
  | nil => rfl
  | cons entry new ih =>
      have later := ih fun engine modeId member => unset engine modeId (List.mem_cons_of_mem _ member)
      rw [List.foldr_cons, later]
      cases entry with
      | noticed engine given => rfl
      | called engine call =>
          cases call with
          | setMode modeId => exact absurd (List.mem_cons_self ..) (unset engine modeId)
          | init | deactivate | focusIn | focusOut | reset | getMode => rfl

/-- The calls since then leave the engine in the mode. -/
def Tuned (manners : Manners) (modes : Modes) (base : List LogEntry) (engine modeId : String)
    (host : Host) : Prop :=
  ∃ new, host.inst.log = new ++ base ∧ (new.foldr manners.follow modes engine).modeId = some modeId

/-- `set_mode` leaves the engine in the mode it accepts. -/
theorem Stays.callSetMode {identity : Option String} {focused : Bool}
    (stays : Stays identity focused base host)
    {mode : { mode : EngineMode // mode.modeId = some modeId }}
    (accepts : manners.accepts engine modeId = some mode) (behaviour : Behaviour) :
    Tuned manners modes base engine modeId
      (host.callEngine App.onCallback behaviour engine (.setMode modeId)) := by
  refine @Hosted.callEngine_induction _ App.onCallback behaviour host
    (Tuned manners modes base engine modeId) engine (.setMode modeId) ?_ fun host tuned given _ => ?_
  · obtain ⟨new, grown, -⟩ := stays.log
    refine ⟨.called engine (.setMode modeId) :: new, congrArg _ grown, ?_⟩
    simp [Manners.follow, accepts, mode.property]
  · obtain ⟨new, grown, inMode⟩ := tuned
    refine ⟨.noticed engine given :: new, ?_, inMode⟩
    rw [Hosted.notice_log, grown]
    rfl

/-- The mode which is remembered for the active engine is restored, and stays remembered. -/
theorem identityRestoreMode_restores (stays : Stays (some app) true base host)
    (records : ∃ memory ∈ host.owner.currentMemory, memory.Records engine modeId)
    (active : activeName host = some engine) {entry : EngineEntry}
    (here : entry ∈ host.activeKeyboard) (named : entry.name = engine)
    (keyboard : entry.engine.any Engine.asKeyboard) (canSet : manners.hasSetMode engine)
    {mode : { mode : EngineMode // mode.modeId = some modeId }}
    (accepts : manners.accepts engine modeId = some mode) :
    let after := Host.identityRestoreMode host (manners.behaviour modes)
    after.owner.Serves (some app) ∧
      (∃ memory ∈ after.owner.currentMemory, memory.Records engine modeId) ∧
        Tuned manners modes base engine modeId after := by
  subst named
  obtain ⟨memory, current, loadsEngine, loadsMode⟩ := records
  have loads : Loads host entry.name modeId := ⟨memory, current, loadsMode⟩
  have ⟨nonempty, identified⟩ := IdentityMemory.loadMode_ne loadsMode
  have remembers : host.owner.currentMemory.bind IdentityMemory.loadEngine = some entry.name := by
    rw [Option.mem_def.mp current]
    exact loadsEngine
  have kept := stays_kept (some app) true base
  have asked : Stays (some app) true base (host.callEngine App.onCallback (manners.behaviour modes)
      entry.name .getMode) := kept.callEngine _ nofun stays
  have willLoad := @WillLoad.callEngine _ _ _ (manners.behaviour modes) (loads.willLoad active)
    nonempty identified entry.name .getMode
  have askedRemembers := (@callEngine_loadEngine _ (manners.behaviour modes) entry.name
    .getMode).trans remembers
  unfold Host.identityRestoreMode
  rw [Option.mem_def.mp current, Option.bind_some, loadsMode, Option.mem_def.mp here]
  dsimp only
  rw [if_neg (by simp [← active, activeName, keyboard, Manners.behaviour, canSet])]
  split
  · next already =>
      have own : (modes entry.name).modeId = some modeId := by
        simp only [Manners.behaviour] at already
        split at already
        · simpa using already
        · cases already
      have still := @Loads.callEngine_own _ _ _ manners _ loads active (.inl own) .getMode nofun
      obtain ⟨new, grown, unset⟩ := asked.log
      refine ⟨asked.serves, still.records askedRemembers, new, grown, ?_⟩
      rw [follow_of_unset unset]
      exact own
  · refine ⟨?_, Loads.records ?_ ((callEngine_loadEngine ..).trans askedRemembers),
      asked.callSetMode accepts (manners.behaviour modes)⟩
    · exact @Hosted.callEngine_induction _ App.onCallback (manners.behaviour modes) _
        (·.owner.Serves (some app)) entry.name (.setMode modeId) asked.serves
        fun _ serves given _ => (serves_kept (some app)).notice entry.name given serves
    · have given : (manners.behaviour modes).notices entry.name (.setMode modeId) =
          [.mode mode.val] := by simp [Manners.behaviour, Manners.notices, accepts]
      rw [Hosted.callEngine, given]
      have recorded : WillLoad (Hosted.record (host.callEngine App.onCallback
          (manners.behaviour modes) entry.name .getMode) (.called entry.name (.setMode modeId)))
          entry.name modeId := ⟨willLoad.active, willLoad.pending⟩
      exact recorded.notice_same nonempty identified mode.property entry.name

end RestoreMode

/-! ## Restoring the engine -/

section RestoreEngine

variable {host : Host} {manners : Manners} {modes : Modes} {app modeId : String}
  {base : List LogEntry} {index : Nat} {entry : EngineEntry} {info : EngineInfo} {calls : Calls}

theorem tell_engineChanged_currentMemory (host : Host) (info : EngineInfo) {active : EngineInfo}
    (here : activeEngine host.inst.manager .keyboard = some active) :
    (host.tell App.onCallback (.engineChanged info)).owner.currentMemory =
      host.owner.currentMemory.map (·.storeEngine active.name) := by
  have reported : ((host.owner.updateController (·.notifyEngineChanged host.inst info)).report
      host.inst).frontend = host.owner.frontend := App.report_frontend _ _
  change (App.rememberEngine _ host.inst).currentMemory = _
  simp only [App.rememberEngine, here, App.currentMemory, reported]
  cases host.owner.frontend with
  | none => rfl
  | some frontend =>
      simp only [Option.map_some, Option.bind_some, IdentityFrontend.rememberActiveEngine]
      cases remembering : frontend.remembering with
      | none => simp [remembering]
      | some app =>
          have still : (frontend.modifyMemory app (·.storeEngine active.name)).remembering =
            some app := remembering
          rw [still, Option.map_some, Option.map_some]
          simp [IdentityFrontend.modifyMemory]

/-- Neither engine notifies a mode that could be remembered until the new one is started. -/
theorem Loads.started (loads : Loads host entry.name modeId)
    (here : host.inst.manager.entries[index]? = some entry) (unnamed : Unnamed (modes entry.name))
    (mute : ∀ old ∈ host.activeKeyboard, Mute manners modes old.name .deactivate) :
    Loads (host.started App.onCallback (manners.behaviour modes) .keyboard index calls) entry.name
      modeId := by
  have made : Loads (host.made App.onCallback (manners.behaviour modes) .keyboard index calls)
      entry.name modeId := by
    refine @Hosted.made_induction _ App.onCallback (manners.behaviour modes) host .keyboard index calls
      (Loads · entry.name modeId) ?_ fun _ _ loads _ => loads
    exact loads.callEntry_mute nofun fun old there notifies =>
      mute old there (notifies.resolve_left nofun)
  refine @Hosted.started_induction _ App.onCallback (manners.behaviour modes) host .keyboard index
    calls
    (Loads · entry.name modeId) made (fun _ => made.callEntry_mute nofun fun new there _ => ?_)
    fun _ _ loads _ => loads
  rwa [Hosted.made_name App.onCallback (manners.behaviour modes) here there]

/-- Once it has taken the slot, the new engine is the active one. -/
theorem activeName_of_update (manager : EngineManager) {new : EngineEntry}
    (there : manager.entries[index]? = some new) (known : new.info = some info)
    (cached : new.engine.isSome) :
    (activeEngine { manager with active := Function.update manager.active .keyboard (some index) }
      .keyboard).map EngineInfo.name = some info.name := by
  simp [activeEngine, EngineManager.occupant, there, cached, known]

/-- The engine takes the slot, and is remembered with the mode. -/
theorem settle_restores {started : Host} (stays : Stays (some app) true base started)
    {new : EngineEntry} (there : started.entryAt (some index) = some new)
    (known : new.info = some info) (named : info.name = new.name) (cached : new.engine.isSome)
    (reachable : new.engine.any (·.userData)) (nonempty : new.name ≠ "") (identified : modeId ≠ "")
    (current : Option Nat)
    (ready : (modes new.name).modeId = some modeId ∨ Unnamed (modes new.name) ∧
      Loads started new.name modeId ∧
        ∀ old ∈ started.entryAt current, Mute manners modes old.name .focusOut) :
    let after := started.settle App.onCallback (manners.behaviour modes) .keyboard current index info
    Stays (some app) true base after ∧
      ∃ memory ∈ after.owner.currentMemory, memory.Records new.name modeId := by
  have kept := stays_kept (some app) true base
  refine ⟨kept.settle _ _ _ _ _ stays, ?_⟩
  change ∃ memory ∈ (Hosted.tell App.onCallback (Hosted.rebindFocusedContext App.onCallback
    (manners.behaviour modes) _ (started.entryAt current) (started.entryAt (some index)))
      (.engineChanged info)).owner.currentMemory, _
  generalize clears : ((started.updateManager fun manager => { manager with
    active := Function.update manager.active .keyboard (some index) }).clearStatusIcon).clearMode =
      cleared
  have clearedStays : Stays (some app) true base cleared := by
    rw [← clears]
    exact kept.cleared (kept.managed _ stays)
  have active : activeName cleared = some new.name := by
    rw [← clears, ← named]
    exact activeName_of_update started.inst.manager there known cached
  have left := @Hosted.Kept.callEntry _ _ (manners.behaviour modes) _ _ kept
    (started.entryAt current) .focusOut nofun clearedStays
  rw [there]
  have loads : Loads (cleared.rebindFocusedContext App.onCallback (manners.behaviour modes)
      (started.entryAt current) (some new)) new.name modeId := by
    refine rebind_loads nonempty identified reachable clearedStays.focused active _
      left.currentMemory (ready.imp_right fun ⟨unnamed, loads, mute⟩ => ⟨unnamed, ?_⟩)
    have clearedLoads : Loads cleared new.name modeId := by
      rw [← clears]
      exact loads
    exact clearedLoads.callEntry_mute nofun fun old here notifies =>
      mute old here (notifies.resolve_left nofun)
  have still : activeName (cleared.rebindFocusedContext App.onCallback (manners.behaviour modes)
      (started.entryAt current) (some new)) = some new.name := by
    rw [activeName, (Hosted.Still.rebindFocusedContext ..).manager]
    exact active
  obtain ⟨info', found, name⟩ := Option.map_eq_some_iff.mp still
  obtain ⟨memory, here, loadsMode⟩ := loads
  rw [tell_engineChanged_currentMemory _ _ found, Option.mem_def.mp here, name]
  exact ⟨_, rfl, IdentityMemory.storeEngine_records loadsMode⟩

/-- The engine comes up, and is remembered with the mode. -/
theorem switchTo_restores (orderly : host.inst.manager.Orderly)
    (stays : Stays (some app) true base host)
    (here : host.inst.manager.entries[index]? = some entry) (known : entry.info = some info)
    (kind : Slot.ofInfo info = .keyboard) (other : host.inst.manager.active .keyboard ≠ some index)
    (up : entry.ComesUp calls) (nonempty : entry.name ≠ "") (identified : modeId ≠ "")
    (ready : (modes entry.name).modeId = some modeId ∨ Unnamed (modes entry.name) ∧
      Loads host entry.name modeId ∧ ∀ old ∈ host.activeKeyboard,
        Mute manners modes old.name .deactivate ∧ Mute manners modes old.name .focusOut) :
    let after := (host.switchTo App.onCallback (manners.behaviour modes) info index calls).1
    Stays (some app) true base after ∧
      ∃ memory ∈ after.owner.currentMemory, memory.Records entry.name modeId := by
  intro after
  have started := (stays_kept (some app) true base).started (manners.behaviour modes) .keyboard index
    calls stays
  rw [← kind] at other
  obtain ⟨engine, rejected, -, present, there⟩ :=
    Hosted.started_entryAt App.onCallback (manners.behaviour modes) here other up
  have ends : after = ((host.started App.onCallback (manners.behaviour modes) (Slot.ofInfo info) index
      calls).settle App.onCallback (manners.behaviour modes) (Slot.ofInfo info)
        (host.inst.manager.active (Slot.ofInfo info)) index info) :=
    congrArg Prod.fst (Hosted.switchTo_done App.onCallback (manners.behaviour modes) here other up)
  rw [kind] at there ends
  obtain ⟨info', known', named⟩ := orderly.named entry (List.mem_of_getElem? here)
  obtain rfl : info = info' := Option.mem_unique known known'
  rw [ends]
  refine settle_restores started there known named rfl present nonempty identified _
    (ready.imp_right fun ⟨unnamed, loads, mute⟩ => ⟨unnamed, ?_, fun called found => ?_⟩)
  · exact loads.started here unnamed fun old active => (mute old active).1
  · obtain ⟨old, active, name⟩ :=
      Hosted.started_name App.onCallback (manners.behaviour modes) found orderly.live rfl
    rw [name]
    exact (mute old active).2

end RestoreEngine

/-! ## Focus -/

section Focus

variable {host : Host} {manners : Manners} {modes : Modes} {app engine modeId : String}
  {calls : Calls}

/-- Nothing is remembered while no application is known. -/
theorem unknown_kept {frontend : Option IdentityFrontend}
    (unknown : ∀ known ∈ frontend, known.remembering = none) :
    Hosted.Kept App.onCallback fun host : Host => host.owner.frontend = frontend where
  called _ _ _ _ same := same
  noticed _ _ _ same := same
  updated _ _ _ same := same
  told host callback same := by
    cases callback with
    | statusIconChanged icon => exact (App.report_frontend _ _).trans same
    | voiceEngineChanged info => exact (App.report_frontend _ _).trans same
    | modeChanged mode =>
        refine (tell_modeChanged_frontend mode).trans ?_
        unfold App.rememberMode
        split
        · next other info modeId there _ _ =>
            have silent := unknown other (same ▸ there)
            rw [← same, there]
            simp [IdentityFrontend.rememberActiveMode, silent]
        · exact same
    | engineChanged info =>
        have reported : ((host.owner.updateController (·.notifyEngineChanged host.inst info)).report
            host.inst).frontend = frontend := (App.report_frontend _ _).trans same
        change (App.rememberEngine _ host.inst).frontend = _
        unfold App.rememberEngine
        split
        · exact reported
        · refine (congrArg (Option.map _) reported).trans ?_
          cases frontend with
          | none => rfl
          | some known => simp [IdentityFrontend.rememberActiveEngine, unknown known rfl]

/-- What holds in every run: preferences are kept, and no application is known without focus. -/
structure Served (host : Host) : Prop where
  orderly : host.inst.manager.Orderly
  serves : ∃ identity, host.owner.Serves identity ∧ (host.inst.focused = false → identity = none)

/-- The focus reaches the active engine before the application is known. -/
theorem Served.contextFocusIn (served : Served host) {frontend : IdentityFrontend}
    (here : frontend ∈ host.owner.frontend) (behaviour : Behaviour) :
    (host.contextFocusIn App.onCallback behaviour).owner.frontend = some frontend ∧
      Stays frontend.currentIdentity true host.inst.log
        (host.contextFocusIn App.onCallback behaviour) := by
  obtain ⟨identity, ⟨frontend', here', preferences, rfl⟩, unfocused⟩ := served.serves
  obtain rfl := Option.some.inj (here.symm.trans here')
  have stays : Stays frontend.currentIdentity host.inst.focused host.inst.log host :=
    .here ⟨frontend, here, preferences, rfl⟩
  unfold Hosted.contextFocusIn
  split
  · next focused => exact ⟨here, focused ▸ stays⟩
  next without =>
    have unknown : frontend.remembering = none := by
      simp [IdentityFrontend.remembering, unfocused (by simpa using without)]
    have silent : ∀ known ∈ some frontend, known.remembering = none := by
      intro known member
      obtain rfl := Option.some.inj member
      exact unknown
    refine ⟨(unknown_kept silent).callEntry behaviour nofun here,
      (stays_kept _ _ _).callEntry behaviour nofun ⟨stays.serves, rfl, stays.log⟩⟩

/-- The application which gains the focus is known. -/
theorem Served.identified (served : Served host) {frontend : IdentityFrontend}
    (here : frontend ∈ host.owner.frontend) (behaviour : Behaviour) (app : String) :
    Stays (some app) true host.inst.log
        (Host.refreshIdentity (host.contextFocusIn App.onCallback behaviour) (some app)) ∧
      (Host.refreshIdentity (host.contextFocusIn App.onCallback behaviour)
        (some app)).owner.currentMemory = some (frontend.memory app) := by
  obtain ⟨same, stays⟩ := served.contextFocusIn here behaviour
  obtain ⟨frontend', here', preferences, -⟩ := stays.serves
  obtain rfl := Option.some.inj (same.symm.trans here')
  refine ⟨⟨⟨_, congrArg (Option.map _) same, preferences, rfl⟩, stays.focused, stays.log⟩, ?_⟩
  simp [App.currentMemory, Host.refreshIdentity, Host.updateFrontend, same,
    IdentityFrontend.remembering, preferences]

/-- The active engine is the registered one of its name. -/
theorem active_of_activeName (orderly : host.inst.manager.Orderly) {index : Nat} {entry : EngineEntry}
    (here : host.inst.manager.entries[index]? = some entry)
    (active : activeName host = some entry.name) :
    host.inst.manager.active .keyboard = some index ∧ entry.engine.isSome := by
  obtain ⟨info, found, name⟩ := Option.map_eq_some_iff.mp active
  obtain ⟨occupant, occupied, given⟩ := Option.bind_eq_some_iff.mp found
  obtain ⟨place, set, there⟩ := Option.bind_eq_some_iff.mp occupied
  split at given
  · next cached =>
      obtain ⟨info', known, named⟩ := orderly.named occupant (List.mem_of_getElem? there)
      obtain rfl : info = info' := Option.mem_unique given known
      have same : index = place := by
        by_contra apart
        exact orderly.intact.name_ne here there apart (name.symm.trans named)
      subst same
      obtain rfl : entry = occupant := Option.some.inj (here.symm.trans there)
      exact ⟨set, cached⟩
  · cases given

theorem restoreIdentityEngine_restores (orderly : host.inst.manager.Orderly) {base : List LogEntry}
    (stays : Stays (some app) true base host)
    (records : ∃ memory ∈ host.owner.currentMemory, memory.Records engine modeId)
    (recoverable : Recoverable manners host calls engine modeId)
    (safe : activeName host = some engine ∨ (modes engine).modeId = some modeId ∨
      Unnamed (modes engine) ∧ ∀ old ∈ host.activeKeyboard,
        Mute manners modes old.name .deactivate ∧ Mute manners modes old.name .focusOut) :
    let after := Host.restoreIdentityEngine host (manners.behaviour modes) calls
    activeName after = some engine ∧ after.owner.Serves (some app) ∧
      (∃ memory ∈ after.owner.currentMemory, memory.Records engine modeId) ∧
        Tuned manners modes base engine modeId after := by
  obtain ⟨memory, current, loadsEngine, loadsMode⟩ := records
  obtain ⟨nonempty, identified⟩ := IdentityMemory.loadMode_ne loadsMode
  obtain ⟨index, found, entry, here, info, known, kind, reaches, keyboard, canSet, accepts⟩ :=
    recoverable
  obtain ⟨mode, accepts⟩ := Option.isSome_iff_exists.mp accepts
  have named : entry.name = engine := by
    have there := (EngineManager.findEntryIndex_eq_some found).2
    rw [EngineManager.names, List.getElem?_map, here] at there
    exact Option.some.inj there
  have restores {host : Host} (stays : Stays (some app) true base host)
      (records : ∃ memory ∈ host.owner.currentMemory, memory.Records engine modeId)
      (active : activeName host = some engine) {entry : EngineEntry}
      (here : entry ∈ host.activeKeyboard) (named : entry.name = engine)
      (keyboard : entry.engine.any Engine.asKeyboard) :
      let after := Host.identityRestoreMode host (manners.behaviour modes)
      activeName after = some engine ∧ after.owner.Serves (some app) ∧
        (∃ memory ∈ after.owner.currentMemory, memory.Records engine modeId) ∧
          Tuned manners modes base engine modeId after := by
    refine ⟨?_, identityRestoreMode_restores stays records active here named keyboard canSet accepts⟩
    rw [activeName, Host.identityRestoreMode_manager]
    exact active
  intro after
  by_cases active : activeName host = some engine
  · have same : after = host.identityRestoreMode (manners.behaviour modes) := by
      simp only [after, Host.restoreIdentityEngine, Option.mem_def.mp current, loadsEngine]
      exact if_pos active
    obtain ⟨set, cached⟩ := active_of_activeName orderly here (named ▸ active)
    obtain ⟨instance', cached⟩ := Option.isSome_iff_exists.mp cached
    rw [same]
    refine restores stays ⟨memory, current, loadsEngine, loadsMode⟩ active ?_ named ?_
    · rw [Hosted.activeKeyboard, Hosted.entryAt, set]
      exact here
    · simpa [EngineEntry.candidate, cached] using keyboard
  · have other : host.inst.manager.active .keyboard ≠ some index := by
      intro set
      refine active ((activeName_of_entryAt orderly ?_).trans (congrArg some named))
      rw [Hosted.entryAt, set]
      exact here
    have up := reaches.resolve_left other
    have switches : host.setActive App.onCallback (manners.behaviour modes) engine calls =
        host.switchTo App.onCallback (manners.behaviour modes) info index calls := by
      simp only [Hosted.setActive, Option.mem_def.mp found, Option.mem_def.mp here,
        Option.bind_some, Option.mem_def.mp known]
    have orderly' : (host.switchTo App.onCallback (manners.behaviour modes) info index
        calls).1.inst.manager.Orderly := by
      rw [← switches, Hosted.setActive_manager]
      exact orderly.registryStep (.operation (.setActive engine calls))
    have same : after = Host.identityRestoreMode (host.switchTo App.onCallback
        (manners.behaviour modes) info index calls).1 (manners.behaviour modes) := by
      simp only [after, Host.restoreIdentityEngine, Option.mem_def.mp current, loadsEngine]
      exact (if_neg active).trans (by rw [switches])
    subst named
    obtain ⟨switched, records⟩ := switchTo_restores orderly stays here known kind other up nonempty
      identified ((safe.resolve_left active).imp_right fun quiet =>
        ⟨quiet.1, ⟨memory, current, loadsMode⟩, quiet.2⟩)
    obtain ⟨set, ⟨instance', rejected, candidate, -, there⟩, -⟩ :=
      EngineManager.switchTo_done here (kind ▸ other) up
    rw [← Hosted.switchTo_manager App.onCallback (manners.behaviour modes)] at set there
    rw [same]
    have occupies : { entry with
        engine := some { instance' with initialized := true, active := true }
        rejected := rejected } ∈ Hosted.activeKeyboard (host.switchTo App.onCallback
          (manners.behaviour modes) info index calls).1 := by
      rw [Hosted.activeKeyboard, Hosted.entryAt, set, kind, Function.update_self]
      exact there
    have nowActive := activeName_of_entryAt orderly' occupies
    exact restores switched records nowActive occupies rfl
      (by simpa [candidate, Engine.asKeyboard] using keyboard)

/-- When the focus comes to an application, what is remembered for it is restored. -/
theorem transitionToActive_restores (served : Served host) {frontend : IdentityFrontend}
    (here : frontend ∈ host.owner.frontend) (records : (frontend.memory app).Records engine modeId)
    (recoverable : Recoverable manners host calls engine modeId)
    (safe : activeName host = some engine ∨ (modes engine).modeId = some modeId ∨
      Unnamed (modes engine) ∧ ∀ old ∈ host.activeKeyboard,
        Mute manners modes old.name .deactivate ∧ Mute manners modes old.name .focusOut) :
    let after := host.transitionToActive (some app) (manners.behaviour modes) calls
    activeName after = some engine ∧ after.owner.Serves (some app) ∧
      (∃ memory ∈ after.owner.currentMemory, memory.Records engine modeId) ∧
        Tuned manners modes host.inst.log engine modeId after := by
  obtain ⟨stays, current⟩ := served.identified here (manners.behaviour modes) app
  have manager := Hosted.contextFocusIn_manager App.onCallback (manners.behaviour modes) host
  have managed : (Host.refreshIdentity (host.contextFocusIn App.onCallback (manners.behaviour modes))
      (some app)).inst.manager = host.inst.manager := manager
  refine restoreIdentityEngine_restores ?_ stays ⟨_, current, records⟩ ?_ ?_
  · rw [managed]
    exact served.orderly
  · rwa [Recoverable, managed]
  · rwa [activeName, Hosted.activeKeyboard, Hosted.entryAt, managed]

/-- The application and the focus are the same. -/
structure Holds (identity : Option String) (focused : Bool) (host : Host) : Prop where
  serves : host.owner.Serves identity
  focused : host.inst.focused = focused

theorem holds_kept (identity : Option String) (focused : Bool) :
    Hosted.Kept App.onCallback (Holds identity focused) where
  called _ _ _ _ holds := ⟨holds.serves, holds.focused⟩
  noticed _ _ _ holds := ⟨holds.serves, holds.focused⟩
  told host callback holds := ⟨holds.serves.onCallback host.inst callback, holds.focused⟩
  updated host _ same holds := ⟨holds.serves, (same host.inst).2.trans holds.focused⟩

section Holds

variable {identity : Option String} {focused : Bool} {behaviour : Behaviour}

theorem Holds.callEngine (holds : Holds identity focused host) (engine : String)
    (call : EngineCall) :
    Holds identity focused (host.callEngine App.onCallback behaviour engine call) :=
  @Hosted.callEngine_induction _ App.onCallback behaviour host (Holds identity focused) engine call
    ⟨holds.serves, holds.focused⟩
    fun _ holds given _ => (holds_kept identity focused).notice engine given holds

theorem Holds.identityRestoreMode (holds : Holds identity focused host) :
    Holds identity focused (Host.identityRestoreMode host behaviour) := by
  unfold Host.identityRestoreMode
  split
  · split
    · exact holds
    · have asked := @Holds.callEngine _ _ _ behaviour holds
      dsimp only
      split
      · exact asked _ .getMode
      · exact (asked _ .getMode).callEngine _ _
  · exact holds

theorem Holds.restoreIdentityEngine (holds : Holds identity focused host) :
    Holds identity focused (Host.restoreIdentityEngine host behaviour calls) := by
  unfold Host.restoreIdentityEngine
  split
  · exact holds
  split
  · exact holds.identityRestoreMode
  next engine _ =>
    split
    · exact holds.identityRestoreMode
    · exact Holds.identityRestoreMode ((holds_kept identity focused).setActive behaviour engine calls
        holds)

theorem Served.transitionToActive (served : Served host) (identity : Option String) :
    Served (host.transitionToActive identity behaviour calls) := by
  have orderly : (host.transitionToActive identity behaviour calls).inst.manager.Orderly :=
    step_orderly served.orderly (.activated identity behaviour calls)
  obtain ⟨frontend, here, preferences, -⟩ := served.serves.choose_spec.1
  obtain ⟨same, stays⟩ := served.contextFocusIn here behaviour
  have identified : Holds identity true
      (Host.refreshIdentity (host.contextFocusIn App.onCallback behaviour) identity) :=
    ⟨⟨_, congrArg (Option.map _) same, preferences, rfl⟩, stays.focused⟩
  have restored := @Holds.restoreIdentityEngine _ calls _ _ behaviour identified
  exact ⟨orderly, identity, restored.serves, fun without =>
    Bool.noConfusion (restored.focused.symm.trans without)⟩

theorem Served.transitionToInactive (served : Served host) :
    Served (host.transitionToInactive behaviour) := by
  obtain ⟨identity, serves, -⟩ := served.serves
  have orderly : (host.transitionToInactive behaviour).inst.manager.Orderly :=
    step_orderly served.orderly (.deactivated behaviour)
  have left : (host.contextFocusOut App.onCallback behaviour).owner.Serves identity := by
    unfold Hosted.contextFocusOut
    split
    · exact serves
    · exact (serves_kept identity).callEntry behaviour nofun serves
  obtain ⟨frontend, here, preferences, -⟩ :=
    @Hosted.Kept.callEntry _ _ behaviour _ _ (serves_kept identity) _ .reset nofun left
  refine ⟨orderly, none, ⟨_, congrArg (Option.map _) here, preferences, rfl⟩, fun _ => rfl⟩

end Holds

end Focus

/-! ## Histories -/

section Histories

variable {manners : Manners} {desk : Desk}

theorem Served.step (served : Served desk.host) (happening : Happening) :
    Served (desk.step manners happening).host := by
  cases happening with
  | gains identity calls => exact served.transitionToActive identity
  | loses => exact served.transitionToInactive
  | manage operation =>
      obtain ⟨identity, serves, unfocused⟩ := served.serves
      have holds := (holds_kept identity desk.host.inst.focused).manage
        (manners.behaviour desk.modes) operation ⟨serves, rfl⟩
      refine ⟨?_, identity, holds.serves, fun without => unfocused (holds.focused.symm.trans without)⟩
      exact step_orderly served.orderly (.inst (.manage operation (manners.behaviour desk.modes)))
  | switchesMode mode notifies =>
      unfold Desk.step
      cases desk.host.activeKeyboard with
      | none => exact served
      | some entry =>
          cases notifies with
          | false => exact served
          | true =>
              obtain ⟨identity, serves, unfocused⟩ := served.serves
              have holds := (holds_kept identity desk.host.inst.focused).notice entry.name
                (.mode mode) ⟨serves, rfl⟩
              refine ⟨?_, identity, holds.serves, fun without =>
                unfocused (holds.focused.symm.trans without)⟩
              exact step_orderly served.orderly (.inst (.notice entry.name (.mode mode)))

theorem Tuned.took {engine modeId : String} {host : Host}
    (tuned : Tuned manners desk.modes desk.host.inst.log engine modeId host) :
    ((desk.took manners host).modes engine).modeId = some modeId := by
  obtain ⟨new, grown, inMode⟩ := tuned
  simpa [Desk.took, grown] using inMode

theorem Served.restoresMemory (served : Served desk.host) {happening : Happening}
    (safe : RestoresSafely manners desk happening) : RestoresMemory manners desk happening := by
  cases happening with
  | manage _ | loses | switchesMode _ _ => trivial
  | gains identity calls =>
      intro app gaining memory remembered engine modeId records recoverable
      obtain rfl : identity = some app := gaining
      have fits := safe app rfl memory remembered engine modeId records
      obtain ⟨frontend, here, rfl⟩ := Option.map_eq_some_iff.mp remembered
      obtain ⟨active, ⟨frontend', here', preferences, identity⟩, ⟨memory, current, kept⟩, tuned⟩ :=
        transitionToActive_restores served here records recoverable fits
      rw [App.currentMemory, Option.mem_def.mp here'] at current
      obtain rfl : frontend'.memory app = memory := by
        simpa [IdentityFrontend.remembering, preferences, identity] using current
      exact ⟨active, tuned.took, _, congrArg (Option.map _) here', kept⟩

/-- Engines which notify their mode from `focus_in` and `set_mode` only, and accept every mode. -/
def plainManners : Manners where
  alsoNotifies _ _ := false
  hasGetMode _ := true
  hasSetMode _ := true
  accepts _ modeId :=
    some ⟨{ modeClass := .native, modeId := some modeId, displayLabel := none, iconName := none }, rfl⟩

/-- The mode of that id. -/
def modeOf (modeId : String) : EngineMode where
  modeClass := .native
  modeId := some modeId
  displayLabel := none
  iconName := none

def startUp : Calls where
  made := some ⟨true, true, true, false⟩
  init := .ok
  restored := .ok

/-- Both engines are in the mode `chinese` and nothing is remembered.  An editor is used with the
second engine in the mode `ascii`, and left. -/
def editorUsed : List Happening :=
  [.manage (.operation (.register (some { name := "mozc", type := .keyboard }))),
    .manage (.operation (.register (some { name := "rime", type := .keyboard }))),
    .manage (.operation (.setActive "mozc" startUp)),
    .gains (some "editor") startUp,
    .manage (.operation (.setActive "rime" startUp)),
    .switchesMode (modeOf "ascii") true,
    .loses]

/-- The other engine is used meanwhile, and the mode of the first is left alone. -/
def otherEngineUsed : List Happening :=
  editorUsed ++ [.manage (.operation (.setActive "mozc" startUp)), .gains (some "editor") startUp]

/-- A terminal is used meanwhile with the same engine in another mode, and then with the other. -/
def otherModeUsed : List Happening :=
  editorUsed ++ [.gains (some "terminal") startUp, .switchesMode (modeOf "chinese") true,
    .manage (.operation (.setActive "mozc" startUp)), .loses, .gains (some "editor") startUp]

/-- The engine is in the mode that is remembered. -/
theorem restoresSafely_of_modes {app : String} {calls : Calls}
    (inMode : ∀ memory ∈ desk.memory app, ∀ given ∈ memory.loadMode,
      (desk.modes given.1).modeId = some given.2) :
    RestoresSafely manners desk (.gains (some app) calls) := by
  intro app' gaining memory remembered engine modeId records
  obtain rfl := Option.some.inj gaining
  exact .inr (.inl (inMode memory remembered (engine, modeId) records.2))

end Histories

end Daemon

end Typio
