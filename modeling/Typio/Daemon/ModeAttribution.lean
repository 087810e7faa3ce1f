import Typio.Core.InstanceSwitch
import Typio.Daemon.App

/-!
# Whose mode it is

The daemon attributes a mode to the engine which is active when the notification arrives.  A switch
makes the new engine active before it calls `focus_out` of the old one, and calls `init` of the new
one while the old one is active; an engine which notifies its mode from there has it recorded under
the other's name.  In every run in which no engine notifies a mode while another one is active, but
for modes the active engine has issued itself, every pair the daemon writes and reports is right.
-/

namespace Typio

namespace Daemon

open Typio.Core

/-! ## The property -/

/-- The engine notified the mode. -/
def Issued (log : List LogEntry) (engine : String) (mode : EngineMode) : Prop :=
  .noticed engine (.mode mode) ∈ log

/-- Every pair written and reported was issued before by the engine it names. -/
structure App.Sound (app : App) : Prop where
  remembered : ∀ given ∈ app.remembered, ∃ mode, Issued given.log given.engine mode ∧
    mode.modeId = some given.mode
  reported : ∀ given ∈ app.reported, Issued given.log given.engine given.mode

/-- The last mode is one of the active engine. -/
def Current (inst : Instance) : Prop :=
  ∀ info ∈ activeEngine inst.manager .keyboard, ∀ mode ∈ inst.lastMode,
    Issued inst.log info.name mode

/-- The pairs are right which were written and reported, and the pair is right which a report
would give now. -/
structure Attributed (host : Host) : Prop where
  sound : host.owner.Sound
  current : Current host.inst

/-! ## The condition -/

/-- The modes that the engine notifies when it is called may be attributed to the active engine. -/
def FairCall (log : List LogEntry) (behaviour : Behaviour) (active : Option String)
    (engine : String) (call : EngineCall) : Prop :=
  ∀ mode, .mode mode ∈ behaviour.notices engine call →
    ∀ name ∈ active, engine = name ∨ Issued log name mode

def activeName (host : Host) : Option String :=
  (activeEngine host.inst.manager .keyboard).map EngineInfo.name

/-- In a switch by name the engines which are called while another one is active notify no mode of
their own. -/
structure SwitchesFairly (host : Host) (focused : Bool) (behaviour : Behaviour) (calls : Calls)
    (index : Nat) (entry : EngineEntry) (info : EngineInfo) : Prop where
  deactivate : Slot.ofInfo info = .voice → ∀ old ∈ host.entryAt (host.inst.manager.active .voice),
    FairCall host.inst.log behaviour (activeName host) old.name .deactivate
  init : ∀ engine, entry.candidate calls.made = some engine →
    entry.engine.isSome ∨ entry.validate engine = .ok → engine.initialized = false →
      FairCall host.inst.log behaviour (activeName host) entry.name .init
  focusOut : Slot.ofInfo info = .keyboard → focused → entry.ComesUp calls →
    ∀ old ∈ host.entryAt (host.inst.manager.active .keyboard),
      FairCall host.inst.log behaviour (some info.name) old.name .focusOut

def SwitchesFairlyTo (host : Host) (focused : Bool) (behaviour : Behaviour) (name : String)
    (calls : Calls) : Prop :=
  ∀ index ∈ host.inst.manager.findEntryIndex name, ∀ entry ∈ host.inst.manager.entries[index]?,
    ∀ info ∈ entry.info, host.inst.manager.active (Slot.ofInfo info) ≠ some index →
      SwitchesFairly host focused behaviour calls index entry info

/-- The step has no engine notify a mode of its own while another one is active. -/
def AttributesFairly (host : Host) : Event → Prop
  | .inst (.manage (.operation operation) behaviour) => ∀ name calls,
      host.inst.manager.target operation = some (name, calls) →
        SwitchesFairlyTo host host.inst.focused behaviour name calls
  | .inst (.notice engine (.mode mode)) => host.inst.lastMode.any (·.equal mode) ∨
      ∀ name ∈ activeName host, engine = name ∨ Issued host.inst.log name mode
  | .activated identity behaviour calls => ∀ frontend ∈ host.owner.frontend,
      frontend.preferences → ∀ app ∈ identity, ∀ name ∈ (frontend.memory app).loadEngine,
        SwitchesFairlyTo host true behaviour name calls
  | .inst _ | .sync | .deactivated _ | .preferences _ => True

/-! ## Callbacks -/

namespace App.Sound

variable {app : App} {inst : Instance}

theorem report (sound : app.Sound) (current : Current inst) : (app.report inst).Sound := by
  unfold App.report
  cases active : activeEngine inst.manager .keyboard with
  | none => exact sound
  | some info =>
      cases last : inst.lastMode with
      | none => exact sound
      | some mode =>
          refine ⟨sound.remembered, fun given member => ?_⟩
          obtain rfl | old := List.mem_cons.mp member
          · exact current info active mode last
          · exact sound.reported given old

theorem rememberMode (sound : app.Sound) (current : Current inst) {mode : EngineMode}
    (last : inst.lastMode = some mode) : (app.rememberMode inst mode).Sound := by
  unfold App.rememberMode
  split
  · next frontend info modeId _ active identified =>
      refine ⟨fun given member => ?_, sound.reported⟩
      dsimp only at member
      split at member
      · obtain rfl | old := List.mem_cons.mp member
        · exact ⟨mode, current info active mode last, (Option.filter_eq_some_iff.mp identified).1⟩
        · exact sound.remembered given old
      · exact sound.remembered given member
  · exact sound

theorem rememberEngine (sound : app.Sound) : (app.rememberEngine inst).Sound := by
  unfold App.rememberEngine
  split
  · exact sound
  · exact ⟨sound.remembered, sound.reported⟩

theorem updateController (sound : app.Sound) (update : StateController → StateController) :
    (app.updateController update).Sound := ⟨sound.remembered, sound.reported⟩

theorem onCallback (sound : app.Sound) (current : Current inst) {callback : Callback}
    (told : ∀ mode, callback = .modeChanged mode → inst.lastMode = some mode) :
    (App.onCallback inst callback app).Sound := by
  cases callback with
  | modeChanged mode =>
      exact ((sound.rememberMode current (told mode rfl)).updateController _).report current
  | statusIconChanged icon => exact (sound.updateController _).report current
  | engineChanged info => exact ((sound.updateController _).report current).rememberEngine
  | voiceEngineChanged info => exact (sound.updateController _).report current

end App.Sound

theorem Attributed.tell {host : Host} (attributed : Attributed host) {callback : Callback}
    (told : ∀ mode, callback = .modeChanged mode → host.inst.lastMode = some mode) :
    Attributed (host.tell App.onCallback callback) :=
  ⟨attributed.sound.onCallback attributed.current told, attributed.current⟩

/-! ## Notices and calls -/

section Calls

variable {host : Host} {behaviour : Behaviour}

theorem Attributed.record (attributed : Attributed host) (entry : LogEntry) :
    Attributed (host.record entry) where
  sound := attributed.sound
  current info active mode last :=
    List.mem_cons_of_mem entry (attributed.current info active mode last)

theorem Attributed.notifyStatusIcon (attributed : Attributed host) (icon : String) :
    Attributed (host.notifyStatusIcon App.onCallback icon) := by
  unfold Hosted.notifyStatusIcon
  split
  · exact attributed
  · have stored : Attributed (host.updateInst fun inst =>
        { inst with lastStatusIcon := some icon }) := ⟨attributed.sound, attributed.current⟩
    exact stored.tell nofun

/-- A mode of the active engine is stored and told. -/
theorem Attributed.notifyMode (attributed : Attributed host) {mode : EngineMode}
    (issued : host.inst.lastMode.any (·.equal mode) ∨
      ∀ name ∈ activeName host, Issued host.inst.log name mode) :
    Attributed (host.notifyMode App.onCallback mode) := by
  unfold Hosted.notifyMode
  split
  · exact attributed
  next fresh =>
    have stored : Attributed (host.storeMode mode) := by
      refine ⟨attributed.sound, fun info active other last => ?_⟩
      obtain rfl : mode = other := Option.some.inj last
      have named : activeName host = some info.name := congrArg (Option.map EngineInfo.name) active
      exact issued.resolve_left fresh info.name named
    have told : Attributed ((host.storeMode mode).tell App.onCallback (.modeChanged mode)) :=
      stored.tell fun other is => by cases is; rfl
    dsimp only
    split
    · exact told
    · exact told.tell nofun

/-- The entry of the active engine is there, and holds an engine. -/
def Present (manager : EngineManager) : Prop :=
  ∀ place ∈ manager.active .keyboard, ∃ entry ∈ manager.entries[place]?, entry.engine.isSome

theorem present_of_live {manager : EngineManager} (live : manager.Live) : Present manager := by
  intro place active
  obtain ⟨entry, here, -, -, engine, cached, -⟩ := live .keyboard place active
  exact ⟨entry, here, by rw [Option.mem_def.mp cached]; rfl⟩

/-- The active engine is found where it was. -/
theorem Present.keeps {before after : EngineManager} (present : Present before)
    (keeps : before.Keeps after) :
    Present after ∧ activeEngine after .keyboard = activeEngine before .keyboard := by
  cases active : before.active .keyboard with
  | none =>
      have none : after.active .keyboard = none := by rw [keeps.active, active]
      refine ⟨fun place set => ?_, ?_⟩
      · rw [none] at set
        cases set
      · simp [activeEngine, EngineManager.occupant, none, active]
  | some place =>
      have set : after.active .keyboard = some place := by rw [keeps.active, active]
      obtain ⟨entry, here, cached⟩ := present place active
      obtain ⟨kept, there, same, cached'⟩ := keeps.entries place entry here
      have found := cached' cached
      refine ⟨fun other set' => ?_, ?_⟩
      · obtain rfl : place = other := Option.some.inj (set.symm.trans set')
        exact ⟨kept, there, found⟩
      · simp only [activeEngine, EngineManager.occupant, set, active, Option.bind_some,
          Option.mem_def.mp here, Option.mem_def.mp there, found, cached, ↓reduceIte]
        exact congrArg Prod.snd same

/-- What stays the same while engines are called: the pairs are right, the active engine is the
same, and nothing is taken out of the log. -/
structure Fair (active : Option String) (log : List LogEntry) (host : Host) : Prop where
  attributed : Attributed host
  present : Present host.inst.manager
  active : activeName host = active
  grows : log ⊆ host.inst.log

theorem Fair.updateManager {active : Option String} {log : List LogEntry}
    (fair : Fair active log host) (update : EngineManager → EngineManager)
    (keeps : host.inst.manager.Keeps (update host.inst.manager)) :
    Fair active log (host.updateManager update) := by
  obtain ⟨present, same⟩ := fair.present.keeps keeps
  refine ⟨⟨fair.attributed.sound, ?_⟩, present, ?_, fair.grows⟩
  · intro info found
    exact fair.attributed.current info (same ▸ found)
  · exact (congrArg (Option.map EngineInfo.name) same).trans fair.active

theorem Fair.notice {active : Option String} {log : List LogEntry} (fair : Fair active log host)
    {engine : String} {given : Notice}
    (allowed : ∀ mode, given = .mode mode → host.inst.lastMode.any (·.equal mode) ∨
      ∀ name ∈ active, engine = name ∨ Issued log name mode) :
    Fair active log (host.notice App.onCallback engine given) where
  attributed := by
    have recorded := fair.attributed.record (.noticed engine given)
    cases given with
    | statusIcon icon => exact recorded.notifyStatusIcon icon
    | mode mode =>
        refine recorded.notifyMode ((allowed mode rfl).imp_right fun owned name named => ?_)
        obtain rfl | issued := owned name (fair.active ▸ named)
        · exact List.mem_cons_self ..
        · exact List.mem_cons_of_mem _ (fair.grows issued)
  present := by
    rw [(Hosted.Still.notice App.onCallback host engine given).manager]
    exact fair.present
  active := by
    rw [activeName, (Hosted.Still.notice App.onCallback host engine given).manager]
    exact fair.active
  grows := by
    rw [Hosted.notice_log]
    exact List.subset_cons_of_subset _ fair.grows

theorem Fair.callEngine {active : Option String} {log : List LogEntry} (fair : Fair active log host)
    {engine : String} {call : EngineCall} (allowed : FairCall log behaviour active engine call) :
    Fair active log (host.callEngine App.onCallback behaviour engine call) := by
  have recorded : Fair active log (host.record (.called engine call)) :=
    ⟨fair.attributed.record _, fair.present, fair.active, List.subset_cons_of_subset _ fair.grows⟩
  refine @Hosted.callEngine_induction _ _ behaviour host (Fair active log) engine call recorded
    fun _ fair given member => fair.notice fun mode is => .inr (allowed mode (is ▸ member))

theorem Fair.callEntry {active : Option String} {log : List LogEntry} (fair : Fair active log host)
    {entry : Option EngineEntry} {call : EngineCall}
    (allowed : ∀ called ∈ entry, FairCall log behaviour active called.name call) :
    Fair active log (host.callEntry App.onCallback behaviour entry call) :=
  @Hosted.callEntry_induction _ _ behaviour host (Fair active log) entry call fair
    fun called is _ => fair.callEngine (allowed called is)

/-- The active engine may notify whatever it likes. -/
theorem fairCall_self (log : List LogEntry) (behaviour : Behaviour) {active : Option String}
    {engine : String} (call : EngineCall) (owned : ∀ name ∈ active, engine = name) :
    FairCall log behaviour active engine call :=
  fun _ _ name named => .inl (owned name named)

/-- The engine in the keyboard slot is the active one. -/
theorem activeName_of_entryAt (orderly : host.inst.manager.Orderly) {entry : EngineEntry}
    (here : entry ∈ host.entryAt (host.inst.manager.active .keyboard)) :
    activeName host = some entry.name := by
  obtain ⟨place, active, there⟩ := Option.bind_eq_some_iff.mp here
  obtain ⟨found, there', -, -, engine, cached, -⟩ := orderly.live .keyboard place active
  obtain rfl : entry = found := Option.mem_unique there there'
  obtain ⟨info, known, named⟩ := orderly.named entry (List.mem_of_getElem? there)
  simp only [activeName, activeEngine, EngineManager.occupant, active, Option.bind_some, there,
    Option.mem_def.mp cached, Option.isSome_some, ↓reduceIte, Option.mem_def.mp known,
    Option.map_some, named]

end Calls

/-! ## A switch -/

section Switch

variable {host : Host} {behaviour : Behaviour} {calls : Calls} {index : Nat} {entry : EngineEntry}
  {info : EngineInfo}

/-- Until it settles, a fair switch has no engine notify a mode of its own under another's name. -/
theorem Fair.made (fair : Fair (activeName host) host.inst.log host)
    (orderly : host.inst.manager.Orderly)
    (switches : SwitchesFairly host host.inst.focused behaviour calls index entry info) :
    Fair (activeName host) host.inst.log
      (host.made App.onCallback behaviour (Slot.ofInfo info) index calls) := by
  refine Hosted.made_induction App.onCallback behaviour (fair.callEntry fun old here => ?_)
    fun _ update fair keeps => fair.updateManager update keeps
  cases kind : Slot.ofInfo info with
  | voice => exact switches.deactivate kind old (kind ▸ here)
  | keyboard =>
      refine fairCall_self _ _ _ fun name named => ?_
      rw [activeName_of_entryAt orderly (kind ▸ here)] at named
      exact Option.some.inj named

theorem Fair.started (fair : Fair (activeName host) host.inst.log host)
    (orderly : host.inst.manager.Orderly)
    (switches : SwitchesFairly host host.inst.focused behaviour calls index entry info)
    (here : host.inst.manager.entries[index]? = some entry)
    (other : host.inst.manager.active (Slot.ofInfo info) ≠ some index) {engine : Engine}
    (candidate : entry.candidate calls.made = some engine)
    (checked : entry.engine.isSome ∨ entry.validate engine = .ok) :
    Fair (activeName host) host.inst.log
      (host.started App.onCallback behaviour (Slot.ofInfo info) index calls) := by
  have made := fair.made orderly switches
  refine Hosted.started_induction App.onCallback behaviour made (fun fresh => ?_)
    fun _ update fair keeps => fair.updateManager update keeps
  refine made.callEntry fun called there => ?_
  obtain ⟨rejected, found⟩ := Hosted.made_entryAt App.onCallback behaviour here other candidate
  rw [found] at fresh there
  obtain rfl := Option.some.inj there
  exact switches.init engine candidate checked (by simpa using fresh)

theorem Fair.clear {active : Option String} {log : List LogEntry} (fair : Fair active log host) :
    Fair active log host.clearStatusIcon.clearMode :=
  ⟨⟨fair.attributed.sound, fun _ _ mode last => by cases last⟩, fair.present, fair.active,
    fair.grows⟩

/-- The focused context is bound to the active engine. -/
theorem Fair.rebind {log : List LogEntry} {new : EngineEntry} (fair : Fair (some new.name) log host)
    (old : Option EngineEntry) (allowed : host.inst.focused →
      ∀ called ∈ old, FairCall log behaviour (some new.name) called.name .focusOut) :
    Fair (some new.name) log
      (host.rebindFocusedContext App.onCallback behaviour old (some new)) := by
  have self (call : EngineCall) : FairCall log behaviour (some new.name) new.name call :=
    fairCall_self log behaviour call fun name named => Option.some.inj named
  have entering {host : Host} (fair : Fair (some new.name) log host) (call : EngineCall) :
      Fair (some new.name) log (host.callEntry App.onCallback behaviour (some new) call) :=
    fair.callEntry fun called is => by
      obtain rfl := Option.some.inj is
      exact self call
  unfold Hosted.rebindFocusedContext
  split
  · exact fair
  next focused =>
    have left := (fair.callEntry (allowed (by simpa using focused))).clear
    have entered := entering (entering left .reset) .focusIn
    dsimp only
    split
    · exact entered
    next found is =>
      obtain ⟨same, -⟩ := Option.filter_eq_some_iff.mp is
      obtain rfl := Option.some.inj same
      have asked := entered.callEngine (self .getMode)
      split
      · exact asked
      · exact asked.notice fun mode _ => .inr fun name named => .inl (Option.some.inj named)

/-- Once it has taken the slot, the new engine is the active one. -/
theorem Fair.settled {log : List LogEntry} {active : Option String} {started : Host}
    (fair : Fair active log started) {new : EngineEntry}
    (there : started.entryAt (some index) = some new) (known : new.info = some info)
    (cached : new.engine.isSome) (named : info.name = new.name) :
    Fair (some new.name) log ((started.updateManager fun manager => { manager with
      active := Function.update manager.active .keyboard (some index) }).clearStatusIcon).clearMode where
  attributed := ⟨fair.attributed.sound, fun _ _ mode last => by cases last⟩
  present place set := by
    obtain rfl : index = place := by simpa using set
    exact ⟨new, there, cached⟩
  active := by
    have found : started.inst.manager.entries[index]? = some new := there
    simp [activeName, activeEngine, EngineManager.occupant, found, cached, known, named]
  grows := fair.grows

/-- A fair switch keeps the pairs right. -/
theorem Attributed.switchTo (attributed : Attributed host) (orderly : host.inst.manager.Orderly)
    (here : host.inst.manager.entries[index]? = some entry) (known : entry.info = some info)
    (switches : host.inst.manager.active (Slot.ofInfo info) ≠ some index →
      SwitchesFairly host host.inst.focused behaviour calls index entry info) :
    Attributed (host.switchTo App.onCallback behaviour info index calls).1 := by
  by_cases same : host.inst.manager.active (Slot.ofInfo info) = some index
  · rw [Hosted.switchTo, if_pos same]
    exact attributed
  replace switches := switches same
  have fair : Fair (activeName host) host.inst.log host :=
    ⟨attributed, present_of_live orderly.live, rfl, List.Subset.refl _⟩
  have made := fair.made orderly switches
  by_cases done : (host.switchTo App.onCallback behaviour info index calls).2 = .ok
  · have up := Hosted.comesUp_of_done App.onCallback behaviour here same done
    have ⟨engine, candidate, checked, _⟩ := up
    have started := fair.started orderly switches here same candidate checked
    rw [Hosted.switchTo_done App.onCallback behaviour here same up]
    cases kind : Slot.ofInfo info with
    | voice =>
        rw [kind] at started
        have keyboard (manager : EngineManager) : activeEngine { manager with
            active := Function.update manager.active .voice (some index) } .keyboard =
              activeEngine manager .keyboard := rfl
        have settled : Attributed ((host.started App.onCallback behaviour .voice index
            calls).updateManager fun manager => { manager with
              active := Function.update manager.active .voice (some index) }) :=
          ⟨started.attributed.sound, fun found active =>
            started.attributed.current found (keyboard _ ▸ active)⟩
        exact settled.tell nofun
    | keyboard =>
        obtain ⟨engine', rejected, -, -, there⟩ :=
          Hosted.started_entryAt App.onCallback behaviour here same up
        obtain ⟨info', known', named⟩ := orderly.named entry (List.mem_of_getElem? here)
        obtain rfl : info = info' := Option.mem_unique known known'
        rw [kind] at started there
        have settled := started.settled there known rfl named
        have stillFocused : (host.started App.onCallback behaviour .keyboard index
            calls).inst.focused = host.inst.focused := Hosted.started_focused App.onCallback behaviour
        have bound := @Fair.rebind _ behaviour _ _ settled
          ((host.started App.onCallback behaviour .keyboard index calls).entryAt
            (host.inst.manager.active .keyboard)) fun focused called left => by
          obtain ⟨old, oldHere, oldName⟩ :=
            Hosted.started_name App.onCallback behaviour left orderly.live rfl
          rw [oldName, ← named]
          exact switches.focusOut kind (stillFocused ▸ focused) up old oldHere
        refine Attributed.tell ?_ nofun
        rw [← there] at bound
        exact bound.attributed
  · have ended : Fair (activeName host) host.inst.log
        (host.switchTo App.onCallback behaviour info index calls).1 :=
      @Hosted.switchTo_failed_induction _ App.onCallback behaviour host info index calls entry
        (Fair (activeName host) host.inst.log) orderly.live here same done made
        (fun _ candidate checked => fair.started orderly switches here same candidate checked)
        fun _ update fair keeps => fair.updateManager update keeps
    exact ended.attributed

end Switch

/-! ## Steps and runs -/

section Steps

variable {host : Host} {behaviour : Behaviour}

theorem Attributed.setActive (attributed : Attributed host) (orderly : host.inst.manager.Orderly)
    {name : String} {calls : Calls}
    (switches : SwitchesFairlyTo host host.inst.focused behaviour name calls) :
    Attributed (host.setActive App.onCallback behaviour name calls).1 := by
  obtain same | ⟨index, found, entry, here, info, known, switch⟩ :=
    Hosted.setActive_cases App.onCallback behaviour host name calls
  · rwa [same]
  · rw [switch]
    exact attributed.switchTo orderly here known (switches index found entry here info known)

/-- A change of the registry that makes no other engine the active one. -/
theorem Attributed.updateManager (attributed : Attributed host)
    {update : EngineManager → EngineManager}
    (kept : (update host.inst.manager).occupant .keyboard = none ∨
      (update host.inst.manager).occupant .keyboard = host.inst.manager.occupant .keyboard) :
    Attributed (host.updateManager update) := by
  refine ⟨attributed.sound, fun info active => ?_⟩
  obtain none | same := kept
  · simp [activeEngine, none] at active
  · refine attributed.current info ?_
    rw [activeEngine, ← same]
    exact active

theorem Attributed.manage (attributed : Attributed host) (orderly : host.inst.manager.Orderly)
    {operation : EngineManager.RegistryOperation}
    (fair : AttributesFairly host (.inst (.manage operation behaviour))) :
    Attributed (host.manage App.onCallback behaviour operation) := by
  cases operation with
  | load library =>
      exact @Attributed.updateManager host attributed (·.registryStep (.load library))
        (.inr (orderly.live.occupant_load library .keyboard))
  | operation operation =>
      cases asks : host.inst.manager.target operation with
      | some pair =>
          obtain ⟨name, calls⟩ := pair
          rw [Hosted.manage_of_target App.onCallback behaviour asks]
          exact attributed.setActive orderly (fair name calls asks)
      | none =>
          rw [Hosted.manage_of_no_target App.onCallback behaviour asks]
          refine attributed.updateManager ?_
          by_cases unloads : ∃ name, operation = .unload name
          · obtain ⟨name, rfl⟩ := unloads
            have rightly := orderly.intact.unloadsRightly (.operation (.unload name)) .keyboard
            split at rightly
            · refine .inl ?_
              change (host.inst.manager.unload name).1.occupant .keyboard = none
              rw [EngineManager.occupant, rightly]
              rfl
            · exact .inr rightly
          · exact .inr (orderly.occupant_step asks (fun name is => absurd ⟨name, is⟩ unloads) _)

/-- The active engine may be called at any time. -/
theorem Attributed.callActive (attributed : Attributed host)
    (orderly : host.inst.manager.Orderly) {entry : EngineEntry}
    (active : host.activeKeyboard = some entry) (call : EngineCall) :
    Attributed (host.callEngine App.onCallback behaviour entry.name call) := by
  have fair : Fair (activeName host) host.inst.log host :=
    ⟨attributed, present_of_live orderly.live, rfl, List.Subset.refl _⟩
  refine (fair.callEngine (fairCall_self _ _ _ fun name named => ?_)).attributed
  rw [activeName_of_entryAt orderly active] at named
  exact Option.some.inj named

theorem Attributed.callKeyboard (attributed : Attributed host)
    (orderly : host.inst.manager.Orderly) (call : EngineCall) :
    Attributed (host.callEntry App.onCallback behaviour host.activeKeyboard call) :=
  @Hosted.callEntry_induction _ _ behaviour host Attributed host.activeKeyboard call attributed
    fun _ active _ => attributed.callActive orderly active call

theorem Attributed.contextFocusIn (attributed : Attributed host)
    (orderly : host.inst.manager.Orderly) :
    Attributed (host.contextFocusIn App.onCallback behaviour) := by
  unfold Hosted.contextFocusIn
  split
  · exact attributed
  · exact @Attributed.callKeyboard (host.updateInst fun inst => { inst with focused := true })
      behaviour ⟨attributed.sound, attributed.current⟩ orderly .focusIn

theorem Attributed.contextFocusOut (attributed : Attributed host)
    (orderly : host.inst.manager.Orderly) :
    Attributed (host.contextFocusOut App.onCallback behaviour) := by
  unfold Hosted.contextFocusOut
  split
  · exact attributed
  · have called := @Attributed.callKeyboard host behaviour attributed orderly .focusOut
    exact ⟨called.sound, called.current⟩

theorem Attributed.updateFrontend (attributed : Attributed host)
    (update : IdentityFrontend → IdentityFrontend) :
    Attributed (Host.updateFrontend host update) :=
  ⟨⟨attributed.sound.remembered, attributed.sound.reported⟩, attributed.current⟩

theorem Attributed.identityRestoreMode (attributed : Attributed host)
    (orderly : host.inst.manager.Orderly) :
    Attributed (Host.identityRestoreMode host behaviour) := by
  unfold Host.identityRestoreMode
  split
  · next engine modeId entry _ active =>
      split
      · exact attributed
      · have asked := @Attributed.callActive host behaviour attributed orderly entry active .getMode
        dsimp only
        split
        · exact asked
        · have still := Hosted.Still.callEngine App.onCallback behaviour host entry.name .getMode
          refine asked.callActive (still.manager ▸ orderly) ?_ (.setMode modeId)
          rw [Hosted.activeKeyboard, Hosted.entryAt, still.manager]
          exact active
  · exact attributed

/-- The engines remembered for the applications are as before. -/
def SameEngines (before after : App) : Prop :=
  ∀ later ∈ after.frontend, ∃ earlier ∈ before.frontend, later.preferences = earlier.preferences ∧
    ∀ app, (later.memory app).loadEngine = (earlier.memory app).loadEngine

theorem SameEngines.refl (app : App) : SameEngines app app :=
  fun frontend here => ⟨frontend, here, rfl, fun _ => rfl⟩

theorem SameEngines.trans {before middle after : App} (first : SameEngines before middle)
    (second : SameEngines middle after) : SameEngines before after := by
  intro later here
  obtain ⟨between, there, preferences, engines⟩ := second later here
  obtain ⟨earlier, last, preferences', engines'⟩ := first between there
  exact ⟨earlier, last, preferences.trans preferences', fun app =>
    (engines app).trans (engines' app)⟩

theorem SameEngines.of_frontend {before after : App} (same : after.frontend = before.frontend) :
    SameEngines before after := by
  intro frontend here
  exact ⟨frontend, same ▸ here, rfl, fun _ => rfl⟩

theorem IdentityMemory.storeMode_loadEngine (memory : IdentityMemory) (engine modeId : String) :
    (memory.storeMode engine modeId).loadEngine = memory.loadEngine := by
  unfold IdentityMemory.storeMode
  split <;> rfl

/-- Writing a mode changes no engine that is remembered. -/
theorem SameEngines.rememberMode (app : App) (inst : Instance) (mode : EngineMode) :
    SameEngines app (app.rememberMode inst mode) := by
  unfold App.rememberMode
  split
  · next frontend info modeId present _ _ =>
      intro later here
      obtain rfl := Option.some.inj here
      refine ⟨frontend, present, ?_, fun app => ?_⟩ <;> unfold IdentityFrontend.rememberActiveMode
      · split <;> rfl
      · split
        · rfl
        next identity _ =>
          by_cases same : app = identity
          · subst same
            simp [IdentityFrontend.modifyMemory, IdentityMemory.storeMode_loadEngine]
          · simp [IdentityFrontend.modifyMemory, Function.update_of_ne same]
  · exact .refl app

theorem SameEngines.report (app : App) (inst : Instance) : SameEngines app (app.report inst) := by
  refine .of_frontend ?_
  unfold App.report
  split <;> rfl

theorem SameEngines.notice (host : Host) (engine : String) (given : Notice) :
    SameEngines host.owner (host.notice App.onCallback engine given).owner := by
  have icon (host : Host) (icon : String) :
      SameEngines host.owner (host.tell App.onCallback (.statusIconChanged icon)).owner :=
    SameEngines.report (host.owner.updateController _) host.inst
  cases given with
  | statusIcon given =>
      change SameEngines _ (Hosted.notifyStatusIcon App.onCallback _ given).owner
      unfold Hosted.notifyStatusIcon
      split
      · exact .refl _
      · exact icon _ given
  | mode mode =>
      change SameEngines _ (Hosted.notifyMode App.onCallback _ mode).owner
      unfold Hosted.notifyMode
      split
      · exact .refl _
      have told (host : Host) :
          SameEngines host.owner (host.tell App.onCallback (.modeChanged mode)).owner :=
        (rememberMode host.owner host.inst mode).trans
          (SameEngines.report ((host.owner.rememberMode host.inst mode).updateController _) host.inst)
      have stored := told ((host.record (.noticed engine (.mode mode))).storeMode mode)
      dsimp only
      split
      · exact stored
      · exact stored.trans (icon _ _)

theorem SameEngines.callEntry (host : Host) (entry : Option EngineEntry) (call : EngineCall) :
    SameEngines host.owner (host.callEntry App.onCallback behaviour entry call).owner :=
  @Hosted.callEntry_induction _ _ behaviour host (fun after => SameEngines host.owner after.owner)
    entry call (.refl _) fun called _ _ =>
      @Hosted.callEngine_induction _ _ behaviour host
        (fun after => SameEngines host.owner after.owner) called.name call (.refl _)
        fun after same given _ => same.trans (.notice after called.name given)

/-- A switch that is fair now is fair when the focus has been given. -/
theorem SwitchesFairlyTo.later {after : Host} {name : String} {calls : Calls}
    (switches : SwitchesFairlyTo host true behaviour name calls)
    (manager : after.inst.manager = host.inst.manager) (grows : host.inst.log ⊆ after.inst.log) :
    SwitchesFairlyTo after after.inst.focused behaviour name calls := by
  have mono {active : Option String} {engine : String} {call : EngineCall}
      (fair : FairCall host.inst.log behaviour active engine call) :
      FairCall after.inst.log behaviour active engine call :=
    fun mode given name named => (fair mode given name named).imp_right fun issued => grows issued
  have named : activeName after = activeName host := by rw [activeName, manager, activeName]
  intro index found entry here info known other
  rw [manager] at found here other
  obtain ⟨deactivate, init, focusOut⟩ := switches index found entry here info known other
  refine ⟨fun kind old left => ?_, fun engine candidate checked fresh => ?_,
    fun kind _ up old left => ?_⟩
  · rw [named]
    rw [Hosted.entryAt, manager] at left
    exact mono (deactivate kind old left)
  · rw [named]
    exact mono (init engine candidate checked fresh)
  · rw [Hosted.entryAt, manager] at left
    exact mono (focusOut kind rfl up old left)

theorem Attributed.transitionToActive (attributed : Attributed host)
    (orderly : host.inst.manager.Orderly) {identity : Option String} {calls : Calls}
    (fair : AttributesFairly host (.activated identity behaviour calls)) :
    Attributed (Host.transitionToActive host identity behaviour calls) := by
  have focused := @Attributed.contextFocusIn host behaviour attributed orderly
  have manager := Hosted.contextFocusIn_manager App.onCallback behaviour host
  have engines : SameEngines host.owner (host.contextFocusIn App.onCallback behaviour).owner := by
    unfold Hosted.contextFocusIn
    split
    · exact .refl _
    · exact SameEngines.callEntry (host.updateInst fun inst => { inst with focused := true }) _ _
  have grows := Hosted.contextFocusIn_log App.onCallback behaviour host
  unfold Host.transitionToActive
  generalize host.contextFocusIn App.onCallback behaviour = entered at *
  have identified := focused.updateFrontend fun frontend =>
    { frontend with currentIdentity := identity }
  have identifiedOrderly : (Host.refreshIdentity entered identity).inst.manager.Orderly :=
    manager.symm ▸ orderly
  unfold Host.restoreIdentityEngine
  cases remembers : (Host.refreshIdentity entered identity).owner.currentMemory with
  | none => exact identified
  | some memory =>
      dsimp only
      cases loads : memory.loadEngine with
      | none => exact identified.identityRestoreMode identifiedOrderly
      | some engine =>
          dsimp only
          split
          · exact identified.identityRestoreMode identifiedOrderly
          · have switches : SwitchesFairlyTo host true behaviour engine calls := by
              simp only [App.currentMemory, Host.refreshIdentity, Host.updateFrontend,
                Option.bind_eq_some_iff, Option.map_eq_some_iff] at remembers
              obtain ⟨identified, ⟨later, here, rfl⟩, app, remembering, rfl⟩ := remembers
              obtain ⟨earlier, there, preferences, same⟩ := engines later here
              unfold IdentityFrontend.remembering at remembering
              split at remembering
              · next kept =>
                  exact fair earlier there (preferences ▸ kept) app remembering engine
                    ((same app).symm.trans loads)
              · cases remembering
            have switched := identified.setActive identifiedOrderly
              (@SwitchesFairlyTo.later host behaviour (Host.refreshIdentity entered identity) _ _
                switches manager grows)
            refine switched.identityRestoreMode ?_
            rw [Hosted.setActive_manager]
            exact identifiedOrderly.registryStep (.operation (.setActive engine calls))

theorem step_orderly (orderly : host.inst.manager.Orderly) (event : Event) :
    (step host event).inst.manager.Orderly := by
  obtain same | ⟨operation, changed⟩ := step_manager host event
  · exact same ▸ orderly
  · exact changed ▸ orderly.registryStep operation

theorem Attributed.step (attributed : Attributed host) (orderly : host.inst.manager.Orderly)
    {event : Event} (fair : AttributesFairly host event) : Attributed (step host event) := by
  cases event with
  | sync => exact ⟨(attributed.sound.updateController _).report attributed.current, attributed.current⟩
  | preferences enabled => exact attributed.updateFrontend _
  | activated identity behaviour calls => exact attributed.transitionToActive orderly fair
  | deactivated behaviour =>
      have left := @Attributed.contextFocusOut host behaviour attributed orderly
      have manager := Hosted.contextFocusOut_manager App.onCallback behaviour host
      exact (left.callKeyboard (manager.symm ▸ orderly) .reset).updateFrontend _
  | inst event =>
      cases event with
      | manage operation behaviour => exact attributed.manage orderly fair
      | focusIn behaviour => exact attributed.contextFocusIn orderly
      | focusOut behaviour => exact attributed.contextFocusOut orderly
      | reset behaviour => exact attributed.callKeyboard orderly .reset
      | clearMode => exact ⟨attributed.sound, fun _ _ mode last => by cases last⟩
      | notice engine given =>
          have fair' : Fair (activeName host) host.inst.log host :=
            ⟨attributed, present_of_live orderly.live, rfl, List.Subset.refl _⟩
          refine (fair'.notice ?_).attributed
          rintro mode rfl
          exact fair

end Steps

/-- In every run whose steps all attribute fairly, every pair of engine and mode which is written to
an application's memory or reported was issued by that engine before. -/
theorem attributed_of_fair (recentPrimary recentSecondary : Option String)
    (frontend : Option IdentityFrontend) (events : List Event)
    (fair : Machine.EachStep step AttributesFairly
      (Hosted.start (.new recentPrimary recentSecondary) (App.new frontend)) events) :
    Machine.Always step Attributed
      (Hosted.start (.new recentPrimary recentSecondary) (App.new frontend)) events := by
  have always := Machine.Always.of_invariant
    (fun host : Host => Attributed host ∧ host.inst.manager.Orderly)
    (fun host event ⟨attributed, orderly⟩ fair =>
      ⟨attributed.step orderly fair, step_orderly orderly event⟩)
    ⟨⟨⟨fun _ member => (List.not_mem_nil member).elim,
      fun _ member => (List.not_mem_nil member).elim⟩, fun _ _ mode last => by cases last⟩,
      EngineManager.new_orderly recentPrimary recentSecondary⟩ fair
  exact always.mono fun _ => And.left

/-- Two keyboard engines, of which the first is active while an application has the focus. -/
def focusedOnFirst (behaviour : Behaviour) : List Event :=
  [.inst (.manage (.operation (.register (some { name := "rime", type := .keyboard }))) behaviour),
    .inst (.manage (.operation (.register (some { name := "mozc", type := .keyboard }))) behaviour),
    .inst (.manage (.operation (.setActive "rime"
      { made := some ⟨true, true, true, false⟩, init := .ok, restored := .ok })) behaviour),
    .activated (some "editor") behaviour
      { made := some ⟨true, true, true, false⟩, init := .ok, restored := .ok },
    .inst (.manage (.operation (.setActive "mozc"
      { made := some ⟨true, true, true, false⟩, init := .ok, restored := .ok })) behaviour)]

/-- An engine which notifies the mode from the call. -/
def notifying (engine : String) (call : EngineCall) (mode : EngineMode) : Behaviour where
  notices called of := if called = engine ∧ of = call then [.mode mode] else []
  mode _ := none
  canSetMode _ := false

/-- Nobody's memory holds anything. -/
def blankFrontend : IdentityFrontend where
  currentIdentity := none
  preferences := true
  memory _ := { engine := none, legacyEngine := none, modeEngine := none, modeId := none }

def latinMode : EngineMode where
  modeClass := .latin
  modeId := some "ascii"
  displayLabel := none
  iconName := none

/-- The engine that comes notifies its mode from `focus_in`, when it is the active one. -/
theorem attributed_of_fair_coming :
    Machine.Always step Attributed (Hosted.start (.new none none) (App.new (some blankFrontend)))
      (focusedOnFirst (notifying "mozc" .focusIn latinMode)) := by
  have silent (log : List LogEntry) (active : Option String) (engine : String) (call : EngineCall)
      (other : call ≠ .focusIn) :
      FairCall log (notifying "mozc" .focusIn latinMode) active engine call := by
    intro mode given
    change Notice.mode mode ∈ (if engine = "mozc" ∧ call = .focusIn then _ else []) at given
    rw [if_neg fun same => other same.2] at given
    cases given
  have switches (host : Host) (focused : Bool) (name : String) (calls : Calls) :
      SwitchesFairlyTo host focused (notifying "mozc" .focusIn latinMode) name calls :=
    fun _ _ _ _ _ _ _ => ⟨fun _ _ _ => silent _ _ _ _ nofun, fun _ _ _ _ => silent _ _ _ _ nofun,
      fun _ _ _ _ _ => silent _ _ _ _ nofun⟩
  refine attributed_of_fair none none (some blankFrontend) _ ?_
  simp only [focusedOnFirst, Machine.eachStep_cons, Machine.eachStep_nil, and_true]
  exact ⟨fun _ _ _ => switches _ _ _ _, fun _ _ _ => switches _ _ _ _,
    fun _ _ _ => switches _ _ _ _, fun _ _ _ _ _ _ _ => switches _ _ _ _,
    fun _ _ _ => switches _ _ _ _⟩

def noticedBy (engine : String) : LogEntry → Bool
  | .noticed name (.mode _) => name == engine
  | _ => false

/-- The engine that leaves notifies its mode from `focus_out`, and the mode is written to the
application's memory under the name of the engine that comes. -/
theorem leaving_mode_misattributed :
    ¬ Machine.Always step Attributed (Hosted.start (.new none none) (App.new (some blankFrontend)))
      (focusedOnFirst (notifying "rime" .focusOut latinMode)) := by
  intro always
  have owned : (Machine.run step (Hosted.start (.new none none) (App.new (some blankFrontend)))
      (focusedOnFirst (notifying "rime" .focusOut latinMode))).owner.remembered.all
        fun given => given.log.any (noticedBy given.engine) := by
    refine List.all_eq_true.mpr fun given member => ?_
    obtain ⟨mode, issued, -⟩ := always.final.sound.remembered given member
    exact List.any_eq_true.mpr ⟨_, issued, by simp [noticedBy]⟩
  exact absurd owned (by decide +kernel)

end Daemon

end Typio
