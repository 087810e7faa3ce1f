import Typio.Core.InstanceSwitch
import Typio.Daemon.App

/-!
# The controller's copy and the instance

The mode which the controller reports is meant to be the instance's last mode, and the names the
names of the active engines.  A switch clears the mode of the instance without telling anyone, an
unloading empties a slot without telling anyone, and the copy drops empty strings.  The copy is
right in every run in which a keyboard switch is followed by a mode of the new engine or has no
mode to invalidate, no active engine is unloaded, and no empty string is to be copied.
-/

namespace Typio

namespace Daemon

open Typio.Core

/-! ## The property -/

/-- The controller reports at most the last mode, and the names of the active engines. -/
structure Coherent (host : Host) : Prop where
  mode : ∀ mode ∈ host.owner.controller.mode, host.inst.lastMode = some mode
  names : ∀ slot, host.owner.controller.engineName slot =
    (activeEngine host.inst.manager slot).map EngineInfo.name

/-! ## The condition -/

/-- No string of the mode is empty. -/
def Stated (mode : EngineMode) : Prop :=
  mode.modeId ≠ some "" ∧ mode.displayLabel ≠ some "" ∧ mode.iconName ≠ some ""

/-- Every mode the engines give is stated. -/
structure AllStated (behaviour : Behaviour) : Prop where
  notices : ∀ engine call mode, .mode mode ∈ behaviour.notices engine call → Stated mode
  mode : ∀ engine, ∀ mode ∈ behaviour.mode engine, Stated mode

def Notifies (behaviour : Behaviour) (engine : String) (call : EngineCall) : Prop :=
  ∃ mode, .mode mode ∈ behaviour.notices engine call

/-- The engine that is switched to gives its mode while the focused context is bound to it. -/
def Refreshes (host : Host) (behaviour : Behaviour) (entry : EngineEntry) (calls : Calls) : Prop :=
  host.inst.focused ∧
    (Notifies behaviour entry.name .reset ∨ Notifies behaviour entry.name .focusIn ∨
      (entry.candidate calls.made).any Engine.asKeyboard ∧
        (Notifies behaviour entry.name .getMode ∨ (behaviour.mode entry.name).isSome))

/-- The controller has no mode, and gets none before the switch is done. -/
structure Quiet (host : Host) (behaviour : Behaviour) (current : Option Nat) (entry : EngineEntry)
    (calls : Calls) : Prop where
  mode : host.owner.controller.mode = none
  deactivate : ∀ old ∈ host.entryAt current, ¬ Notifies behaviour old.name .deactivate
  init : (entry.candidate calls.made).any (!·.initialized) → ¬ Notifies behaviour entry.name .init
  focusOut : host.inst.focused → ∀ old ∈ host.entryAt current,
    ¬ Notifies behaviour old.name .focusOut

/-- A switch which succeeds in the keyboard slot invalidates no mode that the controller keeps. -/
def SwitchesCoherently (host : Host) (behaviour : Behaviour) (name : String) (calls : Calls) :
    Prop :=
  ∀ index ∈ host.inst.manager.findEntryIndex name, ∀ entry ∈ host.inst.manager.entries[index]?,
    ∀ info ∈ entry.info, Slot.ofInfo info = .keyboard →
      host.inst.manager.active .keyboard ≠ some index → entry.ComesUp calls →
        Refreshes host behaviour entry calls ∨
          Quiet host behaviour (host.inst.manager.active .keyboard) entry calls

/-- What happens to the state: an event of the instance, or a sync of the controller. -/
inductive StateEvent where
  | inst (event : Hosted.Event)
  | sync

def stateStep (host : Host) : StateEvent → Host
  | .inst event => host.step App.onCallback event
  | .sync => host.sync

/-- The step keeps the copy right. -/
def KeepsCoherent (host : Host) : StateEvent → Prop
  | .inst (.manage (.operation (.unload name)) _) =>
      ∀ slot, ∀ entry ∈ host.inst.manager.occupant slot, entry.name ≠ name
  | .inst (.manage (.operation operation) behaviour) =>
      AllStated behaviour ∧ ∀ name calls,
        host.inst.manager.target operation = some (name, calls) →
          SwitchesCoherently host behaviour name calls
  | .inst (.manage (.load _) _) => True
  | .inst (.focusIn behaviour) | .inst (.focusOut behaviour)
  | .inst (.reset behaviour) => AllStated behaviour
  | .inst (.notice _ (.mode mode)) => host.inst.lastMode.any (·.equal mode) ∨ Stated mode
  | .inst (.notice _ (.statusIcon _)) => True
  | .inst .clearMode => host.owner.controller.mode = none
  | .sync => ∀ slot, ∀ info ∈ activeEngine host.inst.manager slot, info.name ≠ ""

/-! ## Notices -/

theorem copyMode_of_stated {mode : EngineMode} (stated : Stated mode) :
    StateController.copyMode mode = mode := by
  obtain ⟨modeClass, modeId, displayLabel, iconName⟩ := mode
  obtain ⟨id, label, icon⟩ := stated
  have kept {text : Option String} (full : text ≠ some "") :
      StateController.stateStrdup text = text := by
    cases text with
    | none => rfl
    | some text => simpa [StateController.stateStrdup] using full
  simp only [StateController.copyMode, kept id, kept label, kept icon]

@[simp] theorem App.report_controller (app : App) (inst : Instance) :
    (app.report inst).controller = app.controller := by
  unfold App.report
  split <;> rfl

@[simp] theorem App.rememberMode_controller (app : App) (inst : Instance) (mode : EngineMode) :
    (app.rememberMode inst mode).controller = app.controller := by
  unfold App.rememberMode
  split <;> rfl

@[simp] theorem App.rememberEngine_controller (app : App) (inst : Instance) :
    (app.rememberEngine inst).controller = app.controller := by
  unfold App.rememberEngine
  split <;> rfl

/-- What the property looks at beside the manager. -/
structure SameModes (before after : Host) : Prop where
  lastMode : after.inst.lastMode = before.inst.lastMode
  mode : after.owner.controller.mode = before.owner.controller.mode

/-- The names are as before. -/
def SameNames (before after : Host) : Prop :=
  after.owner.controller.engineName = before.owner.controller.engineName

section Notices

variable (host : Host)

theorem tell_statusIcon_same (icon : String) :
    SameModes host (host.tell App.onCallback (.statusIconChanged icon)) ∧
      SameNames host (host.tell App.onCallback (.statusIconChanged icon)) := by
  refine ⟨⟨rfl, ?_⟩, ?_⟩
  · simp [Hosted.tell, App.onCallback, App.updateController,
      StateController.notifyStatusIconChanged]
  · funext slot
    cases slot <;> simp [Hosted.tell, App.onCallback, App.updateController,
      StateController.notifyStatusIconChanged, StateController.engineName]

theorem notifyStatusIcon_same (icon : String) :
    SameModes host (host.notifyStatusIcon App.onCallback icon) ∧
      SameNames host (host.notifyStatusIcon App.onCallback icon) := by
  unfold Hosted.notifyStatusIcon
  split
  · exact ⟨⟨rfl, rfl⟩, rfl⟩
  · obtain ⟨⟨lastMode, mode⟩, names⟩ := tell_statusIcon_same
      (host.updateInst fun inst => { inst with lastStatusIcon := some icon }) icon
    exact ⟨⟨lastMode, mode⟩, names⟩

theorem tell_mode (mode : EngineMode) :
    (host.tell App.onCallback (.modeChanged mode)).inst = host.inst ∧
      (host.tell App.onCallback (.modeChanged mode)).owner.controller.mode =
        some (StateController.copyMode mode) ∧
      SameNames host (host.tell App.onCallback (.modeChanged mode)) := by
  refine ⟨rfl, ?_, ?_⟩
  · simp [Hosted.tell, App.onCallback, App.updateController, StateController.notifyModeChanged]
  · funext slot
    cases slot <;> simp [Hosted.tell, App.onCallback, App.updateController,
      StateController.notifyModeChanged, StateController.engineName]

/-- A mode that is not the last one is stored and copied. -/
theorem notifyMode_fresh {mode : EngineMode} (fresh : ¬ host.inst.lastMode.any (·.equal mode)) :
    (host.notifyMode App.onCallback mode).inst.lastMode = some mode ∧
      (host.notifyMode App.onCallback mode).owner.controller.mode =
        some (StateController.copyMode mode) ∧
      SameNames host (host.notifyMode App.onCallback mode) := by
  unfold Hosted.notifyMode
  rw [if_neg fresh]
  dsimp only
  obtain ⟨inst, copied, names⟩ := tell_mode (host.storeMode mode) mode
  generalize Hosted.tell App.onCallback (host.storeMode mode) (.modeChanged mode) = told
    at inst copied names
  have stored : told.inst.lastMode = some mode := by rw [inst]; rfl
  cases mode.iconName with
  | none => exact ⟨stored, copied, names⟩
  | some icon =>
      obtain ⟨same, sameNames⟩ := tell_statusIcon_same told icon
      exact ⟨same.lastMode.trans stored, same.mode.trans copied, sameNames.trans names⟩

theorem notice_names (engine : String) (given : Notice) :
    SameNames host (host.notice App.onCallback engine given) := by
  cases given with
  | statusIcon icon => exact (notifyStatusIcon_same _ icon).2
  | mode mode =>
      change SameNames host (Hosted.notifyMode App.onCallback _ mode)
      by_cases fresh : ¬ host.inst.lastMode.any (·.equal mode)
      · exact (notifyMode_fresh (host.record (.noticed engine (.mode mode))) fresh).2.2
      · rw [Hosted.notifyMode, if_pos]
        · rfl
        · exact not_not.mp fresh

end Notices

/-! ## Modes through calls -/

/-- The controller reports no mode but the last one. -/
def Agree (host : Host) : Prop :=
  ∀ mode ∈ host.owner.controller.mode, host.inst.lastMode = some mode

namespace Agree

variable {host : Host}

theorem of_same {after : Host} (agree : Agree host) (same : SameModes host after) :
    Agree after := by
  intro mode copied
  rw [same.lastMode]
  exact agree mode (same.mode ▸ copied)

theorem notice_mode (engine : String) {mode : EngineMode} (stated : Stated mode)
    (fresh : ¬ host.inst.lastMode.any (·.equal mode)) :
    Agree (host.notice App.onCallback engine (.mode mode)) := by
  obtain ⟨stored, copied, -⟩ :=
    notifyMode_fresh (host.record (.noticed engine (.mode mode))) fresh
  intro other shown
  change (Hosted.notifyMode App.onCallback _ mode).owner.controller.mode = some other at shown
  rw [copied, copyMode_of_stated stated] at shown
  obtain rfl := Option.some.inj shown
  exact stored

theorem notice (agree : Agree host) (engine : String) {given : Notice}
    (stated : ∀ mode, given = .mode mode →
      host.inst.lastMode.any (·.equal mode) ∨ Stated mode) :
    Agree (host.notice App.onCallback engine given) := by
  cases given with
  | statusIcon icon =>
      exact @of_same (host.record (.noticed engine (.statusIcon icon))) _ agree
        (notifyStatusIcon_same _ icon).1
  | mode mode =>
      by_cases fresh : ¬ host.inst.lastMode.any (·.equal mode)
      · exact notice_mode engine ((stated mode rfl).resolve_left fresh) fresh
      · change Agree (Hosted.notifyMode App.onCallback _ mode)
        rw [Hosted.notifyMode, if_pos]
        · exact agree
        · exact not_not.mp fresh

theorem callEngine (agree : Agree host) {behaviour : Behaviour} (stated : AllStated behaviour)
    (engine : String) (call : EngineCall) :
    Agree (host.callEngine App.onCallback behaviour engine call) :=
  @Hosted.callEngine_induction _ _ behaviour host Agree engine call agree
    fun _ agree _ member => agree.notice engine fun mode is =>
      .inr (stated.notices engine call mode (is ▸ member))

theorem callEntry (agree : Agree host) {behaviour : Behaviour} (stated : AllStated behaviour)
    (entry : Option EngineEntry) (call : EngineCall) :
    Agree (host.callEntry App.onCallback behaviour entry call) :=
  @Hosted.callEntry_induction _ _ behaviour host Agree entry call agree
    fun called _ _ => agree.callEngine stated called.name call

end Agree

theorem callEngine_names (host : Host) (behaviour : Behaviour) (engine : String)
    (call : EngineCall) : SameNames host (host.callEngine App.onCallback behaviour engine call) :=
  @Hosted.callEngine_induction _ _ behaviour host (SameNames host) engine call rfl
    fun after same given _ => (notice_names after engine given).trans same

theorem callEntry_names (host : Host) (behaviour : Behaviour) (entry : Option EngineEntry)
    (call : EngineCall) : SameNames host (host.callEntry App.onCallback behaviour entry call) :=
  @Hosted.callEntry_induction _ _ behaviour host (SameNames host) entry call rfl
    fun called _ _ => callEngine_names host behaviour called.name call

/-- A call in which no mode is notified leaves the modes alone. -/
theorem callEngine_same {host : Host} {behaviour : Behaviour} {engine : String} {call : EngineCall}
    (silent : ¬ Notifies behaviour engine call) :
    SameModes host (host.callEngine App.onCallback behaviour engine call) := by
  refine @Hosted.callEngine_induction _ _ behaviour host (SameModes host) engine call ⟨rfl, rfl⟩
    fun after same given member => ?_
  cases given with
  | mode mode => exact absurd ⟨mode, member⟩ silent
  | statusIcon icon =>
      obtain ⟨lastMode, mode⟩ :=
        (notifyStatusIcon_same (after.record (.noticed engine (.statusIcon icon))) icon).1
      exact ⟨lastMode.trans same.lastMode, mode.trans same.mode⟩

theorem callEntry_same {host : Host} {behaviour : Behaviour} {entry : Option EngineEntry}
    {call : EngineCall} (silent : ∀ called ∈ entry, ¬ Notifies behaviour called.name call) :
    SameModes host (host.callEntry App.onCallback behaviour entry call) :=
  @Hosted.callEntry_induction _ _ behaviour host (SameModes host) entry call ⟨rfl, rfl⟩
    fun called is _ => callEngine_same (silent called is)

/-- The first mode notified after a clear is taken. -/
theorem callEngine_refreshes {host : Host} {behaviour : Behaviour} (stated : AllStated behaviour)
    {engine : String} {call : EngineCall} (cleared : host.inst.lastMode = none)
    (notifies : Notifies behaviour engine call) :
    Agree (host.callEngine App.onCallback behaviour engine call) := by
  obtain ⟨mode, member⟩ := notifies
  have allStated := stated.notices engine call
  have recorded : (host.record (.called engine call)).inst.lastMode = none := cleared
  unfold Hosted.callEngine
  generalize behaviour.notices engine call = notices at member allStated
  generalize host.record (.called engine call) = given at recorded
  induction notices generalizing given with
  | nil => cases member
  | cons first later ih =>
      have laterStated (other : EngineMode) (there : .mode other ∈ later) : Stated other :=
        allStated other (List.mem_cons_of_mem first there)
      rw [List.foldl_cons]
      cases first with
      | mode taken =>
          have agree : Agree (given.notice App.onCallback engine (.mode taken)) := by
            refine Agree.notice_mode engine (allStated taken (List.mem_cons_self ..)) ?_
            simp [recorded]
          refine List.foldlRecOn later _ agree fun host agree notice there => ?_
          exact agree.notice engine fun other is => .inr (laterStated other (is ▸ there))
      | statusIcon icon =>
          obtain there | there := List.mem_cons.mp member
          · cases there
          · refine ih there laterStated _ ?_
            exact (notifyStatusIcon_same (given.record _) icon).1.lastMode.trans recorded

/-! ## Modes through a switch -/

section Switch

variable {host : Host} {behaviour : Behaviour}

/-- A call either finds the modes in agreement, or brings them into agreement by notifying a mode,
or leaves that to a later call. -/
theorem callEngine_awaits (stated : AllStated behaviour) {engine : String} {call : EngineCall}
    {later : Prop} (awaits : Agree host ∨
      host.inst.lastMode = none ∧ (Notifies behaviour engine call ∨ later)) :
    Agree (host.callEngine App.onCallback behaviour engine call) ∨
      (host.callEngine App.onCallback behaviour engine call).inst.lastMode = none ∧ later := by
  obtain agree | ⟨cleared, notified⟩ := awaits
  · exact .inl (agree.callEngine stated engine call)
  · by_cases notifies : Notifies behaviour engine call
    · exact .inl (callEngine_refreshes stated cleared notifies)
    · exact .inr ⟨(callEngine_same notifies).lastMode.trans cleared, notified.resolve_left notifies⟩

theorem callEntry_awaits (stated : AllStated behaviour) {entry : EngineEntry}
    (reachable : entry.engine.any (·.userData)) {call : EngineCall} {later : Prop}
    (awaits : Agree host ∨
      host.inst.lastMode = none ∧ (Notifies behaviour entry.name call ∨ later)) :
    Agree (host.callEntry App.onCallback behaviour (some entry) call) ∨
      (host.callEntry App.onCallback behaviour (some entry) call).inst.lastMode = none ∧ later := by
  unfold Hosted.callEntry
  dsimp only
  rw [if_pos reachable]
  exact callEngine_awaits stated awaits

/-- The focused context is bound to an engine which gives its mode, or there is nothing to
invalidate. -/
theorem rebind_agree (stated : AllStated behaviour)
    (old : Option EngineEntry) {new : EngineEntry} (reachable : new.engine.any (·.userData))
    (fresh : host.inst.focused ∧
        (Notifies behaviour new.name .reset ∨ Notifies behaviour new.name .focusIn ∨
          new.engine.any Engine.asKeyboard ∧
            (Notifies behaviour new.name .getMode ∨ (behaviour.mode new.name).isSome)) ∨
      host.owner.controller.mode = none ∧
        (host.inst.focused → ∀ called ∈ old, ¬ Notifies behaviour called.name .focusOut)) :
    Agree (host.rebindFocusedContext App.onCallback behaviour old (some new)) := by
  unfold Hosted.rebindFocusedContext
  split
  · next unfocused =>
      obtain ⟨focused, -⟩ | ⟨empty, -⟩ := fresh
      · simp [focused] at unfocused
      · intro mode shown
        rw [empty] at shown
        cases shown
  next focused =>
    replace focused : host.inst.focused = true := by simpa using focused
    dsimp only
    have left : Agree ((host.callEntry App.onCallback behaviour old
          .focusOut).clearStatusIcon).clearMode ∨
        (((host.callEntry App.onCallback behaviour old
          .focusOut).clearStatusIcon).clearMode).inst.lastMode = none ∧
          (Notifies behaviour new.name .reset ∨ Notifies behaviour new.name .focusIn ∨
            new.engine.any Engine.asKeyboard ∧
              (Notifies behaviour new.name .getMode ∨ (behaviour.mode new.name).isSome)) := by
      obtain ⟨-, given⟩ | ⟨empty, quiet⟩ := fresh
      · exact .inr ⟨rfl, given⟩
      · refine .inl fun mode shown => ?_
        have same : SameModes host (host.callEntry App.onCallback behaviour old .focusOut) :=
          callEntry_same (quiet focused)
        have emptied := same.mode.trans empty
        exact absurd (emptied.symm.trans shown) nofun
    have entered := callEntry_awaits stated reachable (callEntry_awaits stated reachable left)
    by_cases keyboard : new.engine.any Engine.asKeyboard
    · rw [Option.filter_some, if_pos keyboard]
      dsimp only
      have asked := callEngine_awaits stated
        (entered.imp_right fun ⟨still, _, given⟩ => ⟨still, given⟩)
      cases modes : behaviour.mode new.name with
      | none =>
          obtain agree | ⟨-, given⟩ := asked
          · exact agree
          · simp [modes] at given
      | some mode =>
          have fits : Stated mode := stated.mode new.name mode modes
          obtain agree | ⟨still, -⟩ := asked
          · exact agree.notice new.name fun other is => .inr (by cases is; exact fits)
          · exact Agree.notice_mode new.name fits (by simp [still])
    · rw [Option.filter_some, if_neg keyboard]
      obtain agree | ⟨-, given, -⟩ := entered
      · exact agree
      · exact absurd given keyboard

theorem tell_engineChanged_agree (agree : Agree host) (info : EngineInfo) :
    Agree (host.tell App.onCallback (.engineChanged info)) ∧
      Agree (host.tell App.onCallback (.voiceEngineChanged info)) := by
  refine ⟨agree.of_same ⟨rfl, ?_⟩, agree.of_same ⟨rfl, ?_⟩⟩
  · simp [Hosted.tell, App.onCallback, App.updateController, StateController.notifyEngineChanged]
  · simp [Hosted.tell, App.onCallback, App.updateController,
      StateController.notifyVoiceEngineChanged]

/-- A quiet switch gives the controller no mode before it settles. -/
theorem Quiet.started {index : Nat} {entry : EngineEntry} {calls : Calls}
    (here : host.inst.manager.entries[index]? = some entry)
    (other : host.inst.manager.active .keyboard ≠ some index) {engine : Engine}
    (candidate : entry.candidate calls.made = some engine)
    (quiet : Quiet host behaviour (host.inst.manager.active .keyboard) entry calls) :
    (host.started App.onCallback behaviour .keyboard index calls).owner.controller.mode = none := by
  have managed (after : Host) (update : EngineManager → EngineManager)
      (empty : after.owner.controller.mode = none)
      (_ : after.inst.manager.Keeps (update after.inst.manager)) :
      (after.updateManager update).owner.controller.mode = none := empty
  have left : SameModes host (host.callEntry App.onCallback behaviour
      (host.entryAt (host.inst.manager.active .keyboard)) .deactivate) :=
    callEntry_same quiet.deactivate
  have made : (host.made App.onCallback behaviour .keyboard index calls).owner.controller.mode =
      none :=
    @Hosted.made_induction _ App.onCallback behaviour host .keyboard index calls
      (fun after => after.owner.controller.mode = none) (left.mode.trans quiet.mode) managed
  refine @Hosted.started_induction _ App.onCallback behaviour host .keyboard index calls
    (fun after => after.owner.controller.mode = none) made (fun uninitialized => ?_) managed
  obtain ⟨rejected, there⟩ := Hosted.made_entryAt App.onCallback behaviour here other candidate
  rw [there] at uninitialized ⊢
  have fresh : (entry.candidate calls.made).any (!·.initialized) := by
    rw [candidate]
    exact uninitialized
  have silent : SameModes (host.made App.onCallback behaviour .keyboard index calls)
      ((host.made App.onCallback behaviour .keyboard index calls).callEntry App.onCallback behaviour
        (some { entry with engine := some engine, rejected := rejected }) .init) :=
    callEntry_same fun called is => by
      obtain rfl := Option.some.inj is
      exact quiet.init fresh
  exact silent.mode.trans made

/-- After it has taken the slot, the new engine is bound to the focused context. -/
theorem started_settles {index : Nat} {entry : EngineEntry} {calls : Calls}
    (live : host.inst.manager.Live) (stated : AllStated behaviour)
    (here : host.inst.manager.entries[index]? = some entry)
    {info : EngineInfo} (kind : Slot.ofInfo info = .keyboard)
    (other : host.inst.manager.active .keyboard ≠ some index) (up : entry.ComesUp calls)
    (fresh : Refreshes host behaviour entry calls ∨
      Quiet host behaviour (host.inst.manager.active .keyboard) entry calls)
    (cleared : Host)
    (clears : cleared = (((host.started App.onCallback behaviour .keyboard index calls).updateManager
      fun manager => { manager with
        active := Function.update manager.active .keyboard (some index) }).clearStatusIcon).clearMode) :
    Agree (cleared.rebindFocusedContext App.onCallback behaviour
      (cleared.entryAt (host.inst.manager.active .keyboard)) (cleared.entryAt (some index))) := by
  obtain ⟨engine, rejected, candidate, present, there⟩ :=
    Hosted.started_entryAt App.onCallback behaviour here (kind ▸ other) up
  rw [kind] at there
  have focused : cleared.inst.focused = host.inst.focused := by
    rw [clears, Hosted.clearMode_focused, Hosted.clearStatusIcon_focused,
      Hosted.updateManager_focused]
    exact Hosted.started_focused App.onCallback behaviour
  have found : cleared.entryAt (some index) = some { entry with
      engine := some { engine with initialized := true, active := true }
      rejected := rejected } := by
    rw [clears]
    exact there
  rw [found]
  refine rebind_agree stated _ present ?_
  rw [focused]
  obtain ⟨isFocused, given⟩ | quiet := fresh
  · rw [candidate] at given
    exact .inl ⟨isFocused, given⟩
  · refine .inr ⟨?_, fun isFocused called calledHere => ?_⟩
    · rw [clears]
      exact quiet.started here other candidate
    · rw [clears] at calledHere
      obtain ⟨old, oldHere, named⟩ :=
        Hosted.started_name App.onCallback behaviour calledHere live rfl
      rw [named]
      exact quiet.focusOut isFocused old oldHere

theorem Agree.switchTo {info : EngineInfo} {index : Nat} {entry : EngineEntry} {calls : Calls}
    (agree : Agree host) (live : host.inst.manager.Live) (stated : AllStated behaviour)
    (here : host.inst.manager.entries[index]? = some entry)
    (fresh : Slot.ofInfo info = .keyboard → host.inst.manager.active .keyboard ≠ some index →
      entry.ComesUp calls → Refreshes host behaviour entry calls ∨
        Quiet host behaviour (host.inst.manager.active .keyboard) entry calls) :
    Agree (host.switchTo App.onCallback behaviour info index calls).1 := by
  by_cases same : host.inst.manager.active (Slot.ofInfo info) = some index
  · rw [Hosted.switchTo, if_pos same]
    exact agree
  have managed (host : Host) (update : EngineManager → EngineManager) (agree : Agree host)
      (_ : host.inst.manager.Keeps (update host.inst.manager)) : Agree (host.updateManager update) :=
    agree
  have made : Agree (host.made App.onCallback behaviour (Slot.ofInfo info) index calls) :=
    Hosted.made_induction App.onCallback behaviour (agree.callEntry stated _ _) managed
  have started : Agree (host.started App.onCallback behaviour (Slot.ofInfo info) index calls) :=
    Hosted.started_induction App.onCallback behaviour made
      (fun _ => made.callEntry stated _ _) managed
  by_cases done : (host.switchTo App.onCallback behaviour info index calls).2 = .ok
  · have up := Hosted.comesUp_of_done App.onCallback behaviour here same done
    rw [Hosted.switchTo_done App.onCallback behaviour here same up]
    cases kind : Slot.ofInfo info with
    | voice =>
        rw [kind] at started
        exact (tell_engineChanged_agree started info).2
    | keyboard =>
        rw [kind] at started same
        exact (tell_engineChanged_agree
          (started_settles live stated here kind same up (fresh kind same up) _ rfl) info).1
  · exact Hosted.switchTo_failed_induction App.onCallback behaviour live here same done made
      (fun _ _ _ => started) managed

end Switch

/-! ## Names through a switch -/

section Names

variable {host : Host} {behaviour : Behaviour} {info : EngineInfo} {index : Nat} {calls : Calls}

theorem rebind_names (host : Host) (behaviour : Behaviour) (old new : Option EngineEntry) :
    SameNames host (host.rebindFocusedContext App.onCallback behaviour old new) := by
  have entered : SameNames host
      ((((host.callEntry App.onCallback behaviour old .focusOut).clearStatusIcon.clearMode).callEntry
        App.onCallback behaviour new .reset).callEntry App.onCallback behaviour new .focusIn) :=
    (callEntry_names _ _ _ _).trans ((callEntry_names _ _ _ _).trans (callEntry_names host _ _ _))
  unfold Hosted.rebindFocusedContext
  dsimp only
  split
  · rfl
  split
  · exact entered
  next entry _ =>
    have asked := (callEngine_names _ behaviour entry.name .getMode).trans entered
    split
    · exact asked
    · exact (notice_names _ _ _).trans asked

/-- The name reported for the slot is the one of the new engine, and the other is as before. -/
theorem settle_names (host : Host) (behaviour : Behaviour) (slot : Slot) (current : Option Nat)
    (index : Nat) (info : EngineInfo) :
    (host.settle App.onCallback behaviour slot current index info).owner.controller.engineName =
      Function.update host.owner.controller.engineName slot (some info.name) := by
  cases slot with
  | voice =>
      funext slot
      cases slot <;> simp [Hosted.settle, Hosted.tell, App.onCallback, App.updateController,
        StateController.notifyVoiceEngineChanged, StateController.engineName, Hosted.updateManager,
        Hosted.updateInst]
  | keyboard =>
      have told (host : Host) :
          (host.tell App.onCallback (.engineChanged info)).owner.controller.engineName =
            Function.update host.owner.controller.engineName .keyboard (some info.name) := by
        funext slot
        cases slot <;> simp [Hosted.tell, App.onCallback, App.updateController,
          StateController.notifyEngineChanged, StateController.engineName]
      refine (told _).trans ?_
      rw [show StateController.engineName _ = _ from rebind_names _ behaviour _ _]
      rfl

/-- A change which leaves the names and the engines in the slots alone keeps the names right. -/
theorem Coherent.of_kept {after : Host} (coherent : Coherent host)
    (live : host.inst.manager.Live) (liveAfter : after.inst.manager.Live) (agree : Agree after)
    (names : SameNames host after)
    (occupants : ∀ slot, after.inst.manager.occupant slot = host.inst.manager.occupant slot) :
    Coherent after where
  mode := agree
  names slot := by
    rw [show StateController.engineName _ = _ from names, coherent.names slot,
      activeEngine_of_live live, activeEngine_of_live liveAfter, occupants slot]

theorem Coherent.switchTo {entry : EngineEntry} (coherent : Coherent host)
    (live : host.inst.manager.Live) (stated : AllStated behaviour)
    (here : host.inst.manager.entries[index]? = some entry) (known : entry.info = some info)
    (fresh : Slot.ofInfo info = .keyboard → host.inst.manager.active .keyboard ≠ some index →
      entry.ComesUp calls → Refreshes host behaviour entry calls ∨
        Quiet host behaviour (host.inst.manager.active .keyboard) entry calls) :
    Coherent (host.switchTo App.onCallback behaviour info index calls).1 := by
  have agree := Agree.switchTo coherent.mode live stated here fresh
  have liveAfter := live.switchTo here known calls
  rw [← Hosted.switchTo_manager App.onCallback behaviour] at liveAfter
  have managed (after : Host) (update : EngineManager → EngineManager) (same : SameNames host after)
      (_ : after.inst.manager.Keeps (update after.inst.manager)) :
      SameNames host (after.updateManager update) := same
  have made : SameNames host
      (host.made App.onCallback behaviour (Slot.ofInfo info) index calls) :=
    @Hosted.made_induction _ App.onCallback behaviour host (Slot.ofInfo info) index calls
      (SameNames host) (callEntry_names host behaviour _ .deactivate) managed
  have started : SameNames host
      (host.started App.onCallback behaviour (Slot.ofInfo info) index calls) :=
    @Hosted.started_induction _ App.onCallback behaviour host (Slot.ofInfo info) index calls
      (SameNames host) made (fun _ => (callEntry_names _ behaviour _ .init).trans made) managed
  by_cases same : host.inst.manager.active (Slot.ofInfo info) = some index
  · rw [Hosted.switchTo, if_pos same]
    exact coherent
  by_cases done : (host.switchTo App.onCallback behaviour info index calls).2 = .ok
  · have up := Hosted.comesUp_of_done App.onCallback behaviour here same done
    refine ⟨agree, fun slot => ?_⟩
    rw [activeEngine_of_live liveAfter, Hosted.switchTo_manager]
    obtain ⟨active, ⟨engine, rejected, -, -, filled⟩, -⟩ := EngineManager.switchTo_done here same up
    rw [Hosted.switchTo_done App.onCallback behaviour here same up, settle_names]
    by_cases this : slot = Slot.ofInfo info
    · subst this
      rw [Function.update_self, EngineManager.occupant, active, Function.update_self,
        Option.bind_some, filled, Option.bind_some, known]
      rfl
    · rw [Function.update_of_ne this, live.switchTo_occupant here known same up this,
        show StateController.engineName _ = _ from started, coherent.names slot,
        activeEngine_of_live live]
  · refine coherent.of_kept live liveAfter agree ?_
      (Hosted.switchTo_failed_occupant App.onCallback behaviour live here known done same).2
    exact @Hosted.switchTo_failed_induction _ App.onCallback behaviour host info index calls
      entry (SameNames host) live here same done made (fun _ _ _ => started) managed

theorem Coherent.setActive (coherent : Coherent host) (live : host.inst.manager.Live)
    {name : String} (stated : AllStated behaviour)
    (switches : SwitchesCoherently host behaviour name calls) :
    Coherent (host.setActive App.onCallback behaviour name calls).1 := by
  obtain same | ⟨index, found, entry, here, info, known, switch⟩ :=
    Hosted.setActive_cases App.onCallback behaviour host name calls
  · rwa [same]
  · rw [switch]
    exact coherent.switchTo live stated here known (switches index found entry here info known)

end Names

/-! ## Steps and runs -/

section Steps

variable {host : Host}

/-- A change of the registry which leaves the engines in the slots alone. -/
theorem Coherent.updateManager (coherent : Coherent host) (live : host.inst.manager.Live)
    {update : EngineManager → EngineManager} (liveAfter : (update host.inst.manager).Live)
    (occupants : ∀ slot, (update host.inst.manager).occupant slot =
      host.inst.manager.occupant slot) :
    Coherent (host.updateManager update) :=
  coherent.of_kept live liveAfter coherent.mode rfl occupants

theorem Coherent.callEntry (coherent : Coherent host) {behaviour : Behaviour}
    (stated : AllStated behaviour) (entry : Option EngineEntry) (call : EngineCall) :
    Coherent (host.callEntry App.onCallback behaviour entry call) where
  mode := Agree.callEntry coherent.mode stated entry call
  names slot := by
    rw [Hosted.callEntry_manager, ← coherent.names slot]
    exact congrFun (callEntry_names host behaviour entry call) slot

theorem Coherent.sync (stated : ∀ slot, ∀ info ∈ activeEngine host.inst.manager slot,
    info.name ≠ "") : Coherent host.sync where
  mode mode shown := by simp [Host.sync, App.updateController, StateController.sync] at shown
  names slot := by
    have copied (slot : Slot) :
        StateController.stateStrdup ((activeEngine host.inst.manager slot).map EngineInfo.name) =
          (activeEngine host.inst.manager slot).map EngineInfo.name := by
      cases found : activeEngine host.inst.manager slot with
      | none => rfl
      | some info => simpa [StateController.stateStrdup] using stated slot info found
    cases slot <;> simpa [Host.sync, App.updateController, StateController.engineName,
      StateController.sync] using copied _

/-- What a step needs to keep the copy right, read off the operation. -/
theorem KeepsCoherent.switches {operation : EngineManager.Operation} {behaviour : Behaviour}
    (keeps : KeepsCoherent host (.inst (.manage (.operation operation) behaviour))) {name : String}
    {calls : Calls} (asks : host.inst.manager.target operation = some (name, calls)) :
    AllStated behaviour ∧ SwitchesCoherently host behaviour name calls := by
  cases operation with
  | unload _ => simp [EngineManager.target] at asks
  | _ => exact ⟨keeps.1, keeps.2 name calls asks⟩

theorem Coherent.manage (coherent : Coherent host) (orderly : host.inst.manager.Orderly)
    {operation : EngineManager.Operation} {behaviour : Behaviour}
    (keeps : KeepsCoherent host (.inst (.manage (.operation operation) behaviour))) :
    Coherent (host.manage App.onCallback behaviour (.operation operation)) := by
  cases asks : host.inst.manager.target operation with
  | some pair =>
      obtain ⟨name, calls⟩ := pair
      obtain ⟨stated, switches⟩ := keeps.switches asks
      rw [Hosted.manage_of_target App.onCallback behaviour asks]
      exact coherent.setActive orderly.live stated switches
  | none =>
      rw [Hosted.manage_of_no_target App.onCallback behaviour asks]
      refine coherent.updateManager orderly.live (orderly.registryStep (.operation operation)).live
        (orderly.occupant_step asks ?_)
      rintro name rfl
      exact keeps

theorem stateStep_orderly (orderly : host.inst.manager.Orderly) (event : StateEvent) :
    (stateStep host event).inst.manager.Orderly := by
  cases event with
  | sync => exact orderly
  | inst event =>
      exact @Hosted.run_manager _ App.onCallback host EngineManager.Orderly
        (fun _ operation orderly => orderly.registryStep operation) [event] orderly

theorem Coherent.stateStep (coherent : Coherent host) (orderly : host.inst.manager.Orderly)
    {event : StateEvent} (keeps : KeepsCoherent host event) : Coherent (stateStep host event) := by
  cases event with
  | sync => exact .sync keeps
  | inst event =>
      cases event with
      | focusIn behaviour =>
          change Coherent (host.contextFocusIn App.onCallback behaviour)
          unfold Hosted.contextFocusIn
          split
          · exact coherent
          · exact @Coherent.callEntry (host.updateInst fun inst => { inst with focused := true })
              ⟨coherent.mode, coherent.names⟩ behaviour keeps _ .focusIn
      | focusOut behaviour =>
          change Coherent (host.contextFocusOut App.onCallback behaviour)
          unfold Hosted.contextFocusOut
          split
          · exact coherent
          · obtain ⟨mode, names⟩ := coherent.callEntry keeps host.activeKeyboard .focusOut
            exact ⟨mode, names⟩
      | reset behaviour => exact coherent.callEntry keeps _ .reset
      | clearMode =>
          exact ⟨fun mode shown => absurd (Eq.trans (Eq.symm keeps) shown) nofun, coherent.names⟩
      | notice engine given =>
          have stated : ∀ mode, given = .mode mode →
              host.inst.lastMode.any (·.equal mode) ∨ Stated mode := by
            rintro mode rfl
            exact keeps
          refine ⟨Agree.notice coherent.mode engine stated, fun slot => ?_⟩
          rw [show Daemon.stateStep host _ = host.notice App.onCallback engine given from rfl,
            (Hosted.Still.notice App.onCallback host engine given).manager, ← coherent.names slot]
          exact congrFun (notice_names host engine given) slot
      | manage operation behaviour =>
          cases operation with
          | load library =>
              exact @Coherent.updateManager host coherent orderly.live
                (·.registryStep (.load library)) (orderly.registryStep (.load library)).live
                (orderly.live.occupant_load library)
          | operation operation => exact coherent.manage orderly keeps

end Steps

/-- In every run from a synced controller whose steps all keep the copy right, the copy is right in
every state. -/
theorem coherent_of_keeps (recentPrimary recentSecondary : Option String)
    (frontend : Option IdentityFrontend) (before : List Hosted.Event) (events : List StateEvent)
    (keeps : Machine.EachStep stateStep KeepsCoherent
      (Machine.run (Hosted.step fun _ _ app => app)
        (Hosted.start (.new recentPrimary recentSecondary) (App.new frontend)) before)
      (.sync :: events)) :
    Machine.Always stateStep Coherent
      (stateStep (Machine.run (Hosted.step fun _ _ app => app)
        (Hosted.start (.new recentPrimary recentSecondary) (App.new frontend)) before) .sync)
      events := by
  have orderly := @Hosted.run_manager _ (fun _ _ app => app)
    (Hosted.start (.new recentPrimary recentSecondary) (App.new frontend)) EngineManager.Orderly
    (fun _ operation orderly => orderly.registryStep operation) before
    (EngineManager.new_orderly recentPrimary recentSecondary)
  obtain ⟨first, later⟩ := (Machine.eachStep_cons ..).mp keeps
  have always := Machine.Always.of_invariant
    (fun host : Host => Coherent host ∧ host.inst.manager.Orderly)
    (fun host event ⟨coherent, orderly⟩ keeps =>
      ⟨coherent.stateStep orderly keeps, stateStep_orderly orderly event⟩)
    ⟨.sync first, orderly⟩ later
  exact always.mono fun _ => And.left

/-- Two keyboard engines, of which the first is active. -/
def twoEngines : List Hosted.Event :=
  [.register (some { name := "rime", type := .keyboard }),
    .register (some { name := "mozc", type := .keyboard }),
    .setActive "rime" { made := some ⟨true, true, true, false⟩, init := .ok, restored := .ok }].map
      fun operation => .manage (.operation operation) .silent

/-- The switch to the second engine. -/
def switchToSecond (behaviour : Behaviour) : StateEvent :=
  .inst (.manage (.operation (.setActive "mozc"
    { made := some ⟨true, true, true, false⟩, init := .ok, restored := .ok })) behaviour)

def asciiMode : EngineMode where
  modeClass := .latin
  modeId := some "ascii"
  displayLabel := none
  iconName := none

/-- The second engine gives its mode when it gets the focus, and the copy stays right. -/
theorem coherent_of_keeps_switch :
    let second : Behaviour :=
      { notices := fun engine call =>
          if engine = "mozc" ∧ call = .focusIn then [.mode asciiMode] else []
        mode := fun _ => none
        canSetMode := fun _ => false }
    Machine.Always stateStep Coherent
      (stateStep (Machine.run (Hosted.step fun _ _ app => app)
        (Hosted.start (.new none none) (App.new none)) twoEngines) .sync)
      [.inst (.focusIn .silent), .inst (.notice "rime" (.mode { asciiMode with modeId := none })),
        switchToSecond second] := by
  intro second
  have silent : AllStated Behaviour.silent := by
    refine ⟨fun engine call mode given => ?_, fun engine mode given => ?_⟩
    · cases given
    · cases given
  have stated : AllStated second := by
    refine ⟨fun engine call mode given => ?_, fun engine mode given => ?_⟩
    · by_cases gives : engine = "mozc" ∧ call = .focusIn
      · simp only [second, if_pos gives, List.mem_singleton, Notice.mode.injEq] at given
        subst given
        exact ⟨by decide, by decide, by decide⟩
      · simp [second, if_neg gives] at given
    · cases given
  refine coherent_of_keeps none none none twoEngines _ ?_
  simp only [Machine.eachStep_cons, Machine.eachStep_nil, and_true]
  refine ⟨?_, silent, .inr ⟨by decide, by decide, by decide⟩, stated, ?_⟩
  · intro slot info active
    cases slot with
    | voice => cases active
    | keyboard =>
        obtain rfl := Option.some.inj (Option.mem_def.mp active)
        decide
  · intro name calls asks index found entry here info known kind other up
    obtain ⟨rfl, rfl⟩ := Prod.mk.inj (Option.some.inj asks)
    obtain rfl : 1 = index := Option.some.inj found
    obtain rfl := Option.some.inj (Option.mem_def.mp here)
    exact .inl ⟨rfl, .inr (.inl ⟨asciiMode, List.mem_singleton_self _⟩)⟩

/-- The second engine gives no mode, and the controller goes on reporting the mode of the first. -/
theorem stale_mode :
    ¬ Machine.Always stateStep Coherent
      (stateStep (Machine.run (Hosted.step fun _ _ app => app)
        (Hosted.start (.new none none) (App.new none)) twoEngines) .sync)
      [.inst (.notice "rime" (.mode asciiMode)), switchToSecond .silent] := by
  intro always
  have last : none = some asciiMode := always.final.mode asciiMode (Option.mem_def.mpr rfl)
  cases last

end Daemon

end Typio
