import Typio.Core.EngineAttempts
import Typio.Daemon.ReloadEngines

/-!
# What a reload lets the engines notify

The engines which a reload calls may notify modes, and each mode is remembered for the active
keyboard engine.  As long as that engine stays the same, the memory after the reload is the one
before it with the modes written that were notified.
-/

namespace Typio

namespace Daemon

open Typio.Core

/-! ## The notices -/

/-- What an engine notifies while an attempt starts it. -/
def startNotices (behaviour : Behaviour) (entry : EngineEntry) (calls : Calls) : List Notice :=
  match entry.candidate calls.made with
  | none => []
  | some engine =>
      if (entry.engine.isSome ∨ entry.validate engine = .ok) ∧ engine.initialized = false ∧
          engine.userData = true then
        behaviour.notices entry.name .init
      else []

/-- What the engine in the slot notifies while it is deactivated. -/
def leaveNotices (behaviour : Behaviour) (manager : EngineManager) (slot : Slot) : List Notice :=
  match manager.slotName slot with
  | none => []
  | some name => behaviour.notices name .deactivate

/-- What the engines notify during an activation by name. -/
def activationNotices (behaviour : Behaviour) (manager : EngineManager) (name : String)
    (calls : Calls) : List Notice :=
  match manager.entryNamed name with
  | none => []
  | some entry =>
      match entry.info with
      | none => []
      | some info =>
          if manager.slotName (Slot.ofInfo info) = some name then []
          else leaveNotices behaviour manager (Slot.ofInfo info) ++ startNotices behaviour entry calls

/-- What the engines notify during an attempt. -/
def attemptNotices (behaviour : Behaviour) (manager : EngineManager) (slot : Slot)
    (name : Option String) (calls : Calls) : List Notice :=
  match name with
  | none => []
  | some name =>
      if manager.slotName slot = some name then []
      else if slot = .voice ∧ (manager.entryNamed name).any EngineEntry.isVoice = false then []
      else activationNotices behaviour manager name calls

/-- What the active engine notifies while it reads its configuration. -/
def activeNotices (manager : EngineManager) (slot : Slot) (given : String → List Notice) :
    List Notice :=
  match manager.slotName slot with
  | none => []
  | some name => given name

/-- What the engines notify during a reload. -/
def reloadNotices (reloader : Reloader) (calls : ReloadCalls) (default defaultVoice : Option String)
    (manager : EngineManager) : List Notice :=
  let switched := manager.attempt .keyboard default calls.keyboard
  let voiced := switched.attempt .voice defaultVoice calls.voice
  attemptNotices calls.behaviour manager .keyboard default calls.keyboard ++
    activeNotices switched .keyboard calls.reloadConfig ++
    attemptNotices calls.behaviour switched .voice defaultVoice calls.voice ++
    match reloader with
    | .inst => []
    | .daemon voice reloadConfig =>
        attemptNotices calls.behaviour voiced .voice defaultVoice voice ++
          activeNotices (voiced.attempt .voice defaultVoice voice) .voice reloadConfig

/-! ## What notices change -/

/-- The last mode of the instance and the memory that is written at the moment. -/
structure Sight where
  lastMode : Option EngineMode
  memory : Option IdentityMemory

/-- A notice is taken while the engine of that name is active. -/
def Sight.notice (active : Option String) (sight : Sight) : Notice → Sight
  | .statusIcon _ => sight
  | .mode mode =>
      if sight.lastMode.any (·.equal mode) then sight
      else
        { lastMode := some mode
          memory :=
            match active, mode.modeId.filter (· ≠ "") with
            | some name, some modeId => sight.memory.map (·.storeMode name modeId)
            | _, _ => sight.memory }

def Host.sight (host : Host) : Sight where
  lastMode := host.inst.lastMode
  memory := host.owner.currentMemory

section Sight

variable {host : Host}

theorem sight_notice (engine : String) (given : Notice) :
    Host.sight (host.notice App.onCallback engine given) =
      (Host.sight host).notice (host.engineName .keyboard) given := by
  cases given with
  | statusIcon icon =>
      rw [Host.sight, notice_statusIcon_lastMode, notice_statusIcon_currentMemory]
      rfl
  | mode mode =>
      rw [Host.sight, notice_mode_lastMode, notice_mode_currentMemory, Sight.notice.eq_def]
      by_cases known : host.inst.lastMode.any (·.equal mode)
      · rw [if_pos known, if_pos known]
        exact (if_pos known).symm
      · rw [if_neg known, if_neg known, Host.engineName]
        refine Eq.trans ?_ (if_neg known).symm
        refine congrArg (Sight.mk (some mode)) ?_
        cases activeEngine host.inst.manager .keyboard with
        | none => rfl
        | some info => cases mode.modeId.filter (· ≠ "") <;> rfl

/-- While the active keyboard engine is the same, the notices are taken one after the other. -/
structure Seen (active : Option String) (start : Sight) (given : List Notice) (host : Host) :
    Prop where
  present : Present host.inst.manager
  name : host.engineName .keyboard = active
  sight : host.sight = given.foldl (Sight.notice active) start

namespace Seen

variable {active : Option String} {start : Sight} {given : List Notice}

theorem notice (seen : Seen active start given host) (engine : String) (notice : Notice) :
    Seen active start (given ++ [notice]) (host.notice App.onCallback engine notice) := by
  have still := Hosted.Still.notice App.onCallback host engine notice
  refine ⟨still.manager ▸ seen.present, ?_, ?_⟩
  · rw [Host.engineName, still.manager]
    exact seen.name
  · rw [sight_notice, seen.name, seen.sight, List.foldl_append]
    rfl

theorem notices (seen : Seen active start given host) (engine : String) (more : List Notice) :
    Seen active start (given ++ more)
      (more.foldl (fun host notice => host.notice App.onCallback engine notice) host) := by
  induction more generalizing given host with
  | nil => rwa [List.append_nil]
  | cons first later induction =>
      rw [List.append_cons]
      exact induction (seen.notice engine first)

theorem callEngine (seen : Seen active start given host) (behaviour : Behaviour) (engine : String)
    (call : EngineCall) : Seen active start (given ++ behaviour.notices engine call)
      (host.callEngine App.onCallback behaviour engine call) := by
  have recorded : Seen active start given (host.record (.called engine call)) :=
    ⟨seen.present, seen.name, seen.sight⟩
  exact recorded.notices engine _

theorem updateManager (seen : Seen active start given host)
    (update : EngineManager → EngineManager)
    (keeps : host.inst.manager.Keeps (update host.inst.manager)) :
    Seen active start given (host.updateManager update) := by
  obtain ⟨present, same⟩ := seen.present.keeps keeps
  exact ⟨present, (congrArg (Option.map EngineInfo.name) same).trans seen.name, seen.sight⟩

/-- The voice slot takes another engine. -/
theorem settleVoice (seen : Seen active start given host) (behaviour : Behaviour)
    (current : Option Nat) (index : Nat) (info : EngineInfo) :
    Seen active start given
      (host.settle App.onCallback behaviour .voice current index info) := by
  have apart : Slot.keyboard ≠ Slot.voice := nofun
  have keyboard : Function.update host.inst.manager.active Slot.voice (some index) .keyboard =
      host.inst.manager.active .keyboard := Function.update_of_ne apart _ _
  refine ⟨?_, ?_, ?_⟩
  · intro place set
    exact seen.present place (keyboard ▸ set)
  · rw [← seen.name, Host.engineName, activeEngine, EngineManager.occupant]
    rw [Host.engineName, activeEngine, EngineManager.occupant, ← keyboard]
    rfl
  · rw [← seen.sight]
    exact congrArg (Sight.mk host.inst.lastMode) (currentMemory_congr (App.report_frontend _ _))

/-! ## The parts of a switch -/

variable {behaviour : Behaviour} {slot : Slot} {index : Nat} {calls : Calls} {entry : EngineEntry}
  {info : EngineInfo}

theorem leave (seen : Seen active start given host) (live : host.inst.manager.Live) :
    Seen active start (given ++ leaveNotices behaviour host.inst.manager slot)
      (host.callEntry App.onCallback behaviour
        (host.entryAt (host.inst.manager.active slot)) .deactivate) := by
  have occupied : host.entryAt (host.inst.manager.active slot) =
      host.inst.manager.occupant slot := rfl
  rw [occupied, leaveNotices, EngineManager.slotName]
  cases there : host.inst.manager.occupant slot with
  | none =>
      rw [Option.map_none, List.append_nil]
      exact seen
  | some old =>
      obtain ⟨place, set, here⟩ := Option.bind_eq_some_iff.mp there
      obtain ⟨found, here', -, -, engine, cached, -, reachable, -⟩ := live slot place set
      obtain rfl : old = found := Option.some.inj (here.symm.trans here')
      rw [callEntry_reachable (by rwa [Option.mem_def.mp cached, Option.any_some])]
      exact seen.callEngine behaviour old.name .deactivate

theorem made (seen : Seen active start given host) (live : host.inst.manager.Live) :
    Seen active start (given ++ leaveNotices behaviour host.inst.manager slot)
      (host.made App.onCallback behaviour slot index calls) :=
  Hosted.made_induction App.onCallback behaviour (seen.leave live)
    fun _ update seen keeps => seen.updateManager update keeps

theorem started (seen : Seen active start given host) (live : host.inst.manager.Live)
    (here : host.inst.manager.entries[index]? = some entry)
    (other : host.inst.manager.active slot ≠ some index) {engine : Engine}
    (candidate : entry.candidate calls.made = some engine)
    (accepted : entry.engine.isSome ∨ entry.validate engine = .ok) :
    Seen active start (given ++ leaveNotices behaviour host.inst.manager slot ++
        startNotices behaviour entry calls)
      (host.started App.onCallback behaviour slot index calls) := by
  have made := @made host active start given behaviour slot index calls seen live
  refine updateManager ?_ _ (.activateEntry _ index calls.init)
  obtain ⟨rejected, there⟩ :=
    Hosted.made_entryAt App.onCallback behaviour here other candidate
  rw [Hosted.initEntry, there, startNotices, candidate]
  dsimp only [Option.any_some]
  by_cases starts : (entry.engine.isSome ∨ entry.validate engine = .ok) ∧
      engine.initialized = false ∧ engine.userData = true
  · obtain ⟨-, fresh, reachable⟩ := id starts
    have new : (!engine.initialized) = true := by rw [fresh, Bool.not_false]
    rw [if_pos starts, if_pos new, callEntry_reachable (by simpa using reachable)]
    exact made.callEngine behaviour entry.name .init
  · rw [if_neg starts, List.append_nil]
    split
    next new =>
      have unreachable : engine.userData ≠ true := fun reachable =>
        starts ⟨accepted, (Bool.not_eq_true' _).mp new, reachable⟩
      rw [Hosted.callEntry, if_neg (by simpa using unreachable)]
      exact made
    next => exact made

/-- An engine which is not accepted is not started. -/
theorem startNotices_refused
    (refused : ¬ ∃ engine, entry.candidate calls.made = some engine ∧
      (entry.engine.isSome ∨ entry.validate engine = .ok)) :
    startNotices behaviour entry calls = [] := by
  rw [startNotices]
  cases candidate : entry.candidate calls.made with
  | none => rfl
  | some engine => exact if_neg fun both => refused ⟨engine, candidate, both.1⟩

/-- A switch which fails, or which is to a voice engine, leaves the active keyboard engine. -/
theorem switchTo (seen : Seen active start given host) (live : host.inst.manager.Live)
    (here : host.inst.manager.entries[index]? = some entry)
    (other : host.inst.manager.active (Slot.ofInfo info) ≠ some index)
    (stays : Slot.ofInfo info = .voice ∨ ¬ entry.ComesUp calls) :
    Seen active start (given ++ leaveNotices behaviour host.inst.manager (Slot.ofInfo info) ++
        startNotices behaviour entry calls)
      (host.switchTo App.onCallback behaviour info index calls).1 := by
  have idleHere := EngineManager.deactivated_here here other
  have accepts := EngineManager.ensureEntryInstance_ok_iff idleHere calls.made
  have restores {host : Host} {given : List Notice} (seen : Seen active start given host)
      (current : Option Nat) : Seen active start given
        (host.updateManager (·.modifyActive current (·.tryRestore calls.restored))) :=
    seen.updateManager _ (.modifyActive _ _
      (EngineManager.InPlace.activate_label · calls.restored)
      (EngineManager.Keeps.activate_isSome calls.restored))
  obtain ⟨same, -⟩ | ⟨-, ⟨refused, ended⟩ | ⟨accepted, ended⟩⟩ | ⟨-, done⟩ :=
    Hosted.switchTo_cases App.onCallback behaviour host info index calls
  · exact absurd same other
  · rw [ended, Hosted.made_restored App.onCallback behaviour live other,
      startNotices_refused (mt accepts.mpr refused), List.append_nil]
    exact restores (seen.made live) _
  · obtain ⟨engine, candidate, checked⟩ := accepts.mp accepted
    rw [ended, Hosted.started_restored App.onCallback behaviour live other]
    exact restores (seen.started live here other candidate checked) _
  · have up := Hosted.comesUp_of_done App.onCallback behaviour here other
      (congrArg Prod.snd done)
    have voice := stays.resolve_right (not_not.mpr up)
    obtain ⟨engine, candidate, checked, -⟩ := up
    rw [done, voice]
    rw [voice] at other
    exact (seen.started live here other candidate checked).settleVoice behaviour
      (host.inst.manager.active .voice) index info

/-! ## The parts of a reload -/

/-- An activation by name, unless the engine comes up as another keyboard engine. -/
theorem activation (seen : Seen active start given host) (orderly : host.inst.manager.Orderly)
    {name : String} (calls : Calls)
    (stays : host.inst.manager.slotName .keyboard ≠ some name →
      ∀ entry ∈ host.inst.manager.entryNamed name, entry.isVoice = false → ¬ entry.ComesUp calls) :
    Seen active start (given ++ activationNotices behaviour host.inst.manager name calls)
      (host.setActive App.onCallback behaviour name calls).1 := by
  rw [activationNotices]
  cases found : host.inst.manager.entryNamed name with
  | none =>
      rw [Hosted.setActive, EngineManager.findEntryIndex_none found, List.append_nil]
      exact seen
  | some entry =>
      obtain ⟨rfl, index, here⟩ := EngineManager.entryNamed_some found
      obtain ⟨info, known, -⟩ := orderly.named entry (List.mem_of_getElem? here)
      have position : host.inst.manager.slotName (Slot.ofInfo info) = some entry.name ↔
          host.inst.manager.active (Slot.ofInfo info) = some index := orderly.slotName_eq_iff here
      rw [Hosted.setActive, orderly.intact.findEntryIndex here]
      dsimp only
      rw [here, Option.bind_some, known]
      dsimp only
      split
      next there =>
        rw [Hosted.switchTo, if_pos (position.mp there), List.append_nil]
        exact seen
      next absent =>
        rw [← List.append_assoc]
        refine seen.switchTo orderly.live here (mt position.mpr absent) ?_
        cases kind : Slot.ofInfo info with
        | voice => exact .inl rfl
        | keyboard =>
            refine .inr (stays (kind ▸ absent) entry found ?_)
            rw [← Bool.not_eq_true, EngineManager.isVoice_iff known, kind]
            decide

end Seen

end Sight

/-! ## The engines of a host -/

section Engines

variable {host : Host}

theorem engineName_eq (orderly : host.inst.manager.Orderly) (slot : Slot) :
    host.engineName slot = host.inst.manager.slotName slot := by
  rw [Host.engineName, activeEngine_of_live orderly.live, EngineManager.slotName]
  cases occupied : host.inst.manager.occupant slot with
  | none => rfl
  | some entry =>
      obtain ⟨place, -, here⟩ := Option.bind_eq_some_iff.mp occupied
      obtain ⟨info, known, named⟩ := orderly.named entry (List.mem_of_getElem? here)
      rw [Option.bind_some, Option.mem_def.mp known, Option.map_some, Option.map_some, named]

theorem attempt_manager (orderly : host.inst.manager.Orderly) (behaviour : Behaviour) (slot : Slot)
    (name : Option String) (calls : Calls) :
    (host.attempt behaviour slot name calls).inst.manager =
      host.inst.manager.attempt slot name calls := by
  rw [Host.attempt.eq_def, EngineManager.attempt.eq_def]
  cases name with
  | none => rfl
  | some name =>
      dsimp only
      rw [engineName_eq orderly]
      split
      next there => rfl
      next absent =>
        cases slot with
        | keyboard => exact Hosted.setActive_manager App.onCallback behaviour host name calls
        | voice =>
            exact Hosted.manage_manager App.onCallback behaviour host
              (.operation (.setActiveVoice name calls))

theorem reloadActive_manager (slot : Slot) (given : String → List Notice) :
    (host.reloadActive slot given).inst.manager = host.inst.manager := by
  rw [Host.reloadActive]
  cases host.entryAt (host.inst.manager.active slot) with
  | none => rfl
  | some entry =>
      dsimp only
      generalize given entry.name = notices
      induction notices generalizing host with
      | nil => rfl
      | cons first later induction =>
          exact induction.trans (Hosted.Still.notice App.onCallback host entry.name first).manager

/-! ## A reload -/

variable {active : Option String} {start : Sight} {given : List Notice} {behaviour : Behaviour}

namespace Seen

theorem attempt (seen : Seen active start given host) (orderly : host.inst.manager.Orderly)
    {slot : Slot} {name : Option String} {calls : Calls}
    (stays : slot = .keyboard → ∀ wanted ∈ name, host.inst.manager.slotName .keyboard ≠ some wanted →
      ∀ entry ∈ host.inst.manager.entryNamed wanted, entry.isVoice = false →
        ¬ entry.ComesUp calls) :
    Seen active start (given ++ attemptNotices behaviour host.inst.manager slot name calls)
      (host.attempt behaviour slot name calls) := by
  rw [Host.attempt.eq_def, attemptNotices.eq_def]
  cases name with
  | none =>
      rw [List.append_nil]
      exact seen
  | some name =>
      dsimp only
      rw [engineName_eq orderly]
      split
      next there =>
        rw [List.append_nil]
        exact seen
      next absent =>
        cases slot with
        | keyboard =>
            rw [if_neg fun both => Slot.noConfusion both.1]
            exact seen.activation orderly calls (stays rfl name rfl)
        | voice =>
            dsimp only
            rw [Hosted.setActiveVoice, ← EngineManager.entryNamed]
            cases found : host.inst.manager.entryNamed name with
            | none =>
                rw [if_pos ⟨rfl, rfl⟩, List.append_nil]
                exact seen
            | some entry =>
                obtain ⟨-, place, here⟩ := EngineManager.entryNamed_some found
                obtain ⟨info, known, -⟩ := orderly.named entry (List.mem_of_getElem? here)
                have kind : entry.isVoice = true ↔ info.type = .voice := by
                  rw [EngineEntry.isVoice, known, Option.any_some, beq_iff_eq]
                rw [Option.bind_some, known, Option.any_some]
                dsimp only
                by_cases voice : info.type = .voice
                · rw [if_neg (not_not.mpr voice), if_neg fun both =>
                    Bool.noConfusion (both.2.symm.trans (kind.mpr voice))]
                  refine seen.activation orderly calls fun _ other found' not_voice => ?_
                  obtain rfl := Option.mem_unique found found'
                  rw [kind.mpr voice] at not_voice
                  cases not_voice
                · have other := (Bool.not_eq_true _).mp (mt kind.mp voice)
                  rw [if_pos voice, if_pos ⟨rfl, other⟩, List.append_nil]
                  exact seen

theorem reloadActive (seen : Seen active start given host) (slot : Slot)
    (reloaded : String → List Notice) :
    Seen active start (given ++ activeNotices host.inst.manager slot reloaded)
      (host.reloadActive slot reloaded) := by
  have occupied : host.entryAt (host.inst.manager.active slot) =
      host.inst.manager.occupant slot := rfl
  rw [Host.reloadActive, occupied, activeNotices, EngineManager.slotName]
  cases host.inst.manager.occupant slot with
  | none =>
      rw [Option.map_none, List.append_nil]
      exact seen
  | some entry => exact seen.notices entry.name _

end Seen

theorem reloadInstance_manager (orderly : host.inst.manager.Orderly) (calls : ReloadCalls)
    (default defaultVoice : Option String) :
    (host.reloadInstance calls default defaultVoice).inst.manager =
      (host.inst.manager.attempt .keyboard default calls.keyboard).attempt .voice defaultVoice
        calls.voice := by
  have switched := attempt_manager orderly calls.behaviour .keyboard default calls.keyboard
  have reloaded := (reloadActive_manager .keyboard calls.reloadConfig).trans switched
  rw [Host.reloadInstance, attempt_manager (reloaded ▸ orderly.attempt ..), reloaded]

/-- How the voice engine is tried after the first attempt. -/
def Reloader.tries : Reloader → List Calls
  | .inst => []
  | .daemon voice _ => [voice]

theorem reloadWith_manager (orderly : host.inst.manager.Orderly) (reloader : Reloader)
    (calls : ReloadCalls) (default defaultVoice : Option String) :
    (host.reloadWith reloader calls default defaultVoice).inst.manager =
      host.inst.manager.reload default defaultVoice calls.keyboard
        (calls.voice :: reloader.tries) := by
  have reloaded := reloadInstance_manager orderly calls default defaultVoice
  cases reloader with
  | inst => exact reloaded
  | daemon voice reloadConfig =>
      have orderly' : (host.reloadInstance calls default defaultVoice).inst.manager.Orderly :=
        reloaded ▸ (orderly.attempt ..).attempt ..
      have attempted := attempt_manager orderly' calls.behaviour .voice defaultVoice voice
      exact (reloadActive_manager .voice reloadConfig).trans (attempted.trans (by rw [reloaded]; rfl))

/-- The whole reload is seen, unless the default engine comes up as another keyboard engine. -/
theorem Seen.reloadWith (seen : Seen active start [] host) (orderly : host.inst.manager.Orderly)
    {reloader : Reloader} {calls : ReloadCalls} {default defaultVoice : Option String}
    (stays : ∀ name ∈ default, host.inst.manager.slotName .keyboard ≠ some name →
      ∀ entry ∈ host.inst.manager.entryNamed name, entry.isVoice = false →
        ¬ entry.ComesUp calls.keyboard) :
    Seen active start (reloadNotices reloader calls default defaultVoice host.inst.manager)
      (host.reloadWith reloader calls default defaultVoice) := by
  have switched := attempt_manager orderly calls.behaviour .keyboard default calls.keyboard
  have read := (reloadActive_manager .keyboard calls.reloadConfig).trans switched
  have voiced := reloadInstance_manager orderly calls default defaultVoice
  have first := @Seen.attempt host active start [] calls.behaviour seen orderly .keyboard default
    calls.keyboard fun _ => stays
  have second := first.reloadActive .keyboard calls.reloadConfig
  have third : Seen active start _ (host.reloadInstance calls default defaultVoice) :=
    @Seen.attempt _ _ _ _ calls.behaviour second (read ▸ orderly.attempt ..) .voice defaultVoice
      calls.voice nofun
  rw [switched, read] at third
  rw [reloadNotices.eq_def]
  cases reloader with
  | inst =>
      rw [List.append_nil]
      exact third
  | daemon voice reloadConfig =>
      have orderly' : (host.reloadInstance calls default defaultVoice).inst.manager.Orderly :=
        voiced ▸ (orderly.attempt ..).attempt ..
      have again := attempt_manager orderly' calls.behaviour .voice defaultVoice voice
      have fourth := @Seen.attempt _ _ _ _ calls.behaviour third orderly' .voice defaultVoice voice
        nofun
      have last := fourth.reloadActive .voice reloadConfig
      rw [again, voiced] at last
      rw [← List.append_assoc]
      exact last

end Engines

end Daemon

end Typio
