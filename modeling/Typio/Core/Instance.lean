import Typio.Core.EngineRegistry

/-!
# The instance around the manager

The manager calls into engines while it switches, and an engine may notify the instance of its mode
and of its icon from inside any of these calls.  The instance keeps the last mode and the last icon
and tells its owner, the daemon, through callbacks which run before the notifying call returns.

What an engine notifies during a call is an input of the operation.  The log records the calls
into the engines and the notices they give, latest first.
-/

namespace Typio

namespace Core

/-- `TypioModeClass`. -/
inductive ModeClass where
  | native
  | latin
  deriving DecidableEq, Repr

/-- `TypioEngineMode`; a string that is not there is null. -/
structure EngineMode where
  modeClass : ModeClass
  modeId : Option String
  displayLabel : Option String
  iconName : Option String
  deriving DecidableEq, Repr

/-- `engine_mode_equal`, which compares the class and the id only. -/
def EngineMode.equal (mode other : EngineMode) : Bool :=
  mode.modeClass == other.modeClass && mode.modeId == other.modeId

/-- What an engine tells the instance. -/
inductive Notice where
  | mode (mode : EngineMode)
  | statusIcon (icon : String)
  deriving DecidableEq, Repr

/-- The calls into an engine. -/
inductive EngineCall where
  | init
  | deactivate
  | focusIn
  | focusOut
  | reset
  | getMode
  | setMode (modeId : String)
  deriving DecidableEq, Repr

inductive LogEntry where
  | called (engine : String) (call : EngineCall)
  | noticed (engine : String) (notice : Notice)
  deriving DecidableEq, Repr

/-- What the engines do when they are called: the notices each call gives, the mode `get_mode`
returns, and whether there is a `set_mode`. -/
structure Behaviour where
  notices : String → EngineCall → List Notice
  mode : String → Option EngineMode
  canSetMode : String → Bool

/-- No engine notifies anything. -/
def Behaviour.silent : Behaviour where
  notices _ _ := []
  mode _ := none
  canSetMode _ := false

/-- `focused` says whether an input context has the focus. -/
structure Instance where
  manager : EngineManager
  focused : Bool
  lastMode : Option EngineMode
  lastStatusIcon : Option String
  log : List LogEntry

/-- The callbacks of an instance. -/
inductive Callback where
  | modeChanged (mode : EngineMode)
  | statusIconChanged (icon : String)
  | engineChanged (info : EngineInfo)
  | voiceEngineChanged (info : EngineInfo)
  deriving DecidableEq, Repr

/-- How the owner takes a callback, given the instance as it is then. -/
abbrev Handler (σ : Type*) := Instance → Callback → σ → σ

/-- An instance and the state of its owner. -/
structure Hosted (σ : Type*) where
  inst : Instance
  owner : σ

namespace Hosted

variable {σ : Type*} (handler : Handler σ) (behaviour : Behaviour)

def start (manager : EngineManager) (owner : σ) : Hosted σ where
  inst := { manager := manager, focused := false, lastMode := none, lastStatusIcon := none,
            log := [] }
  owner := owner

def updateInst (host : Hosted σ) (update : Instance → Instance) : Hosted σ :=
  { host with inst := update host.inst }

def updateManager (host : Hosted σ) (update : EngineManager → EngineManager) : Hosted σ :=
  host.updateInst fun inst => { inst with manager := update inst.manager }

/-- A callback runs. -/
def tell (host : Hosted σ) (callback : Callback) : Hosted σ :=
  { host with owner := handler host.inst callback host.owner }

/-! ## Notifications -/

/-- The mode is stored, with its icon. -/
def storeMode (host : Hosted σ) (mode : EngineMode) : Hosted σ :=
  host.updateInst fun inst =>
    { inst with
      lastMode := some mode
      lastStatusIcon := mode.iconName.or inst.lastStatusIcon }

/-- `typio_instance_notify_mode`. -/
def notifyMode (host : Hosted σ) (mode : EngineMode) : Hosted σ :=
  if host.inst.lastMode.any (·.equal mode) then host
  else
    let told := (host.storeMode mode).tell handler (.modeChanged mode)
    match mode.iconName with
    | none => told
    | some icon => told.tell handler (.statusIconChanged icon)

/-- `typio_instance_notify_status_icon`. -/
def notifyStatusIcon (host : Hosted σ) (icon : String) : Hosted σ :=
  if host.inst.lastStatusIcon = some icon then host
  else
    (host.updateInst fun inst => { inst with lastStatusIcon := some icon }).tell handler
      (.statusIconChanged icon)

/-- `typio_instance_clear_mode`, which tells nobody. -/
def clearMode (host : Hosted σ) : Hosted σ :=
  host.updateInst fun inst => { inst with lastMode := none }

/-- `typio_instance_clear_status_icon`. -/
def clearStatusIcon (host : Hosted σ) : Hosted σ :=
  host.updateInst fun inst => { inst with lastStatusIcon := none }

def record (host : Hosted σ) (entry : LogEntry) : Hosted σ :=
  host.updateInst fun inst => { inst with log := entry :: inst.log }

/-- An engine notifies the instance. -/
def notice (host : Hosted σ) (engine : String) (notice : Notice) : Hosted σ :=
  let recorded := host.record (.noticed engine notice)
  match notice with
  | .mode mode => recorded.notifyMode handler mode
  | .statusIcon icon => recorded.notifyStatusIcon handler icon

/-! ## Calls -/

/-- An engine is called, and notifies the instance before it returns. -/
def callEngine (host : Hosted σ) (engine : String) (call : EngineCall) : Hosted σ :=
  (behaviour.notices engine call).foldl (fun host given => host.notice handler engine given)
    (host.record (.called engine call))

/-- The engine of an entry is called, if it can be reached through its wrapper. -/
def callEntry (host : Hosted σ) (entry : Option EngineEntry) (call : EngineCall) : Hosted σ :=
  match entry with
  | none => host
  | some entry =>
      if entry.engine.any (·.userData) then host.callEngine handler behaviour entry.name call
      else host

def entryAt (host : Hosted σ) (index : Option Nat) : Option EngineEntry :=
  index.bind (host.inst.manager.entries[·]?)

/-- `deactivate_entry`. -/
def deactivateEntry (host : Hosted σ) (current : Option Nat) : Hosted σ :=
  (host.callEntry handler behaviour (host.entryAt current) .deactivate).updateManager
    (·.modifyActive current EngineEntry.deactivate)

/-- `init` is called on an engine which is not initialized yet. -/
def initEntry (host : Hosted σ) (current : Option Nat) : Hosted σ :=
  if (host.entryAt current).any fun entry => entry.engine.any (!·.initialized) then
    host.callEntry handler behaviour (host.entryAt current) .init
  else host

/-- `try_restore_engine`. -/
def tryRestoreEngine (host : Hosted σ) (current : Option Nat) (init : TypioResult) : Hosted σ :=
  (host.initEntry handler behaviour current).updateManager
    (·.modifyActive current (·.tryRestore init))

/-- `rebind_focused_context`. -/
def rebindFocusedContext (host : Hosted σ) (old new : Option EngineEntry) : Hosted σ :=
  if !host.inst.focused then host
  else
    let left := (host.callEntry handler behaviour old .focusOut).clearStatusIcon.clearMode
    let entered := (left.callEntry handler behaviour new .reset).callEntry handler behaviour new
      .focusIn
    match new.filter fun entry => entry.engine.any Engine.asKeyboard with
    | none => entered
    | some entry =>
        let asked := entered.callEngine handler behaviour entry.name .getMode
        match behaviour.mode entry.name with
        | none => asked
        | some mode => asked.notice handler entry.name (.mode mode)

/-- The slot takes the new engine, and the owner is told. -/
def settle (host : Hosted σ) (slot : Slot) (current : Option Nat) (index : Nat)
    (info : EngineInfo) : Hosted σ :=
  let settled := host.updateManager fun manager =>
    { manager with active := Function.update manager.active slot (some index) }
  match slot with
  | .voice => settled.tell handler (.voiceEngineChanged info)
  | .keyboard =>
      let cleared := settled.clearStatusIcon.clearMode
      (cleared.rebindFocusedContext handler behaviour (cleared.entryAt current)
        (cleared.entryAt (some index))).tell handler (.engineChanged info)

/-! ## Operations -/

/-- The two branches of `set_active`. -/
def switchTo (host : Hosted σ) (info : EngineInfo) (index : Nat) (calls : Calls) :
    Hosted σ × TypioResult :=
  let slot := Slot.ofInfo info
  if host.inst.manager.active slot = some index then (host, .ok)
  else
    let current := host.inst.manager.active slot
    let idle := host.deactivateEntry handler behaviour current
    let made := idle.updateManager fun manager => (manager.ensureEntryInstance index calls.made).1
    let result := (idle.inst.manager.ensureEntryInstance index calls.made).2
    if result ≠ .ok then (made.tryRestoreEngine handler behaviour current calls.restored, result)
    else
      let called := made.initEntry handler behaviour (some index)
      let activated := called.updateManager fun manager => (manager.activateEntry index calls.init).1
      let result := (made.inst.manager.activateEntry index calls.init).2
      if result ≠ .ok then
        (activated.tryRestoreEngine handler behaviour current calls.restored, result)
      else (activated.settle handler behaviour slot current index info, .ok)

/-- `typio_engine_manager_set_active`. -/
def setActive (host : Hosted σ) (name : String) (calls : Calls) : Hosted σ × TypioResult :=
  match host.inst.manager.findEntryIndex name with
  | none => (host, .notFound)
  | some index =>
      match (host.inst.manager.entries[index]?).bind EngineEntry.info with
      | none => (host, .engineLoadFailed)
      | some info => host.switchTo handler behaviour info index calls

/-- `typio_engine_manager_set_active_voice`. -/
def setActiveVoice (host : Hosted σ) (name : String) (calls : Calls) : Hosted σ × TypioResult :=
  match (host.inst.manager.entries.find? (·.name == name)).bind EngineEntry.info with
  | none => (host, .notFound)
  | some info =>
      if info.type ≠ .voice then (host, .invalidArgument)
      else host.setActive handler behaviour name calls

/-- `typio_engine_manager_next` and `typio_engine_manager_prev`. -/
def cycle (host : Hosted σ) (forward stable : Bool) (order : List String) (calls : Calls) :
    Hosted σ × TypioResult :=
  if host.inst.manager.entries.isEmpty then (host, .engineNotAvailable)
  else
    match host.inst.manager.resolveSwitch (host.inst.manager.listOrderedKeyboards order) forward
      stable with
    | none => (host, .engineNotAvailable)
    | some name => host.setActive handler behaviour name calls

/-- An operation on the manager; all but the switches leave the rest of the instance alone. -/
def manage (host : Hosted σ) (operation : EngineManager.RegistryOperation) : Hosted σ :=
  match operation with
  | .operation (.setActive name calls) => (host.setActive handler behaviour name calls).1
  | .operation (.setActiveVoice name calls) => (host.setActiveVoice handler behaviour name calls).1
  | .operation (.cycle forward stable order calls) =>
      (host.cycle handler behaviour forward stable order calls).1
  | operation => host.updateManager (·.registryStep operation)

/-- The entry of the active keyboard engine. -/
def activeKeyboard (host : Hosted σ) : Option EngineEntry :=
  host.entryAt (host.inst.manager.active .keyboard)

/-- `typio_input_context_focus_in`. -/
def contextFocusIn (host : Hosted σ) : Hosted σ :=
  if host.inst.focused then host
  else
    let focused := host.updateInst fun inst => { inst with focused := true }
    focused.callEntry handler behaviour focused.activeKeyboard .focusIn

/-- `typio_input_context_focus_out`. -/
def contextFocusOut (host : Hosted σ) : Hosted σ :=
  if !host.inst.focused then host
  else
    (host.callEntry handler behaviour host.activeKeyboard .focusOut).updateInst fun inst =>
      { inst with focused := false }

/-- `typio_input_context_reset`. -/
def contextReset (host : Hosted σ) : Hosted σ :=
  host.callEntry handler behaviour host.activeKeyboard .reset

/-- What happens to an instance.  An engine may also notify it on its own account, while it
processes a key or when a timer of its own fires. -/
inductive Event where
  | manage (operation : EngineManager.RegistryOperation) (behaviour : Behaviour)
  | focusIn (behaviour : Behaviour)
  | focusOut (behaviour : Behaviour)
  | reset (behaviour : Behaviour)
  | notice (engine : String) (notice : Notice)
  | clearMode

def step (host : Hosted σ) : Event → Hosted σ
  | .manage operation behaviour => host.manage handler behaviour operation
  | .focusIn behaviour => host.contextFocusIn handler behaviour
  | .focusOut behaviour => host.contextFocusOut handler behaviour
  | .reset behaviour => host.contextReset handler behaviour
  | .notice engine given => host.notice handler engine given
  | .clearMode => host.clearMode

/-! ## What notices and calls leave alone -/

section Frame

variable (host : Hosted σ)

@[simp] theorem updateInst_inst (update : Instance → Instance) :
    (host.updateInst update).inst = update host.inst := rfl

@[simp] theorem updateManager_manager (update : EngineManager → EngineManager) :
    (host.updateManager update).inst.manager = update host.inst.manager := rfl

@[simp] theorem updateManager_focused (update : EngineManager → EngineManager) :
    (host.updateManager update).inst.focused = host.inst.focused := rfl

@[simp] theorem updateManager_log (update : EngineManager → EngineManager) :
    (host.updateManager update).inst.log = host.inst.log := rfl

@[simp] theorem tell_inst (callback : Callback) : (host.tell handler callback).inst = host.inst :=
  rfl

@[simp] theorem clearMode_manager : host.clearMode.inst.manager = host.inst.manager := rfl

@[simp] theorem clearStatusIcon_manager :
    host.clearStatusIcon.inst.manager = host.inst.manager := rfl

@[simp] theorem clearMode_focused : host.clearMode.inst.focused = host.inst.focused := rfl

@[simp] theorem clearStatusIcon_focused :
    host.clearStatusIcon.inst.focused = host.inst.focused := rfl

theorem notifyMode_log (mode : EngineMode) :
    (host.notifyMode handler mode).inst.log = host.inst.log := by
  unfold notifyMode
  split
  · rfl
  dsimp only
  split <;> rfl

theorem notifyStatusIcon_log (icon : String) :
    (host.notifyStatusIcon handler icon).inst.log = host.inst.log := by
  unfold notifyStatusIcon
  split <;> rfl

theorem notice_log (engine : String) (given : Notice) :
    (host.notice handler engine given).inst.log = .noticed engine given :: host.inst.log := by
  cases given with
  | mode mode => exact notifyMode_log handler _ mode
  | statusIcon icon => exact notifyStatusIcon_log handler _ icon

/-- What holds when a call is recorded, and is kept by each notice the call gives, holds when the
call returns. -/
theorem callEngine_induction {host : Hosted σ} {invariant : Hosted σ → Prop} {engine : String}
    {call : EngineCall} (recorded : invariant (host.record (.called engine call)))
    (kept : ∀ host, invariant host → ∀ given ∈ behaviour.notices engine call,
      invariant (host.notice handler engine given)) :
    invariant (host.callEngine handler behaviour engine call) := by
  unfold callEngine
  generalize behaviour.notices engine call = notices at kept
  generalize host.record (.called engine call) = host at recorded
  induction notices generalizing host with
  | nil => exact recorded
  | cons first later ih =>
      refine ih (fun host holds given member => ?_) _
        (kept host recorded first (List.mem_cons_self ..))
      exact kept host holds given (List.mem_cons_of_mem first member)

/-- Nothing is taken out of the log. -/
theorem callEngine_log (engine : String) (call : EngineCall) :
    host.inst.log ⊆ (host.callEngine handler behaviour engine call).inst.log :=
  @callEngine_induction _ handler behaviour host (fun after => host.inst.log ⊆ after.inst.log) engine
    call (List.subset_cons_self ..) fun after grows given _ => by
      rw [notice_log]
      exact List.subset_cons_of_subset _ grows

/-- An entry whose engine cannot be reached is not called. -/
theorem callEntry_induction {host : Hosted σ} {invariant : Hosted σ → Prop}
    {entry : Option EngineEntry} {call : EngineCall} (uncalled : invariant host)
    (called : ∀ called ∈ entry, called.engine.any (·.userData) →
      invariant (host.callEngine handler behaviour called.name call)) :
    invariant (host.callEntry handler behaviour entry call) := by
  unfold callEntry
  cases entry with
  | none => exact uncalled
  | some entry =>
      dsimp only
      split
      · next reachable => exact called entry rfl reachable
      · exact uncalled

theorem callEntry_log (entry : Option EngineEntry) (call : EngineCall) :
    host.inst.log ⊆ (host.callEntry handler behaviour entry call).inst.log :=
  @callEntry_induction _ handler behaviour host (fun after => host.inst.log ⊆ after.inst.log) entry
    call (List.Subset.refl _) fun called _ _ => callEngine_log handler behaviour host called.name call

theorem contextFocusIn_log :
    host.inst.log ⊆ (host.contextFocusIn handler behaviour).inst.log := by
  unfold contextFocusIn
  split
  · exact List.Subset.refl _
  · exact callEntry_log handler behaviour (host.updateInst fun inst => { inst with focused := true })
      _ .focusIn

/-- The manager and the focus are as before. -/
structure Still (before after : Hosted σ) : Prop where
  manager : after.inst.manager = before.inst.manager
  focused : after.inst.focused = before.inst.focused

namespace Still

variable {before middle after : Hosted σ}

theorem refl : Still host host := ⟨rfl, rfl⟩

theorem trans (first : Still before middle) (second : Still middle after) : Still before after :=
  ⟨second.manager.trans first.manager, second.focused.trans first.focused⟩

theorem notifyMode (mode : EngineMode) : Still host (host.notifyMode handler mode) := by
  unfold Hosted.notifyMode
  split
  · exact .refl host
  dsimp only
  split
  · exact ⟨rfl, rfl⟩
  · exact ⟨rfl, rfl⟩

theorem notifyStatusIcon (icon : String) : Still host (host.notifyStatusIcon handler icon) := by
  unfold Hosted.notifyStatusIcon
  split
  · exact .refl host
  · exact ⟨rfl, rfl⟩

theorem notice (engine : String) (given : Notice) :
    Still host (host.notice handler engine given) := by
  have recorded : Still host (host.record (.noticed engine given)) := ⟨rfl, rfl⟩
  cases given with
  | mode mode => exact recorded.trans (notifyMode handler _ mode)
  | statusIcon icon => exact recorded.trans (notifyStatusIcon handler _ icon)

theorem callEngine (engine : String) (call : EngineCall) :
    Still host (host.callEngine handler behaviour engine call) :=
  @callEngine_induction _ handler behaviour host (Still host) engine call ⟨rfl, rfl⟩
    fun _ still given _ => still.trans (notice handler _ engine given)

theorem callEntry (entry : Option EngineEntry) (call : EngineCall) :
    Still host (host.callEntry handler behaviour entry call) :=
  @callEntry_induction _ handler behaviour host (Still host) entry call (.refl host)
    fun called _ _ => callEngine handler behaviour host called.name call

theorem initEntry (current : Option Nat) :
    Still host (host.initEntry handler behaviour current) := by
  unfold Hosted.initEntry
  split
  · exact callEntry handler behaviour host _ .init
  · exact .refl host

theorem rebindFocusedContext (old new : Option EngineEntry) :
    Still host (host.rebindFocusedContext handler behaviour old new) := by
  unfold Hosted.rebindFocusedContext
  split
  · exact .refl host
  have left : Still host
      (host.callEntry handler behaviour old .focusOut).clearStatusIcon.clearMode :=
    (callEntry handler behaviour host old .focusOut).trans ⟨rfl, rfl⟩
  have entered := (left.trans (callEntry handler behaviour _ new .reset)).trans
    (callEntry handler behaviour _ new .focusIn)
  dsimp only
  split
  · exact entered
  next entry _ =>
    have asked := entered.trans (callEngine handler behaviour _ entry.name .getMode)
    split
    · exact asked
    · exact asked.trans (notice handler _ _ _)

end Still

@[simp] theorem callEntry_manager (entry : Option EngineEntry) (call : EngineCall) :
    (host.callEntry handler behaviour entry call).inst.manager = host.inst.manager :=
  (Still.callEntry handler behaviour host entry call).manager

@[simp] theorem initEntry_manager (current : Option Nat) :
    (host.initEntry handler behaviour current).inst.manager = host.inst.manager :=
  (Still.initEntry handler behaviour host current).manager

@[simp] theorem deactivateEntry_manager (current : Option Nat) :
    (host.deactivateEntry handler behaviour current).inst.manager =
      host.inst.manager.modifyActive current EngineEntry.deactivate := by
  simp [deactivateEntry]

@[simp] theorem tryRestoreEngine_manager (current : Option Nat) (init : TypioResult) :
    (host.tryRestoreEngine handler behaviour current init).inst.manager =
      host.inst.manager.modifyActive current (·.tryRestore init) := by
  simp [tryRestoreEngine]

theorem settle_manager (slot : Slot) (current : Option Nat) (index : Nat) (info : EngineInfo) :
    (host.settle handler behaviour slot current index info).inst.manager =
      { host.inst.manager with
        active := Function.update host.inst.manager.active slot (some index) } := by
  cases slot with
  | voice => rfl
  | keyboard => exact (Still.rebindFocusedContext handler behaviour _ _ _).manager

end Frame

/-! ## The manager of an instance -/

section Manager

variable (host : Hosted σ)

/-- A switch does to the manager what the manager alone does, and ends with the same result. -/
theorem switchTo_eq (info : EngineInfo) (index : Nat) (calls : Calls) :
    ((host.switchTo handler behaviour info index calls).1.inst.manager,
      (host.switchTo handler behaviour info index calls).2) =
      host.inst.manager.switchTo (Slot.ofInfo info) index calls := by
  unfold switchTo EngineManager.switchTo
  by_cases same : host.inst.manager.active (Slot.ofInfo info) = some index
  · rw [if_pos same, if_pos same]
  rw [if_neg same, if_neg same]
  dsimp only
  by_cases fails : ((host.inst.manager.modifyActive (host.inst.manager.active (Slot.ofInfo info))
      EngineEntry.deactivate).ensureEntryInstance index calls.made).2 = .ok
  · by_cases stops : ((((host.inst.manager.modifyActive
        (host.inst.manager.active (Slot.ofInfo info)) EngineEntry.deactivate).ensureEntryInstance
          index calls.made).1).activateEntry index calls.init).2 = .ok
    · simp [fails, stops, settle_manager]
    · simp [fails, stops]
  · simp [fails]

theorem switchTo_manager (info : EngineInfo) (index : Nat) (calls : Calls) :
    (host.switchTo handler behaviour info index calls).1.inst.manager =
      (host.inst.manager.switchTo (Slot.ofInfo info) index calls).1 :=
  congrArg Prod.fst (switchTo_eq handler behaviour host info index calls)

theorem switchTo_result (info : EngineInfo) (index : Nat) (calls : Calls) :
    (host.switchTo handler behaviour info index calls).2 =
      (host.inst.manager.switchTo (Slot.ofInfo info) index calls).2 :=
  congrArg Prod.snd (switchTo_eq handler behaviour host info index calls)

theorem setActive_eq (name : String) (calls : Calls) :
    ((host.setActive handler behaviour name calls).1.inst.manager,
      (host.setActive handler behaviour name calls).2) =
      host.inst.manager.setActive name calls := by
  unfold setActive EngineManager.setActive
  cases found : host.inst.manager.findEntryIndex name with
  | none => rfl
  | some index =>
      dsimp only
      cases known : (host.inst.manager.entries[index]?).bind EngineEntry.info with
      | none => rfl
      | some info => exact switchTo_eq handler behaviour host info index calls

theorem setActive_manager (name : String) (calls : Calls) :
    (host.setActive handler behaviour name calls).1.inst.manager =
      (host.inst.manager.setActive name calls).1 :=
  congrArg Prod.fst (setActive_eq handler behaviour host name calls)

theorem setActiveVoice_eq (name : String) (calls : Calls) :
    ((host.setActiveVoice handler behaviour name calls).1.inst.manager,
      (host.setActiveVoice handler behaviour name calls).2) =
      host.inst.manager.setActiveVoice name calls := by
  unfold setActiveVoice EngineManager.setActiveVoice
  cases (host.inst.manager.entries.find? (·.name == name)).bind EngineEntry.info with
  | none => rfl
  | some info =>
      dsimp only
      by_cases voice : info.type ≠ .voice
      · rw [if_pos voice, if_pos voice]
      · rw [if_neg voice, if_neg voice]
        exact setActive_eq handler behaviour host name calls

theorem cycle_eq (forward stable : Bool) (order : List String) (calls : Calls) :
    ((host.cycle handler behaviour forward stable order calls).1.inst.manager,
      (host.cycle handler behaviour forward stable order calls).2) =
      host.inst.manager.cycle forward stable order calls := by
  unfold cycle EngineManager.cycle
  by_cases empty : host.inst.manager.entries.isEmpty
  · rw [if_pos empty, if_pos empty]
  rw [if_neg empty, if_neg empty]
  cases host.inst.manager.resolveSwitch (host.inst.manager.listOrderedKeyboards order) forward
    stable with
  | none => rfl
  | some name => exact setActive_eq handler behaviour host name calls

theorem manage_manager (operation : EngineManager.RegistryOperation) :
    (host.manage handler behaviour operation).inst.manager =
      host.inst.manager.registryStep operation := by
  cases operation with
  | load library => rfl
  | operation operation =>
      cases operation with
      | setActive name calls =>
          exact congrArg Prod.fst (setActive_eq handler behaviour host name calls)
      | setActiveVoice name calls =>
          exact congrArg Prod.fst (setActiveVoice_eq handler behaviour host name calls)
      | cycle forward stable order calls =>
          exact congrArg Prod.fst
            (cycle_eq handler behaviour host forward stable order calls)
      | register _ | getEngine _ _ | notifyCommit | unload _ => rfl

@[simp] theorem contextFocusIn_manager :
    (host.contextFocusIn handler behaviour).inst.manager = host.inst.manager := by
  unfold contextFocusIn
  split
  · rfl
  · exact callEntry_manager handler behaviour _ _ _

@[simp] theorem contextFocusOut_manager :
    (host.contextFocusOut handler behaviour).inst.manager = host.inst.manager := by
  unfold contextFocusOut
  split
  · rfl
  · exact callEntry_manager handler behaviour _ _ _

/-- What every operation on the manager preserves holds of the manager in every run. -/
theorem run_manager {invariant : EngineManager → Prop}
    (preserved : ∀ manager operation, invariant manager →
      invariant (manager.registryStep operation))
    (events : List Event) (initial : invariant host.inst.manager) :
    invariant (Machine.run (step handler) host events).inst.manager := by
  induction events generalizing host with
  | nil => exact initial
  | cons event events ih =>
      apply ih
      cases event with
      | manage operation behaviour =>
          change invariant (host.manage handler behaviour operation).inst.manager
          rw [manage_manager]
          exact preserved _ operation initial
      | focusIn behaviour => simpa [step] using initial
      | focusOut behaviour => simpa [step] using initial
      | reset behaviour => simpa [step, contextReset] using initial
      | notice engine given => simpa [step, (Still.notice handler host engine given).manager]
      | clearMode => exact initial

end Manager

end Hosted

end Core

end Typio
