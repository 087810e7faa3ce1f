import Mathlib.Data.List.Basic

/-!
# The engine manager

Engines are registered with a factory and instantiated when they are first needed; the instance is
cached in the entry.  One keyboard slot and one voice slot name the active entries by index.  What
a factory returns and how an engine's `init` ends are inputs of the operations.  An entry records
whether its instance ever failed validation; the manager itself never reads that record.
-/

namespace Typio

namespace Core

inductive TypioResult where
  | ok
  | error
  | invalidArgument
  | outOfMemory
  | notFound
  | alreadyExists
  | notInitialized
  | engineLoadFailed
  | engineNotAvailable
  deriving DecidableEq, Repr

inductive EngineType where
  | keyboard
  | voice
  | handwriting
  | custom
  deriving DecidableEq, Repr

structure EngineInfo where
  name : String
  displayName : Option String := none
  icon : Option String := none
  type : EngineType
  deriving DecidableEq, Repr

/-- What a factory returns: a built-in engine in its wrapper, or the engine of a plugin. -/
structure RawEngine where
  unified : Bool
  userData : Bool
  keyboard : Bool
  voice : Bool
  deriving DecidableEq, Repr

/-- The wrapper through which the manager reaches an engine. -/
structure Engine where
  userData : Bool
  keyboard : Bool
  voice : Bool
  initialized : Bool
  active : Bool
  deriving DecidableEq, Repr

namespace Engine

/-- A built-in wrapper is taken as it is, a plugin is put behind an adapter which offers an
interface when the plugin has the operations for it. -/
def wrap (raw : RawEngine) : Engine where
  userData := if raw.unified then raw.userData else true
  keyboard := raw.keyboard
  voice := raw.voice
  initialized := false
  active := false

def asKeyboard (engine : Engine) : Bool := engine.userData && engine.keyboard

def asVoice (engine : Engine) : Bool := engine.userData && engine.voice

end Engine

structure EngineEntry where
  name : String
  info : Option EngineInfo
  factory : Bool
  engine : Option Engine
  rejected : Bool
  deriving DecidableEq, Repr

namespace EngineEntry

/-- The check of `ensure_entry_instance` on an instance that has just been made. -/
def validate (entry : EngineEntry) (engine : Engine) : TypioResult :=
  match entry.info with
  | none => .invalidArgument
  | some info =>
      if !engine.userData then .invalidArgument
      else
        match info.type with
        | .keyboard => if engine.asKeyboard then .ok else .invalidArgument
        | .voice => if engine.asVoice then .ok else .invalidArgument
        | .handwriting | .custom => .ok

def isKeyboard (entry : EngineEntry) : Bool := entry.info.any (·.type == .keyboard)

def isVoice (entry : EngineEntry) : Bool := entry.info.any (·.type == .voice)

def deactivate (entry : EngineEntry) : EngineEntry :=
  { entry with engine := entry.engine.map ({ · with active := false }) }

/-- `init` is called once; its result counts only then. -/
def activate (entry : EngineEntry) (init : TypioResult) : EngineEntry × TypioResult :=
  match entry.engine with
  | none => (entry, .engineNotAvailable)
  | some engine =>
      if !engine.userData then (entry, .engineNotAvailable)
      else if !engine.initialized && init ≠ .ok then (entry, init)
      else ({ entry with engine := some { engine with initialized := true, active := true } }, .ok)

def tryRestore (entry : EngineEntry) (init : TypioResult) : EngineEntry := (entry.activate init).1

end EngineEntry

/-- The two kinds of active engine; every engine that is not a voice engine goes to the keyboard
slot. -/
inductive Slot where
  | keyboard
  | voice
  deriving DecidableEq, Repr

namespace Slot

def ofInfo (info : EngineInfo) : Slot := if info.type = .voice then .voice else .keyboard

/-- The operations an engine must provide to serve the slot. -/
def provided (slot : Slot) (engine : Engine) : Bool :=
  match slot with
  | .keyboard => engine.asKeyboard
  | .voice => engine.asVoice

end Slot

/-- What the engine code called during a switch returns: the factory, `init` of the engine that is
switched to and `init` of the one that is restored. -/
structure Calls where
  made : Option RawEngine
  init : TypioResult
  restored : TypioResult
  deriving DecidableEq, Repr

structure EngineManager where
  entries : List EngineEntry
  active : Slot → Option Nat
  recentPrimary : Option String
  recentSecondary : Option String

namespace EngineManager

def new (recentPrimary recentSecondary : Option String) : EngineManager where
  entries := []
  active _ := none
  recentPrimary := recentPrimary
  recentSecondary := recentSecondary

/-! ## Entries -/

def findEntryIndex (manager : EngineManager) (name : String) : Option Nat :=
  manager.entries.findIdx? (·.name == name)

def nameIsKeyboard (manager : EngineManager) (name : String) : Bool :=
  (manager.entries.find? (·.name == name)).any EngineEntry.isKeyboard

def modifyEntry (manager : EngineManager) (index : Nat) (change : EngineEntry → EngineEntry) :
    EngineManager :=
  { manager with entries := manager.entries.modify index change }

/-- The entry a slot names is changed, if it names one. -/
def modifyActive (manager : EngineManager) (current : Option Nat)
    (change : EngineEntry → EngineEntry) : EngineManager :=
  match current with
  | none => manager
  | some index => manager.modifyEntry index change

def register (manager : EngineManager) (info : Option EngineInfo) :
    EngineManager × TypioResult :=
  match info with
  | none => (manager, .invalidArgument)
  | some info =>
      if (manager.findEntryIndex info.name).isSome then (manager, .alreadyExists)
      else
        let entry : EngineEntry :=
          { name := info.name, info := some info, factory := true, engine := none,
            rejected := false }
        ({ manager with entries := manager.entries ++ [entry] }, .ok)

def unload (manager : EngineManager) (name : String) : EngineManager × TypioResult :=
  match manager.findEntryIndex name with
  | none => (manager, .notFound)
  | some index =>
      let shifted (slot : Slot) : Option Nat :=
        (manager.active slot).bind fun current =>
          if index = current then none else if index < current then some (current - 1)
          else some current
      ({ manager with entries := manager.entries.eraseIdx index, active := shifted }, .ok)

/-! ## Instances -/

/-- The instance is cached before it is validated. -/
def ensureEntryInstance (manager : EngineManager) (index : Nat) (made : Option RawEngine) :
    EngineManager × TypioResult :=
  match manager.entries[index]? with
  | none => (manager, .invalidArgument)
  | some entry =>
      if entry.engine.isSome then (manager, .ok)
      else if !entry.factory then (manager, .engineLoadFailed)
      else
        match made with
        | none => (manager, .engineLoadFailed)
        | some raw =>
            let engine := Engine.wrap raw
            let result := entry.validate engine
            (manager.modifyEntry index fun entry =>
              { entry with engine := some engine, rejected := result ≠ .ok }, result)

/-- The lazy instantiation on a query, which validates nothing. -/
def getEngine (manager : EngineManager) (name : String) (made : Option RawEngine) :
    EngineManager × Option Engine :=
  match manager.findEntryIndex name with
  | none => (manager, none)
  | some index =>
      match manager.entries[index]? with
      | none => (manager, none)
      | some entry =>
          match entry.engine with
          | some engine => (manager, some engine)
          | none =>
              if !entry.factory then (manager, none)
              else
                match made with
                | none => (manager, none)
                | some raw =>
                    (manager.modifyEntry index fun entry =>
                      { entry with engine := some (Engine.wrap raw) }, some (Engine.wrap raw))

/-! ## Switching -/

def activateEntry (manager : EngineManager) (index : Nat) (init : TypioResult) :
    EngineManager × TypioResult :=
  match manager.entries[index]? with
  | none => (manager, .engineNotAvailable)
  | some entry =>
      (manager.modifyEntry index fun entry => (entry.activate init).1, (entry.activate init).2)

/-- The two branches of `set_active`, for the slot the entry belongs to. -/
def switchTo (manager : EngineManager) (slot : Slot) (index : Nat) (calls : Calls) :
    EngineManager × TypioResult :=
  if manager.active slot = some index then (manager, .ok)
  else
    let current := manager.active slot
    let idle := manager.modifyActive current EngineEntry.deactivate
    let (made, result) := idle.ensureEntryInstance index calls.made
    if result ≠ .ok then (made.modifyActive current (·.tryRestore calls.restored), result)
    else
      let (activated, result) := made.activateEntry index calls.init
      if result ≠ .ok then (activated.modifyActive current (·.tryRestore calls.restored), result)
      else ({ activated with active := Function.update activated.active slot (some index) }, .ok)

def setActive (manager : EngineManager) (name : String) (calls : Calls) :
    EngineManager × TypioResult :=
  match manager.findEntryIndex name with
  | none => (manager, .notFound)
  | some index =>
      match (manager.entries[index]?).bind EngineEntry.info with
      | none => (manager, .engineLoadFailed)
      | some info => manager.switchTo (Slot.ofInfo info) index calls

def setActiveVoice (manager : EngineManager) (name : String) (calls : Calls) :
    EngineManager × TypioResult :=
  match (manager.entries.find? (·.name == name)).bind EngineEntry.info with
  | none => (manager, .notFound)
  | some info =>
      if info.type ≠ .voice then (manager, .invalidArgument) else manager.setActive name calls

/-! ## Cycling -/

/-- The configured order first, then the other keyboards as they were registered. -/
def listOrderedKeyboards (manager : EngineManager) (order : List String) : List String :=
  let listed := order.filter manager.nameIsKeyboard
  let keyboards := (manager.entries.filter EngineEntry.isKeyboard).map EngineEntry.name
  (listed ++ keyboards).foldl (fun names name => if name ∈ names then names else names ++ [name]) []

def activeName (manager : EngineManager) : Option String :=
  (manager.active .keyboard).bind fun index => (manager.entries[index]?).map EngineEntry.name

def recentPartner (manager : EngineManager) (current : String) : Option String :=
  let partner :=
    if manager.recentPrimary = some current then manager.recentSecondary
    else if manager.recentSecondary = some current then manager.recentPrimary
    else none
  partner.filter manager.nameIsKeyboard

/-- After a stable while the recent partner comes first, otherwise the cyclic neighbour. -/
def resolveSwitch (manager : EngineManager) (ordered : List String) (forward stable : Bool) :
    Option String :=
  manager.activeName.bind fun current =>
    match (if stable then manager.recentPartner current else none) with
    | some partner => some partner
    | none =>
        match ordered.findIdx? (· == current) with
        | none => ordered.head?
        | some position =>
            if forward then ordered[(position + 1) % ordered.length]?
            else ordered[if position = 0 then ordered.length - 1 else position - 1]?

/-- `next` and `prev`. -/
def cycle (manager : EngineManager) (forward stable : Bool) (order : List String)
    (calls : Calls) : EngineManager × TypioResult :=
  if manager.entries.isEmpty then (manager, .engineNotAvailable)
  else
    match manager.resolveSwitch (manager.listOrderedKeyboards order) forward stable with
    | none => (manager, .engineNotAvailable)
    | some name => manager.setActive name calls

def updateRecentPair (manager : EngineManager) (stableName : String) : EngineManager :=
  if stableName = "" ∨ manager.recentPrimary = some stableName then manager
  else
    { manager with
      recentPrimary := some stableName
      recentSecondary :=
        (manager.recentPrimary.filter (· ≠ stableName)).or
          (manager.recentSecondary.filter (· ≠ stableName)) }

def notifyCommit (manager : EngineManager) : EngineManager :=
  match manager.activeName with
  | none => manager
  | some name => manager.updateRecentPair name

/-! ## Operations -/

/-- `stable` says whether the last switch is older than the threshold, `order` is the configured
engine order. -/
inductive Operation where
  | register (info : Option EngineInfo)
  | setActive (name : String) (calls : Calls)
  | setActiveVoice (name : String) (calls : Calls)
  | getEngine (name : String) (made : Option RawEngine)
  | cycle (forward stable : Bool) (order : List String) (calls : Calls)
  | notifyCommit
  | unload (name : String)
  deriving DecidableEq, Repr

def step (manager : EngineManager) : Operation → EngineManager
  | .register info => (manager.register info).1
  | .setActive name calls => (manager.setActive name calls).1
  | .setActiveVoice name calls => (manager.setActiveVoice name calls).1
  | .getEngine name made => (manager.getEngine name made).1
  | .cycle forward stable order calls => (manager.cycle forward stable order calls).1
  | .notifyCommit => manager.notifyCommit
  | .unload name => (manager.unload name).1

end EngineManager

end Core

end Typio
