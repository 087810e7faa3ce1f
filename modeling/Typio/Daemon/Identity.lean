import Typio.Daemon.StateController

/-!
# The memory of applications

For each application the daemon remembers in its state file which engine was last active and which
mode it had.  The memory is written from the callbacks of the instance, for the application which
has the focus, and read when an application gains the focus.
-/

namespace Typio

namespace Daemon

/-- What the state file holds for one application.  The engine is written under two keys, of which
the older one is read when the other is missing. -/
structure IdentityMemory where
  engine : Option String
  legacyEngine : Option String
  modeEngine : Option String
  modeId : Option String
  deriving DecidableEq, Repr

namespace IdentityMemory

/-- `identity_memory_load_engine`. -/
def loadEngine (memory : IdentityMemory) : Option String :=
  (memory.engine.filter (· ≠ "")).or (memory.legacyEngine.filter (· ≠ ""))

/-- `identity_memory_store_engine`: the mode of another engine is forgotten. -/
def storeEngine (memory : IdentityMemory) (name : String) : IdentityMemory :=
  if name = "" then memory
  else
    let stored := { memory with engine := some name, legacyEngine := some name }
    if memory.modeEngine.any fun engine => engine ≠ "" ∧ engine ≠ name then
      { stored with modeEngine := none, modeId := none }
    else stored

/-- `identity_memory_load_mode`. -/
def loadMode (memory : IdentityMemory) : Option (String × String) :=
  match memory.modeEngine.filter (· ≠ ""), memory.modeId.filter (· ≠ "") with
  | some engine, some modeId => some (engine, modeId)
  | _, _ => none

/-- `identity_memory_store_mode`. -/
def storeMode (memory : IdentityMemory) (engine modeId : String) : IdentityMemory :=
  if engine = "" ∨ modeId = "" then memory
  else { memory with modeEngine := some engine, modeId := some modeId }

end IdentityMemory

/-- What the Wayland frontend knows of applications: the one which has the focus, if it is known,
whether preferences are kept, and the state file. -/
structure IdentityFrontend where
  currentIdentity : Option String
  preferences : Bool
  memory : String → IdentityMemory

namespace IdentityFrontend

/-- The application whose memory is read and written at the moment. -/
def remembering (frontend : IdentityFrontend) : Option String :=
  if frontend.preferences then frontend.currentIdentity else none

def modifyMemory (frontend : IdentityFrontend) (identity : String)
    (change : IdentityMemory → IdentityMemory) : IdentityFrontend :=
  { frontend with
    memory := Function.update frontend.memory identity (change (frontend.memory identity)) }

/-- `typio_wl_frontend_remember_active_engine`. -/
def rememberActiveEngine (frontend : IdentityFrontend) (engine : String) : IdentityFrontend :=
  match frontend.remembering with
  | none => frontend
  | some identity => frontend.modifyMemory identity (·.storeEngine engine)

/-- `typio_wl_frontend_remember_active_mode`. -/
def rememberActiveMode (frontend : IdentityFrontend) (engine modeId : String) : IdentityFrontend :=
  match frontend.remembering with
  | none => frontend
  | some identity => frontend.modifyMemory identity (·.storeMode engine modeId)

end IdentityFrontend

end Daemon

end Typio
