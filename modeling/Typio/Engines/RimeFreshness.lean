import Typio.Engines.EngineInstance
import Typio.Engines.RimeTracking
import Typio.Machine

/-!
# Fresh Rime sessions

A reload visits the active engine and the context which has the focus.  A deployment reaches every
session all the same, through the count it leaves behind; a new schema reaches the session it is
selected on.  The keys handed to librime go to fresh sessions if, whenever the schema changes, Rime
is the active engine and only the focused context has a session from the last deployment.
-/

namespace Typio

namespace Engines

open Typio.Core

/-- The session was found, created after the last deployment, and its schema is the recorded one. -/
structure HandedKey.Fresh (handed : HandedKey) : Prop where
  found : handed.session.found = true
  deployment : handed.session.deployment = handed.deployments
  schema : handed.session.schema.getD [] = handed.recorded

instance : DecidablePred HandedKey.Fresh := fun handed =>
  decidable_of_iff
    (handed.session.found = true ∧ handed.session.deployment = handed.deployments ∧
      handed.session.schema.getD [] = handed.recorded)
    ⟨fun ⟨found, deployment, schema⟩ => ⟨found, deployment, schema⟩,
      fun ⟨found, deployment, schema⟩ => ⟨found, deployment, schema⟩⟩

namespace EngineInstance

/-- An input, a new schema which is followed by a reload, or a deployment. -/
inductive RimeEvent where
  | input (input : Input)
  | setSchema (schema : CString) (configured : Option KeyboardEngine) (switch : SwitchConduct)
      (conduct : RimeConduct)
  | deploy (init conduct : RimeConduct)

def rimeStep (inst : EngineInstance) : RimeEvent → EngineInstance
  | .input input => inst.step input
  | .setSchema schema configured switch conduct =>
      (inst.setRimeSchema schema).reloadConfig configured switch conduct
  | .deploy init conduct => inst.deployRimeConfig init conduct

/-- Every key was handed to a fresh session. -/
def HandedFresh (inst : EngineInstance) : Prop := ∀ handed ∈ inst.handed, handed.Fresh

instance : DecidablePred HandedFresh := fun inst =>
  inferInstanceAs (Decidable (∀ handed ∈ inst.handed, handed.Fresh))

/-- The schemas have names, and librime creates sessions and selects schemas. -/
def RimeEvent.Succeeds : RimeEvent → Prop
  | .input _ => True
  | .setSchema schema _ _ conduct => schema ≠ [] ∧ RimeHost.Succeeds conduct
  | .deploy _ conduct => RimeHost.Succeeds conduct

/-- Only the focused context has a session which bears the mark of the last deployment. -/
def OnlyFocused (inst : EngineInstance) (state : RimeState) : Prop :=
  ∀ ctx, ∀ session ∈ (inst.clients ctx).rimeSession, session.deployId = state.deployId →
    inst.focused = some ctx

/-- A change of the schema finds Rime active, and no session of the last deployment but that of the
focused context; a key finds a count of deployments that its mark determines. -/
def CatchesUp (inst : EngineInstance) : RimeEvent → Prop
  | .input (.key _ _ _) => ∀ state ∈ inst.rime, state.deployments < 2 ^ 32
  | .input _ => True
  | .setSchema schema configured _ _ =>
      schema = inst.recorded ∨
        ∀ state ∈ inst.rime, configured.or inst.active = some .rime ∧ inst.OnlyFocused state
  | .deploy _ _ => True

/-! ## The sessions follow the engine -/

/-- The count of deployments is kept, and every session tracks the state of the engine. -/
structure Sound (inst : EngineInstance) : Prop where
  counted : ∀ state ∈ inst.rime, state.Counted
  tracks : ∀ ctx, ∀ session ∈ (inst.clients ctx).rimeSession, ∃ state ∈ inst.rime,
    session.Tracks state

/-- The engine has the schema which is recorded. -/
def Settled (inst : EngineInstance) : Prop := ∀ state ∈ inst.rime, state.schema = inst.recorded

/-- A step which changes no schema: the state of the engine goes on. -/
structure Goes (before after : EngineInstance) : Prop where
  recorded : after.recorded = before.recorded
  rime : ∀ state ∈ before.rime, ∃ later ∈ after.rime, state.Advances later
  settled : before.Settled → after.Settled
  sound : before.Sound → after.Sound

namespace Goes

variable {before middle after : EngineInstance}

theorem refl (inst : EngineInstance) : Goes inst inst :=
  ⟨rfl, fun state held => ⟨state, held, .refl state⟩, id, id⟩

theorem trans (first : Goes before middle) (second : Goes middle after) : Goes before after := by
  refine ⟨second.recorded.trans first.recorded, fun state held => ?_,
    fun settled => second.settled (first.settled settled),
    fun sound => second.sound (first.sound sound)⟩
  obtain ⟨next, next_held, advances⟩ := first.rime state held
  obtain ⟨last, last_held, further⟩ := second.rime next next_held
  exact ⟨last, last_held, advances.trans further⟩

/-- The engine and its sessions are not touched. -/
theorem of_same (recorded : after.recorded = before.recorded) (rime : after.rime = before.rime)
    (sessions : ∀ ctx, (after.clients ctx).rimeSession = (before.clients ctx).rimeSession) :
    Goes before after := by
  refine ⟨recorded, fun state held => ⟨state, rime ▸ held, .refl state⟩, ?_, ?_⟩
  · intro settled state held
    rw [recorded]
    exact settled state (rime ▸ held)
  · intro sound
    refine ⟨fun state held => sound.counted state (rime ▸ held), fun ctx session held => ?_⟩
    rw [rime]
    exact sound.tracks ctx session (sessions ctx ▸ held)

end Goes

variable (inst : EngineInstance)

theorem setClient_rimeSession (ctx : Nat) (client : Client)
    (same : client.rimeSession = (inst.clients ctx).rimeSession) (other : Nat) :
    ((inst.setClient ctx client).clients other).rimeSession =
      (inst.clients other).rimeSession := by
  unfold setClient
  by_cases here : other = ctx
  · subst here
    simpa using same
  · simp [here]

theorem putRime_rimeSession (ctx : Nat) (host : RimeHost) (other : Nat) :
    ((inst.putRime ctx host).clients other).rimeSession =
      if other = ctx then host.session else (inst.clients other).rimeSession := by
  unfold putRime setClient
  by_cases here : other = ctx
  · simp [here]
  · simp [here]

/-- A call of which the host comes out sound leaves the instance sound. -/
theorem putRime_sound (ctx : Nat) {state : RimeState} {host : RimeHost}
    (advances : state.Advances host.state) (counted : state.Counted) (tracked : host.Tracked)
    (others : ∀ other, other ≠ ctx → ∀ session ∈ (inst.clients other).rimeSession,
      session.Tracks state) : (inst.putRime ctx host).Sound := by
  constructor
  · rintro _ ⟨rfl⟩
    exact advances.counted counted
  · intro other session held
    refine ⟨host.state, rfl, ?_⟩
    rw [putRime_rimeSession] at held
    split at held
    · exact tracked session held
    next elsewhere => exact (others other elsewhere session held).advance advances

theorem callRime_goes (ctx : Nat) {call : RimeHost → RimeHost}
    (goes : ∀ host : RimeHost, host.Goes (call host)) : Goes inst (inst.callRime ctx call) := by
  unfold callRime
  split
  · exact .refl inst
  next state held =>
    have called := goes (inst.rimeHost ctx state)
    refine ⟨rfl, ?_, ?_, ?_⟩
    · intro before is
      rw [held] at is
      obtain ⟨rfl⟩ := is
      exact ⟨_, rfl, called.advances⟩
    · rintro settled _ ⟨rfl⟩
      exact called.advances.schema.trans (settled state held)
    · intro sound
      have tracks (other : Nat) : ∀ session ∈ (inst.clients other).rimeSession,
          session.Tracks state := by
        intro session stored
        obtain ⟨_, is, tracks⟩ := sound.tracks other session stored
        rw [held] at is
        obtain ⟨rfl⟩ := is
        exact tracks
      exact inst.putRime_sound ctx called.advances (sound.counted state held)
        (called.tracked (sound.counted state held) (tracks ctx)) fun other _ => tracks other

/-- A call into an engine for a context: the focus, the active engine and the sessions of the other
contexts stay, and no key is handed over. -/
structure Calls (ctx : Nat) (before after : EngineInstance) : Prop extends Goes before after where
  focused : after.focused = before.focused
  active : after.active = before.active
  handed : after.handed = before.handed
  sessions : ∀ other, other ≠ ctx →
    (after.clients other).rimeSession = (before.clients other).rimeSession

theorem Calls.trans {ctx : Nat} {before middle after : EngineInstance}
    (first : Calls ctx before middle) (second : Calls ctx middle after) : Calls ctx before after :=
  ⟨first.toGoes.trans second.toGoes, second.focused.trans first.focused,
    second.active.trans first.active, second.handed.trans first.handed,
    fun other elsewhere => (second.sessions other elsewhere).trans (first.sessions other elsewhere)⟩

theorem callMozc_calls (ctx : Nat) (call : MozcHost → MozcHost) :
    Calls ctx inst (inst.callMozc ctx call) := by
  have sessions (other : Nat) : ((inst.callMozc ctx call).clients other).rimeSession =
      (inst.clients other).rimeSession := by
    unfold callMozc putMozc
    exact inst.setClient_rimeSession ctx _ (by rfl) other
  exact ⟨.of_same rfl rfl sessions, rfl, rfl, rfl, fun other _ => sessions other⟩

theorem callRime_calls (ctx : Nat) {call : RimeHost → RimeHost}
    (goes : ∀ host : RimeHost, host.Goes (call host)) :
    Calls ctx inst (inst.callRime ctx call) := by
  refine ⟨inst.callRime_goes ctx goes, ?_, ?_, ?_, ?_⟩ <;> unfold callRime <;> split
  · rfl
  · rfl
  · rfl
  · rfl
  · rfl
  · rfl
  · exact fun _ _ => rfl
  · intro other elsewhere
    rw [putRime_rimeSession, if_neg elsewhere]

theorem engineFocusIn_calls (engine : KeyboardEngine) (ctx : Nat) (conduct : Conduct) :
    Calls ctx inst (inst.engineFocusIn engine ctx conduct) := by
  cases engine with
  | rime => exact inst.callRime_calls ctx fun host => host.focusIn_goes conduct.rime
  | mozc => exact inst.callMozc_calls ctx (·.focusIn conduct.mozc)

theorem engineFocusOut_calls (engine : KeyboardEngine) (ctx : Nat) (conduct : Conduct) :
    Calls ctx inst (inst.engineFocusOut engine ctx conduct) := by
  cases engine with
  | rime => exact inst.callRime_calls ctx fun host => host.reset_goes conduct.rime
  | mozc => exact inst.callMozc_calls ctx (·.focusOut conduct.mozc)

theorem engineReset_calls (engine : KeyboardEngine) (ctx : Nat) (conduct : Conduct) :
    Calls ctx inst (inst.engineReset engine ctx conduct) := by
  cases engine with
  | rime => exact inst.callRime_calls ctx fun host => host.reset_goes conduct.rime
  | mozc => exact inst.callMozc_calls ctx (·.reset conduct.mozc)

theorem engineSetMode_calls (engine : KeyboardEngine) (ctx : Nat) (modeId : String)
    (conduct : Conduct) : Calls ctx inst (inst.engineSetMode engine ctx modeId conduct) := by
  cases engine with
  | rime => exact inst.callRime_calls ctx fun host => host.setMode_goes modeId conduct.rime
  | mozc => exact inst.callMozc_calls ctx fun host => (host.setMode modeId conduct.mozc).1

theorem engineAskMode_calls (engine : KeyboardEngine) (ctx : Nat) (conduct : Conduct) :
    Calls ctx inst (inst.engineAskMode engine ctx conduct) := by
  cases engine with
  | rime =>
      have asked (host : RimeHost) : host.Goes
          { (host.getMode conduct.rime).1 with
            lastMode := notifyMode (host.getMode conduct.rime).1.lastMode
              (host.getMode conduct.rime).2 } :=
        (host.getMode_goes conduct.rime).trans (.of_session_eq (.refl _) rfl)
      exact inst.callRime_calls ctx asked
  | mozc =>
      exact inst.callMozc_calls ctx fun host =>
        { host with lastMode := notifyMode host.lastMode host.getMode }

theorem withLastMode_calls (ctx : Nat) (lastMode : Option EngineMode) :
    Calls ctx inst { inst with lastMode } :=
  ⟨.of_same rfl rfl fun _ => rfl, rfl, rfl, rfl, fun _ _ => rfl⟩

/-! ## Inputs -/

/-- An input which hands no key to librime. -/
structure Silent (before after : EngineInstance) : Prop extends Goes before after where
  handed : after.handed = before.handed

theorem Silent.refl : Silent inst inst := ⟨.refl inst, rfl⟩

theorem Silent.trans {before middle after : EngineInstance} (first : Silent before middle)
    (second : Silent middle after) : Silent before after :=
  ⟨first.toGoes.trans second.toGoes, second.handed.trans first.handed⟩

theorem Calls.silent {ctx : Nat} {before after : EngineInstance} (calls : Calls ctx before after) :
    Silent before after := ⟨calls.toGoes, calls.handed⟩

/-- The context is changed but for its sessions, and the focus. -/
theorem modifyContext_silent (ctx : Nat) (focused : Option Nat) (change : Client → Client)
    (same : ∀ client, (change client).rimeSession = client.rimeSession) :
    Silent inst { inst.modifyContext ctx change with focused } :=
  ⟨.of_same rfl rfl (inst.setClient_rimeSession ctx _ (same _)), rfl⟩

theorem focusIn_silent (ctx : Nat) (conduct : Conduct) :
    Silent inst (inst.focusIn ctx conduct) := by
  have entered := inst.modifyContext_silent ctx (some ctx) ({ · with focused := true })
    fun _ => rfl
  unfold focusIn
  split
  · exact .refl inst
  dsimp only
  split
  · exact entered
  · exact entered.trans (engineFocusIn_calls _ _ ctx conduct).silent

theorem focusOut_silent (ctx : Nat) (conduct : Conduct) :
    Silent inst (inst.focusOut ctx conduct) := by
  have leaves (left : EngineInstance) := left.modifyContext_silent ctx none
    ({ · with focused := false }) fun _ => rfl
  unfold focusOut
  split
  · exact .refl inst
  dsimp only
  split
  · exact leaves inst
  · exact (inst.engineFocusOut_calls _ ctx conduct).silent.trans (leaves _)

theorem reset_silent (ctx : Nat) (conduct : Conduct) : Silent inst (inst.reset ctx conduct) := by
  have cleared := inst.modifyContext_silent ctx inst.focused
    (fun client => { client with context := client.context.clear }) fun _ => rfl
  unfold reset
  dsimp only
  split
  · exact cleared
  · exact cleared.trans (engineReset_calls _ _ ctx conduct).silent

theorem setMode_silent (ctx : Nat) (modeId : String) (conduct : Conduct) :
    Silent inst (inst.setMode ctx modeId conduct) := by
  unfold setMode
  split
  · exact .refl inst
  · exact (inst.engineSetMode_calls _ ctx modeId conduct).silent

/-- A new state is that of an engine which has read the recorded schema. -/
theorem initRime_silent (conduct : RimeConduct) : Silent inst (inst.initRime conduct) := by
  unfold initRime
  split
  · exact .refl inst
  next absent =>
    have ensured := RimeState.Advances.ensureDeployed
      { schema := inst.recorded, maintenanceDone := false, deployId := 0, deployments := 0 } conduct
    refine ⟨⟨rfl, by simp [absent], ?_, ?_⟩, rfl⟩
    · rintro - _ ⟨rfl⟩
      exact ensured.schema
    · intro sound
      refine ⟨?_, fun ctx session held => ?_⟩
      · rintro _ ⟨rfl⟩
        exact ensured.counted rfl
      · obtain ⟨_, is, -⟩ := sound.tracks ctx session held
        simp [absent] at is

/-- An engine which is switched to meets the state it was left in, or a new one. -/
def settleOn (engine : KeyboardEngine) (conduct : SwitchConduct) : EngineInstance :=
  { inst.initEngine engine conduct.init with active := some engine, lastMode := none }

theorem settleOn_silent (engine : KeyboardEngine) (conduct : SwitchConduct) :
    Silent inst (inst.settleOn engine conduct) := by
  have settled : Silent (inst.initEngine engine conduct.init) (inst.settleOn engine conduct) :=
    ⟨.of_same rfl rfl fun _ => rfl, rfl⟩
  cases engine with
  | rime => exact (inst.initRime_silent conduct.init.rime).trans settled
  | mozc => exact settled

theorem settleOn_clients (engine : KeyboardEngine) (conduct : SwitchConduct) :
    (inst.settleOn engine conduct).clients = inst.clients ∧
      (inst.settleOn engine conduct).focused = inst.focused := by
  cases engine with
  | rime =>
      unfold settleOn initEngine initRime
      dsimp only
      split <;> exact ⟨rfl, rfl⟩
  | mozc => exact ⟨rfl, rfl⟩

theorem rebind_calls {ctx : Nat} (focused : inst.focused = some ctx) (old : Option KeyboardEngine)
    (engine : KeyboardEngine) (conduct : SwitchConduct) :
    Calls ctx inst (inst.rebind old engine conduct) := by
  have enters (left : EngineInstance) := (((left.withLastMode_calls ctx none).trans
    (engineReset_calls _ engine ctx conduct.cleared)).trans
      (engineFocusIn_calls _ engine ctx conduct.entered)).trans
        (engineAskMode_calls _ engine ctx conduct.asked)
  unfold rebind
  rw [focused]
  dsimp only
  split
  · exact enters inst
  · exact (inst.engineFocusOut_calls _ ctx conduct.left).trans (enters _)

/-- What a switch does to the instance. -/
structure Switches (before after : EngineInstance) (engine : KeyboardEngine) : Prop
    extends Silent before after where
  active : after.active = some engine
  focused : after.focused = before.focused
  sessions : ∀ ctx, before.focused ≠ some ctx →
    (after.clients ctx).rimeSession = (before.clients ctx).rimeSession

theorem switchTo_switches (engine : KeyboardEngine) (conduct : SwitchConduct) :
    Switches inst (inst.switchTo engine conduct) engine := by
  have settled := inst.settleOn_silent engine conduct
  obtain ⟨clients, focused⟩ := inst.settleOn_clients engine conduct
  unfold switchTo
  split
  next already => exact ⟨.refl inst, already, rfl, fun _ _ => rfl⟩
  change Switches inst ((inst.settleOn engine conduct).rebind inst.active engine conduct) engine
  cases focus : inst.focused with
  | none =>
      have unbound : (inst.settleOn engine conduct).rebind inst.active engine conduct =
          inst.settleOn engine conduct := by
        unfold rebind
        rw [focused, focus]
      rw [unbound]
      exact ⟨settled, rfl, focused, fun ctx _ => by rw [clients]⟩
  | some ctx =>
      have calls := (inst.settleOn engine conduct).rebind_calls (focused.trans focus) inst.active
        engine conduct
      refine ⟨settled.trans calls.silent, calls.active, calls.focused.trans focused, ?_⟩
      intro other elsewhere
      rw [calls.sessions other fun here => elsewhere (here ▸ focus), clients]

theorem processKey_goes (ctx : Nat) (event : TypioKeyEvent) (conduct : Conduct) :
    Goes inst (inst.processKey ctx event conduct) := by
  unfold processKey
  split
  · exact .refl inst
  · exact (inst.callMozc_calls ctx fun host => (host.processKey event conduct.mozc).1).toGoes
  · split
    · exact .refl inst
    next state held =>
      have called := inst.callRime_goes ctx fun host => host.processKey_goes event conduct.rime
      unfold callRime at called
      rw [held] at called
      exact called.trans (.of_same rfl rfl fun _ => rfl)

/-- A key is handed to a session which is fresh. -/
theorem processKey_handedFresh (ctx : Nat) (event : TypioKeyEvent) (conduct : Conduct)
    (sound : inst.Sound) (settled : inst.Settled)
    (bound : ∀ state ∈ inst.rime, state.deployments < 2 ^ 32) (fresh : inst.HandedFresh) :
    (inst.processKey ctx event conduct).HandedFresh := by
  unfold processKey
  split
  · exact fresh
  · exact fresh
  split
  · exact fresh
  next state held =>
    have tracked : (inst.rimeHost ctx state).Tracked := by
      intro session stored
      obtain ⟨_, is, tracks⟩ := sound.tracks ctx session stored
      rw [held] at is
      obtain ⟨rfl⟩ := is
      exact tracks
    intro handed member
    obtain now | before := List.mem_append.mp member
    · obtain ⟨⟨session, deployments⟩, given, rfl⟩ := List.mem_map.mp now
      obtain ⟨found, deployment, schema⟩ := (inst.rimeHost ctx state).handed_spec event conduct.rime
        (sound.counted state held) tracked (bound state held) _ (Option.mem_toList.mp given)
      exact ⟨found, deployment, schema.trans (settled state held)⟩
    · exact fresh handed before

/-! ## Changes -/

/-- The sessions are sound again once the focused context has taken the schema of the engine. -/
theorem apply_sound (reloaded : RimeState) (conduct : RimeConduct)
    (rime : inst.rime = some reloaded) (counted : reloaded.Counted)
    (marked : ∀ ctx, ∀ session ∈ (inst.clients ctx).rimeSession, session.Marked reloaded)
    (tracks : ∀ ctx, inst.focused ≠ some ctx ∨ reloaded.schema = [] →
      ∀ session ∈ (inst.clients ctx).rimeSession, session.Tracks reloaded)
    (succeeds : RimeHost.Succeeds conduct) :
    let applied :=
      match inst.focused with
      | none => inst
      | some ctx => inst.callRime ctx (·.applyRuntimeConfig conduct)
    applied.Sound ∧ applied.handed = inst.handed ∧ applied.recorded = inst.recorded ∧
      ∀ state ∈ applied.rime, state.schema = reloaded.schema := by
  cases focus : inst.focused with
  | none =>
      refine ⟨⟨?_, fun ctx session held => ⟨reloaded, rime, ?_⟩⟩, rfl, rfl, ?_⟩
      · rintro state held
        rw [rime] at held
        obtain ⟨rfl⟩ := held
        exact counted
      · exact tracks ctx (.inl (by simp [focus])) session held
      · rintro state held
        dsimp only at held
        rw [rime] at held
        obtain ⟨rfl⟩ := held
        rfl
  | some ctx =>
      obtain ⟨advances, tracked⟩ := (inst.rimeHost ctx reloaded).applyRuntimeConfig_spec conduct
        counted (marked ctx) (fun unnamed => tracks ctx (.inr unnamed)) succeeds
      unfold callRime
      rw [rime]
      refine ⟨inst.putRime_sound ctx advances counted tracked fun other elsewhere => ?_, rfl, rfl, ?_⟩
      · exact tracks other (.inl (by simp [focus, Ne.symm elsewhere]))
      · rintro _ ⟨rfl⟩
        exact advances.schema

/-- All the invariants: the sessions follow the engine, it has the recorded schema, and the keys
went to fresh sessions. -/
structure Fresh (inst : EngineInstance) : Prop where
  sound : inst.Sound
  settled : inst.Settled
  handed : inst.HandedFresh

variable {inst}

theorem Silent.fresh {before after : EngineInstance} (silent : Silent before after)
    (fresh : before.Fresh) : after.Fresh := by
  refine ⟨silent.sound fresh.sound, silent.settled fresh.settled, ?_⟩
  rw [HandedFresh, silent.handed]
  exact fresh.handed

/-- The one state of the engine which all the sessions track. -/
theorem Sound.tracks_of (sound : inst.Sound) {state : RimeState} (rime : inst.rime = some state)
    (ctx : Nat) : ∀ session ∈ (inst.clients ctx).rimeSession, session.Tracks state := by
  intro session held
  obtain ⟨_, is, tracks⟩ := sound.tracks ctx session held
  rw [rime] at is
  obtain ⟨rfl⟩ := is
  exact tracks

/-- A reload after which no session but that of the focused context has an outdated schema. -/
theorem reload_fresh (conduct : RimeConduct) (sound : inst.Sound) (handed : inst.HandedFresh)
    (others : ∀ state ∈ inst.rime, ∀ ctx, inst.focused ≠ some ctx ∨ inst.recorded = [] →
      ∀ session ∈ (inst.clients ctx).rimeSession,
        session.Tracks { state with schema := inst.recorded })
    (succeeds : RimeHost.Succeeds conduct) : (inst.reloadRime false conduct).Fresh := by
  unfold reloadRime
  cases rime : inst.rime with
  | none =>
      exact ⟨sound, by simp [Settled, rime], handed⟩
  | some state =>
      have counted := sound.counted state rime
      have marked (ctx : Nat) : ∀ session ∈ (inst.clients ctx).rimeSession,
          session.Marked { state with schema := inst.recorded } := by
        intro session held
        obtain ⟨mark, count, done⟩ := (sound.tracks_of rime ctx session held).toMarked
        exact ⟨mark, count, done⟩
      obtain ⟨again, keys, recorded, schema⟩ :=
        apply_sound { inst with rime := some { state with schema := inst.recorded } }
          { state with schema := inst.recorded } conduct rfl counted marked (others state rime)
          succeeds
      refine ⟨again, ?_, ?_⟩
      · intro later held
        exact (schema later held).trans recorded.symm
      · intro key member
        exact handed key (keys ▸ member)

/-- The switch to the configured engine with which a reload begins. -/
def reloadSwitch (inst : EngineInstance) (configured : Option KeyboardEngine)
    (switch : SwitchConduct) : EngineInstance :=
  match configured with
  | none => inst
  | some engine => inst.switchTo engine switch

theorem reloadSwitch_spec (configured : Option KeyboardEngine) (switch : SwitchConduct) :
    Silent inst (inst.reloadSwitch configured switch) ∧
      (inst.reloadSwitch configured switch).active = configured.or inst.active ∧
        (inst.reloadSwitch configured switch).focused = inst.focused ∧
          ∀ ctx, inst.focused ≠ some ctx →
            ((inst.reloadSwitch configured switch).clients ctx).rimeSession =
              (inst.clients ctx).rimeSession := by
  unfold reloadSwitch
  cases configured with
  | none => exact ⟨.refl inst, rfl, rfl, fun _ _ => rfl⟩
  | some engine =>
      obtain ⟨silent, active, focused, sessions⟩ := inst.switchTo_switches engine switch
      exact ⟨silent, active, focused, sessions⟩

theorem reloadConfig_of_rime {configured : Option KeyboardEngine} {switch : SwitchConduct}
    (rime : (inst.reloadSwitch configured switch).active = some .rime) (conduct : RimeConduct) :
    inst.reloadConfig configured switch conduct =
      (inst.reloadSwitch configured switch).reloadRime false conduct := by
  cases configured <;>
    · rw [reloadSwitch] at rime
      simp only [reloadConfig, reloadSwitch, rime]

theorem reloadConfig_of_other {configured : Option KeyboardEngine} {switch : SwitchConduct}
    (other : (inst.reloadSwitch configured switch).active ≠ some .rime) (conduct : RimeConduct) :
    inst.reloadConfig configured switch conduct = inst.reloadSwitch configured switch := by
  cases configured <;>
    · rw [reloadSwitch] at other
      simp only [reloadConfig, reloadSwitch]
      split
      · contradiction
      · rfl
      · rfl

/-- A session which does not bear the mark of the last deployment never needs the schema. -/
theorem tracks_of_onlyFocused {after : EngineInstance} {state later : RimeState}
    (sound : inst.Sound) (rime : inst.rime = some state) (only : inst.OnlyFocused state)
    (advances : state.Advances later) (schema : CString) {ctx : Nat}
    (elsewhere : inst.focused ≠ some ctx)
    (same : (after.clients ctx).rimeSession = (inst.clients ctx).rimeSession) :
    ∀ session ∈ (after.clients ctx).rimeSession, session.Tracks { later with schema } := by
  intro session held
  rw [same] at held
  have marked := (sound.tracks_of rime ctx session held).toMarked
  have low := marked.count
  have high := advances.count
  have stale : session.librime.deployment ≠ later.deployments := by
    intro present
    apply elsewhere (only ctx session held ?_)
    rw [marked.mark, show state.deployId = _ from sound.counted state rime,
      show session.librime.deployment = state.deployments by omega]
  obtain ⟨mark, count, done⟩ := marked.advance high advances.done
  exact RimeSession.Marked.stale ⟨mark, count, done⟩ stale

theorem setSchema_fresh (schema : CString) (configured : Option KeyboardEngine)
    (switch : SwitchConduct) (conduct : RimeConduct) (fresh : inst.Fresh)
    (succeeds : RimeEvent.Succeeds (.setSchema schema configured switch conduct))
    (good : inst.CatchesUp (.setSchema schema configured switch conduct)) :
    (inst.rimeStep (.setSchema schema configured switch conduct)).Fresh := by
  obtain ⟨named, answers⟩ := succeeds
  obtain ⟨silent, active, focused, sessions⟩ :=
    (inst.setRimeSchema schema).reloadSwitch_spec configured switch
  have renamed : (inst.setRimeSchema schema).Sound := ⟨fresh.sound.counted, fresh.sound.tracks⟩
  have sound := silent.sound renamed
  have recorded : ((inst.setRimeSchema schema).reloadSwitch configured switch).recorded = schema :=
    silent.recorded
  have handed : ((inst.setRimeSchema schema).reloadSwitch configured switch).HandedFresh := by
    rw [HandedFresh, silent.handed]
    exact fresh.handed
  have settles (same : schema = inst.recorded ∨ inst.rime = none) :
      ((inst.setRimeSchema schema).reloadSwitch configured switch).Settled := by
    apply silent.settled
    intro state held
    obtain unchanged | absent := same
    · exact (fresh.settled state held).trans unchanged.symm
    · exact absurd held (by simp [setRimeSchema, absent])
  change ((inst.setRimeSchema schema).reloadConfig configured switch conduct).Fresh
  by_cases same : schema = inst.recorded ∨ inst.rime = none
  · have settled := settles same
    by_cases active_rime :
      ((inst.setRimeSchema schema).reloadSwitch configured switch).active = some .rime
    · rw [reloadConfig_of_rime active_rime]
      refine reload_fresh conduct sound handed (fun state rime ctx _ session held => ?_) answers
      have tracks := sound.tracks_of rime ctx session held
      obtain ⟨⟨mark, count, done⟩, selected⟩ := tracks
      exact ⟨⟨mark, count, done⟩, fun present => (selected present).trans (settled state rime)⟩
    · rw [reloadConfig_of_other active_rime]
      exact ⟨sound, settled, handed⟩
  · obtain ⟨changed, initialized⟩ := not_or.mp same
    obtain ⟨state, rime⟩ := Option.ne_none_iff_exists'.mp initialized
    obtain ⟨rime_active, only⟩ := (good.resolve_left changed) state rime
    rw [reloadConfig_of_rime (active.trans rime_active)]
    refine reload_fresh conduct sound handed (fun later held ctx elsewhere => ?_) answers
    obtain ⟨_, is, advances⟩ := silent.rime state rime
    rw [held] at is
    obtain ⟨rfl⟩ := is
    rw [focused, recorded] at elsewhere
    have unfocused : inst.focused ≠ some ctx := elsewhere.resolve_right named
    exact tracks_of_onlyFocused fresh.sound rime only advances _ unfocused (sessions ctx unfocused)

theorem deploy_fresh (init conduct : RimeConduct) (fresh : inst.Fresh)
    (succeeds : RimeHost.Succeeds conduct) : (inst.rimeStep (.deploy init conduct)).Fresh := by
  have started := (inst.initRime_silent init).fresh fresh
  change ((inst.initRime init).reloadRime true conduct).Fresh
  unfold reloadRime
  cases rime : (inst.initRime init).rime with
  | none => exact started
  | some state =>
      have maintained := RimeState.Advances.runMaintenance state conduct
      have counted := maintained.counted (started.sound.counted state rime)
      have settled : state.schema = (inst.initRime init).recorded := started.settled state rime
      have tracks (ctx : Nat) : ∀ session ∈ ((inst.initRime init).clients ctx).rimeSession,
          session.Tracks (state.runMaintenance conduct).1 := fun session held =>
        (started.sound.tracks_of rime ctx session held).advance maintained
      simp only [if_true]
      split
      · refine ⟨⟨?_, fun ctx session held => ⟨_, rfl, tracks ctx session held⟩⟩, ?_, started.handed⟩
        · rintro _ ⟨rfl⟩
          exact counted
        · rintro _ ⟨rfl⟩
          exact maintained.schema.trans settled
      · have reloaded : { (state.runMaintenance conduct).1 with
            schema := (inst.initRime init).recorded } = (state.runMaintenance conduct).1 := by
          rw [← settled, ← maintained.schema]
        rw [reloaded]
        obtain ⟨again, keys, recorded, schema⟩ :=
          apply_sound { inst.initRime init with rime := some (state.runMaintenance conduct).1 }
            (state.runMaintenance conduct).1 conduct rfl counted
            (fun ctx session held => (tracks ctx session held).toMarked)
            (fun ctx _ => tracks ctx) succeeds
        refine ⟨again, ?_, ?_⟩
        · intro later held
          exact (schema later held).trans ((maintained.schema.trans settled).trans recorded.symm)
        · intro key member
          exact started.handed key (keys ▸ member)

/-! ## Runs -/

/-- What the events keep as long as the sessions can catch up. -/
theorem rimeStep_fresh (event : RimeEvent) (fresh : inst.Fresh) (succeeds : event.Succeeds)
    (good : inst.CatchesUp event) : (inst.rimeStep event).Fresh := by
  cases event with
  | input input =>
      cases input with
      | key ctx event conduct =>
          have goes := inst.processKey_goes ctx event conduct
          exact ⟨goes.sound fresh.sound, goes.settled fresh.settled,
            inst.processKey_handedFresh ctx event conduct fresh.sound fresh.settled good
              fresh.handed⟩
      | focusIn ctx conduct => exact (inst.focusIn_silent ctx conduct).fresh fresh
      | focusOut ctx conduct => exact (inst.focusOut_silent ctx conduct).fresh fresh
      | reset ctx conduct => exact (inst.reset_silent ctx conduct).fresh fresh
      | setMode ctx modeId conduct => exact (inst.setMode_silent ctx modeId conduct).fresh fresh
      | switchTo engine conduct =>
          exact (inst.switchTo_switches engine conduct).toSilent.fresh fresh
  | setSchema schema configured switch conduct =>
      exact setSchema_fresh schema configured switch conduct fresh succeeds good
  | deploy init conduct => exact deploy_fresh init conduct fresh succeeds

/-- Every key goes to a fresh session in a run whose changes reach every session. -/
theorem always_handedFresh (recorded : CString) (events : List RimeEvent)
    (succeeds : ∀ event ∈ events, event.Succeeds)
    (each : Machine.EachStep rimeStep CatchesUp (new recorded) events) :
    Machine.Always rimeStep HandedFresh (new recorded) events := by
  have initial : (new recorded).Fresh :=
    ⟨⟨by simp [new], by simp [new, Client.new]⟩, by simp [Settled, new],
      by simp [HandedFresh, new]⟩
  have allowed : Machine.EachStep rimeStep
      (fun inst event => event.Succeeds ∧ inst.CatchesUp event) (new recorded) events :=
    fun front event front_prefix =>
      ⟨succeeds event (List.IsPrefix.subset front_prefix (by simp)), each front event front_prefix⟩
  refine Machine.Always.mono (fun _ fresh => fresh.handed) (Machine.Always.of_invariant Fresh
    (fun inst event fresh good => ?_) initial allowed)
  exact rimeStep_fresh event fresh good.1 good.2

theorem quietConduct_succeeds : RimeHost.Succeeds quietConduct.rime := ⟨rfl, rfl⟩

/-- The schema changes before any context is used. -/
def earlyChange : List RimeEvent :=
  [.input (.switchTo .rime quietSwitch), .setSchema [98] none quietSwitch quietConduct.rime,
    .input (.focusIn 0 quietConduct), .input (.key 0 letter quietConduct)]

theorem earlyChange_handedFresh :
    Machine.Always rimeStep HandedFresh (new [97]) earlyChange ∧
      (Machine.run rimeStep (new [97]) earlyChange).handed ≠ [] := by
  refine ⟨always_handedFresh [97] earlyChange ?_ ?_, by decide⟩
  · simp [earlyChange, RimeEvent.Succeeds, quietConduct_succeeds]
  · refine (Machine.eachStep_cons ..).mpr ⟨trivial, (Machine.eachStep_cons ..).mpr ⟨.inr ?_,
      (Machine.eachStep_cons ..).mpr ⟨trivial, (Machine.eachStep_cons ..).mpr ⟨?_,
        Machine.eachStep_nil _ _ _⟩⟩⟩⟩
    · intro state _
      exact ⟨rfl, fun ctx session held => nomatch held⟩
    · intro state held
      obtain rfl := Option.some.inj held
      decide

/-- Two contexts are used, and the schema changes while the second one has the focus. -/
def lateChange : List RimeEvent :=
  [.input (.switchTo .rime quietSwitch), .input (.focusIn 0 quietConduct),
    .input (.focusOut 0 quietConduct), .input (.focusIn 1 quietConduct),
    .setSchema [98] none quietSwitch quietConduct.rime, .input (.focusOut 1 quietConduct),
    .input (.focusIn 0 quietConduct), .input (.key 0 letter quietConduct)]

/-- The first context keeps its session with the old schema. -/
theorem lateChange_stale : (∀ event ∈ lateChange, event.Succeeds) ∧
    ¬ Machine.Always rimeStep HandedFresh (new [97]) lateChange := by
  constructor
  · simp [lateChange, RimeEvent.Succeeds, quietConduct_succeeds]
  · intro always
    exact absurd always.final (by decide)

end EngineInstance

end Engines

end Typio
