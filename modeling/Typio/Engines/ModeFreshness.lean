import Typio.Engines.MozcModes
import Typio.Engines.RimeFreshness
import Typio.Engines.RimeModes

/-!
# The mode the instance was last told

With a focused context the mode last told is to be the one `get_mode` of the active engine returns
for it.  Switches keep this, since they ask for the mode.  A key or a new focus keeps it as long
as the session it reaches stays in the mode that was told: Mozc tells of no mode that a key or a
new focus brings, and Rime tells of the mode of a session which it creates, but not of that of one
which it finds.
-/

namespace Typio

namespace Engines

open Typio.Core

namespace RimeHost

/-- A context that gets the focus has a session in the mode last told, or a new one is created. -/
def EntersTold (host : RimeHost) (conduct : RimeConduct) : Prop :=
  host.Renews conduct ∨
    host.ModeFresh ∧ host.KeepsSession conduct ∧ host.FailsQuietly conduct

/-- A key which clears no composition of a session, or whose session stays in its mode. -/
def KeyAside (host : RimeHost) (event : TypioKeyEvent) (conduct : RimeConduct) : Prop :=
  if !event.isRelease && event.isEscape then
    host.context.composition.active = true → host.live conduct = false
  else
    host.live conduct = true ∧
      ((conduct.answer event).toRimeReply.told = [] ∧
        ∀ session ∈ host.session, session.asciiModeKnown = true ∧
          (conduct.answer event).asciiMode = session.asciiMode)

/-- The mode is not set, and the session is there. -/
def SetModeAside (host : RimeHost) (modeId : String) (conduct : RimeConduct) : Prop :=
  modeId = "" ∨ host.live conduct = true ∧ ¬(modeId = "ascii" ∨ modeId = "chinese")

/-- A call which tells of no mode, and starts no deployment. -/
structure Aside (before after : RimeHost) : Prop where
  lastMode : after.lastMode = before.lastMode
  deployId : after.state.deployId = before.state.deployId

theorem Aside.trans {before middle after : RimeHost} (first : Aside before middle)
    (second : Aside middle after) : Aside before after :=
  ⟨second.lastMode.trans first.lastMode, second.deployId.trans first.deployId⟩

variable {host : RimeHost}

/-- A live session is the one a call gets. -/
theorem getSession_live {conduct : RimeConduct} (create : Bool)
    (live : host.live conduct = true) : ∃ session ∈ host.session,
      host.getSession conduct create = ({ host with session := some (findSession session true) },
        some (findSession session true)) := by
  unfold RimeHost.live at live
  cases held : host.session with
  | none => simp [held] at live
  | some session =>
      simp only [held, Option.any_some, Bool.and_eq_true, beq_iff_eq] at live
      refine ⟨session, rfl, ?_⟩
      unfold getSession
      simp [held, live.1, live.2, findSession]

theorem lookup_aside (host : RimeHost) (conduct : RimeConduct) :
    Aside host (host.lookup conduct).1 := by
  unfold lookup
  split
  · exact ⟨rfl, rfl⟩
  split
  · split <;> exact ⟨rfl, rfl⟩
  · exact ⟨rfl, rfl⟩

/-- Without a live session only the context is cleared. -/
theorem reset_aside {conduct : RimeConduct} (absent : host.live conduct = false) :
    Aside host (host.reset conduct) := by
  have looked := host.lookup_aside conduct
  have missed : (host.lookup conduct).2 = none := by
    rw [← Option.not_isSome_iff_eq_none, lookup_live, absent]
    decide
  have got : host.getSession conduct false = ((host.lookup conduct).1, none) := by
    rw [getSession_eq, missed]
    rfl
  unfold reset
  rw [got]
  exact ⟨looked.lastMode, looked.deployId⟩

theorem keySession_aside {session : RimeSession} {reply : RimeKeyReply}
    (quiet : reply.toRimeReply.told = []) (known : session.asciiModeKnown = true)
    (same : reply.asciiMode = session.asciiMode) :
    Aside host (host.keySession session reply).1 := by
  unfold keySession
  dsimp only
  split
  next changed => simp [RimeSession.after, known, same] at changed
  · exact ⟨host.hear_quiet quiet, host.hear_deployId _⟩

theorem flushCommit_aside (session : RimeSession) : Aside host (host.flushCommit session).1 := by
  unfold flushCommit
  dsimp only
  split <;> exact ⟨rfl, rfl⟩

theorem syncContext_aside (session : RimeSession) : Aside host (host.syncContext session).1 := by
  unfold syncContext
  split <;> exact ⟨rfl, rfl⟩

theorem processKey_aside {event : TypioKeyEvent} {conduct : RimeConduct}
    (aside : host.KeyAside event conduct) : Aside host (host.processKey event conduct).1 := by
  unfold KeyAside at aside
  unfold processKey
  split
  next escape =>
    rw [if_pos escape] at aside
    split
    next composing => exact reset_aside (aside composing)
    · exact ⟨rfl, rfl⟩
  next plain =>
    rw [if_neg plain] at aside
    obtain ⟨live, quiet, stays⟩ := aside
    obtain ⟨session, held, got⟩ := getSession_live true live
    obtain ⟨known, same⟩ := stays session held
    rw [got]
    have reached : Aside host { host with session := some (findSession session true) } :=
      ⟨rfl, rfl⟩
    have polled := reached.trans
      (@keySession_aside _ (findSession session true) _ quiet known same)
    dsimp only
    split
    · exact polled
    · exact (polled.trans (flushCommit_aside _)).trans (syncContext_aside _)

theorem setMode_aside {modeId : String} {conduct : RimeConduct}
    (aside : host.SetModeAside modeId conduct) : Aside host (host.setMode modeId conduct).1 := by
  unfold setMode
  split
  · exact ⟨rfl, rfl⟩
  next named =>
    obtain ⟨live, unknown⟩ := aside.resolve_left named
    obtain ⟨session, -, got⟩ := getSession_live true live
    rw [got]
    dsimp only
    rw [if_neg unknown]
    exact ⟨rfl, rfl⟩

end RimeHost

namespace EngineInstance

variable (inst : EngineInstance)

/-- `get_mode` of an engine for a context. -/
def getMode (engine : KeyboardEngine) (ctx : Nat) (conduct : Conduct) : EngineMode :=
  match engine with
  | .rime => inst.rime.elim rimeModeChinese fun state =>
      ((inst.rimeHost ctx state).getMode conduct.rime).2
  | .mozc => (inst.mozcHost ctx).getMode

/-- librime has the session of the context if it had it when it was last asked. -/
def FindsAsBefore (ctx : Nat) (conduct : Conduct) : Prop :=
  ∀ session ∈ (inst.clients ctx).rimeSession, conduct.rime.found = session.librime.found

/-- The mode last told is the one the active engine has for the focused context. -/
def ModeFresh : Prop :=
  ∀ ctx ∈ inst.focused, ∀ engine ∈ inst.active, ∀ conduct, inst.FindsAsBefore ctx conduct →
    inst.lastMode.any (·.equal (inst.getMode engine ctx conduct)) = true

/-! ## The conditions -/

/-- A context that gets the focus is in the mode last told, or gets a session whose mode is. -/
def EntersTold (ctx : Nat) (conduct : Conduct) : KeyboardEngine → Prop
  | .rime => ∀ state ∈ inst.rime, (inst.rimeHost ctx state).EntersTold conduct.rime
  | .mozc => (inst.mozcHost ctx).EntersTold conduct.mozc

/-- A reset finds the session of the focused context as it was, and none of Rime in another. -/
def ResetTold (ctx focused : Nat) (conduct : Conduct) : KeyboardEngine → Prop
  | .rime => ∀ state ∈ inst.rime,
      if ctx = focused then (inst.rimeHost ctx state).KeepsSession conduct.rime
      else (inst.rimeHost ctx state).live conduct.rime = false
  | .mozc => True

/-- A key in the focused context leaves its session in the mode last told; one in another context
tells of no mode. -/
def KeyTold (ctx focused : Nat) (event : TypioKeyEvent) (conduct : Conduct) :
    KeyboardEngine → Prop
  | .rime => ∀ state ∈ inst.rime,
      if ctx = focused then (inst.rimeHost ctx state).KeyTold event conduct.rime
      else (inst.rimeHost ctx state).KeyAside event conduct.rime
  | .mozc => ctx = focused → (inst.mozcHost ctx).KeyTold event conduct.mozc

/-- The mode of no context but the focused one is set. -/
def SetModeTold (ctx focused : Nat) (modeId : String) (conduct : Conduct) :
    KeyboardEngine → Prop
  | .rime => ∀ state ∈ inst.rime,
      if ctx = focused then (inst.rimeHost ctx state).Steady conduct.rime
      else (inst.rimeHost ctx state).SetModeAside modeId conduct.rime
  | .mozc => ctx = focused ∨ (inst.mozcHost ctx).Refuses modeId conduct.mozc

/-- The mode that is told is still the one the focused context is in. -/
def Announced : Input → Prop
  | .focusIn ctx conduct => (inst.clients ctx).focused = false →
      ∀ engine ∈ inst.active, inst.EntersTold ctx conduct engine
  | .focusOut _ _ => True
  | .reset ctx conduct => ∀ focused ∈ inst.focused, ∀ engine ∈ inst.active,
      inst.ResetTold ctx focused conduct engine
  | .key ctx event conduct => ∀ focused ∈ inst.focused, ∀ engine ∈ inst.active,
      inst.KeyTold ctx focused event conduct engine
  | .setMode ctx modeId conduct => ∀ focused ∈ inst.focused, ∀ engine ∈ inst.active,
      inst.SetModeTold ctx focused modeId conduct engine
  | .switchTo _ _ => True

/-! ## Calls into the engines -/

/-- The mode last told is that of the context. -/
def FreshFor (ctx : Nat) : KeyboardEngine → Prop
  | .rime => ∃ state ∈ inst.rime, (inst.rimeHost ctx state).ModeFresh
  | .mozc => (inst.mozcHost ctx).ModeFresh

theorem putRime_rimeHost (ctx : Nat) (host : RimeHost) :
    (inst.putRime ctx host).rimeHost ctx host.state = host := by
  simp [putRime, rimeHost, setClient]

theorem putMozc_mozcHost (ctx : Nat) (host : MozcHost) :
    (inst.putMozc ctx host).mozcHost ctx = host := by
  simp [putMozc, mozcHost, setClient]

theorem putRime_elsewhere {ctx other : Nat} (elsewhere : other ≠ ctx) (host : RimeHost) :
    (inst.putRime ctx host).clients other = inst.clients other := by
  simp [putRime, setClient, elsewhere]

theorem putMozc_elsewhere {ctx other : Nat} (elsewhere : other ≠ ctx) (host : MozcHost) :
    (inst.putMozc ctx host).clients other = inst.clients other := by
  simp [putMozc, setClient, elsewhere]

variable {inst}

/-- The mode of a context stays with its session, while no mode is told and none is deployed. -/
theorem rimeHost_modeFresh {before after : EngineInstance} {ctx : Nat} {state later : RimeState}
    (fresh : (before.rimeHost ctx state).ModeFresh)
    (session : (after.clients ctx).rimeSession = (before.clients ctx).rimeSession)
    (deployId : later.deployId = state.deployId) (lastMode : after.lastMode = before.lastMode) :
    (after.rimeHost ctx later).ModeFresh :=
  (@RimeHost.modeFresh_congr (before.rimeHost ctx state) (after.rimeHost ctx later) session
    deployId lastMode).mpr fresh

theorem mozcHost_modeFresh {before after : EngineInstance} {ctx : Nat}
    (fresh : (before.mozcHost ctx).ModeFresh)
    (session : (after.clients ctx).mozcSession = (before.clients ctx).mozcSession)
    (lastMode : after.lastMode = before.lastMode) : (after.mozcHost ctx).ModeFresh :=
  (@MozcHost.modeFresh_congr (before.mozcHost ctx) (after.mozcHost ctx) session lastMode).mpr fresh

theorem callRime_freshFor {ctx : Nat} {call : RimeHost → RimeHost}
    (fresh : ∃ state ∈ inst.rime, (call (inst.rimeHost ctx state)).ModeFresh) :
    (inst.callRime ctx call).FreshFor ctx .rime := by
  obtain ⟨state, held, fresh⟩ := fresh
  unfold callRime
  rw [held]
  refine ⟨_, rfl, ?_⟩
  dsimp only
  rw [putRime_rimeHost]
  exact fresh

theorem callRime_elsewhere {ctx other : Nat} {call : RimeHost → RimeHost}
    (elsewhere : other ≠ ctx) (fresh : inst.FreshFor other .rime)
    (aside : ∀ state ∈ inst.rime,
      RimeHost.Aside (inst.rimeHost ctx state) (call (inst.rimeHost ctx state))) :
    (inst.callRime ctx call).FreshFor other .rime := by
  obtain ⟨state, held, fresh⟩ := fresh
  obtain ⟨lastMode, deployId⟩ := aside state held
  unfold callRime
  rw [held]
  refine ⟨_, rfl, rimeHost_modeFresh fresh ?_ deployId lastMode⟩
  exact congrArg Client.rimeSession (putRime_elsewhere inst elsewhere _)

theorem callMozc_freshFor {ctx : Nat} {call : MozcHost → MozcHost}
    (fresh : (call (inst.mozcHost ctx)).ModeFresh) :
    (inst.callMozc ctx call).FreshFor ctx .mozc := by
  unfold callMozc FreshFor
  rw [putMozc_mozcHost]
  exact fresh

theorem callMozc_elsewhere {ctx other : Nat} {call : MozcHost → MozcHost}
    (elsewhere : other ≠ ctx) (fresh : inst.FreshFor other .mozc)
    (aside : (call (inst.mozcHost ctx)).lastMode = inst.lastMode) :
    (inst.callMozc ctx call).FreshFor other .mozc :=
  mozcHost_modeFresh fresh (congrArg Client.mozcSession (putMozc_elsewhere inst elsewhere _)) aside

/-- The engines see of the change to a client that its sessions stay. -/
theorem modifyContext_freshFor {ctx : Nat} {change : Client → Client}
    (rime : ∀ client, (change client).rimeSession = client.rimeSession)
    (mozc : ∀ client, (change client).mozcSession = client.mozcSession) {other : Nat}
    {engine : KeyboardEngine} (fresh : inst.FreshFor other engine) :
    (inst.modifyContext ctx change).FreshFor other engine := by
  cases engine with
  | rime =>
      obtain ⟨state, held, fresh⟩ := fresh
      exact ⟨state, held, rimeHost_modeFresh fresh
        (inst.setClient_rimeSession ctx _ (rime _) other) rfl rfl⟩
  | mozc =>
      have session : ((inst.modifyContext ctx change).clients other).mozcSession =
          (inst.clients other).mozcSession := by
        unfold modifyContext setClient
        by_cases here : other = ctx
        · subst here
          simpa using mozc _
        · simp [here]
      exact mozcHost_modeFresh fresh session rfl

theorem engineFocusIn_freshFor {engine : KeyboardEngine} {ctx : Nat} {conduct : Conduct}
    (started : engine = .rime → inst.rime.isSome = true)
    (told : inst.EntersTold ctx conduct engine) :
    (inst.engineFocusIn engine ctx conduct).FreshFor ctx engine := by
  cases engine with
  | rime =>
      obtain ⟨state, held⟩ := Option.isSome_iff_exists.mp (started rfl)
      exact callRime_freshFor ⟨state, held, RimeHost.focusIn_modeFresh _
        (RimeHost.getSession_modeFresh _ (told state held))⟩
  | mozc =>
      change (inst.callMozc ctx (·.focusIn conduct.mozc)).FreshFor ctx .mozc
      exact callMozc_freshFor (MozcHost.focusIn_modeFresh _ told)

theorem engineReset_freshFor {engine : KeyboardEngine} {ctx focused : Nat} {conduct : Conduct}
    (fresh : inst.FreshFor focused engine) (told : inst.ResetTold ctx focused conduct engine) :
    (inst.engineReset engine ctx conduct).FreshFor focused engine := by
  unfold engineReset
  cases engine with
  | rime =>
      by_cases here : ctx = focused
      · subst here
        obtain ⟨state, held, fresh⟩ := fresh
        have keeps := told state held
        rw [if_pos rfl] at keeps
        exact callRime_freshFor ⟨state, held, RimeHost.reset_modeFresh _ fresh keeps⟩
      · refine callRime_elsewhere (Ne.symm here) fresh fun state held => ?_
        have absent := told state held
        rw [if_neg here] at absent
        exact RimeHost.reset_aside absent
  | mozc =>
      by_cases here : ctx = focused
      · subst here
        exact callMozc_freshFor ((MozcHost.reset_modeFresh _).mpr fresh)
      · refine callMozc_elsewhere (Ne.symm here) fresh ?_
        exact (MozcHost.reset_lastMode _).2

theorem engineSetMode_freshFor {engine : KeyboardEngine} {ctx focused : Nat} {modeId : String}
    {conduct : Conduct} (fresh : inst.FreshFor focused engine)
    (told : inst.SetModeTold ctx focused modeId conduct engine) :
    (inst.engineSetMode engine ctx modeId conduct).FreshFor focused engine := by
  unfold engineSetMode
  cases engine with
  | rime =>
      by_cases here : ctx = focused
      · subst here
        obtain ⟨state, held, fresh⟩ := fresh
        have steady := told state held
        rw [if_pos rfl] at steady
        exact callRime_freshFor ⟨state, held, RimeHost.setMode_modeFresh modeId _ fresh steady⟩
      · refine callRime_elsewhere (Ne.symm here) fresh fun state held => ?_
        have aside := told state held
        rw [if_neg here] at aside
        exact RimeHost.setMode_aside aside
  | mozc =>
      by_cases here : ctx = focused
      · subst here
        exact callMozc_freshFor (MozcHost.setMode_modeFresh modeId _ fresh)
      · refine callMozc_elsewhere (Ne.symm here) fresh ?_
        exact MozcHost.setMode_lastMode (told.resolve_left here)

/-- `typio_input_context_process_key` but for the record of the keys. -/
def engineKey (inst : EngineInstance) (engine : KeyboardEngine) (ctx : Nat)
    (event : TypioKeyEvent) (conduct : Conduct) : EngineInstance :=
  match engine with
  | .rime => inst.callRime ctx fun host => (host.processKey event conduct.rime).1
  | .mozc => inst.callMozc ctx fun host => (host.processKey event conduct.mozc).1

theorem engineKey_freshFor {engine : KeyboardEngine} {ctx focused : Nat} {event : TypioKeyEvent}
    {conduct : Conduct} (fresh : inst.FreshFor focused engine)
    (told : inst.KeyTold ctx focused event conduct engine) :
    (inst.engineKey engine ctx event conduct).FreshFor focused engine := by
  unfold engineKey
  cases engine with
  | rime =>
      by_cases here : ctx = focused
      · subst here
        obtain ⟨state, held, fresh⟩ := fresh
        have keyTold := told state held
        rw [if_pos rfl] at keyTold
        exact callRime_freshFor
          ⟨state, held, RimeHost.processKey_modeFresh event _ fresh keyTold⟩
      · refine callRime_elsewhere (Ne.symm here) fresh fun state held => ?_
        have aside := told state held
        rw [if_neg here] at aside
        exact RimeHost.processKey_aside aside
  | mozc =>
      by_cases here : ctx = focused
      · subst here
        exact callMozc_freshFor (MozcHost.processKey_modeFresh event _ fresh (told rfl))
      · refine callMozc_elsewhere (Ne.symm here) fresh ?_
        exact MozcHost.processKey_lastMode _ _

/-- The mode that was asked for is told. -/
theorem engineAskMode_freshFor {engine : KeyboardEngine} {ctx : Nat} {conduct : Conduct}
    (started : engine = .rime → inst.rime.isSome = true) :
    (inst.engineAskMode engine ctx conduct).FreshFor ctx engine := by
  cases engine with
  | rime =>
      obtain ⟨state, held⟩ := Option.isSome_iff_exists.mp (started rfl)
      refine callRime_freshFor ⟨state, held, ?_⟩
      dsimp only
      rw [RimeHost.getMode_modeNow]
      exact notifyMode_any _ _
  | mozc =>
      unfold engineAskMode
      exact callMozc_freshFor (notifyMode_any _ _)

/-! ## Steps -/

/-- Rime has a state while it is the active engine, and the mode last told is that of the focused
context. -/
structure Told (inst : EngineInstance) : Prop where
  started : inst.active = some .rime → inst.rime.isSome = true
  fresh : ∀ ctx ∈ inst.focused, ∀ engine ∈ inst.active, inst.FreshFor ctx engine

theorem Goes.started {before after : EngineInstance} (goes : Goes before after)
    (started : before.rime.isSome = true) : after.rime.isSome = true := by
  obtain ⟨state, held⟩ := Option.isSome_iff_exists.mp started
  obtain ⟨later, still, -⟩ := goes.rime state held
  exact Option.isSome_iff_exists.mpr ⟨later, still⟩

/-- A call for a context which keeps the mode of the focused one. -/
theorem Calls.told {ctx : Nat} {after : EngineInstance} (calls : Calls ctx inst after)
    (told : inst.Told)
    (fresh : ∀ focused ∈ inst.focused, ∀ engine ∈ inst.active, after.FreshFor focused engine) :
    after.Told := by
  refine ⟨fun active => calls.toGoes.started (told.started (calls.active ▸ active)), ?_⟩
  rw [calls.focused, calls.active]
  exact fresh

theorem Told.of_inactive (inactive : inst.active = none) : inst.Told :=
  ⟨by simp [inactive], by simp [inactive]⟩

theorem Told.of_unfocused (started : inst.active = some .rime → inst.rime.isSome = true)
    (unfocused : inst.focused = none) : inst.Told :=
  ⟨started, by simp [unfocused]⟩

/-- The context has the focus, and no engine was told so. -/
def entered (inst : EngineInstance) (ctx : Nat) : EngineInstance :=
  { inst.modifyContext ctx ({ · with focused := true }) with focused := some ctx }

theorem entered_entersTold {ctx : Nat} {conduct : Conduct} {engine : KeyboardEngine}
    (enters : inst.EntersTold ctx conduct engine) :
    (inst.entered ctx).EntersTold ctx conduct engine := by
  have hosts (state : RimeState) :
      (inst.entered ctx).rimeHost ctx state = inst.rimeHost ctx state ∧
        (inst.entered ctx).mozcHost ctx = inst.mozcHost ctx := by
    simp [entered, modifyContext, setClient, rimeHost, mozcHost]
  cases engine with
  | rime =>
      intro state held
      rw [(hosts state).1]
      exact enters state held
  | mozc =>
      have same : (inst.entered ctx).mozcHost ctx = inst.mozcHost ctx := by
        simp [entered, modifyContext, setClient, mozcHost]
      unfold EntersTold
      rw [same]
      exact enters

theorem focusIn_told (ctx : Nat) (conduct : Conduct) (told : inst.Told)
    (announced : inst.Announced (.focusIn ctx conduct)) : (inst.focusIn ctx conduct).Told := by
  by_cases already : (inst.clients ctx).focused = true
  · rw [focusIn, if_pos already]
    exact told
  · rw [focusIn, if_neg already]
    cases active : inst.active with
    | none => exact .of_inactive active
    | some engine =>
      change ((inst.entered ctx).engineFocusIn engine ctx conduct).Told
      have enters := entered_entersTold (announced (by simpa using already) engine active)
      have calls := (inst.entered ctx).engineFocusIn_calls engine ctx conduct
      have started (rime : engine = .rime) : (inst.entered ctx).rime.isSome = true :=
        told.started (active.trans (congrArg some rime))
      refine ⟨fun now => calls.toGoes.started (told.started (calls.active ▸ now)), ?_⟩
      rw [calls.focused, calls.active]
      rintro _ ⟨rfl⟩ entering is
      obtain rfl : engine = entering := Option.some.inj (active.symm.trans is)
      exact engineFocusIn_freshFor started enters

theorem focusOut_told (ctx : Nat) (conduct : Conduct) (told : inst.Told) :
    (inst.focusOut ctx conduct).Told := by
  unfold focusOut
  split
  · exact told
  dsimp only
  split
  · exact .of_unfocused told.started rfl
  next engine active =>
    have calls := inst.engineFocusOut_calls engine ctx conduct
    exact .of_unfocused (fun now => calls.toGoes.started (told.started (calls.active ▸ now))) rfl

/-- The context is cleared, and no engine was told so. -/
def clearedContext (inst : EngineInstance) (ctx : Nat) : EngineInstance :=
  inst.modifyContext ctx fun client => { client with context := client.context.clear }

theorem clearedContext_resetTold {ctx focused : Nat} {conduct : Conduct}
    {engine : KeyboardEngine} (told : inst.ResetTold ctx focused conduct engine) :
    (inst.clearedContext ctx).ResetTold ctx focused conduct engine := by
  cases engine with
  | rime =>
      intro state held
      have resets := told state held
      have session : ((inst.clearedContext ctx).rimeHost ctx state).session =
          (inst.rimeHost ctx state).session :=
        inst.setClient_rimeSession ctx _ (by rfl) ctx
      unfold RimeHost.KeepsSession RimeHost.live at *
      rw [session]
      exact resets
  | mozc => trivial

theorem reset_told (ctx : Nat) (conduct : Conduct) (told : inst.Told)
    (announced : inst.Announced (.reset ctx conduct)) : (inst.reset ctx conduct).Told := by
  rw [reset]
  cases active : inst.active with
  | none => exact .of_inactive active
  | some engine =>
    change ((inst.clearedContext ctx).engineReset engine ctx conduct).Told
    have cleared : (inst.clearedContext ctx).Told := by
      refine ⟨told.started, fun focused holds engine active => ?_⟩
      unfold clearedContext
      refine modifyContext_freshFor ?_ ?_ (told.fresh focused holds engine active)
      · exact fun _ => rfl
      · exact fun _ => rfl
    refine ((inst.clearedContext ctx).engineReset_calls engine ctx conduct).told cleared ?_
    intro focused holds other is
    obtain rfl : engine = other := Option.some.inj (active.symm.trans is)
    exact engineReset_freshFor (cleared.fresh focused holds engine is)
      (clearedContext_resetTold (announced focused holds engine active))

theorem setMode_told (ctx : Nat) (modeId : String) (conduct : Conduct) (told : inst.Told)
    (announced : inst.Announced (.setMode ctx modeId conduct)) :
    (inst.setMode ctx modeId conduct).Told := by
  unfold setMode
  split
  · exact told
  next engine active =>
    refine (inst.engineSetMode_calls engine ctx modeId conduct).told told ?_
    intro focused holds other is
    obtain rfl : engine = other := Option.some.inj (active.symm.trans is)
    exact engineSetMode_freshFor (told.fresh focused holds engine is)
      (announced focused holds engine is)

theorem engineKey_calls (engine : KeyboardEngine) (ctx : Nat) (event : TypioKeyEvent)
    (conduct : Conduct) : Calls ctx inst (inst.engineKey engine ctx event conduct) := by
  cases engine with
  | rime => exact inst.callRime_calls ctx fun host => host.processKey_goes event conduct.rime
  | mozc => exact inst.callMozc_calls ctx fun host => (host.processKey event conduct.mozc).1

theorem processKey_eq (ctx : Nat) (event : TypioKeyEvent) (conduct : Conduct) :
    ∃ handed, inst.processKey ctx event conduct =
      match inst.active with
      | none => inst
      | some engine => { inst.engineKey engine ctx event conduct with handed } := by
  unfold processKey engineKey callRime
  cases active : inst.active with
  | none => exact ⟨[], rfl⟩
  | some engine =>
      cases engine with
      | mozc => exact ⟨inst.handed, rfl⟩
      | rime =>
          cases held : inst.rime with
          | none => exact ⟨inst.handed, rfl⟩
          | some state => exact ⟨_, rfl⟩

theorem processKey_told (ctx : Nat) (event : TypioKeyEvent) (conduct : Conduct)
    (told : inst.Told) (announced : inst.Announced (.key ctx event conduct)) :
    (inst.processKey ctx event conduct).Told := by
  obtain ⟨handed, is⟩ := inst.processKey_eq ctx event conduct
  rw [is]
  split
  · exact told
  next engine active =>
    have keyed : (inst.engineKey engine ctx event conduct).Told := by
      refine (engineKey_calls engine ctx event conduct).told told ?_
      intro focused holds other is
      obtain rfl : engine = other := Option.some.inj (active.symm.trans is)
      exact engineKey_freshFor (told.fresh focused holds engine is)
        (announced focused holds engine is)
    refine ⟨keyed.started, fun focused holds engine is => ?_⟩
    have fresh := keyed.fresh focused holds engine is
    cases engine <;> exact fresh

theorem settleOn_started (engine : KeyboardEngine) (conduct : SwitchConduct)
    (rime : engine = .rime) : (inst.settleOn engine conduct).rime.isSome = true := by
  subst rime
  change (inst.initRime conduct.init.rime).rime.isSome = true
  unfold initRime
  split
  next held => simp [held]
  · rfl

/-- The engine which is entered is asked for its mode last. -/
theorem rebind_freshFor {ctx : Nat} (focused : inst.focused = some ctx)
    (old : Option KeyboardEngine) {engine : KeyboardEngine} (conduct : SwitchConduct)
    (started : engine = .rime → inst.rime.isSome = true) :
    (inst.rebind old engine conduct).FreshFor ctx engine := by
  have enters (left : EngineInstance) (ready : engine = .rime → left.rime.isSome = true) :
      (((engineReset { left with lastMode := none } engine ctx conduct.cleared).engineFocusIn
        engine ctx conduct.entered).engineAskMode engine ctx conduct.asked).FreshFor ctx engine :=
    by
    have calls := (engineReset_calls { left with lastMode := none } engine ctx
      conduct.cleared).trans (engineFocusIn_calls _ engine ctx conduct.entered)
    exact engineAskMode_freshFor fun rime => calls.toGoes.started (ready rime)
  unfold rebind
  rw [focused]
  dsimp only
  split
  · exact enters inst started
  next old =>
    exact enters _ fun rime =>
      (inst.engineFocusOut_calls old ctx conduct.left).toGoes.started (started rime)

theorem switchTo_told (engine : KeyboardEngine) (conduct : SwitchConduct) (told : inst.Told) :
    (inst.switchTo engine conduct).Told := by
  have started := @settleOn_started inst engine conduct
  obtain ⟨-, focused⟩ := inst.settleOn_clients engine conduct
  unfold switchTo
  split
  · exact told
  change Told ((inst.settleOn engine conduct).rebind inst.active engine conduct)
  cases focus : inst.focused with
  | none =>
      have unbound : (inst.settleOn engine conduct).rebind inst.active engine conduct =
          inst.settleOn engine conduct := by
        unfold rebind
        rw [focused, focus]
      rw [unbound]
      exact .of_unfocused (fun active => started (Option.some.inj active)) (focused.trans focus)
  | some ctx =>
      have calls := (inst.settleOn engine conduct).rebind_calls (focused.trans focus) inst.active
        engine conduct
      have ready (active : ((inst.settleOn engine conduct).rebind inst.active engine
          conduct).active = some .rime) : engine = .rime :=
        Option.some.inj (calls.active.symm.trans active)
      refine ⟨fun active => calls.toGoes.started (started (ready active)), ?_⟩
      rw [calls.focused, calls.active, focused, focus]
      rintro _ ⟨rfl⟩ _ ⟨rfl⟩
      exact rebind_freshFor (focused.trans focus) inst.active conduct started

theorem step_told (input : Input) (told : inst.Told) (announced : inst.Announced input) :
    (inst.step input).Told := by
  cases input with
  | focusIn ctx conduct => exact focusIn_told ctx conduct told announced
  | focusOut ctx conduct => exact focusOut_told ctx conduct told
  | reset ctx conduct => exact reset_told ctx conduct told announced
  | key ctx event conduct => exact processKey_told ctx event conduct told announced
  | setMode ctx modeId conduct => exact setMode_told ctx modeId conduct told announced
  | switchTo engine conduct => exact switchTo_told engine conduct told

theorem Told.modeFresh (told : inst.Told) : inst.ModeFresh := by
  intro ctx holds engine active conduct finds
  have fresh := told.fresh ctx holds engine active
  cases engine with
  | mozc => exact fresh
  | rime =>
      obtain ⟨state, held, fresh⟩ := fresh
      unfold getMode
      rw [held]
      dsimp only [Option.elim_some]
      rw [@RimeHost.getMode_of_keeps (inst.rimeHost ctx state) conduct.rime finds]
      exact fresh

/-- The mode last told is the mode of the focused context in a run whose steps are announced. -/
theorem always_modeFresh (recorded : CString) (inputs : List Input)
    (each : Machine.EachStep step Announced (new recorded) inputs) :
    Machine.Always step ModeFresh (new recorded) inputs := by
  have initial : (new recorded).Told := .of_inactive rfl
  refine Machine.Always.mono (fun _ told => told.modeFresh) (Machine.Always.of_invariant Told
    (fun inst input told announced => ?_) initial each)
  exact step_told input told announced

/-- A context is used with Rime, and its mode is set. -/
def latinMode : List Input :=
  [.switchTo .rime quietSwitch, .focusIn 0 quietConduct, .key 0 letter quietConduct,
    .setMode 0 "ascii" quietConduct]

theorem latinMode_modeFresh :
    Machine.Always step ModeFresh (new []) latinMode ∧
      (Machine.run step (new []) latinMode).lastMode = some rimeModeLatin := by
  refine ⟨always_modeFresh [] latinMode ?_, by decide⟩
  have quiet (host : RimeHost) : host.FailsQuietly quietConduct.rime := by
    rintro -
    exact ⟨by rintro _ ⟨rfl⟩; rfl, rfl, rfl⟩
  refine (Machine.eachStep_cons ..).mpr ⟨trivial, (Machine.eachStep_cons ..).mpr ⟨?_,
    (Machine.eachStep_cons ..).mpr ⟨?_, (Machine.eachStep_cons ..).mpr ⟨?_,
      Machine.eachStep_nil _ _ _⟩⟩⟩⟩
  · rintro - _ ⟨rfl⟩ _ ⟨rfl⟩
    exact .inl ⟨by decide, by decide⟩
  · rintro _ ⟨rfl⟩ _ ⟨rfl⟩ _ ⟨rfl⟩
    exact ⟨.inr ⟨by rintro _ ⟨rfl⟩; rfl, quiet _⟩, by rintro - _ ⟨⟩⟩
  · rintro _ ⟨rfl⟩ _ ⟨rfl⟩ _ ⟨rfl⟩
    exact .inr ⟨by rintro _ ⟨rfl⟩; rfl, quiet _⟩

/-- Mozc goes to the hiragana mode with the key. -/
def hiraganaConduct : Conduct :=
  { quietConduct with
    mozc := { quietConduct.mozc with
      key := fun _ =>
        { output :=
            { consumed := true, result := none, preedit := none, candidateWindow := none
              mode := some .hiragana, statusMode := none }
          received := true } } }

/-- The key changes the mode of the session of Mozc. -/
def mozcKey : List Input :=
  [.focusIn 0 quietConduct, .switchTo .mozc quietSwitch, .key 0 letter hiraganaConduct]

/-- The focus comes back to a context with a session of Rime, whose mode was set. -/
def rimeReturn : List Input :=
  [.switchTo .rime quietSwitch, .focusIn 0 quietConduct, .setMode 0 "ascii" quietConduct,
    .focusOut 0 quietConduct, .focusIn 1 quietConduct, .focusOut 1 quietConduct,
    .focusIn 0 quietConduct]

/-- Neither the mode a key brings nor that of the context which is entered is told. -/
theorem untold_mode : ¬ Machine.Always step ModeFresh (new []) mozcKey ∧
    ¬ Machine.Always step ModeFresh (new []) rimeReturn := by
  constructor
  · intro always
    have unused : ((Machine.run step (new []) mozcKey).clients 0).rimeSession.isNone = true := by
      decide +kernel
    have told := always.final 0 (by decide +kernel) .mozc (by decide +kernel) quietConduct
      fun session held => absurd held (by rw [Option.isNone_iff_eq_none.mp unused]; nofun)
    revert told
    decide +kernel
  · intro always
    exact absurd (always.final 0 rfl .rime rfl quietConduct (by rintro _ ⟨rfl⟩; rfl)) (by decide)

end EngineInstance

end Engines

end Typio
