import Typio.Engines.RimeOutput
import Typio.Engines.RimeTracking

/-!
# The mode Rime last told

The instance keeps the mode it was last told, and a session of Rime keeps its own.  A call on a
context leaves the two equal if they were, librime still has the sessions it had, and what librime
tells of its option is what the option then is.
-/

namespace Typio

namespace Engines

open Typio.Core

theorem equal_refl (mode : EngineMode) : mode.equal mode = true := by
  simp [EngineMode.equal]

/-- A mode which was just told is the last one told. -/
theorem notifyMode_any (last : Option EngineMode) (mode : EngineMode) :
    (notifyMode last mode).any (·.equal mode) = true := by
  unfold notifyMode
  split
  · assumption
  · simp [equal_refl]

/-- The ASCII mode a notification tells of. -/
def RimeNotification.told : RimeNotification → Option Bool
  | asciiMode on => some on
  | deploy _ => none

namespace RimeReply

/-- The ASCII modes the handler is told of, in order. -/
def told (reply : RimeReply) : List Bool := reply.notified.filterMap RimeNotification.told

/-- If the handler is told of the mode, it is last told of the one `get_option` answers
afterwards. -/
def Truthful (reply : RimeReply) : Prop := ∀ on ∈ reply.told.getLast?, on = reply.asciiMode

end RimeReply

namespace RimeHost

/-- What `get_mode` returns, if `find_session` answers as it did last. -/
def modeNow (host : RimeHost) : EngineMode :=
  match host.session with
  | none => rimeModeChinese
  | some session =>
      if session.librime.found = true ∧ session.deployId = host.state.deployId then
        if session.asciiModeKnown then rimeModeForAscii session.asciiMode else rimeModeChinese
      else rimeModeChinese

/-- The last mode told is the mode of the context. -/
def ModeFresh (host : RimeHost) : Prop := host.lastMode.any (·.equal host.modeNow) = true

/-- `find_session` answers as it did last. -/
def KeepsSession (host : RimeHost) (conduct : RimeConduct) : Prop :=
  ∀ session ∈ host.session, conduct.found = session.librime.found

/-- A call which gets no session is told of no mode while it tries to create one. -/
def FailsQuietly (host : RimeHost) (conduct : RimeConduct) : Prop :=
  (host.getSession conduct true).2 = none →
    (∀ reply ∈ conduct.created, reply.told = []) ∧ conduct.selected.2.told = [] ∧
      conduct.reselected.2.told = []

/-- The context has a session which librime has from the last deployment. -/
def live (host : RimeHost) (conduct : RimeConduct) : Bool :=
  host.session.any fun session => conduct.found && session.deployId == host.state.deployId

/-! ## What librime tells -/

theorem hear_deployId (host : RimeHost) (notified : List RimeNotification) :
    (host.hear notified).state.deployId = host.state.deployId := by
  induction notified generalizing host with
  | nil => rfl
  | cons heard notified ih =>
      refine (ih _).trans ?_
      cases heard with
      | deploy success => cases success <;> rfl
      | asciiMode on => rfl

/-- A truthful librime leaves the last mode told alone, or makes it the one it has. -/
theorem hear_truthful (host : RimeHost) {notified : List RimeNotification} {asciiMode : Bool}
    (truthful : ∀ on ∈ (notified.filterMap RimeNotification.told).getLast?, on = asciiMode) :
    (host.hear notified).lastMode = host.lastMode ∨
      (host.hear notified).lastMode.any (·.equal (rimeModeForAscii asciiMode)) = true := by
  induction notified using List.reverseRecOn with
  | nil => exact .inl rfl
  | append_singleton notified heard ih =>
      rw [List.filterMap_append] at truthful
      have hears : host.hear (notified ++ [heard]) = (host.hear notified).notification heard :=
        List.foldl_append
      rw [hears]
      cases heard with
      | deploy success =>
          have earlier := ih (by simpa [RimeNotification.told] using truthful)
          cases success <;> exact earlier
      | asciiMode on =>
          obtain rfl := truthful on (by simp [RimeNotification.told])
          exact .inr (notifyMode_any _ _)

theorem hear_quiet (host : RimeHost) {notified : List RimeNotification}
    (quiet : notified.filterMap RimeNotification.told = []) :
    (host.hear notified).lastMode = host.lastMode := by
  induction notified generalizing host with
  | nil => rfl
  | cons heard notified ih =>
      cases heard with
      | deploy success =>
          refine (ih _ (by simpa [RimeNotification.told] using quiet)).trans ?_
          cases success <;> rfl
      | asciiMode on => simp [RimeNotification.told] at quiet

/-! ## The session a call gets -/

theorem modeNow_of_session {host : RimeHost} {session : RimeSession}
    (held : host.session = some session) (found : session.librime.found = true)
    (current : session.deployId = host.state.deployId) (known : session.asciiModeKnown = true) :
    host.modeNow = rimeModeForAscii session.asciiMode := by
  simp [modeNow, held, found, current, known]

theorem modeFresh_of_session {host : RimeHost} {session : RimeSession}
    (held : host.session = some session) (found : session.librime.found = true)
    (current : session.deployId = host.state.deployId) (known : session.asciiModeKnown = true)
    (told : host.lastMode.any (·.equal (rimeModeForAscii session.asciiMode)) = true) :
    host.ModeFresh := by
  unfold ModeFresh
  rw [modeNow_of_session held found current known]
  exact told

/-- Without a session which librime finds the mode is the Chinese one. -/
theorem modeNow_of_without {host : RimeHost} (without : host.Without) :
    host.modeNow = rimeModeChinese := by
  unfold modeNow
  split
  · rfl
  next session held => simp [without session held]

theorem applySchema_lastMode (host : RimeHost) (session : RimeSession) {conduct : RimeConduct}
    (selected : conduct.selected.2.told = []) (reselected : conduct.reselected.2.told = []) :
    (host.applySchema session conduct).1.lastMode = host.lastMode := by
  have asked : (host.selectSchema session conduct.selected).1.lastMode = host.lastMode :=
    host.hear_quiet selected
  unfold applySchema
  split
  · rfl
  dsimp only
  split
  · split
    · exact asked
    · exact (hear_quiet _ reselected).trans asked
  · exact asked

theorem applySchema_deployId (host : RimeHost) (session : RimeSession) (conduct : RimeConduct)
    (done : host.state.maintenanceDone = true) :
    (host.applySchema session conduct).1.state.deployId = host.state.deployId := by
  by_cases named : host.state.schema = []
  · simp [applySchema, named]
  · rw [host.applySchema_of_done session conduct done named]
    exact host.hear_deployId conduct.selected.2.notified

/-- The session of the context comes with its mode when that is told. -/
theorem notifyMode_modeFresh {host : RimeHost} {session : RimeSession} (asciiMode : Bool)
    (found : session.librime.found = true) (current : session.deployId = host.state.deployId) :
    (host.notifyMode session asciiMode).ModeFresh :=
  modeFresh_of_session rfl found current rfl (notifyMode_any _ _)

theorem made_deployId (host : RimeHost) (conduct : RimeConduct) (reply : RimeReply)
    (ready : (host.state.ensureDeployed conduct).2 = true) :
    (host.made conduct reply).2.1.deployId = (host.made conduct reply).1.state.deployId := by
  have done : (host.deployed conduct).state.maintenanceDone = true :=
    host.state.ensureDeployed_done conduct ready
  have deployId := applySchema_deployId ((host.deployed conduct).hear reply.notified)
    ((host.deployed conduct).newSession reply) conduct (hear_done _ _ done)
  have marks := applySchema_marks ((host.deployed conduct).hear reply.notified)
    ((host.deployed conduct).newSession reply) conduct
  rw [hear_deployId] at deployId
  exact marks.1.trans deployId.symm

/-- A created session comes with its mode; if there is none, librime has told of none. -/
theorem createSession_modeFresh (host : RimeHost) (conduct : RimeConduct) :
    ((host.createSession conduct).2.isSome = true → (host.createSession conduct).1.ModeFresh) ∧
      ((host.createSession conduct).2 = none →
        (∀ reply ∈ conduct.created, reply.told = []) ∧ conduct.selected.2.told = [] ∧
            conduct.reselected.2.told = [] →
          (host.createSession conduct).1.lastMode = host.lastMode) := by
  obtain ⟨-, ends⟩ | ⟨ready, reply, answered, ⟨-, ends⟩ | ⟨-, ends⟩⟩ :=
    host.createSession_cases conduct
  · rw [ends]
    exact ⟨by simp, fun _ _ => rfl⟩
  · rw [ends]
    refine ⟨by simp, fun _ ⟨created, selected, reselected⟩ => ?_⟩
    exact (applySchema_lastMode _ _ selected reselected).trans
      (hear_quiet _ (created reply answered))
  · have found := (applySchema_session ((host.deployed conduct).hear reply.notified)
      ((host.deployed conduct).newSession reply) conduct).2
    rw [ends]
    refine ⟨fun _ => ?_, by simp⟩
    exact notifyMode_modeFresh _ found (host.made_deployId conduct reply ready)

/-- Creating a session keeps the mode fresh where there was none. -/
theorem createSession_keeps {host : RimeHost} (conduct : RimeConduct) (without : host.Without)
    (fresh : host.ModeFresh)
    (quiet : (host.createSession conduct).2 = none →
      (∀ reply ∈ conduct.created, reply.told = []) ∧ conduct.selected.2.told = [] ∧
        conduct.reselected.2.told = []) :
    (host.createSession conduct).1.ModeFresh := by
  obtain ⟨created, failed⟩ := host.createSession_modeFresh conduct
  cases got : (host.createSession conduct).2 with
  | some session => exact created (by simp [got])
  | none =>
      have still := (createSession_got conduct without).none got
      unfold ModeFresh at *
      rw [failed got (quiet got), modeNow_of_without still, ← modeNow_of_without without]
      exact fresh

theorem lookup_keeps {host : RimeHost} (conduct : RimeConduct) (fresh : host.ModeFresh)
    (keeps : host.KeepsSession conduct) : (host.lookup conduct).1.ModeFresh := by
  unfold lookup
  cases held : host.session with
  | none => exact fresh
  | some session =>
      have looked : conduct.found = session.librime.found := keeps session held
      dsimp only
      split
      next found =>
        split
        next current =>
          rw [found] at looked
          simpa [ModeFresh, modeNow, held, findSession, looked.symm, current] using fresh
        next stale => simpa [ModeFresh, modeNow, held, stale] using fresh
      next lost =>
        have absent : session.librime.found = false := by simpa [looked] using lost
        simpa [ModeFresh, modeNow, held, findSession, absent] using fresh

/-- A session which librime lost or which is outdated is not got. -/
theorem lookup_live (host : RimeHost) (conduct : RimeConduct) :
    (host.lookup conduct).2.isSome = host.live conduct := by
  unfold lookup live
  cases host.session with
  | none => rfl
  | some session =>
      cases found : conduct.found with
      | false => simp
      | true => by_cases current : session.deployId = host.state.deployId <;> simp [current]

/-- Looking for the session of a context keeps its mode fresh. -/
theorem getSession_keeps {host : RimeHost} (conduct : RimeConduct) (create : Bool)
    (fresh : host.ModeFresh) (keeps : host.KeepsSession conduct)
    (quiet : create = true → host.FailsQuietly conduct) :
    (host.getSession conduct create).1.ModeFresh := by
  have looked := lookup_keeps conduct fresh keeps
  unfold FailsQuietly at quiet
  rw [getSession_eq] at quiet ⊢
  split
  · exact looked
  next absent =>
    simp only [absent, if_true] at quiet
    split
    next create =>
      exact createSession_keeps conduct ((host.lookup_got conduct).none absent) looked
        (quiet create)
    · exact looked

/-- A context without a live session gets one with its mode. -/
theorem getSession_creates {host : RimeHost} (conduct : RimeConduct)
    (absent : host.live conduct = false)
    (created : (host.getSession conduct true).2.isSome = true) :
    (host.getSession conduct true).1.ModeFresh := by
  rw [← lookup_live] at absent
  rw [getSession_eq] at created ⊢
  split
  next session got => simp [got] at absent
  next none =>
    simp only [none, if_true] at created
    exact ((host.lookup conduct).1.createSession_modeFresh conduct).1 created

/-- The session a call gets bears the present mark. -/
theorem getSession_current (host : RimeHost) (conduct : RimeConduct) (create : Bool) :
    ∀ session ∈ (host.getSession conduct create).2,
      session.deployId = (host.getSession conduct create).1.state.deployId := by
  rw [getSession_eq]
  split
  next session got =>
    rintro _ ⟨rfl⟩
    rw [lookup_state]
    unfold lookup at got
    split at got
    · simp at got
    split at got
    · split at got
      next current =>
        obtain ⟨rfl⟩ := got
        exact current
      · simp at got
    · simp at got
  · split
    · obtain ⟨-, ends⟩ | ⟨ready, reply, -, ⟨-, ends⟩ | ⟨-, ends⟩⟩ :=
        (host.lookup conduct).1.createSession_cases conduct
      · simp [ends]
      · simp [ends]
      · rw [ends]
        rintro _ ⟨rfl⟩
        exact (host.lookup conduct).1.made_deployId conduct reply ready
    · simp

/-! ## Calls -/

/-- The call creates a new session for the context. -/
def Renews (host : RimeHost) (conduct : RimeConduct) : Prop :=
  host.live conduct = false ∧ (host.getSession conduct true).2.isSome = true

/-- The session of the context stays what it is unless a new one is created, and what is told
while that fails is no mode. -/
def Steady (host : RimeHost) (conduct : RimeConduct) : Prop :=
  host.Renews conduct ∨ host.KeepsSession conduct ∧ host.FailsQuietly conduct

variable {host : RimeHost}

theorem getSession_modeFresh (conduct : RimeConduct)
    (fresh : host.Renews conduct ∨
      host.ModeFresh ∧ host.KeepsSession conduct ∧ host.FailsQuietly conduct) :
    (host.getSession conduct true).1.ModeFresh := by
  obtain ⟨absent, created⟩ | ⟨fresh, keeps, quiet⟩ := fresh
  · exact getSession_creates conduct absent created
  · exact getSession_keeps conduct true fresh keeps fun _ => quiet

theorem modeFresh_congr {before after : RimeHost} (session : after.session = before.session)
    (deployId : after.state.deployId = before.state.deployId)
    (lastMode : after.lastMode = before.lastMode) : after.ModeFresh ↔ before.ModeFresh := by
  unfold ModeFresh modeNow
  rw [session, deployId, lastMode]

/-- The mode of a context does not depend on what it shows. -/
theorem syncContext_modeFresh (session : RimeSession) :
    (host.syncContext session).1.ModeFresh ↔ host.ModeFresh := by
  unfold syncContext
  split <;> exact modeFresh_congr rfl rfl rfl

theorem flushCommit_modeFresh {session : RimeSession} (held : host.session = some session) :
    (host.flushCommit session).1.ModeFresh ↔ host.ModeFresh := by
  have same (after : RimeHost) (librime : LibrimeSession)
      (kept : after.session = some { session with librime })
      (found : librime.found = session.librime.found) (state : after.state = host.state)
      (lastMode : after.lastMode = host.lastMode) : after.ModeFresh ↔ host.ModeFresh := by
    simp only [ModeFresh, modeNow, kept, held, found, state, lastMode]
  unfold flushCommit
  dsimp only
  split <;> exact same _ _ rfl rfl rfl rfl

theorem reset_modeFresh (conduct : RimeConduct) (fresh : host.ModeFresh)
    (keeps : host.KeepsSession conduct) : (host.reset conduct).ModeFresh := by
  have looked := getSession_keeps conduct false fresh keeps (by simp)
  have got := host.getSession_got conduct false
  have current := host.getSession_current conduct false
  unfold reset
  split
  next reached is =>
    rw [is] at looked
    exact looked
  next reached session is =>
    rw [is] at got current
    obtain ⟨-, found⟩ := got.some session rfl
    have marked : session.deployId =
        (reached.hear conduct.cleared.notified).clearState.state.deployId :=
      (current session rfl).trans (reached.hear_deployId _).symm
    dsimp only
    split
    · exact notifyMode_modeFresh _ found marked
    · exact notifyMode_modeFresh _ found marked

theorem focusIn_modeFresh (conduct : RimeConduct)
    (reached : (host.getSession conduct true).1.ModeFresh) : (host.focusIn conduct).ModeFresh := by
  have got := host.getSession_got conduct true
  have current := host.getSession_current conduct true
  unfold focusIn
  split
  next is => simpa [is] using reached
  next session is =>
    rw [is] at reached got current
    rw [syncContext_modeFresh]
    split
    · exact reached
    · exact notifyMode_modeFresh _ (got.some session rfl).2 (current session rfl)

/-- The poll after a key tells of the mode of the session if that is not the one it had. -/
theorem keySession_modeFresh {session : RimeSession} {reply : RimeKeyReply}
    (held : host.session = some session) (found : session.librime.found = true)
    (current : session.deployId = host.state.deployId) (fresh : host.ModeFresh)
    (truthful : reply.toRimeReply.Truthful) : (host.keySession session reply).1.ModeFresh := by
  have marked := current.trans (host.hear_deployId reply.notified).symm
  unfold keySession
  dsimp only
  split
  · exact notifyMode_modeFresh _ found marked
  next unchanged =>
    simp only [Bool.or_eq_true, Bool.not_eq_true', bne_iff_ne, not_or, not_not,
      Bool.not_eq_false] at unchanged
    obtain ⟨known, same⟩ := unchanged
    have before : host.lastMode.any (·.equal (rimeModeForAscii session.asciiMode)) = true := by
      rw [← modeNow_of_session held found current known]
      exact fresh
    have told : (host.hear reply.notified).lastMode.any
        (·.equal (rimeModeForAscii session.asciiMode)) = true := by
      obtain silent | spoke := host.hear_truthful truthful
      · rw [silent]
        exact before
      · rw [show session.asciiMode = reply.asciiMode from same]
        exact spoke
    exact modeFresh_of_session rfl found marked known told

/-- Unless it clears the composition, a key gets a session whose mode librime tells of. -/
def KeyTold (host : RimeHost) (event : TypioKeyEvent) (conduct : RimeConduct) : Prop :=
  if !event.isRelease && event.isEscape then
    host.context.composition.active = true → host.KeepsSession conduct
  else
    host.Steady conduct ∧
      ((host.getSession conduct true).2.isSome = true →
        (conduct.answer event).toRimeReply.Truthful)

theorem processKey_modeFresh (event : TypioKeyEvent) (conduct : RimeConduct)
    (fresh : host.ModeFresh) (told : host.KeyTold event conduct) :
    (host.processKey event conduct).1.ModeFresh := by
  unfold KeyTold at told
  unfold processKey
  split
  next escape =>
    rw [if_pos escape] at told
    split
    next composing => exact reset_modeFresh conduct fresh (told composing)
    · exact fresh
  next plain =>
    rw [if_neg plain] at told
    obtain ⟨steady, truthful⟩ := told
    have reached := getSession_modeFresh conduct
      (steady.imp id fun kept => ⟨fresh, kept⟩)
    have got := host.getSession_got conduct true
    have current := host.getSession_current conduct true
    split
    next is =>
      rw [is] at reached
      split <;> exact reached
    next session is =>
      rw [is] at reached got current truthful
      obtain ⟨held, found⟩ := got.some session rfl
      have polled := keySession_modeFresh held found (current session rfl) reached (truthful rfl)
      dsimp only
      split
      · exact polled
      · rw [syncContext_modeFresh, flushCommit_modeFresh (keySession_spec _ _).1]
        exact polled

theorem setMode_modeFresh (modeId : String) (conduct : RimeConduct) (fresh : host.ModeFresh)
    (steady : host.Steady conduct) : (host.setMode modeId conduct).1.ModeFresh := by
  have reached := getSession_modeFresh conduct (steady.imp id fun kept => ⟨fresh, kept⟩)
  have got := host.getSession_got conduct true
  have current := host.getSession_current conduct true
  unfold setMode
  split
  · exact fresh
  split
  next is => simpa [is] using reached
  next session is =>
    rw [is] at reached got current
    split
    · exact notifyMode_modeFresh _ (got.some session rfl).2
        ((current session rfl).trans (hear_deployId _ _).symm)
    · exact reached

/-- A mode that was asked for and told is fresh, whatever was told before. -/
theorem getMode_modeNow (conduct : RimeConduct) :
    (host.getMode conduct).2 = (host.getMode conduct).1.modeNow := by
  have got := host.getSession_got conduct false
  have current := host.getSession_current conduct false
  unfold getMode
  split
  next is =>
    rw [is] at got
    exact (modeNow_of_without (got.none rfl)).symm
  next session is =>
    rw [is] at got current
    obtain ⟨held, found⟩ := got.some session rfl
    have marked := current session rfl
    dsimp only at held marked
    simp [modeNow, held, found, marked]

/-- What `get_mode` returns if `find_session` answers as it did last. -/
theorem getMode_of_keeps {conduct : RimeConduct} (keeps : host.KeepsSession conduct) :
    (host.getMode conduct).2 = host.modeNow := by
  unfold getMode getSession modeNow
  cases held : host.session with
  | none => rfl
  | some session =>
      have looked : conduct.found = session.librime.found := keeps session held
      cases found : session.librime.found with
      | false => simp [looked, found]
      | true =>
          by_cases current : session.deployId = host.state.deployId
          · simp [looked, found, current, findSession]
          · simp [looked, found, current, findSession]

end RimeHost

end Engines

end Typio
