import Typio.Engines.InputContext

/-!
# The Rime engine

The engine keeps one librime session for each context, as a property of the context, and one state
of its own.  A session which was created before the last deployment is replaced on its next use.
What librime answers is an input of each call into the engine; a session id stands for the session
of librime it names, so that the property holds both.

Some fields are kept for the statements only: the schema which was last selected on a session and
the number of deployments started when it was created, the last answer of `find_session`, and the
text librime produced for the context.
-/

namespace Typio

namespace Engines

open Typio.Core

/-! ## librime -/

structure RimeCandidate where
  text : CString
  comment : Option CString
  deriving DecidableEq, Repr

structure RimeMenu where
  candidates : List RimeCandidate
  highlightedCandidateIndex : Int
  pageNo : Int
  pageSize : Int
  isLastPage : Bool
  selectKeys : Option CString
  deriving DecidableEq, Repr

structure RimeContext where
  preedit : Option CString
  cursorPos : Int
  menu : RimeMenu
  selectLabels : Option (List (Option CString))
  deriving DecidableEq, Repr

/-- A session inside librime: what `get_context` and `get_option` answer, and the text the next
`get_commit` takes. -/
structure LibrimeSession where
  context : Option RimeContext
  commit : CString
  asciiMode : Bool
  schema : Option CString
  deployment : Nat
  found : Bool
  deriving DecidableEq, Repr

inductive RimeNotification where
  | deploy (success : Bool)
  | asciiMode (on : Bool)
  deriving DecidableEq, Repr

/-- What a call of librime leaves in the session, and what it tells the notification handler. -/
structure RimeReply where
  context : Option RimeContext
  asciiMode : Bool
  notified : List RimeNotification
  deriving DecidableEq, Repr

structure RimeKeyReply extends RimeReply where
  handled : Bool
  text : CString
  deriving DecidableEq, Repr

/-- The answers of librime and of the file system during one call into the engine. -/
structure RimeConduct where
  /-- `find_session`. -/
  found : Bool
  /-- `is_maintenance_mode`, first when a deployment is to be ensured. -/
  maintaining : Bool
  /-- `is_maintenance_mode`, for a key without a session. -/
  stillMaintaining : Bool
  /-- `build/default.yaml` exists. -/
  built : Bool
  /-- `start_maintenance`. -/
  started : Bool
  /-- `TYPIO_RIME_SYNC_DEPLOY=1`. -/
  sync : Bool
  /-- `create_session`. -/
  created : Option RimeReply
  /-- `select_schema`. -/
  selected : Bool × RimeReply
  /-- `select_schema`, after it failed. -/
  reselected : Bool × RimeReply
  /-- `clear_composition`. -/
  cleared : RimeReply
  /-- `process_key`, for a key symbol and a mask. -/
  key : Keysym → UInt32 → RimeKeyReply
  /-- `set_option`. -/
  optionSet : RimeReply

/-! ## The engine -/

structure RimeState where
  schema : CString
  maintenanceDone : Bool
  deployId : UInt32
  deployments : Nat
  deriving DecidableEq, Repr

structure RimeSession where
  asciiModeKnown : Bool
  asciiMode : Bool
  deployId : UInt32
  librime : LibrimeSession
  deriving DecidableEq, Repr

/-- What the engine reaches in a call: its state, the context and the session in it, and the mode
of the instance. -/
structure RimeHost where
  state : RimeState
  context : InputContext
  session : Option RimeSession
  lastMode : Option EngineMode
  produced : CString
  deriving DecidableEq, Repr

/-- `typio_rime_mode_chinese`. -/
def rimeModeChinese : EngineMode where
  modeClass := .native
  modeId := some "chinese"
  displayLabel := some "中"
  iconName := some "typio-rime"

/-- `typio_rime_mode_latin`. -/
def rimeModeLatin : EngineMode where
  modeClass := .latin
  modeId := some "ascii"
  displayLabel := some "A"
  iconName := some "typio-rime-latin"

/-- `typio_rime_mode_for_ascii`. -/
def rimeModeForAscii (asciiMode : Bool) : EngineMode :=
  if asciiMode then rimeModeLatin else rimeModeChinese

namespace RimeSession

def after (session : RimeSession) (reply : RimeReply) : RimeSession :=
  { session with
    librime := { session.librime with context := reply.context, asciiMode := reply.asciiMode } }

end RimeSession

/-! ### rime_deploy.c -/

namespace RimeState

variable (state : RimeState)

/-- `typio_rime_run_maintenance`. -/
def runMaintenance (conduct : RimeConduct) : RimeState × Bool :=
  let counted := { state with
    deployId := state.deployId + 1, deployments := state.deployments + 1 }
  if !conduct.started then (counted, false)
  else ({ counted with maintenanceDone := conduct.sync }, true)

/-- `typio_rime_ensure_deployed`. -/
def ensureDeployed (conduct : RimeConduct) : RimeState × Bool :=
  if state.maintenanceDone then (state, true)
  else if conduct.maintaining then (state, false)
  else if !conduct.built then
    let (maintained, running) := state.runMaintenance conduct
    (maintained, running && maintained.maintenanceDone)
  else ({ state with maintenanceDone := true }, true)

end RimeState

/-! ### rime_key.c -/

/-- `typio_rime_modifiers_to_mask`. -/
def rimeModifiersToMask (modifiers : Modifiers) : UInt32 :=
  let bit (modifier : Modifiers) (mask : UInt32) : UInt32 :=
    if modifiers &&& modifier ≠ 0 then mask else 0
  bit .shift 0x01 ||| bit .ctrl 0x04 ||| bit .alt 0x08 ||| bit .super 0x40 |||
    bit .capslock 0x02 ||| bit .numlock 0x10

/-- The mask `process_key` of librime gets. -/
def TypioKeyEvent.rimeMask (event : TypioKeyEvent) : UInt32 :=
  rimeModifiersToMask event.modifiers ||| if event.isRelease then 0x40000000 else 0

/-- What librime does with a key. -/
def RimeConduct.answer (conduct : RimeConduct) (event : TypioKeyEvent) : RimeKeyReply :=
  conduct.key event.keysym event.rimeMask

/-! ### rime_sync.c -/

namespace RimeContext

variable (context : RimeContext)

def hasPreedit : Bool := context.preedit.any (!·.isEmpty)

def label (index : Nat) : CString :=
  match context.selectLabels.bind fun labels => (labels[index]?).join with
  | some label => label
  | none =>
      match context.menu.selectKeys.bind fun keys => keys[index]? with
      | some key => [key]
      | none => decimal (index + 1)

/-- `total` of `typio_rime_sync_context`. -/
def total : Int :=
  context.menu.pageNo * context.menu.pageSize + context.menu.candidates.length +
    if context.menu.isLastPage then 0 else context.menu.pageSize

def candidates : TypioCandidateList :=
  if context.menu.candidates.isEmpty then .empty
  else
    { candidates := context.menu.candidates.mapIdx fun index candidate =>
        { text := candidate.text, comment := candidate.comment, label := context.label index }
      page := context.menu.pageNo
      pageSize := context.menu.pageSize
      total := context.total
      selected := context.menu.highlightedCandidateIndex
      hasPrev := context.menu.pageNo > 0
      hasNext := !context.menu.isLastPage }

/-- The composition `typio_rime_sync_context` builds. -/
def composition : TypioComposition where
  segments :=
    if context.hasPreedit then [{ text := context.preedit.getD [], format := .underline }] else []
  cursorPos := if context.hasPreedit then context.cursorPos else 0
  candidates := context.candidates

end RimeContext

namespace LibrimeSession

/-- What librime composes; without a context nothing is. -/
def composition (session : LibrimeSession) : TypioComposition :=
  session.context.elim .idle RimeContext.composition

end LibrimeSession

namespace RimeHost

variable (host : RimeHost)

/-- `typio_rime_clear_state`. -/
def clearState : RimeHost := { host with context := host.context.clear }

/-- `typio_rime_flush_commit`; `get_commit` takes the text. -/
def flushCommit (session : RimeSession) : RimeHost × Bool :=
  let taken := { session with librime := { session.librime with commit := [] } }
  if session.librime.commit.isEmpty then ({ host with session := some taken }, false)
  else
    ({ host with
        session := some taken
        context := host.context.commit session.librime.commit }, true)

/-- `typio_rime_sync_context`. -/
def syncContext (session : RimeSession) : RimeHost × Bool :=
  match session.librime.context with
  | none => (host.clearState, false)
  | some context =>
      ({ host with context := host.context.sync context.composition }, context.composition.active)

/-! ### rime_mode.c and the notification handler -/

/-- `typio_rime_notify_mode`. -/
def notifyMode (session : RimeSession) (asciiMode : Bool) : RimeHost :=
  { host with
    session := some { session with asciiModeKnown := true, asciiMode }
    lastMode := Engines.notifyMode host.lastMode (rimeModeForAscii asciiMode) }

/-- `typio_rime_refresh_mode`. -/
def refreshMode (session : RimeSession) : RimeHost :=
  host.notifyMode session session.librime.asciiMode

/-- `typio_rime_notification`; the session it is about is not looked at. -/
def notification : RimeNotification → RimeHost
  | .deploy true => { host with state := { host.state with maintenanceDone := true } }
  | .deploy false => host
  | .asciiMode on =>
      { host with lastMode := Engines.notifyMode host.lastMode (rimeModeForAscii on) }

def hear (notified : List RimeNotification) : RimeHost := notified.foldl notification host

/-! ### rime_session.c -/

/-- `select_schema` of the configured schema. -/
def selectSchema (session : RimeSession) (answer : Bool × RimeReply) :
    RimeHost × RimeSession × Bool :=
  let after := session.after answer.2
  let selected :=
    if answer.1 then
      { after with librime := { after.librime with schema := some host.state.schema } }
    else after
  (host.hear answer.2.notified, selected, answer.1)

/-- `typio_rime_apply_schema`. -/
def applySchema (session : RimeSession) (conduct : RimeConduct) :
    RimeHost × RimeSession × Bool :=
  if host.state.schema.isEmpty then (host, session, true)
  else
    let (asked, session, ok) := host.selectSchema session conduct.selected
    if !ok && !asked.state.maintenanceDone then
      let (state, ready) := asked.state.ensureDeployed conduct
      if !ready then ({ asked with state }, session, false)
      else selectSchema { asked with state } session conduct.reselected
    else (asked, session, ok)

/-- A session which `create_session` has just made. -/
def newSession (reply : RimeReply) : RimeSession where
  asciiModeKnown := false
  asciiMode := false
  deployId := host.state.deployId
  librime :=
    { context := reply.context
      commit := []
      asciiMode := reply.asciiMode
      schema := none
      deployment := host.state.deployments
      found := true }

/-- The second half of `typio_rime_get_session`. -/
def createSession (conduct : RimeConduct) : RimeHost × Option RimeSession :=
  let (state, ready) := host.state.ensureDeployed conduct
  let deployed := { host with state }
  if !ready then (deployed, none)
  else
    match conduct.created with
    | none => (deployed, none)
    | some reply =>
        let (applied, session, ok) :=
          (deployed.hear reply.notified).applySchema (deployed.newSession reply) conduct
        if !ok then (applied, none)
        else
          let refreshed := applied.refreshMode session
          (refreshed, refreshed.session)

/-- The session of the property, with what `find_session` says about it. -/
def findSession (session : RimeSession) (found : Bool) : RimeSession :=
  { session with librime := { session.librime with found } }

/-- `typio_rime_get_session`. -/
def getSession (conduct : RimeConduct) (create : Bool) : RimeHost × Option RimeSession :=
  match host.session with
  | none => if create then host.createSession conduct else (host, none)
  | some session =>
      let session := findSession session conduct.found
      let looked := { host with session := some session }
      if conduct.found then
        if session.deployId = host.state.deployId then (looked, some session)
        else
          let dropped := { host with session := none }
          if create then dropped.createSession conduct else (dropped, none)
      else if create then looked.createSession conduct
      else (looked, none)

/-! ### rime_engine.c -/

/-- `typio_rime_focus_in`. -/
def focusIn (conduct : RimeConduct) : RimeHost :=
  match host.getSession conduct true with
  | (reached, none) => reached
  | (reached, some session) =>
      let known := if session.asciiModeKnown then reached else reached.refreshMode session
      (known.syncContext session).1

/-- `typio_rime_reset`. -/
def reset (conduct : RimeConduct) : RimeHost :=
  match host.getSession conduct false with
  | (reached, none) => reached.clearState
  | (reached, some session) =>
      let session := session.after conduct.cleared
      let told := (reached.hear conduct.cleared.notified).clearState
      if session.asciiModeKnown then told.notifyMode session session.asciiMode
      else told.refreshMode session

/-- `typio_rime_focus_out`. -/
def focusOut (conduct : RimeConduct) : RimeHost := host.reset conduct

/-- The session after `process_key` of librime, and the poll of its mode. -/
def keySession (session : RimeSession) (reply : RimeKeyReply) : RimeHost × RimeSession :=
  let told :=
    { host.hear reply.notified with produced := host.produced ++ reply.text }
  let session := session.after reply.toRimeReply
  let session := { session with
    librime := { session.librime with commit := session.librime.commit ++ reply.text } }
  if !session.asciiModeKnown || session.asciiMode != session.librime.asciiMode then
    (told.notifyMode session session.librime.asciiMode,
      { session with asciiModeKnown := true, asciiMode := session.librime.asciiMode })
  else ({ told with session := some session }, session)

/-- The preedit during a deployment, `… Rime 正在部署`. -/
def deployingComposition : TypioComposition :=
  { TypioComposition.idle with
    segments :=
      [{ text := "… Rime 正在部署".toUTF8.toList, format := .plain }] }

/-- `typio_rime_process_key`. -/
def processKey (event : TypioKeyEvent) (conduct : RimeConduct) :
    RimeHost × TypioKeyProcessResult :=
  if !event.isRelease && event.isEscape then
    if host.context.composition.active then (host.reset conduct, .handled)
    else (host, .notHandled)
  else
    match host.getSession conduct true with
    | (reached, none) =>
        if conduct.stillMaintaining then
          ({ reached with context := reached.context.setComposition deployingComposition },
            .handled)
        else (reached, .notHandled)
    | (reached, some session) =>
        let (polled, session) := reached.keySession session (conduct.answer event)
        if !(conduct.answer event).handled then (polled, .notHandled)
        else
          let (flushed, committed) := polled.flushCommit session
          let (synced, composing) := flushed.syncContext session
          (synced,
            if committed then .committed else if composing then .composing else .handled)

/-- The session a key is handed to, and the deployments which were started until then. -/
def handed (event : TypioKeyEvent) (conduct : RimeConduct) :
    Option (LibrimeSession × Nat) :=
  if !event.isRelease && event.isEscape then none
  else
    (host.getSession conduct true).2.map fun session =>
      (session.librime, (host.getSession conduct true).1.state.deployments)

/-- `typio_rime_get_mode`. -/
def getMode (conduct : RimeConduct) : RimeHost × EngineMode :=
  match host.getSession conduct false with
  | (reached, none) => (reached, rimeModeChinese)
  | (reached, some session) =>
      (reached, if session.asciiModeKnown then rimeModeForAscii session.asciiMode
        else rimeModeChinese)

/-- `typio_rime_set_mode`. -/
def setMode (modeId : String) (conduct : RimeConduct) : RimeHost × TypioResult :=
  if modeId = "" then (host, .invalidArgument)
  else
    match host.getSession conduct true with
    | (reached, none) => (reached, .notInitialized)
    | (reached, some session) =>
        if modeId = "ascii" ∨ modeId = "chinese" then
          let session := session.after conduct.optionSet
          let told := reached.hear conduct.optionSet.notified
          (told.notifyMode session (modeId == "ascii"), .ok)
        else (reached, .notFound)

/-- `typio_rime_apply_runtime_config`, for the focused context. -/
def applyRuntimeConfig (conduct : RimeConduct) : RimeHost :=
  match host.getSession conduct true with
  | (reached, none) => reached
  | (reached, some session) =>
      let (applied, session, ok) := (reached.hear conduct.cleared.notified).applySchema
        (session.after conduct.cleared) conduct
      let stored := { applied with session := some session }
      if !ok then stored else (stored.syncContext session).1

end RimeHost

end Engines

end Typio
