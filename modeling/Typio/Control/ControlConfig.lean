import Typio.Machine

/-!
# The staged configuration of the control panel

The panel keeps the text its form renders in a buffer, submits it when an autosave timer fires, and
follows the text the daemon has committed.  Whether an edit is pending is read off by comparing the
buffer with the last committed text the panel has heard of.
-/

namespace Typio

namespace Control

/-- A text the form renders.  It begins with a header comment, so it is not empty. -/
abbrev Rendered := {text : String // text ≠ ""}

/-! ## The panel -/

/-- The part of the panel which stages the configuration. -/
structure TypioControl where
  /-- The property `ConfigText` as cached for the running service; no service, no proxy. -/
  proxy : Option String
  configBuffer : String
  configSeeded : Bool
  submittingConfig : Bool
  committedConfigText : Option String
  /-- An autosave timer is armed. -/
  autosaveSource : Bool
  deriving DecidableEq

namespace TypioControl

/-- The panel as its window is built. -/
def activate : TypioControl where
  proxy := none
  configBuffer := ""
  configSeeded := false
  submittingConfig := false
  committedConfigText := none
  autosaveSource := false

/-- The staged text differs from the committed one. -/
def stageDiffers (control : TypioControl) : Bool :=
  control.committedConfigText.any (control.configBuffer != ·)

def hasPendingConfigChange (control : TypioControl) : Bool :=
  control.configSeeded && control.stageDiffers

def hasPendingLocalChanges (control : TypioControl) : Bool :=
  control.configBuffer != "" && control.stageDiffers

def replaceStagedConfigText (control : TypioControl) (text : String) : TypioControl :=
  { control with configBuffer := text }

def setCommittedConfigText (control : TypioControl) (text : String) : TypioControl :=
  { control with committedConfigText := some text }

/-- Take over the text the daemon has committed. -/
def setConfigText (control : TypioControl) (text : String) : TypioControl :=
  let shouldReplaceStage := !control.hasPendingLocalChanges || control.configBuffer == text
  let committed := { control with configSeeded := true }.setCommittedConfigText text
  if shouldReplaceStage then committed.replaceStagedConfigText text else committed

def refreshFromProxy (control : TypioControl) : TypioControl :=
  match control.proxy with
  | none => control
  | some configText => control.setConfigText configText

/-- Arm the autosave timer; one that is armed already starts anew. -/
def queueAutosave (control : TypioControl) : TypioControl :=
  { control with autosaveSource := true }

/-- The form was changed by hand, and renders as the given text. -/
def stageFormChange (control : TypioControl) (rendered : Rendered) : TypioControl :=
  if control.configSeeded then (control.replaceStagedConfigText rendered).queueAutosave
  else control

/-- The autosave timer has fired; the text is the one to submit, if any. -/
def autosaveTimeout (control : TypioControl) : TypioControl × Option String :=
  let disarmed := { control with autosaveSource := false }
  if control.proxy = none then (disarmed.queueAutosave, none)
  else if control.submittingConfig then (disarmed.queueAutosave, none)
  else if control.committedConfigText = some control.configBuffer then (disarmed, none)
  else ({ disarmed with submittingConfig := true }, some control.configBuffer)

/-- The reply to the submission has arrived. -/
def setConfigTextFinished (control : TypioControl) (succeeded : Bool) : TypioControl :=
  let returned := { control with submittingConfig := false }
  if succeeded then returned.refreshFromProxy else returned.queueAutosave

/-- The cached property changed. -/
def proxyPropertiesChanged (control : TypioControl) (configText : String) : TypioControl :=
  { control with proxy := some configText }.refreshFromProxy

def nameAppeared (control : TypioControl) (configText : String) : TypioControl :=
  let refreshed := control.proxyPropertiesChanged configText
  if refreshed.hasPendingConfigChange then refreshed.queueAutosave else refreshed

def nameVanished (control : TypioControl) : TypioControl :=
  { control with proxy := none }.refreshFromProxy

end TypioControl

/-! ## The panel and the daemon -/

/-- A call of `SetConfigText` on its way. -/
structure Submission where
  text : String
  /-- The newest edit its text carries. -/
  edit : Nat
  /-- Whether the call succeeded, once the daemon has answered it. -/
  reply : Option Bool
  deriving DecidableEq

/-- A call that still waits fails with the service. -/
def Submission.abandon (call : Submission) : Submission :=
  if call.reply = none then { call with reply := some false } else call

/-- The panel, the daemon, and what is under way between them. -/
structure Session where
  control : TypioControl
  /-- The text the daemon has committed. -/
  daemon : String
  call : Option Submission
  /-- The values of `ConfigText` the daemon has announced and the panel has not heard of yet. -/
  updates : List String
  /-- How many edits were staged, and the newest edits submitted and submitted successfully. -/
  edits : Nat
  submitted : Nat
  confirmed : Nat
  deriving DecidableEq

/-- What happens in a session, in any order. -/
inductive ControlEvent where
  | edit (rendered : Rendered)
  | autosaveTimeout
  /-- The daemon answers the call: the text it commits for it, or a failure. -/
  | setConfigText (result : Option String)
  | setConfigTextFinished
  /-- The daemon commits a text for another reason. -/
  | daemonCommits (text : String)
  | proxyPropertiesChanged
  /-- Another property changed, or another call returned. -/
  | refreshFromProxy
  | nameVanished
  | nameAppeared

namespace Session

def activate (daemon : String) : Session where
  control := .activate
  daemon := daemon
  call := none
  updates := []
  edits := 0
  submitted := 0
  confirmed := 0

/-- The daemon commits a text, and announces it to a panel that listens. -/
def commit (session : Session) (text : String) : Session :=
  { session with
    daemon := text
    updates :=
      if session.control.proxy.isSome then session.updates ++ [text] else session.updates }

def stageFormChange (session : Session) (rendered : Rendered) : Session :=
  { session with
    control := session.control.stageFormChange rendered
    edits := if session.control.configSeeded then session.edits + 1 else session.edits }

/-- An armed timer fires; its call, if it makes one, carries the newest edit. -/
def autosaveTimeout (session : Session) : Session :=
  if session.control.autosaveSource then
    let fired := session.control.autosaveTimeout
    match fired.2 with
    | none => { session with control := fired.1 }
    | some text =>
        { session with
          control := fired.1
          call := some ⟨text, session.edits, none⟩
          submitted := session.edits }
  else session

/-- The daemon answers a call that still waits for it. -/
def setConfigText (session : Session) (result : Option String) : Session :=
  match session.call with
  | some ⟨text, edit, none⟩ =>
      match result with
      | some committed =>
          { session.commit committed with
            call := some ⟨text, edit, some true⟩
            confirmed := edit }
      | none => { session with call := some ⟨text, edit, some false⟩ }
  | _ => session

def setConfigTextFinished (session : Session) : Session :=
  match session.call with
  | some ⟨_, _, some succeeded⟩ =>
      { session with
        control := session.control.setConfigTextFinished succeeded
        call := none }
  | _ => session

def proxyPropertiesChanged (session : Session) : Session :=
  match session.updates with
  | [] => session
  | configText :: updates =>
      { session with
        control := session.control.proxyPropertiesChanged configText
        updates := updates }

def nameVanished (session : Session) : Session :=
  { session with
    control := session.control.nameVanished
    call := session.call.map Submission.abandon
    updates := [] }

/-- The new proxy is made with the properties as the daemon has them. -/
def nameAppeared (session : Session) : Session :=
  if session.control.proxy = none then
    { session with control := session.control.nameAppeared session.daemon }
  else session

def step (session : Session) : ControlEvent → Session
  | .edit rendered => session.stageFormChange rendered
  | .autosaveTimeout => session.autosaveTimeout
  | .setConfigText result => session.setConfigText result
  | .setConfigTextFinished => session.setConfigTextFinished
  | .daemonCommits text => session.commit text
  | .proxyPropertiesChanged => session.proxyPropertiesChanged
  | .refreshFromProxy => { session with control := session.control.refreshFromProxy }
  | .nameVanished => session.nameVanished
  | .nameAppeared => session.nameAppeared

end Session

end Control

end Typio
