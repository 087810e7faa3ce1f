import Typio.Engines.InputContext

/-!
# The Mozc engine

The engine is a client of `mozc_server`.  It keeps one session for each context, as a property of
the context, with the mode of the last output that was read.  Every call to the server ends with an
output which arrives or is lost; what the server answers is an input of each call into the engine.

The text the server produced for the context and the composition of its last output are kept for
the statements.
-/

namespace Typio

namespace Engines

open Typio.Core

/-! ## The protocol -/

/-- `CompositionMode`. -/
inductive MozcMode where
  | direct
  | hiragana
  | fullKatakana
  | halfAscii
  | fullAscii
  | halfKatakana
  deriving DecidableEq, Repr

/-- `KeyEvent::SpecialKey`, as far as the engine sends them. -/
inductive MozcSpecialKey where
  | on | space | enter | backspace | del | escape | tab | left | right | up | down | home | finish
  | pageUp | pageDown | f1 | f2 | f3 | f4 | f5 | f6 | f7 | f8 | f9 | f10 | f11 | f12
  | muhenkan | henkan | kana | hankaku
  deriving DecidableEq, Repr

structure MozcKeyEvent where
  specialKey : Option MozcSpecialKey
  keyCode : Option Keysym
  shift : Bool
  ctrl : Bool
  alt : Bool
  keyUp : Bool
  deriving DecidableEq, Repr

structure MozcSegment where
  value : CString
  highlight : Bool
  deriving DecidableEq, Repr

structure MozcPreedit where
  segments : List MozcSegment
  cursor : Option Int
  deriving DecidableEq, Repr

/-- A word of the candidate window, with the two fields of its annotation. -/
structure MozcCandidateWord where
  value : CString
  index : Option Int
  description : Option CString
  shortcut : Option CString
  deriving DecidableEq, Repr

structure MozcCandidateWindow where
  candidates : List MozcCandidateWord
  pageSize : Option Int
  size : Option Int
  focusedIndex : Option Int
  deriving DecidableEq, Repr

structure MozcResult where
  string : Bool
  value : CString
  deriving DecidableEq, Repr

/-- `Output`. -/
structure MozcOutput where
  consumed : Bool
  result : Option MozcResult
  preedit : Option MozcPreedit
  candidateWindow : Option MozcCandidateWindow
  mode : Option MozcMode
  statusMode : Option MozcMode
  deriving DecidableEq, Repr

/-- What the server answers to a request, and whether the answer arrives. -/
structure MozcReply where
  output : MozcOutput
  received : Bool
  deriving DecidableEq, Repr

/-- The answers of the server during one call into the engine. -/
structure MozcConduct where
  /-- `CREATE_SESSION`. -/
  created : Bool
  /-- `SEND_KEY` of the key `ON`, for a session which was just created. -/
  activated : MozcReply
  /-- `SEND_KEY` of the key `ON`, for a session in an ASCII mode. -/
  reactivated : MozcReply
  /-- `SEND_KEY`. -/
  key : MozcKeyEvent → MozcReply
  /-- `SEND_COMMAND`. -/
  command : MozcReply

/-! ## The engine -/

structure MozcSession where
  mode : MozcMode
  deriving DecidableEq, Repr

/-- What the engine reaches in a call: the context and the session in it, and the mode of the
instance. -/
structure MozcHost where
  context : InputContext
  session : Option MozcSession
  lastMode : Option EngineMode
  produced : CString
  server : TypioComposition
  deriving DecidableEq, Repr

namespace MozcMode

/-- `mozc_mode_is_ascii`. -/
def isAscii : MozcMode → Bool
  | direct | halfAscii | fullAscii => true
  | hiragana | fullKatakana | halfKatakana => false

/-- `mozc_mode_for_composition`. -/
def engineMode : MozcMode → EngineMode
  | direct =>
      { modeClass := .latin, modeId := some "direct", displayLabel := some "A",
        iconName := some "typio-mozc-direct" }
  | halfAscii =>
      { modeClass := .latin, modeId := some "half_ascii", displayLabel := some "A",
        iconName := some "typio-mozc-half-ascii" }
  | fullAscii =>
      { modeClass := .latin, modeId := some "full_ascii", displayLabel := some "Ａ",
        iconName := some "typio-mozc-full-ascii" }
  | fullKatakana =>
      { modeClass := .native, modeId := some "katakana", displayLabel := some "ア",
        iconName := some "typio-mozc-katakana" }
  | halfKatakana =>
      { modeClass := .native, modeId := some "half_katakana", displayLabel := some "ｱ",
        iconName := some "typio-mozc-half-katakana" }
  | hiragana =>
      { modeClass := .native, modeId := some "hiragana", displayLabel := some "あ",
        iconName := some "typio-mozc" }

/-- `mozc_parse_mode_id`. -/
def ofId (modeId : String) : Option MozcMode :=
  if modeId = "hiragana" then some hiragana
  else if modeId = "katakana" then some fullKatakana
  else if modeId = "half_katakana" then some halfKatakana
  else if modeId = "direct" then some direct
  else if modeId = "half_ascii" then some halfAscii
  else if modeId = "full_ascii" then some fullAscii
  else none

end MozcMode

/-! ### Keys -/

/-- `mozc_map_special_key`. -/
def mozcMapSpecialKey (keysym : Keysym) : Option MozcSpecialKey :=
  match keysym with
  | 0x0020 => some .space
  | 0xff0d => some .enter
  | 0xff8d => some .enter
  | 0xff08 => some .backspace
  | 0xffff => some .del
  | 0xff1b => some .escape
  | 0xff09 => some .tab
  | 0xff51 => some .left
  | 0xff53 => some .right
  | 0xff52 => some .up
  | 0xff54 => some .down
  | 0xff50 => some .home
  | 0xff57 => some .finish
  | 0xff55 => some .pageUp
  | 0xff56 => some .pageDown
  | 0xffbe => some .f1
  | 0xffbf => some .f2
  | 0xffc0 => some .f3
  | 0xffc1 => some .f4
  | 0xffc2 => some .f5
  | 0xffc3 => some .f6
  | 0xffc4 => some .f7
  | 0xffc5 => some .f8
  | 0xffc6 => some .f9
  | 0xffc7 => some .f10
  | 0xffc8 => some .f11
  | 0xffc9 => some .f12
  | 0xff22 => some .muhenkan
  | 0xff23 => some .henkan
  | 0xff24 => some .henkan
  | 0xff25 => some .kana
  | 0xff27 => some .kana
  | 0xff2a => some .hankaku
  | 0xff30 => some .on
  | 0xff31 => some .kana
  | _ => none

/-- `mozc_build_key_event`; a key without content is not sent. -/
def TypioKeyEvent.mozcKey (event : TypioKeyEvent) : Option MozcKeyEvent :=
  let special := mozcMapSpecialKey event.keysym
  let printable := special.isNone && 0x20 ≤ event.keysym && event.keysym ≤ 0x7e
  if special.isSome || printable || event.isModifierOnly then
    some
      { specialKey := special
        keyCode := if printable then some event.keysym else none
        shift := event.modifiers &&& .shift ≠ 0
        ctrl := event.modifiers &&& .ctrl ≠ 0
        alt := event.modifiers &&& .alt ≠ 0
        keyUp := event.isRelease }
  else none

/-! ### Outputs -/

namespace MozcCandidateWindow

variable (window : MozcCandidateWindow)

/-- `MOZC_DEFAULT_PAGE_SIZE`. -/
def defaultPageSize : Int := 9

def shownPageSize : Int := window.pageSize.getD defaultPageSize

def total : Int := window.size.getD window.candidates.length

def firstIndex : Int := (window.candidates.head?.bind MozcCandidateWord.index).getD 0

def label (index : Nat) (word : MozcCandidateWord) : CString :=
  match word.shortcut with
  | some shortcut => shortcut
  | none => decimal ((index : Int).tmod window.shownPageSize + 1).toNat

def list : TypioCandidateList :=
  if window.candidates.isEmpty then .empty
  else
    { candidates := window.candidates.mapIdx fun index word =>
        { text := word.value, comment := word.description, label := window.label index word }
      page := if 0 < window.shownPageSize then window.firstIndex.tdiv window.shownPageSize else 0
      pageSize := window.shownPageSize
      total := window.total
      selected :=
        match window.focusedIndex with
        | some focused => if 0 ≤ focused then focused - window.firstIndex else -1
        | none => -1
      hasPrev := 0 < window.firstIndex
      hasNext := window.firstIndex + window.candidates.length < window.total }

end MozcCandidateWindow

namespace MozcOutput

variable (output : MozcOutput)

/-- The text to commit. -/
def text : CString :=
  match output.result with
  | some result => if result.string then result.value else []
  | none => []

def segments : List TypioPreeditSegment :=
  (output.preedit.elim [] MozcPreedit.segments).map fun segment =>
    { text := segment.value, format := if segment.highlight then .highlight else .underline }

/-- The composition `mozc_sync_output` builds. -/
def composition : TypioComposition where
  segments := output.segments
  cursorPos := if output.segments.isEmpty then 0 else (output.preedit.bind MozcPreedit.cursor).getD 0
  candidates := output.candidateWindow.elim .empty MozcCandidateWindow.list

end MozcOutput

namespace MozcSession

/-- `mozc_update_session_mode`. -/
def update (session : MozcSession) (output : MozcOutput) : MozcSession where
  mode := (output.mode.or output.statusMode).getD session.mode

@[simp] theorem update_update (session : MozcSession) (output : MozcOutput) :
    (session.update output).update output = session.update output := by
  unfold update
  cases output.mode.or output.statusMode <;> rfl

end MozcSession

namespace MozcHost

variable (host : MozcHost)

/-- The server answers a request. -/
def called (reply : MozcReply) : MozcHost :=
  { host with
    produced := host.produced ++ reply.output.text
    server := reply.output.composition }

/-- `mozc_clear_state`. -/
def clearState : MozcHost := { host with context := host.context.clear }

/-- `mozc_sync_output`. -/
def syncOutput (output : MozcOutput) (session : MozcSession) : MozcHost × Bool :=
  let context := if output.text.isEmpty then host.context else host.context.commit output.text
  ({ host with
      context := context.sync output.composition
      session := some (session.update output) }, output.composition.active)

/-- `mozc_activate_session`. -/
def activateSession (session : MozcSession) (reply : MozcReply) : MozcHost × MozcSession :=
  let called := host.called reply
  if !reply.received then (called, session)
  else
    let session := session.update reply.output
    ((called.syncOutput reply.output session).1, session.update reply.output)

/-- `mozc_get_session`. -/
def getSession (conduct : MozcConduct) (create : Bool) : MozcHost × Option MozcSession :=
  match host.session with
  | some session => (host, some session)
  | none =>
      if !create then (host, none)
      else if !conduct.created then (host, none)
      else
        let session : MozcSession := { mode := .direct }
        let (activated, session) :=
          activateSession { host with session := some session } session conduct.activated
        (activated, some session)

/-- `mozc_focus_in`. -/
def focusIn (conduct : MozcConduct) : MozcHost :=
  match host.getSession conduct true with
  | (reached, none) => reached
  | (reached, some session) =>
      if session.mode.isAscii then (reached.activateSession session conduct.reactivated).1
      else reached

/-- `mozc_focus_out`; the answer to `REVERT` is not looked at. -/
def focusOut (conduct : MozcConduct) : MozcHost :=
  match host.getSession conduct false with
  | (reached, none) => reached
  | (reached, some _) => (reached.called conduct.command).clearState

/-- `mozc_reset`; the answer to `RESET_CONTEXT` is not looked at. -/
def reset (conduct : MozcConduct) : MozcHost :=
  match host.getSession conduct false with
  | (reached, none) => reached.clearState
  | (reached, some _) => (reached.called conduct.command).clearState

/-- A key which is pressed in an ASCII mode activates the session first. -/
def reactivates (event : TypioKeyEvent) (session : MozcSession) : Bool :=
  !event.isRelease && session.mode.isAscii && !event.isModifierOnly

/-- The rest of `mozc_process_key`, from `mozc_build_key_event` on. -/
def sendKey (event : TypioKeyEvent) (session : MozcSession) (conduct : MozcConduct) :
    MozcHost × TypioKeyProcessResult :=
  match event.mozcKey with
  | none => (host, .notHandled)
  | some key =>
      let reply := conduct.key key
      let called := host.called reply
      if !reply.received then (called, .notHandled)
      else if !reply.output.consumed then (called, .notHandled)
      else
        let (synced, composing) := called.syncOutput reply.output session
        (synced,
          if !reply.output.text.isEmpty then .committed
          else if composing then .composing else .handled)

/-- `mozc_process_key`. -/
def processKey (event : TypioKeyEvent) (conduct : MozcConduct) :
    MozcHost × TypioKeyProcessResult :=
  if !event.isRelease && event.isEscape && host.context.composition.active then
    (host.reset conduct, .handled)
  else
    match host.getSession conduct true with
    | (reached, none) => (reached, .notHandled)
    | (reached, some session) =>
        if reactivates event session then
          let (activated, session) := reached.activateSession session conduct.reactivated
          activated.sendKey event session conduct
        else reached.sendKey event session conduct

/-- `mozc_get_mode`. -/
def getMode : EngineMode :=
  match host.session with
  | none => MozcMode.engineMode .hiragana
  | some session => session.mode.engineMode

/-- `mozc_set_mode`. -/
def setMode (modeId : String) (conduct : MozcConduct) : MozcHost × TypioResult :=
  if modeId = "" then (host, .invalidArgument)
  else
    match MozcMode.ofId modeId with
    | none => (host, .notFound)
    | some _ =>
        match host.session with
        | none => (host, .notInitialized)
        | some session =>
            let called := host.called conduct.command
            if !conduct.command.received then (called, .error)
            else
              let session := session.update conduct.command.output
              let synced := (called.syncOutput conduct.command.output session).1
              let session := session.update conduct.command.output
              ({ synced with
                  lastMode := notifyMode synced.lastMode session.mode.engineMode }, .ok)

end MozcHost

end Engines

end Typio
