import Typio.Engines.InputContext

/-!
# The basic engine

Printable keys are committed as they are, or, when compose sequences are enabled, go through a
two-key state machine first.  A sequence is looked up by one packed word.
-/

namespace Typio

namespace Engines

/-! ## Compose sequences -/

/-- `COMPOSE_KEY`. -/
def composeKey (first second : UInt32) : UInt32 := (first <<< 16) ||| second

structure ComposeRule where
  key : UInt32
  result : UInt32
  deriving DecidableEq

/-- The pairs of `rules` with their results. -/
def composePairs : List (Char × Char × UInt32) := [
  -- Acute accent
    ('\x27', 'A', 0x00C1), ('\x27', 'C', 0x0106), ('\x27', 'E', 0x00C9), ('\x27', 'G', 0x01F4),
    ('\x27', 'I', 0x00CD), ('\x27', 'L', 0x0139), ('\x27', 'N', 0x0143), ('\x27', 'O', 0x00D3),
    ('\x27', 'R', 0x0154), ('\x27', 'S', 0x015A), ('\x27', 'U', 0x00DA), ('\x27', 'Y', 0x00DD),
    ('\x27', 'Z', 0x0179), ('\x27', 'a', 0x00E1), ('\x27', 'c', 0x0107), ('\x27', 'e', 0x00E9),
    ('\x27', 'g', 0x01F5), ('\x27', 'i', 0x00ED), ('\x27', 'k', 0x1E31), ('\x27', 'l', 0x013A),
    ('\x27', 'm', 0x1E3F), ('\x27', 'n', 0x0144), ('\x27', 'o', 0x00F3), ('\x27', 'p', 0x1E55),
    ('\x27', 'r', 0x0155), ('\x27', 's', 0x015B), ('\x27', 'u', 0x00FA), ('\x27', 'y', 0x00FD),
    ('\x27', 'z', 0x017A),
  -- Grave accent
    ('\x60', 'A', 0x00C0), ('\x60', 'E', 0x00C8), ('\x60', 'I', 0x00CC), ('\x60', 'O', 0x00D2),
    ('\x60', 'U', 0x00D9), ('\x60', 'a', 0x00E0), ('\x60', 'e', 0x00E8), ('\x60', 'i', 0x00EC),
    ('\x60', 'o', 0x00F2), ('\x60', 'u', 0x00F9),
  -- Circumflex
    ('^', 'A', 0x00C2), ('^', 'E', 0x00CA), ('^', 'I', 0x00CE), ('^', 'O', 0x00D4),
    ('^', 'U', 0x00DB), ('^', 'a', 0x00E2), ('^', 'e', 0x00EA), ('^', 'i', 0x00EE),
    ('^', 'o', 0x00F4), ('^', 'u', 0x00FB),
  -- Diaeresis/umlaut
    ('\x22', 'A', 0x00C4), ('\x22', 'E', 0x00CB), ('\x22', 'I', 0x00CF), ('\x22', 'O', 0x00D6),
    ('\x22', 'U', 0x00DC), ('\x22', 'Y', 0x0178), ('\x22', 'a', 0x00E4), ('\x22', 'e', 0x00EB),
    ('\x22', 'i', 0x00EF), ('\x22', 'o', 0x00F6), ('\x22', 'u', 0x00FC), ('\x22', 'y', 0x00FF),
  -- Tilde
    ('~', 'A', 0x00C3), ('~', 'N', 0x00D1), ('~', 'O', 0x00D5), ('~', 'a', 0x00E3),
    ('~', 'n', 0x00F1), ('~', 'o', 0x00F5),
  -- Cedilla
    (',', 'C', 0x00C7), (',', 'c', 0x00E7),
  -- Slash
    ('/', 'L', 0x0141), ('/', 'O', 0x00D8), ('/', 'l', 0x0142), ('/', 'o', 0x00F8),
  -- Special punctuation
    ('?', '?', 0x00BF), ('!', '!', 0x00A1), ('<', '<', 0x00AB), ('>', '>', 0x00BB),
    ('\x27', '\x27', 0x0027), ('\x60', '\x60', 0x0060), ('\x22', '\x22', 0x0022),
    ('^', '^', 0x005E),
    ('~', '~', 0x007E), (',', ',', 0x002C), ('-', '-', 0x2013), ('-', '=', 0x2014),
    ('.', '.', 0x2026)
  ]

/-- `rules`. -/
def composeRules : List ComposeRule :=
  composePairs.map fun (first, second, result) => ⟨composeKey first.val second.val, result⟩

/-- `find_rule`. -/
def findRule (first second : UInt32) : Option ComposeRule :=
  composeRules.find? fun rule => rule.key == composeKey first second

/-- `can_start_compose`. -/
def canStartCompose (codepoint : UInt32) : Bool :=
  composeRules.any fun rule => rule.key >>> 16 == codepoint

/-- A continuation byte. -/
def continuation (bits : UInt32) : UInt8 := ((0x80 : UInt32) ||| (bits &&& 0x3F)).toUInt8

/-- `encode_utf8` and `basic_encode_utf8`; the result is empty beyond U+10FFFF. -/
def encodeUtf8 (codepoint : UInt32) : CString :=
  if codepoint ≤ 0x7F then [codepoint.toUInt8]
  else if codepoint ≤ 0x7FF then
    [((0xC0 : UInt32) ||| codepoint >>> 6).toUInt8, continuation codepoint]
  else if codepoint ≤ 0xFFFF then
    [((0xE0 : UInt32) ||| codepoint >>> 12).toUInt8, continuation (codepoint >>> 6),
      continuation codepoint]
  else if codepoint ≤ 0x10FFFF then
    [((0xF0 : UInt32) ||| codepoint >>> 18).toUInt8, continuation (codepoint >>> 12),
      continuation (codepoint >>> 6), continuation codepoint]
  else []

structure BasicCompose where
  active : Bool
  first : UInt32
  preedit : CString
  deriving DecidableEq

inductive BasicComposeResult where
  | none
  | consume
  | commit
  | cancel
  deriving DecidableEq

namespace BasicCompose

/-- `basic_compose_new`. -/
def new : BasicCompose where
  active := false
  first := 0
  preedit := []

/-- `basic_compose_process_key`, with the code points it writes out. -/
def processKey (state : BasicCompose) (codepoint : UInt32) :
    BasicComposeResult × List UInt32 × BasicCompose :=
  if state.active = false then
    if canStartCompose codepoint then
      (.consume, [], ⟨true, codepoint, encodeUtf8 codepoint⟩)
    else (.none, [], state)
  else
    match findRule state.first codepoint with
    | some rule => (.commit, [rule.result], { state with active := false })
    | none => (.cancel, [state.first], { state with active := false })

/-- `basic_compose_get_preedit`. -/
def getPreedit (state : BasicCompose) : Option CString :=
  if state.active then some state.preedit else none

/-- `basic_compose_cancel`. -/
def cancel (state : BasicCompose) : UInt32 × BasicCompose :=
  if state.active then (state.first, { state with active := false }) else (0, state)

/-- `basic_compose_reset`. -/
def reset (_ : BasicCompose) : BasicCompose := new

end BasicCompose

/-! ## The engine -/

/-- A key event with its code point. -/
structure UnicodeKeyEvent extends TypioKeyEvent where
  unicode : UInt32
  deriving DecidableEq

/-- `typio_key_event_get_unicode`. -/
def UnicodeKeyEvent.getUnicode (event : UnicodeKeyEvent) : UInt32 :=
  if event.unicode ≠ 0 then event.unicode
  else if 0x20 ≤ event.keysym && event.keysym ≤ 0x7e then event.keysym
  else 0

structure BasicEngineData where
  compose : BasicCompose
  composeEnabled : Bool
  deriving DecidableEq

/-- The engine's data and the input context it is given. -/
structure BasicHost where
  data : BasicEngineData
  context : InputContext
  deriving DecidableEq

namespace BasicHost

/-- The engine after `basic_init`. -/
def new (composeEnabled : Bool) (context : InputContext) : BasicHost where
  data := { compose := .new, composeEnabled }
  context := context

def setCompose (host : BasicHost) (compose : BasicCompose) : BasicHost :=
  { host with data := { host.data with compose } }

def clear (host : BasicHost) : BasicHost := { host with context := host.context.clear }

/-- `basic_commit_codepoint`. -/
def commitCodepoint (host : BasicHost) (codepoint : UInt32) : BasicHost :=
  if encodeUtf8 codepoint = [] then host
  else { host with context := host.context.commit (encodeUtf8 codepoint) }

/-- The loop over the code points written out. -/
def commitCodepoints (host : BasicHost) (codepoints : List UInt32) : BasicHost :=
  codepoints.foldl commitCodepoint host

/-- `basic_update_preedit`. -/
def updatePreedit (host : BasicHost) : BasicHost :=
  match host.data.compose.getPreedit with
  | some text =>
      let composition : TypioComposition :=
        { segments := [⟨text, .underline⟩], cursorPos := -1, candidates := .empty }
      { host with context := host.context.setComposition composition }
  | none => host.clear

/-- `basic_reset` and `basic_focus_out`. -/
def reset (host : BasicHost) : BasicHost :=
  let cleared := if host.data.compose.active then host.clear else host
  cleared.setCompose host.data.compose.reset

/-- `basic_process_key` for a printable key, with compose sequences enabled. -/
def composeKeyPress (host : BasicHost) (codepoint : UInt32) :
    TypioKeyProcessResult × BasicHost :=
  let (result, codepoints, compose) := host.data.compose.processKey codepoint
  let host := host.setCompose compose
  match result with
  | .none => (.committed, host.commitCodepoint codepoint)
  | .consume => (.composing, host.updatePreedit)
  | .commit => (.committed, host.clear.commitCodepoints codepoints)
  | .cancel => (.committed, (host.clear.commitCodepoints codepoints).commitCodepoint codepoint)

/-- `basic_process_key`. -/
def processKey (host : BasicHost) (event : UnicodeKeyEvent) :
    TypioKeyProcessResult × BasicHost :=
  if event.isRelease then (.notHandled, host)
  else if event.isModifierOnly || event.modifiers.hasBlocking then (.notHandled, host)
  else if host.data.compose.active && event.isEscape then
    (.handled, (host.setCompose host.data.compose.cancel.2).clear)
  else
    let codepoint := event.getUnicode
    if codepoint < 0x20 || codepoint == 0x7F then
      if host.data.compose.active then
        let (first, compose) := host.data.compose.cancel
        let host := (host.setCompose compose).clear
        if first ≠ 0 then (.committed, host.commitCodepoint first) else (.handled, host)
      else (.notHandled, host)
    else if host.data.composeEnabled = false then
      if encodeUtf8 codepoint = [] then (.notHandled, host)
      else (.committed, { host with context := host.context.commit (encodeUtf8 codepoint) })
    else host.composeKeyPress codepoint

end BasicHost

end Engines

end Typio
