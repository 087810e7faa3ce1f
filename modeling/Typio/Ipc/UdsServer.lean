import Mathlib.Algebra.Group.Nat.Defs
import Mathlib.Data.Fintype.Basic
import Typio.Framing
import Typio.Machine

/-!
# The Unix domain socket server

The server multiplexes sixteen client slots.  A readable client has its bytes appended to a fixed
read buffer, from which complete frames are handed to the request handler; the handler may
broadcast notifications before its response is enqueued, and each enqueue may close the client.
Every slot carries the history of its connection, which the server itself never reads.
-/

namespace Typio

namespace Uds

abbrev Bytes := List UInt8

def maxClients : Nat := 16

def readBufSize : Nat := 8192

def writeBufSize : Nat := 65536

def maxFrame : Nat := 2 ^ 20

/-! ## Wire format -/

/-- The length in network byte order. -/
def lengthHeader (length : Nat) : Bytes :=
  [UInt8.ofNat (length / 2 ^ 24), UInt8.ofNat (length / 2 ^ 16), UInt8.ofNat (length / 2 ^ 8),
    UInt8.ofNat length]

/-- The length that the first four bytes declare. -/
def declaredLength : Bytes → Nat
  | b0 :: b1 :: b2 :: b3 :: _ =>
      b0.toNat * 2 ^ 24 + b1.toNat * 2 ^ 16 + b2.toNat * 2 ^ 8 + b3.toNat
  | _ => 0

theorem declaredLength_lengthHeader (length : Nat) (rest : Bytes) (bounded : length < 2 ^ 32) :
    declaredLength (lengthHeader length ++ rest) = length := by
  simp only [lengthHeader, List.cons_append, List.nil_append, declaredLength, UInt8.toNat_ofNat']
  omega

theorem declaredLength_take (bytes : Bytes) :
    declaredLength (bytes.take 4) = declaredLength bytes := by
  match bytes with
  | [] | [_] | [_, _] | [_, _, _] => rfl
  | _ :: _ :: _ :: _ :: _ => simp [declaredLength]

/-- Four bytes of length, then the payload. -/
def wireFormat : FrameFormat UInt8 where
  width := 4
  bound := 2 ^ 32 - 1
  header := lengthHeader
  declared := declaredLength
  length_header _ := rfl
  declared_header length rest bounded := declaredLength_lengthHeader length rest (by omega)
  declared_take := declaredLength_take

/-! ## Connections -/

/-- How a `send` ends: with at most so many bytes taken, would block, or fails. -/
inductive SendOutcome where
  | sent (count : Nat)
  | wouldBlock
  | error
  deriving DecidableEq, Repr

/-- How a `recv` ends: with at most so many bytes, would block, or fails. -/
inductive RecvOutcome where
  | arrived (count : Nat)
  | wouldBlock
  | error
  deriving DecidableEq, Repr

/-- The peer's side of a connection. -/
structure Socket where
  /-- All that the peer sends. -/
  stream : Bytes
  /-- How the sends to the peer end, in order; those beyond the list block. -/
  sends : List SendOutcome
  deriving DecidableEq, Repr

/-- Why a client is closed. -/
inductive Closing where
  | hangUp
  | readError
  /-- `recv` returned zero when asked for so many bytes. -/
  | emptyRead (asked : Nat)
  | oversizedFrame (declared : Nat)
  | writeError
  /-- So many bytes were unsent when so many bytes of a frame were still to be stored. -/
  | overflow (unsent following : Nat)
  deriving DecidableEq, Repr

/-- What the frame loop reads when it moves the rest of the buffer to the front. -/
structure Compaction where
  isOpen : Bool
  consumed : Nat
  rlen : Nat
  deriving DecidableEq, Repr

/-- What has happened on a connection. -/
structure History where
  received : Bytes
  requests : List Bytes
  frames : List Bytes
  delivered : Bytes
  compactions : List Compaction
  closing : Option Closing
  deriving DecidableEq, Repr

def History.empty : History := ⟨[], [], [], [], [], none⟩

/-- A client slot; the buffers hold their valid bytes only, `rlen` and `wlen` of them. -/
structure Client where
  /-- The descriptor, or none for a free slot. -/
  fd : Option Nat
  closed : Bool
  rbuf : Bytes
  haveLen : Bool
  frameLen : Nat
  wbuf : Bytes
  wpos : Nat
  socket : Socket
  history : History
  deriving DecidableEq, Repr

namespace Client

def rlen (c : Client) : Nat := c.rbuf.length

def wlen (c : Client) : Nat := c.wbuf.length

/-- The bytes stored but not sent. -/
def unsent (c : Client) : Bytes := c.wbuf.drop c.wpos

/-- A slot that was never used. -/
def free : Client where
  fd := none
  closed := false
  rbuf := []
  haveLen := false
  frameLen := 0
  wbuf := []
  wpos := 0
  socket := ⟨[], []⟩
  history := .empty

/-- Take the slot for an accepted connection; `frame_len` keeps its old value. -/
def accept (c : Client) (fd : Nat) (socket : Socket) : Client :=
  { c with
    fd := some fd
    closed := false
    rbuf := []
    haveLen := false
    wbuf := []
    wpos := 0
    socket
    history := .empty }

def closeClient (c : Client) (reason : Closing) : Client :=
  if c.fd.isNone then c
  else
    { c with
      fd := none
      closed := true
      rbuf := []
      haveLen := false
      frameLen := 0
      wbuf := []
      wpos := 0
      history := { c.history with closing := some reason } }

/-- The client receives broadcasts. -/
def listens (c : Client) : Bool := c.fd.isSome && !c.closed

/-! ### Writing -/

/-- The peer takes `count` bytes; a drained buffer starts again at its front. -/
def sendTaken (c : Client) (count : Nat) : Client :=
  let taken := min count (c.wlen - c.wpos)
  let c := { c with
    wpos := c.wpos + taken
    history := { c.history with delivered := c.history.delivered ++ c.unsent.take taken } }
  if c.wlen ≤ c.wpos then { c with wpos := 0, wbuf := [] } else c

def clientWrite (c : Client) : Bool × Client :=
  if c.wlen ≤ c.wpos then (true, c)
  else if c.fd.isNone then
    -- `send` fails on the descriptor of a closed client, which is not closed again
    (false, c)
  else
    match c.socket.sends with
    | [] => (true, c)
    | outcome :: later =>
        let c := { c with socket := { c.socket with sends := later } }
        match outcome with
        | .wouldBlock => (true, c)
        | .error => (false, c.closeClient .writeError)
        | .sent count => (true, c.sendTaken count)

/-- Store bytes behind those in the write buffer; `following` counts them and the bytes of the
same frame that are to be stored after them. -/
def clientEnqueue (c : Client) (data : Bytes) (following : Nat) : Bool × Client :=
  if writeBufSize < c.wlen + data.length then
    (false, c.closeClient (.overflow c.unsent.length following))
  else
    { c with wbuf := c.wbuf ++ data }.clientWrite

def noteFrame (c : Client) (json : Bytes) : Client :=
  { c with history := { c.history with frames := c.history.frames ++ [json] } }

/-- Store the length of a frame, which is noted in the history. -/
def enqueueHeader (c : Client) (json : Bytes) : Bool × Client :=
  (c.noteFrame json).clientEnqueue (lengthHeader json.length) (4 + json.length)

def clientSendFrame (c : Client) (json : Bytes) : Bool × Client :=
  if maxFrame < json.length then (false, c)
  else
    let header := c.enqueueHeader json
    if header.1 then header.2.clientEnqueue json json.length else header

/-! ### Reading -/

/-- What the frame loop finds at the front of the read buffer. -/
inductive Scan where
  | wait (c : Client)
  | oversized (c : Client)
  | frame (c : Client)

/-- Whether the declared payload has arrived. -/
def scanPayload (c : Client) : Scan :=
  if c.rlen < 4 + c.frameLen then .wait c else .frame c

def scan (c : Client) : Scan :=
  if c.rlen = 0 then .wait c
  else if c.haveLen then c.scanPayload
  else if c.rlen < 4 then .wait c
  else
    let c := { c with frameLen := declaredLength c.rbuf }
    if maxFrame < c.frameLen then .oversized c else { c with haveLen := true }.scanPayload

/-- The payload of the frame at the front. -/
def request (c : Client) : Bytes := (c.rbuf.drop 4).take c.frameLen

def noteRequest (c : Client) (payload : Bytes) : Client :=
  { c with history := { c.history with requests := c.history.requests ++ [payload] } }

/-- The number of bytes the frame loop takes off the buffer after a frame was handled. -/
def consumed (c : Client) : Nat := 4 + c.frameLen

def noteCompaction (c : Client) : Client :=
  { c with
    history := { c.history with
      compactions := c.history.compactions ++ [⟨c.fd.isSome, c.consumed, c.rlen⟩] } }

/-- Move the bytes behind the frame to the front. -/
def compact (c : Client) : Client :=
  { c with rbuf := c.rbuf.drop c.consumed, haveLen := false, frameLen := 0 }

/-- Append what `recv` returned. -/
def receive (c : Client) (bytes : Bytes) : Client :=
  { c with
    rbuf := c.rbuf ++ bytes
    history := { c.history with received := c.history.received ++ bytes } }

/-- The bytes `recv` returns when `count` of them have arrived. -/
def arriving (c : Client) (count : Nat) : Bytes :=
  (c.socket.stream.drop c.history.received.length).take (min count (readBufSize - c.rlen))

end Client

/-! ## The server -/

/-- What a request handler does: its new state, the notifications it broadcasts, and its response. -/
structure Handling (σ : Type) where
  userData : σ
  notifications : List Bytes
  response : Option Bytes

/-- A request handler, called with the payload and its terminator. -/
abbrev Handler (σ : Type) := σ → Bytes → Handling σ

structure UdsServer (σ : Type) where
  clients : Fin maxClients → Client
  userData : σ
  /-- A memory move out of the bounds of a buffer has ended the process. -/
  crashed : Bool

namespace UdsServer

variable {σ : Type}

def new (userData : σ) : UdsServer σ := ⟨fun _ => .free, userData, false⟩

def updateClient (srv : UdsServer σ) (i : Fin maxClients) (f : Client → Client) : UdsServer σ :=
  { srv with clients := Function.update srv.clients i (f (srv.clients i)) }

def findFreeClient (srv : UdsServer σ) : Option (Fin maxClients) :=
  (List.finRange maxClients).find? fun i => (srv.clients i).fd.isNone

def findClient (srv : UdsServer σ) (fd : Nat) : Option (Fin maxClients) :=
  (List.finRange maxClients).find? fun i => (srv.clients i).fd == some fd

/-- A notification goes to the connected clients. -/
def notify (c : Client) (json : Bytes) : Client :=
  if c.listens then (c.clientSendFrame json).2 else c

def broadcast (srv : UdsServer σ) (json : Bytes) : UdsServer σ :=
  { srv with clients := fun i => notify (srv.clients i) json }

def respond (srv : UdsServer σ) (i : Fin maxClients) : Option Bytes → UdsServer σ
  | none => srv
  | some response => srv.updateClient i fun c => (c.clientSendFrame response).2

/-- Hand the frame at the front of the client's buffer to the handler and send its response. -/
def handleFrame (handler : Handler σ) (i : Fin maxClients) (srv : UdsServer σ) : UdsServer σ :=
  let payload := (srv.clients i).request
  let handling := handler srv.userData (payload ++ [0])
  let srv := { srv.updateClient i (·.noteRequest payload) with userData := handling.userData }
  (handling.notifications.foldl broadcast srv).respond i handling.response

/-- Take the handled frame off the buffer; a length that wraps around moves memory out of bounds. -/
def compactClient (i : Fin maxClients) (srv : UdsServer σ) : UdsServer σ :=
  let srv := srv.updateClient i Client.noteCompaction
  if (srv.clients i).rlen < (srv.clients i).consumed then { srv with crashed := true }
  else srv.updateClient i Client.compact

/-- Extract the complete frames; each takes at least four of the `fuel` bytes in the buffer. -/
def frameLoop (handler : Handler σ) (i : Fin maxClients) : Nat → UdsServer σ → UdsServer σ
  | 0, srv => srv
  | fuel + 1, srv =>
      match (srv.clients i).scan with
      | .wait c => srv.updateClient i fun _ => c
      | .oversized c => srv.updateClient i fun _ => c.closeClient (.oversizedFrame c.frameLen)
      | .frame c =>
          let srv := ((srv.updateClient i fun _ => c).handleFrame handler i).compactClient i
          if srv.crashed then srv else frameLoop handler i fuel srv

def clientProcessRead (handler : Handler σ) (i : Fin maxClients) (outcome : RecvOutcome)
    (srv : UdsServer σ) : UdsServer σ :=
  match outcome with
  | .wouldBlock => srv
  | .error => srv.updateClient i (·.closeClient .readError)
  | .arrived count =>
      let c := srv.clients i
      let bytes := c.arriving count
      if bytes = [] then srv.updateClient i (·.closeClient (.emptyRead (readBufSize - c.rlen)))
      else
        let srv := srv.updateClient i (·.receive bytes)
        srv.frameLoop handler i (srv.clients i).rlen

/-- Try to drain pending writes. -/
def drainClient (c : Client) : Client :=
  if c.fd.isSome && decide (c.wpos < c.wlen) then c.clientWrite.2 else c

/-! ## Events -/

/-- What happens to the server. -/
inductive Event where
  | accept (fd : Nat) (socket : Socket)
  | hangUp (fd : Nat)
  | readable (fd : Nat) (outcome : RecvOutcome)
  | broadcast (json : Bytes)
  deriving DecidableEq, Repr

def handle (handler : Handler σ) (srv : UdsServer σ) : Event → UdsServer σ
  | .accept fd socket =>
      match srv.findFreeClient with
      | none => srv
      | some i => srv.updateClient i (·.accept fd socket)
  | .hangUp fd =>
      match srv.findClient fd with
      | none => srv
      | some i => srv.updateClient i (·.closeClient .hangUp)
  | .readable fd outcome =>
      match srv.findClient fd with
      | none => srv
      | some i =>
          let srv := srv.clientProcessRead handler i outcome
          if srv.crashed then srv else srv.updateClient i drainClient
  | .broadcast json => srv.broadcast json

/-- One event; a crashed server takes none. -/
def step (handler : Handler σ) (srv : UdsServer σ) (event : Event) : UdsServer σ :=
  if srv.crashed then srv else srv.handle handler event

@[simp] theorem updateClient_same (srv : UdsServer σ) (i : Fin maxClients)
    (f : Client → Client) : (srv.updateClient i f).clients i = f (srv.clients i) := by
  simp [updateClient]

theorem updateClient_other (srv : UdsServer σ) {i j : Fin maxClients} (other : j ≠ i)
    (f : Client → Client) : (srv.updateClient i f).clients j = srv.clients j := by
  simp [updateClient, other]

@[simp] theorem updateClient_crashed (srv : UdsServer σ) (i : Fin maxClients)
    (f : Client → Client) : (srv.updateClient i f).crashed = srv.crashed := rfl

@[simp] theorem updateClient_userData (srv : UdsServer σ) (i : Fin maxClients)
    (f : Client → Client) : (srv.updateClient i f).userData = srv.userData := rfl

/-- The client found is the one with the descriptor. -/
theorem fd_of_findClient {srv : UdsServer σ} {fd : Nat} {i : Fin maxClients}
    (found : srv.findClient fd = some i) : (srv.clients i).fd = some fd := by
  simpa using List.find?_some found

end UdsServer

end Uds

end Typio
