import Mathlib.Logic.Relation
import Typio.Ipc.UdsServer

/-!
# What the server does to one connection

A step of the server touches a slot in one of a few ways: it sends frames to it, reads from it,
closes it or gives it to a new connection.  `ClientStep` lists them with all that they do to the
slot; a predicate on the frames sent is carried along, so that a condition on the sends of a step
can be used where the sends happen.
-/

namespace Typio

namespace Uds

open Relation

/-! ## Steps of a slot -/

/-- A frame which the predicate admits is sent to the client. -/
inductive Sent (allowed : Client → Bytes → Prop) : Client → Client → Prop where
  | frame {c : Client} {json : Bytes} (admitted : allowed c json) :
      Sent allowed c (c.clientSendFrame json).2

/-- Frames which the predicate admits are sent to the client. -/
abbrev Sends (allowed : Client → Bytes → Prop) : Client → Client → Prop :=
  ReflTransGen (Sent allowed)

/-- The frame loop runs for the client. -/
inductive Reading (allowed : Client → Bytes → Prop) : Client → Client → Prop where
  | empty {c : Client} (drained : c.rlen = 0) : Reading allowed c c
  | wait {c scanned : Client} (scan : c.scan = .wait scanned) : Reading allowed c scanned
  | oversized {c scanned : Client} (scan : c.scan = .oversized scanned) :
      Reading allowed c (scanned.closeClient (.oversizedFrame scanned.frameLen))
  | overran {c scanned served : Client} (scan : c.scan = .frame scanned)
      (sends : Sends allowed (scanned.noteRequest scanned.request) served)
      (overrun : served.rlen < served.consumed) : Reading allowed c served.noteCompaction
  | next {c scanned served after : Client} (scan : c.scan = .frame scanned)
      (sends : Sends allowed (scanned.noteRequest scanned.request) served)
      (fits : served.consumed ≤ served.rlen)
      (later : Reading allowed served.noteCompaction.compact after) : Reading allowed c after

/-- What a step of the server does to a slot; `hangs` and `reads` say whether the step may find it
hung up or read from it. -/
inductive ClientStep (hangs reads : Prop) (allowed : Client → Bytes → Prop) :
    Client → Client → Prop where
  | sends {c after : Client} (sends : Sends allowed c after) : ClientStep hangs reads allowed c after
  | accepted {c : Client} (fd : Nat) (socket : Socket) (unused : c.fd = none) :
      ClientStep hangs reads allowed c (c.accept fd socket)
  | hungUp {c : Client} (hanging : hangs) (connected : c.fd.isSome) :
      ClientStep hangs reads allowed c (c.closeClient .hangUp)
  | readFailed {c : Client} (connected : c.fd.isSome) :
      ClientStep hangs reads allowed c (c.closeClient .readError)
  | drained {c : Client} (connected : c.fd.isSome) :
      ClientStep hangs reads allowed c (UdsServer.drainClient c)
  | readNothing {c : Client} (reading : reads) (count : Nat) (connected : c.fd.isSome)
      (nothing : c.arriving count = []) :
      ClientStep hangs reads allowed c (c.closeClient (.emptyRead (readBufSize - c.rlen)))
  | read {c after : Client} (reading : reads) (count : Nat) (connected : c.fd.isSome)
      (something : c.arriving count ≠ [])
      (loop : Reading allowed (c.receive (c.arriving count)) after) :
      ClientStep hangs reads allowed c after
  | readDrained {c after : Client} (reading : reads) (count : Nat) (connected : c.fd.isSome)
      (something : c.arriving count ≠ [])
      (loop : Reading allowed (c.receive (c.arriving count)) after) :
      ClientStep hangs reads allowed c (UdsServer.drainClient after)

/-! ## What sending leaves alone -/

/-- The closing is due to a frame which could not be sent. -/
def Closing.ofSend : Closing → Bool
  | .writeError | .overflow _ _ => true
  | _ => false

/-- The part of a client which only reading changes, and whether it is open, are as before. -/
structure ReadSame (before after : Client) : Prop where
  fd : after.fd = before.fd
  rbuf : after.rbuf = before.rbuf
  haveLen : after.haveLen = before.haveLen
  frameLen : after.frameLen = before.frameLen
  closing : after.history.closing = before.history.closing

/-- An open client was closed because a frame could not be sent. -/
structure SendDropped (before after : Client) : Prop where
  connected : before.fd.isSome
  fd : after.fd = none
  rbuf : after.rbuf = []
  frameLen : after.frameLen = 0
  closing : ∃ reason, after.history.closing = some reason ∧ reason.ofSend = true

/-- Sending keeps the reading side, unless it closes the client. -/
structure SendKept (before after : Client) : Prop where
  stream : after.socket.stream = before.socket.stream
  received : after.history.received = before.history.received
  requests : after.history.requests = before.history.requests
  compactions : after.history.compactions = before.history.compactions
  reading : ReadSame before after ∨ SendDropped before after

namespace SendKept

variable {before middle after : Client}

theorem of_same (stream : after.socket.stream = before.socket.stream)
    (received : after.history.received = before.history.received)
    (requests : after.history.requests = before.history.requests)
    (compactions : after.history.compactions = before.history.compactions)
    (same : ReadSame before after) : SendKept before after :=
  ⟨stream, received, requests, compactions, .inl same⟩

theorem refl (c : Client) : SendKept c c := of_same rfl rfl rfl rfl ⟨rfl, rfl, rfl, rfl, rfl⟩

theorem trans (left : SendKept before middle) (right : SendKept middle after) :
    SendKept before after := by
  refine ⟨right.stream.trans left.stream, right.received.trans left.received,
    right.requests.trans left.requests, right.compactions.trans left.compactions, ?_⟩
  obtain same | dropped := left.reading
  · obtain later | drop := right.reading
    · exact .inl ⟨later.fd.trans same.fd, later.rbuf.trans same.rbuf,
        later.haveLen.trans same.haveLen, later.frameLen.trans same.frameLen,
        later.closing.trans same.closing⟩
    · exact .inr ⟨by rw [← same.fd]; exact drop.connected, drop.fd, drop.rbuf, drop.frameLen,
        drop.closing⟩
  · obtain later | drop := right.reading
    · exact .inr ⟨dropped.connected, later.fd.trans dropped.fd, later.rbuf.trans dropped.rbuf,
        later.frameLen.trans dropped.frameLen, by rw [later.closing]; exact dropped.closing⟩
    · -- a closed client is not closed again
      have closed := drop.connected
      simp [dropped.fd] at closed

theorem closeClient (c : Client) {reason : Closing} (sends : reason.ofSend = true) :
    SendKept c (c.closeClient reason) := by
  unfold Client.closeClient
  split
  case isTrue => exact refl c
  case isFalse connected =>
    exact ⟨rfl, rfl, rfl, rfl, .inr ⟨by simpa [Option.isSome_iff_ne_none] using connected,
      rfl, rfl, rfl, reason, rfl, sends⟩⟩

theorem sendTaken (c : Client) (count : Nat) : SendKept c (c.sendTaken count) := by
  unfold Client.sendTaken
  dsimp only
  split <;> exact of_same rfl rfl rfl rfl ⟨rfl, rfl, rfl, rfl, rfl⟩

theorem clientWrite (c : Client) : SendKept c c.clientWrite.2 := by
  unfold Client.clientWrite
  split
  · exact refl c
  split
  · exact refl c
  cases c.socket.sends with
  | nil => exact refl c
  | cons outcome later =>
      have popped : SendKept c { c with socket := { c.socket with sends := later } } :=
        of_same rfl rfl rfl rfl ⟨rfl, rfl, rfl, rfl, rfl⟩
      cases outcome with
      | wouldBlock => exact popped
      | error => exact popped.trans (closeClient _ rfl)
      | sent count => exact popped.trans (sendTaken _ count)

theorem clientEnqueue (c : Client) (data : Bytes) (following : Nat) :
    SendKept c (c.clientEnqueue data following).2 := by
  unfold Client.clientEnqueue
  split
  · exact closeClient c rfl
  · have stored : SendKept c { c with wbuf := c.wbuf ++ data } :=
      of_same rfl rfl rfl rfl ⟨rfl, rfl, rfl, rfl, rfl⟩
    exact stored.trans (clientWrite _)

theorem enqueueHeader (c : Client) (json : Bytes) : SendKept c (c.enqueueHeader json).2 := by
  have noted : SendKept c (c.noteFrame json) :=
    of_same rfl rfl rfl rfl ⟨rfl, rfl, rfl, rfl, rfl⟩
  exact noted.trans (clientEnqueue _ _ _)

theorem clientSendFrame (c : Client) (json : Bytes) : SendKept c (c.clientSendFrame json).2 := by
  unfold Client.clientSendFrame
  split
  · exact refl c
  · have headed := enqueueHeader c json
    dsimp only
    split
    · exact headed.trans (clientEnqueue _ json json.length)
    · exact headed

theorem of_sends {allowed : Client → Bytes → Prop} (sends : Sends allowed before after) :
    SendKept before after := by
  induction sends with
  | refl => exact refl before
  | tail _ sent induction =>
      cases sent with
      | frame => exact induction.trans (clientSendFrame _ _)

theorem drainClient (c : Client) : SendKept c (UdsServer.drainClient c) := by
  unfold UdsServer.drainClient
  split
  · exact clientWrite c
  · exact refl c

theorem rlen_le (kept : SendKept before after) : after.rlen ≤ before.rlen := by
  obtain same | dropped := kept.reading
  · exact Nat.le_of_eq (congrArg List.length same.rbuf)
  · simp [Client.rlen, dropped.rbuf]

/-- Sending does not open a closed client. -/
theorem connected (kept : SendKept before after) (opened : after.fd.isSome) :
    before.fd.isSome ∧ ReadSame before after := by
  obtain same | dropped := kept.reading
  · rw [same.fd] at opened
    exact ⟨opened, same⟩
  · simp [dropped.fd] at opened

end SendKept

/-! ## What a scan finds -/

namespace Client

theorem closeClient_fd (c : Client) (reason : Closing) : (c.closeClient reason).fd = none := by
  unfold closeClient
  split
  case isTrue closed => simpa using closed
  case isFalse => rfl

/-- The frame length a scan goes by. -/
def scannedLen (c : Client) : Nat := if c.haveLen then c.frameLen else declaredLength c.rbuf

/-- The client with the scanned frame length noted. -/
def withLen (c : Client) : Client := { c with haveLen := true, frameLen := c.scannedLen }

/-- A scan in one expression. -/
theorem scan_eq (c : Client) :
    c.scan =
      if c.rlen = 0 ∨ (c.haveLen = false ∧ c.rlen < 4) then .wait c
      else if c.haveLen = false ∧ maxFrame < c.scannedLen then
        .oversized { c with frameLen := c.scannedLen }
      else if c.rlen < 4 + c.scannedLen then .wait c.withLen
      else .frame c.withLen := by
  by_cases drained : c.rlen = 0
  · rw [scan, if_pos drained, if_pos (.inl drained)]
  cases known : c.haveLen with
  | true =>
      have same : c.withLen = c := by simp [withLen, scannedLen, ← known]
      have length : c.scannedLen = c.frameLen := by simp [scannedLen, known]
      rw [scan, if_neg drained, if_pos known, if_neg (by simp [drained]), if_neg (by simp), same,
        length, scanPayload]
  | false =>
      have length : c.scannedLen = declaredLength c.rbuf := by simp [scannedLen, known]
      rw [scan, if_neg drained, if_neg (by simp [known])]
      by_cases short : c.rlen < 4
      · rw [if_pos short, if_pos (.inr ⟨rfl, short⟩)]
      · have filled : ¬(c.rlen = 0 ∨ (false = false ∧ c.rlen < 4)) := by simp [drained, short]
        rw [if_neg short, if_neg filled, withLen, length]
        dsimp only
        by_cases large : maxFrame < declaredLength c.rbuf
        · rw [if_pos large, if_pos ⟨rfl, large⟩]
          simp [known]
        · rw [if_neg large, if_neg (by simp [large]), scanPayload]
          rfl

theorem scan_frame {c scanned : Client} (scan : c.scan = .frame scanned) :
    scanned = c.withLen ∧ 0 < c.rlen ∧ 4 + c.scannedLen ≤ c.rlen ∧
      (c.haveLen = false → 4 ≤ c.rlen ∧ c.scannedLen ≤ maxFrame) := by
  rw [scan_eq] at scan
  split at scan
  case isTrue => cases scan
  case isFalse filled =>
    split at scan
    case isTrue => cases scan
    case isFalse small =>
      split at scan
      case isTrue => cases scan
      case isFalse whole =>
        injection scan with noted
        refine ⟨noted.symm, by omega, by omega, fun fresh => ⟨?_, ?_⟩⟩
        · exact Nat.le_of_not_lt fun short => filled (.inr ⟨fresh, short⟩)
        · exact Nat.le_of_not_lt fun large => small ⟨fresh, large⟩

theorem scan_oversized {c scanned : Client} (scan : c.scan = .oversized scanned) :
    scanned = { c with frameLen := c.scannedLen } ∧ c.haveLen = false ∧ 4 ≤ c.rlen ∧
      maxFrame < c.scannedLen := by
  rw [scan_eq] at scan
  split at scan
  case isTrue => cases scan
  case isFalse filled =>
    split at scan
    case isTrue large =>
      injection scan with noted
      exact ⟨noted.symm, large.1,
        Nat.le_of_not_lt fun short => filled (.inr ⟨large.1, short⟩), large.2⟩
    case isFalse => split at scan <;> cases scan

theorem scan_wait {c scanned : Client} (scan : c.scan = .wait scanned) :
    (scanned = c ∧ (c.rlen = 0 ∨ (c.haveLen = false ∧ c.rlen < 4))) ∨
      (scanned = c.withLen ∧ c.rlen < 4 + c.scannedLen ∧
        (c.haveLen = false → 4 ≤ c.rlen ∧ c.scannedLen ≤ maxFrame)) := by
  rw [scan_eq] at scan
  split at scan
  case isTrue short =>
    injection scan with same
    exact .inl ⟨same.symm, short⟩
  case isFalse filled =>
    split at scan
    case isTrue => cases scan
    case isFalse small =>
      split at scan
      case isTrue short =>
        injection scan with noted
        refine .inr ⟨noted.symm, short, fun fresh => ⟨?_, ?_⟩⟩
        · exact Nat.le_of_not_lt fun less => filled (.inr ⟨fresh, less⟩)
        · exact Nat.le_of_not_lt fun large => small ⟨fresh, large⟩
      case isFalse => cases scan

end Client

namespace UdsServer

variable {σ : Type}

/-! ## Conditions on the frames a step sends -/

section EachSend

variable (admits : Fin maxClients → Client → Bytes → Prop)

/-- Each notification is admitted where it is sent. -/
def EachNotified (srv : UdsServer σ) : List Bytes → Prop
  | [] => True
  | json :: notifications =>
      (∀ j, (srv.clients j).listens → admits j (srv.clients j) json) ∧
        EachNotified (srv.broadcast json) notifications

/-- The response, if there is one, is admitted where it is sent. -/
def EachResponded (i : Fin maxClients) (srv : UdsServer σ) : Option Bytes → Prop
  | none => True
  | some response => admits i (srv.clients i) response

/-- Each frame that is sent while the handler serves the client is admitted. -/
def EachHandled (handler : Handler σ) (i : Fin maxClients) (srv : UdsServer σ) : Prop :=
  let payload := (srv.clients i).request
  let handling := handler srv.userData (payload ++ [0])
  let srv := { srv.updateClient i (·.noteRequest payload) with userData := handling.userData }
  EachNotified admits srv handling.notifications ∧
    EachResponded admits i (handling.notifications.foldl broadcast srv) handling.response

/-- Each frame that the frame loop sends is admitted. -/
def EachLooped (handler : Handler σ) (i : Fin maxClients) : Nat → UdsServer σ → Prop
  | 0, _ => True
  | fuel + 1, srv =>
      match (srv.clients i).scan with
      | .wait _ | .oversized _ => True
      | .frame c =>
          EachHandled admits handler i (srv.updateClient i fun _ => c) ∧
            let srv := ((srv.updateClient i fun _ => c).handleFrame handler i).compactClient i
            srv.crashed = false → EachLooped handler i fuel srv

/-- Each frame that the step sends is admitted. -/
def EachSend (handler : Handler σ) (srv : UdsServer σ) : Event → Prop
  | .readable fd (.arrived count) =>
      ∀ i, srv.findClient fd = some i → (srv.clients i).arriving count ≠ [] →
        let srv := srv.updateClient i fun c => c.receive (c.arriving count)
        EachLooped admits handler i (srv.clients i).rlen srv
  | .broadcast json => ∀ j, (srv.clients j).listens → admits j (srv.clients j) json
  | _ => True

end EachSend

variable {admits : Fin maxClients → Client → Bytes → Prop} {handler : Handler σ}

/-- Any frame is admitted. -/
def AnyFrame : Fin maxClients → Client → Bytes → Prop := fun _ _ _ => True

section AllAdmitted

variable {admits : Fin maxClients → Client → Bytes → Prop} (all : ∀ j c json, admits j c json)
include all

theorem eachNotified_of_all (srv : UdsServer σ) (notifications : List Bytes) :
    EachNotified admits srv notifications := by
  induction notifications generalizing srv with
  | nil => trivial
  | cons json notifications induction => exact ⟨fun j _ => all j _ json, induction _⟩

theorem eachHandled_of_all (handler : Handler σ) (i : Fin maxClients) (srv : UdsServer σ) :
    EachHandled admits handler i srv := by
  refine ⟨eachNotified_of_all all _ _, ?_⟩
  cases (handler srv.userData ((srv.clients i).request ++ [0])).response with
  | none => trivial
  | some response => exact all i _ response

theorem eachLooped_of_all (handler : Handler σ) (i : Fin maxClients) (fuel : Nat)
    (srv : UdsServer σ) : EachLooped admits handler i fuel srv := by
  induction fuel generalizing srv with
  | zero => trivial
  | succ fuel induction =>
      unfold EachLooped
      cases (srv.clients i).scan with
      | wait => trivial
      | oversized => trivial
      | frame => exact ⟨eachHandled_of_all all handler i _, fun _ => induction _⟩

theorem eachSend_of_all (handler : Handler σ) (srv : UdsServer σ) (event : Event) :
    EachSend admits handler srv event := by
  cases event with
  | accept | hangUp => trivial
  | readable fd outcome =>
      cases outcome with
      | wouldBlock | error => trivial
      | arrived => exact fun i _ _ => eachLooped_of_all all handler i _ _
  | broadcast json => exact fun j _ => all j _ json

end AllAdmitted

theorem anyFrame (j : Fin maxClients) (c : Client) (json : Bytes) : AnyFrame j c json := trivial

/-- The step finds the slot hung up. -/
def HangsUp (srv : UdsServer σ) (event : Event) (j : Fin maxClients) : Prop :=
  ∃ fd, event = .hangUp fd ∧ srv.findClient fd = some j

/-- The step reads bytes from the slot. -/
def Reads (srv : UdsServer σ) (event : Event) (j : Fin maxClients) : Prop :=
  ∃ fd count, event = .readable fd (.arrived count) ∧ srv.findClient fd = some j

/-! ## Steps of the server, slot by slot -/

theorem notify_sends {allowed : Client → Bytes → Prop} {c : Client} {json : Bytes}
    (admitted : c.listens → allowed c json) : Sends allowed c (notify c json) := by
  unfold notify
  split
  case isTrue listening => exact .single (.frame (admitted listening))
  case isFalse => exact .refl

theorem foldl_broadcast_sends {srv : UdsServer σ} {notifications : List Bytes}
    (each : EachNotified admits srv notifications) (j : Fin maxClients) :
    Sends (admits j) (srv.clients j) ((notifications.foldl broadcast srv).clients j) := by
  induction notifications generalizing srv with
  | nil => exact .refl
  | cons json notifications induction =>
      obtain ⟨first, later⟩ := each
      exact (notify_sends (first j)).trans (induction later)

theorem respond_sends {srv : UdsServer σ} {i : Fin maxClients} {response : Option Bytes}
    (each : EachResponded admits i srv response) (j : Fin maxClients) :
    Sends (admits j) (srv.clients j) ((srv.respond i response).clients j) := by
  cases response with
  | none => exact .refl
  | some response =>
      by_cases same : j = i
      · subst same
        rw [respond, updateClient_same]
        exact .single (.frame each)
      · rw [respond, updateClient_other _ same]

/-- While a frame is handled, frames are sent to all clients. -/
theorem handleFrame_sends {srv : UdsServer σ} {i : Fin maxClients}
    (each : EachHandled admits handler i srv) (j : Fin maxClients) :
    Sends (admits j)
      ((srv.updateClient i (·.noteRequest (srv.clients i).request)).clients j)
      ((srv.handleFrame handler i).clients j) :=
  (foldl_broadcast_sends each.1 j).trans (respond_sends each.2 j)

theorem compactClient_other (srv : UdsServer σ) {i j : Fin maxClients} (other : j ≠ i) :
    (srv.compactClient i).clients j = srv.clients j := by
  unfold compactClient
  dsimp only
  split
  · exact updateClient_other _ other _
  · rw [updateClient_other _ other, updateClient_other _ other]

theorem foldl_broadcast_crashed (notifications : List Bytes) (srv : UdsServer σ) :
    (notifications.foldl broadcast srv).crashed = srv.crashed := by
  induction notifications generalizing srv with
  | nil => rfl
  | cons json notifications induction => exact induction _

@[simp] theorem respond_crashed (srv : UdsServer σ) (i : Fin maxClients)
    (response : Option Bytes) : (srv.respond i response).crashed = srv.crashed := by
  cases response <;> rfl

theorem handleFrame_crashed (handler : Handler σ) (srv : UdsServer σ) (i : Fin maxClients) :
    (srv.handleFrame handler i).crashed = srv.crashed := by
  simp [handleFrame, foldl_broadcast_crashed]

/-- A frame is taken off the buffer, or the server crashes. -/
theorem compactClient_cases {srv : UdsServer σ} {i : Fin maxClients}
    (running : srv.crashed = false) :
    ((srv.clients i).rlen < (srv.clients i).consumed ∧ (srv.compactClient i).crashed = true ∧
        (srv.compactClient i).clients i = (srv.clients i).noteCompaction) ∨
      ((srv.clients i).consumed ≤ (srv.clients i).rlen ∧ (srv.compactClient i).crashed = false ∧
        (srv.compactClient i).clients i = (srv.clients i).noteCompaction.compact) := by
  by_cases overrun : (srv.clients i).rlen < (srv.clients i).consumed
  · left
    have overran : (srv.clients i).noteCompaction.rlen < (srv.clients i).noteCompaction.consumed :=
      overrun
    simp [compactClient, overran, overrun]
  · right
    have fits : ¬(srv.clients i).noteCompaction.rlen < (srv.clients i).noteCompaction.consumed :=
      overrun
    simp [compactClient, fits, running]
    omega

/-- The frame loop reads for its client and sends frames to the others. -/
theorem frameLoop_reading {i : Fin maxClients} {fuel : Nat} {srv : UdsServer σ}
    (running : srv.crashed = false) (enough : (srv.clients i).rlen ≤ fuel)
    (each : EachLooped admits handler i fuel srv) :
    Reading (admits i) (srv.clients i) ((srv.frameLoop handler i fuel).clients i) ∧
      ∀ j, j ≠ i → Sends (admits j) (srv.clients j) ((srv.frameLoop handler i fuel).clients j) := by
  induction fuel generalizing srv with
  | zero => exact ⟨.empty (Nat.le_zero.mp enough), fun _ _ => .refl⟩
  | succ fuel induction =>
      unfold frameLoop
      unfold EachLooped at each
      cases scan : (srv.clients i).scan with
      | wait c =>
          refine ⟨?_, fun j other => ?_⟩
          · simpa using Reading.wait scan
          · rw [updateClient_other _ other]
      | oversized c =>
          refine ⟨?_, fun j other => ?_⟩
          · simpa using Reading.oversized scan
          · rw [updateClient_other _ other]
      | frame c =>
          rw [scan] at each
          obtain ⟨handles, later⟩ := each
          have served := handleFrame_sends handles
          have own := served i
          simp only [updateClient_same] at own
          have still : ((srv.updateClient i fun _ => c).handleFrame handler i).crashed = false := by
            rw [handleFrame_crashed]
            exact running
          have others (j : Fin maxClients) (other : j ≠ i) := served j
          simp only [ne_eq] at others
          dsimp only
          obtain ⟨overrun, crashed, noted⟩ | ⟨fits, runs, compacted⟩ := compactClient_cases
            (i := i) still
          · rw [if_pos crashed, noted]
            refine ⟨.overran scan own overrun, fun j other => ?_⟩
            rw [compactClient_other _ other]
            simpa [updateClient_other _ other] using others j other
          · have shorter : ((((srv.updateClient i fun _ => c).handleFrame handler i).compactClient
                i).clients i).rlen ≤ fuel := by
              rw [compacted]
              have fewer := (SendKept.of_sends own).rlen_le
              obtain ⟨rfl, filled, -⟩ := Client.scan_frame scan
              simp only [Client.rlen, Client.noteRequest, Client.withLen, Client.compact,
                Client.noteCompaction, Client.consumed, List.length_drop] at fewer filled enough ⊢
              omega
            rw [if_neg (by simp [runs])]
            obtain ⟨reading, sends⟩ := induction runs shorter (later runs)
            rw [compacted] at reading
            refine ⟨.next scan own fits reading, fun j other => ?_⟩
            have earlier := others j other
            rw [updateClient_other _ other, updateClient_other _ other] at earlier
            have later := sends j other
            rw [compactClient_other _ other] at later
            exact earlier.trans later

theorem drainClient_closed {c : Client} (closed : c.fd = none) : drainClient c = c := by
  simp [drainClient, closed]

/-- A client which is closed is not drained. -/
theorem drainClient_closeClient {c : Client} {reason : Closing} (connected : c.fd.isSome) :
    drainClient (c.closeClient reason) = c.closeClient reason := by
  refine drainClient_closed ?_
  rw [Client.closeClient, if_neg (by simpa using Option.isSome_iff_ne_none.mp connected)]

/-- A readable client is read from and drained, while frames are sent to the others. -/
theorem readable_clients {srv : UdsServer σ} {fd : Nat} {i : Fin maxClients}
    {outcome : RecvOutcome} (running : srv.crashed = false) (found : srv.findClient fd = some i)
    (each : ∀ count, outcome = .arrived count → (srv.clients i).arriving count ≠ [] →
      let srv := srv.updateClient i fun c => c.receive (c.arriving count)
      EachLooped admits handler i (srv.clients i).rlen srv) (j : Fin maxClients) :
    ClientStep (srv.HangsUp (.readable fd outcome) j) (srv.Reads (.readable fd outcome) j)
      (admits j) (srv.clients j)
      ((if (srv.clientProcessRead handler i outcome).crashed then
          srv.clientProcessRead handler i outcome
        else (srv.clientProcessRead handler i outcome).updateClient i drainClient).clients j) := by
  have connected : (srv.clients i).fd.isSome := by
    rw [fd_of_findClient found]
    rfl
  unfold clientProcessRead
  cases outcome with
  | wouldBlock =>
      rw [if_neg (by simp [running])]
      by_cases same : j = i
      · subst same
        simpa using ClientStep.drained connected
      · rw [updateClient_other _ same]
        exact .sends .refl
  | error =>
      rw [if_neg (by simp [running])]
      by_cases same : j = i
      · subst same
        simpa [drainClient_closeClient connected] using ClientStep.readFailed connected
      · rw [updateClient_other _ same, updateClient_other _ same]
        exact .sends .refl
  | arrived count =>
      dsimp only
      by_cases nothing : (srv.clients i).arriving count = []
      · simp only [if_pos nothing]
        rw [if_neg (by simp [running])]
        by_cases same : j = i
        · subst same
          rw [updateClient_same, updateClient_same, drainClient_closeClient connected]
          exact .readNothing ⟨fd, count, rfl, found⟩ count connected nothing
        · rw [updateClient_other _ same, updateClient_other _ same]
          exact .sends .refl
      · simp only [if_neg nothing]
        have looped := each count rfl nothing
        simp only [updateClient_same] at looped
        obtain ⟨reading, others⟩ := frameLoop_reading (by exact running) (by simp) looped
        simp only [updateClient_same] at reading ⊢
        by_cases same : j = i
        · subst same
          split
          · exact .read ⟨fd, count, rfl, found⟩ count connected nothing reading
          · rw [updateClient_same]
            exact .readDrained ⟨fd, count, rfl, found⟩ count connected nothing reading
        · have sends := others j same
          rw [updateClient_other _ same] at sends
          split
          · exact .sends sends
          · rw [updateClient_other _ same]
            exact .sends sends

/-- All that a step does to a slot. -/
theorem step_client {srv : UdsServer σ} {event : Event}
    (each : EachSend admits handler srv event) (j : Fin maxClients) :
    ClientStep (srv.HangsUp event j) (srv.Reads event j) (admits j) (srv.clients j)
      ((srv.step handler event).clients j) := by
  unfold step
  cases running : srv.crashed with
  | true => exact .sends .refl
  | false =>
      rw [if_neg (by simp)]
      cases event with
      | accept fd socket =>
          cases found : srv.findFreeClient with
          | none =>
              simp only [handle, found]
              exact .sends .refl
          | some i =>
              simp only [handle, found]
              have unused : (srv.clients i).fd = none := by simpa using List.find?_some found
              by_cases same : j = i
              · subst same
                simpa using ClientStep.accepted fd socket unused
              · rw [updateClient_other _ same]
                exact .sends .refl
      | hangUp fd =>
          cases found : srv.findClient fd with
          | none =>
              simp only [handle, found]
              exact .sends .refl
          | some i =>
              simp only [handle, found]
              have connected : (srv.clients i).fd.isSome := by
                rw [fd_of_findClient found]
                rfl
              by_cases same : j = i
              · subst same
                simpa using ClientStep.hungUp ⟨fd, rfl, found⟩ connected
              · rw [updateClient_other _ same]
                exact .sends .refl
      | readable fd outcome =>
          cases found : srv.findClient fd with
          | none =>
              simp only [handle, found]
              exact .sends .refl
          | some i =>
              simp only [handle, found]
              refine readable_clients running found ?_ j
              rintro count rfl
              exact each i found
      | broadcast json => exact .sends (notify_sends (each j))

end UdsServer

end Uds

end Typio
