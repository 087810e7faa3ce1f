import Typio.Ipc.UdsConnection

/-!
# Framing on the socket

A peer's stream of frames reaches the request handler frame by frame, however it is split among
the reads, until the client is closed.  The one reason for closing it that the peer has not given
is a full read buffer, in which the next frame is not complete: the read then asks for no bytes and
its result is taken for the end of the stream.
-/

namespace Typio

namespace Uds

/-- The closing is due to a declared length above the maximum, a read of bytes that failed or
returned none, or a frame that could not be sent. -/
def Closing.permitted : Closing → Bool
  | .hangUp => false
  | .emptyRead asked => decide (0 < asked)
  | .oversizedFrame declared => decide (maxFrame < declared)
  | .readError | .writeError | .overflow _ _ => true

theorem Closing.permitted_of_ofSend {reason : Closing} (sends : reason.ofSend = true) :
    reason.permitted = true := by
  cases reason <;> first | rfl | cases sends

namespace Client

/-- The peer sends these frames, none of them longer than the maximum. -/
structure SendsFrames (c : Client) (frames : List Bytes) : Prop where
  stream : c.socket.stream = wireFormat.encodeAll frames
  bounded : ∀ payload ∈ frames, payload.length ≤ maxFrame

/-- If the client was closed, then for a permitted reason. -/
def ClosedRightly (c : Client) : Prop :=
  ∀ reason, c.history.closing = some reason → reason.permitted = true

/-- The handler was called once for each frame received in whole, in order, with its payload, and the
client was closed, if at all, for a permitted reason. -/
def Framed (c : Client) : Prop :=
  ∀ frames, c.SendsFrames frames →
    c.history.requests <+: frames ∧
      (c.fd.isSome →
        c.history.requests = wireFormat.completed frames c.history.received.length) ∧
      c.ClosedRightly

/-! ## The reading side of a connection -/

/-- The requests and the buffer make up what was received of the frames. -/
structure Receives (c : Client) (frames : List Bytes) : Prop where
  received : c.history.received <+: c.socket.stream
  requests : c.history.requests <+: frames
  buffered : c.fd.isSome → c.history.received = wireFormat.encodeAll c.history.requests ++ c.rbuf
  noted : c.fd.isSome → c.haveLen = true → c.frameLen = declaredLength c.rbuf ∧ 4 ≤ c.rlen
  unclosed : c.fd.isSome → c.history.closing = none

/-- The buffer holds no complete frame. -/
def Settled (c : Client) : Prop := 4 ≤ c.rlen → c.rlen < 4 + declaredLength c.rbuf

/-- A scan goes by the length that the buffer declares. -/
theorem Receives.scannedLen_eq {c : Client} {frames : List Bytes} (receives : c.Receives frames)
    (connected : c.fd.isSome) : c.scannedLen = declaredLength c.rbuf := by
  unfold scannedLen
  split
  case isTrue known => exact (receives.noted connected known).1
  case isFalse => rfl

/-- The buffer holds the beginning of the frames not yet handled. -/
theorem Receives.arrived {c : Client} {frames : List Bytes} (receives : c.Receives frames)
    (sends : c.SendsFrames frames) (connected : c.fd.isSome) :
    ∃ later, frames = c.history.requests ++ later ∧ c.rbuf <+: wireFormat.encodeAll later := by
  have received := receives.received
  obtain ⟨later, frames_eq⟩ := receives.requests
  rw [sends.stream, receives.buffered connected, ← frames_eq,
    FrameFormat.encodeAll_append] at received
  exact ⟨later, frames_eq.symm, (List.prefix_append_right_inj _).mp received⟩

/-- A settled client that receives the frames has had all complete ones handled. -/
theorem Receives.requests_eq {c : Client} {frames : List Bytes} (receives : c.Receives frames)
    (sends : c.SendsFrames frames) (connected : c.fd.isSome) (settled : c.Settled) :
    c.history.requests = wireFormat.completed frames c.history.received.length := by
  have bounded := sends.bounded
  have buffered := receives.buffered connected
  obtain ⟨later, rfl, arrived⟩ := receives.arrived sends connected
  rw [buffered, List.length_append, FrameFormat.completed_append,
    wireFormat.completed_of_incomplete arrived, List.append_nil]
  · intro payload listed
    have short := bounded payload (List.mem_append_right _ listed)
    simp only [maxFrame, wireFormat] at short ⊢
    omega
  · exact settled

/-- The frame at the front of the buffer is the next one the peer sends. -/
theorem Receives.next {c : Client} {frames : List Bytes} (receives : c.Receives frames)
    (sends : c.SendsFrames frames) (connected : c.fd.isSome) (filled : 0 < c.rlen)
    (whole : 4 + c.scannedLen ≤ c.rlen) :
    ∃ payload, c.scannedLen = payload.length ∧ c.withLen.request = payload ∧
      c.history.requests ++ [payload] <+: frames ∧
      c.rbuf = wireFormat.encode payload ++ c.rbuf.drop (4 + payload.length) := by
  have bounded := sends.bounded
  obtain ⟨later, rfl, arrived⟩ := receives.arrived sends connected
  have declared := receives.scannedLen_eq connected
  obtain ⟨payload, rest, rfl, length, front, -⟩ := wireFormat.next_of_prefix arrived
    (fun payload listed => by
      have short := bounded payload (List.mem_append_right _ listed)
      simp only [maxFrame, wireFormat] at short ⊢
      omega)
    (by simp only [wireFormat]; unfold rlen at whole; omega)
    (List.ne_nil_of_length_pos filled)
    (by simp only [wireFormat]; rw [← declared]; exact whole)
  have scanned : c.scannedLen = payload.length := declared.trans length
  refine ⟨payload, scanned, ?_, ?_, front⟩
  · have header : (lengthHeader payload.length).length = 4 := rfl
    rw [request, withLen]
    dsimp only
    rw [front, scanned, FrameFormat.encode, List.append_assoc]
    exact (congrArg (List.take _) (List.drop_left' header)).trans (List.take_left' rfl)
  · exact ⟨rest, by simp⟩

theorem SendsFrames.of_stream {c after : Client} {frames : List Bytes}
    (sends : c.SendsFrames frames) (stream : after.socket.stream = c.socket.stream) :
    after.SendsFrames frames :=
  ⟨stream.trans sends.stream, sends.bounded⟩

theorem declaredLength_append {front : Bytes} (header : 4 ≤ front.length) (rest : Bytes) :
    declaredLength (front ++ rest) = declaredLength front := by
  rw [← declaredLength_take, List.take_append_of_le_length header, declaredLength_take]

namespace Receives

variable {c after : Client} {frames : List Bytes}

theorem of_kept (receives : c.Receives frames) (kept : SendKept c after) :
    after.Receives frames := by
  have received := receives.received
  have requests := receives.requests
  rw [← kept.received, ← kept.stream] at received
  rw [← kept.requests] at requests
  obtain same | dropped := kept.reading
  · refine ⟨received, requests, fun connected => ?_, fun connected known => ?_,
      fun connected => ?_⟩ <;> rw [same.fd] at connected
    · rw [kept.received, kept.requests, same.rbuf]
      exact receives.buffered connected
    · rw [same.haveLen] at known
      rw [rlen, same.frameLen, same.rbuf]
      exact receives.noted connected known
    · rw [same.closing]
      exact receives.unclosed connected
  · exact ⟨received, requests, fun connected => by simp [dropped.fd] at connected,
      fun connected => by simp [dropped.fd] at connected,
      fun connected => by simp [dropped.fd] at connected⟩

theorem closeClient (receives : c.Receives frames) (reason : Closing) :
    (c.closeClient reason).Receives frames := by
  unfold Client.closeClient
  split
  · exact receives
  · exact ⟨receives.received, receives.requests, fun connected => by simp at connected,
      fun connected => by simp at connected, fun connected => by simp at connected⟩

theorem accept (c : Client) (fd : Nat) (socket : Socket) (frames : List Bytes) :
    (c.accept fd socket).Receives frames :=
  ⟨List.nil_prefix, List.nil_prefix, fun _ => rfl, fun _ known => by simp [Client.accept] at known,
    fun _ => rfl⟩

/-- Bytes that arrive are the next of the stream. -/
theorem receive (receives : c.Receives frames) (count : Nat) :
    (c.receive (c.arriving count)).Receives frames := by
  refine ⟨?_, receives.requests, fun connected => ?_, fun connected known => ?_,
    receives.unclosed⟩
  · obtain ⟨rest, stream⟩ := receives.received
    simp only [Client.receive, arriving, ← stream, List.drop_left]
    exact (List.prefix_append_right_inj _).mpr (List.take_prefix _ _)
  · simp only [Client.receive]
    rw [receives.buffered connected, List.append_assoc]
  · obtain ⟨length, header⟩ := receives.noted connected known
    simp only [Client.receive, rlen, List.length_append] at header ⊢
    exact ⟨by rw [declaredLength_append header]; exact length, by omega⟩

theorem withLen (receives : c.Receives frames) (header : 4 ≤ c.rlen) :
    c.withLen.Receives frames := by
  refine ⟨receives.received, receives.requests, receives.buffered, fun connected _ => ?_,
    receives.unclosed⟩
  exact ⟨receives.scannedLen_eq connected, header⟩

end Receives

/-! ## The frame loop -/

/-- The handler gets the payload of the next frame, and its frame is taken off the buffer. -/
theorem Receives.served {c served : Client} {frames : List Bytes} (receives : c.Receives frames)
    (sends : c.SendsFrames frames) (connected : c.fd.isSome) (filled : 0 < c.rlen)
    (whole : 4 + c.scannedLen ≤ c.rlen)
    (kept : SendKept (c.withLen.noteRequest c.withLen.request) served) :
    (served.rlen < served.consumed → served.fd = none ∧ served.ClosedRightly) ∧
      (served.consumed ≤ served.rlen → served.fd.isSome) ∧
      (served.fd = none → served.noteCompaction.Receives frames) ∧
      (served.fd.isSome → served.noteCompaction.compact.Receives frames) := by
  obtain ⟨payload, length, request, requests, front⟩ := receives.next sends connected filled whole
  have received := receives.received
  have noted_requests : served.history.requests = c.history.requests ++ [payload] := by
    rw [kept.requests, request]
    rfl
  rw [← noted_requests] at requests
  have stream : served.socket.stream = c.socket.stream := kept.stream
  have received_same : served.history.received = c.history.received := kept.received
  rw [← received_same, ← stream] at received
  obtain same | dropped := kept.reading
  · have opened : served.fd.isSome := by
      rw [same.fd]
      exact connected
    have rbuf : served.rbuf = c.rbuf := same.rbuf
    have frameLen : served.frameLen = payload.length := same.frameLen.trans length
    have fits : served.consumed ≤ served.rlen := by
      rw [rlen, rbuf, consumed, frameLen, ← length]
      exact whole
    refine ⟨fun overrun => absurd fits (Nat.not_le_of_lt overrun), fun _ => opened,
      fun closed => by simp [closed] at opened, fun _ => ?_⟩
    refine ⟨received, requests, fun _ => ?_, fun _ known => ?_, fun _ => ?_⟩
    · have buffered := receives.buffered connected
      simp only [noteCompaction, compact, consumed]
      rw [received_same, noted_requests, rbuf, frameLen, buffered,
        FrameFormat.encodeAll_append, List.append_assoc]
      congr 1
      simpa using front
    · simp [compact] at known
    · exact same.closing.trans (receives.unclosed connected)
  · have rlen_zero : served.rlen = 0 := by simp [rlen, dropped.rbuf]
    refine ⟨fun _ => ⟨dropped.fd, ?_⟩, fun fits => ?_, fun _ => ?_, fun opened => ?_⟩
    · obtain ⟨reason, closing, ofSend⟩ := dropped.closing
      intro reason' closing'
      rw [closing] at closing'
      rw [← Option.some.inj closing']
      exact Closing.permitted_of_ofSend ofSend
    · rw [rlen_zero, consumed] at fits
      omega
    · exact ⟨received, requests, fun opened => by simp [noteCompaction, dropped.fd] at opened,
        fun opened => by simp [noteCompaction, dropped.fd] at opened,
        fun opened => by simp [noteCompaction, dropped.fd] at opened⟩
    · simp [dropped.fd] at opened

/-- After the frame loop a client that is still open has no complete frame left, and a closed one was
closed rightly. -/
theorem Receives.of_reading {allowed : Client → Bytes → Prop} {c after : Client}
    {frames : List Bytes} (receives : c.Receives frames) (sends : c.SendsFrames frames)
    (connected : c.fd.isSome) (loop : Reading allowed c after) :
    after.Receives frames ∧ (after.fd.isSome → after.Settled) ∧ after.ClosedRightly := by
  induction loop with
  | empty drained =>
      refine ⟨receives, fun _ header => absurd header (by omega), ?_⟩
      simp [ClosedRightly, receives.unclosed connected]
  | @wait c scanned scan =>
      have rightly : c.ClosedRightly := by simp [ClosedRightly, receives.unclosed connected]
      obtain ⟨rfl, short⟩ | ⟨rfl, incomplete, fresh⟩ := scan_wait scan
      · exact ⟨receives, fun _ header => absurd header (by omega), rightly⟩
      · have header : 4 ≤ c.rlen := by
          cases known : c.haveLen with
          | true => exact (receives.noted connected known).2
          | false => exact (fresh known).1
        rw [receives.scannedLen_eq connected] at incomplete
        exact ⟨receives.withLen header, fun _ _ => incomplete, rightly⟩
  | @oversized c scanned scan =>
      obtain ⟨rfl, -, -, large⟩ := scan_oversized scan
      have noted : ({ c with frameLen := c.scannedLen } : Client).closeClient
          (.oversizedFrame c.scannedLen) = c.closeClient (.oversizedFrame c.scannedLen) := by
        simp [Client.closeClient, Option.isSome_iff_ne_none.mp connected]
      rw [noted]
      refine ⟨receives.closeClient _, fun opened => ?_, ?_⟩
      · simp [closeClient_fd] at opened
      · rw [Client.closeClient, if_neg (by simpa using Option.isSome_iff_ne_none.mp connected)]
        rintro reason closing
        rw [← Option.some.inj closing]
        simpa [Closing.permitted] using large
  | overran scan served overrun =>
      obtain ⟨rfl, filled, whole, -⟩ := scan_frame scan
      obtain ⟨closes, -, closed, -⟩ := receives.served sends connected filled whole
        (.of_sends served)
      obtain ⟨absent, rightly⟩ := closes overrun
      exact ⟨closed absent, fun opened => by simp [noteCompaction, absent] at opened, rightly⟩
  | next scan served fits later induction =>
      obtain ⟨rfl, filled, whole, -⟩ := scan_frame scan
      have kept := SendKept.of_sends served
      obtain ⟨-, opens, -, opened⟩ := receives.served sends connected filled whole kept
      exact induction (opened (opens fits)) (sends.of_stream kept.stream) (opens fits)

/-! ## Steps -/

/-- Between events, whatever frames the peer sends are being received and the complete ones were
handled. -/
structure ReadsFrames (c : Client) : Prop where
  receives : ∀ frames, c.SendsFrames frames → c.Receives frames
  settled : (∃ frames, c.SendsFrames frames) → c.fd.isSome → c.Settled

/-- The peer sends a stream of frames within the maximum. -/
def PeerFrames (c : Client) : Prop := ∃ frames, c.SendsFrames frames

/-- For a client that reads frames only the closing is left to show. -/
theorem ReadsFrames.framed_iff {c : Client} (reads : c.ReadsFrames) :
    c.Framed ↔ (c.PeerFrames → c.ClosedRightly) := by
  constructor
  · rintro framed ⟨frames, sends⟩
    exact (framed frames sends).2.2
  · intro rightly frames sends
    have receives := reads.receives frames sends
    exact ⟨receives.requests, fun connected => receives.requests_eq sends connected
      (reads.settled ⟨frames, sends⟩ connected), rightly ⟨frames, sends⟩⟩

theorem ReadsFrames.of_kept {c after : Client} (reads : c.ReadsFrames)
    (kept : SendKept c after) : after.ReadsFrames := by
  refine ⟨fun frames sends => ?_, fun ⟨frames, sends⟩ opened => ?_⟩ <;>
    have before := sends.of_stream kept.stream.symm
  · exact (reads.receives frames before).of_kept kept
  · obtain ⟨connected, same⟩ := kept.connected opened
    rw [Settled, rlen, same.rbuf]
    exact reads.settled ⟨frames, before⟩ connected

theorem closeClient_stream (c : Client) (reason : Closing) :
    (c.closeClient reason).socket.stream = c.socket.stream := by
  unfold closeClient
  split <;> rfl

theorem ReadsFrames.closeClient {c : Client} (reads : c.ReadsFrames) (reason : Closing) :
    (c.closeClient reason).ReadsFrames := by
  refine ⟨fun frames sends => ?_, fun _ opened => by simp [closeClient_fd] at opened⟩
  exact (reads.receives frames
    (sends.of_stream (closeClient_stream c reason).symm)).closeClient reason

theorem stream_of_reading {allowed : Client → Bytes → Prop} {c after : Client}
    (loop : Reading allowed c after) : after.socket.stream = c.socket.stream := by
  induction loop with
  | empty => rfl
  | wait scan => obtain ⟨rfl, -⟩ | ⟨rfl, -⟩ := scan_wait scan <;> rfl
  | oversized scan =>
      obtain ⟨rfl, -⟩ := scan_oversized scan
      exact closeClient_stream _ _
  | overran scan sends _ =>
      obtain ⟨rfl, -⟩ := scan_frame scan
      exact (SendKept.of_sends sends).stream
  | next scan sends _ _ induction =>
      obtain ⟨rfl, -⟩ := scan_frame scan
      exact induction.trans (SendKept.of_sends sends).stream

/-- Reading what has arrived leaves a client that reads frames and was not closed wrongly. -/
theorem ReadsFrames.read {allowed : Client → Bytes → Prop} {c after : Client}
    (reads : c.ReadsFrames) (connected : c.fd.isSome) (count : Nat)
    (loop : Reading allowed (c.receive (c.arriving count)) after) :
    after.ReadsFrames ∧ (after.PeerFrames → after.ClosedRightly) := by
  have stream : after.socket.stream = c.socket.stream := (stream_of_reading loop).trans rfl
  have done {frames : List Bytes} (sends : after.SendsFrames frames) :=
    ((reads.receives frames (sends.of_stream stream.symm)).receive count).of_reading
      (sends.of_stream stream.symm) connected loop
  exact ⟨⟨fun frames sends => (done sends).1, fun ⟨frames, sends⟩ => (done sends).2.1⟩,
    fun ⟨frames, sends⟩ => (done sends).2.2⟩

/-- Each step of the server keeps reading frames. -/
theorem ReadsFrames.of_step {hangs reading : Prop} {allowed : Client → Bytes → Prop}
    {c after : Client} (reads : c.ReadsFrames)
    (step : ClientStep hangs reading allowed c after) : after.ReadsFrames := by
  cases step with
  | sends sends => exact reads.of_kept (.of_sends sends)
  | accepted fd socket =>
      exact ⟨fun frames _ => .accept c fd socket frames, fun _ _ header => by
        simp [rlen, Client.accept] at header⟩
  | hungUp => exact reads.closeClient _
  | readFailed => exact reads.closeClient _
  | drained => exact reads.of_kept (.drainClient c)
  | readNothing => exact reads.closeClient _
  | read _ count connected _ loop => exact (reads.read connected count loop).1
  | readDrained _ count connected _ loop =>
      exact (reads.read connected count loop).1.of_kept (.drainClient _)

theorem PeerFrames.of_stream {c after : Client} (peer : c.PeerFrames)
    (stream : after.socket.stream = c.socket.stream) : after.PeerFrames :=
  let ⟨frames, sends⟩ := peer
  ⟨frames, sends.of_stream stream⟩

theorem closedRightly_of_kept {c after : Client} (rightly : c.ClosedRightly)
    (kept : SendKept c after) : after.ClosedRightly := by
  obtain same | dropped := kept.reading
  · rw [ClosedRightly, same.closing]
    exact rightly
  · obtain ⟨reason, closing, ofSend⟩ := dropped.closing
    intro reason' closing'
    rw [closing] at closing'
    rw [← Option.some.inj closing']
    exact Closing.permitted_of_ofSend ofSend

theorem closedRightly_closeClient_iff {c : Client} (connected : c.fd.isSome)
    (reason : Closing) : (c.closeClient reason).ClosedRightly ↔ reason.permitted = true := by
  rw [closeClient, if_neg (by simpa using Option.isSome_iff_ne_none.mp connected)]
  simp [ClosedRightly]

/-- A step that neither finds a peer's frames hung up nor reads them into a full buffer closes the
client rightly. -/
theorem ReadsFrames.closedRightly_of_step {hangs reading : Prop}
    {allowed : Client → Bytes → Prop} {c after : Client} (reads : c.ReadsFrames)
    (rightly : c.PeerFrames → c.ClosedRightly) (noHang : c.PeerFrames → ¬hangs)
    (room : c.PeerFrames → reading → c.rlen < readBufSize)
    (step : ClientStep hangs reading allowed c after) (peer : after.PeerFrames) :
    after.ClosedRightly := by
  cases step with
  | sends sends =>
      have kept := SendKept.of_sends sends
      exact closedRightly_of_kept (rightly (peer.of_stream kept.stream.symm)) kept
  | accepted fd socket => simp [ClosedRightly, Client.accept, History.empty]
  | hungUp hanging =>
      exact absurd hanging (noHang (peer.of_stream (closeClient_stream _ _).symm))
  | readFailed connected => exact (closedRightly_closeClient_iff connected _).mpr rfl
  | drained =>
      have kept := SendKept.drainClient c
      exact closedRightly_of_kept (rightly (peer.of_stream kept.stream.symm)) kept
  | readNothing now count connected nothing =>
      refine (closedRightly_closeClient_iff connected _).mpr ?_
      have space := room (peer.of_stream (closeClient_stream _ _).symm) now
      simp only [Closing.permitted, decide_eq_true_eq]
      omega
  | read _ count connected _ loop => exact (reads.read connected count loop).2 peer
  | @readDrained before _ count connected _ loop =>
      have kept := SendKept.drainClient before
      exact closedRightly_of_kept
        ((reads.read connected count loop).2 (peer.of_stream kept.stream.symm)) kept

end Client

namespace UdsServer

variable {σ : Type} {handler : Handler σ}

/-! ## Runs -/

/-- The step finds no peer of frames hung up, and reads frames only into a buffer with room. -/
def FindsRoom (srv : UdsServer σ) (event : Event) : Prop :=
  srv.crashed = false → ∀ j, (srv.clients j).PeerFrames →
    ¬srv.HangsUp event j ∧ (srv.Reads event j → (srv.clients j).rlen < readBufSize)

/-- All connections are framed. -/
def Framed (srv : UdsServer σ) : Prop := ∀ j, (srv.clients j).Framed

def ReadsFrames (srv : UdsServer σ) : Prop := ∀ j, (srv.clients j).ReadsFrames

/-- A client found hung up is closed. -/
theorem step_hangUp (handler : Handler σ) {srv : UdsServer σ} {event : Event}
    {j : Fin maxClients} (running : srv.crashed = false) (hangs : srv.HangsUp event j) :
    (srv.clients j).fd.isSome ∧
      (srv.step handler event).clients j = (srv.clients j).closeClient .hangUp := by
  obtain ⟨fd, rfl, found⟩ := hangs
  refine ⟨by simp [fd_of_findClient found], ?_⟩
  rw [step, if_neg (by simp [running])]
  simp only [handle, found, updateClient_same]

/-- A client whose buffer is full is closed when it is read from. -/
theorem step_readable_full (handler : Handler σ) {srv : UdsServer σ} {event : Event}
    {j : Fin maxClients} (running : srv.crashed = false) (reads : srv.Reads event j)
    (full : readBufSize ≤ (srv.clients j).rlen) :
    (srv.clients j).fd.isSome ∧
      (srv.step handler event).clients j = (srv.clients j).closeClient (.emptyRead 0) := by
  obtain ⟨fd, count, rfl, found⟩ := reads
  have connected : (srv.clients j).fd.isSome := by simp [fd_of_findClient found]
  have space : readBufSize - (srv.clients j).rlen = 0 := Nat.sub_eq_zero_of_le full
  have nothing : (srv.clients j).arriving count = [] := by simp [Client.arriving, space]
  refine ⟨connected, ?_⟩
  rw [step, if_neg (by simp [running])]
  simp only [handle, found, clientProcessRead, nothing, if_true, space, updateClient_crashed,
    running, Bool.false_eq_true, if_false, updateClient_same]
  exact drainClient_closeClient connected

/-- A step keeps the connections framed exactly if it finds room. -/
theorem step_framed_iff {srv : UdsServer σ} (reads : srv.ReadsFrames) (framed : srv.Framed)
    (event : Event) : (srv.step handler event).Framed ↔ srv.FindsRoom event := by
  cases running : srv.crashed with
  | true =>
      rw [step, if_pos running]
      exact iff_of_true framed fun runs => by simp [running] at runs
  | false =>
      have stepped (j : Fin maxClients) :=
        step_client (eachSend_of_all anyFrame handler srv event) j
      have after (j : Fin maxClients) := (reads j).of_step (stepped j)
      have rightly (j : Fin maxClients) := (reads j).framed_iff.mp (framed j)
      constructor
      · intro framed_after _ j peer
        have closed_rightly := (after j).framed_iff.mp (framed_after j)
        refine ⟨fun hangs => ?_, fun reading => Nat.lt_of_not_le fun full => ?_⟩
        · obtain ⟨connected, closed⟩ := step_hangUp handler running hangs
          rw [closed, Client.closedRightly_closeClient_iff connected] at closed_rightly
          have permitted := closed_rightly
            (peer.of_stream (Client.closeClient_stream _ _))
          cases permitted
        · obtain ⟨connected, closed⟩ := step_readable_full handler running reading
            full
          rw [closed, Client.closedRightly_closeClient_iff connected] at closed_rightly
          have permitted := closed_rightly
            (peer.of_stream (Client.closeClient_stream _ _))
          cases permitted
      · intro room j
        rw [(after j).framed_iff]
        exact (reads j).closedRightly_of_step (rightly j)
          (fun peer => (room running j peer).1) (fun peer => (room running j peer).2) (stepped j)

/-- In every run, however the streams are split, each client's frames are handled once and in order
and the client is closed only for a permitted reason, exactly if no peer of frames is found hung up
and no read finds the buffer full. -/
theorem framed_iff_findsRoom (handler : Handler σ) (userData : σ) (events : List Event) :
    Machine.Always (step handler) Framed (new userData) events ↔
      Machine.EachStep (step handler) FindsRoom (new userData) events := by
  refine Machine.always_iff_eachStep ReadsFrames
    (fun srv event reads framed => step_framed_iff reads framed event)
    (fun srv event reads _ _ j =>
      (reads j).of_step (step_client (eachSend_of_all anyFrame handler srv event) j)) ?_ ?_
  · intro j
    exact ⟨fun frames _ => ⟨List.nil_prefix, List.nil_prefix, fun _ => rfl,
      fun opened => by simp [new, Client.free] at opened,
      fun opened => by simp [new, Client.free] at opened⟩,
      fun _ opened => by simp [new, Client.free] at opened⟩
  · intro j frames sends
    exact ⟨List.nil_prefix, fun opened => by simp [new, Client.free] at opened,
      fun reason closing => by simp [new, Client.free, History.empty] at closing⟩

/-- Bytes which complete no frame stay in the buffer. -/
theorem step_readable_wait (handler : Handler σ) {srv : UdsServer σ} {fd count : Nat}
    {j : Fin maxClients} {waiting : Client} (running : srv.crashed = false)
    (found : srv.findClient fd = some j) (something : (srv.clients j).arriving count ≠ [])
    (scan : ((srv.clients j).receive ((srv.clients j).arriving count)).scan = .wait waiting) :
    srv.step handler (.readable fd (.arrived count)) =
      srv.updateClient j fun _ => drainClient waiting := by
  have filled : 0 < ((srv.clients j).receive ((srv.clients j).arriving count)).rlen := by
    have arrived := List.length_pos_of_ne_nil something
    simp only [Client.receive, Client.rlen, List.length_append]
    omega
  obtain ⟨fuel, fuel_eq⟩ := Nat.exists_eq_succ_of_ne_zero (Nat.pos_iff_ne_zero.mp filled)
  rw [step, if_neg (by simp [running])]
  simp only [handle, found, clientProcessRead, something, if_false, updateClient_same, fuel_eq,
    frameLoop, scan, updateClient_crashed, running, Bool.false_eq_true]
  simp [updateClient]

/-- A handler which answers nothing. -/
def silent : Handler Unit := fun _ _ => ⟨(), [], none⟩

/-- A server with one client in its first slot finds it. -/
theorem findClient_first {c : Client} (connected : c.fd = some 5) :
    ((new ()).updateClient ⟨0, by decide⟩ fun _ => c).findClient 5 = some ⟨0, by decide⟩ := by
  obtain ⟨fd⟩ := c
  obtain rfl : fd = some 5 := connected
  rfl

/-- The server after the first 8192 bytes of a frame with 8189 bytes of payload. -/
theorem run_of_long_frame {payload : Bytes} (long : payload.length = 8189) :
    ∃ waiting : Client,
      Machine.run (step silent) (new ())
          [.accept 5 ⟨wireFormat.encodeAll [payload], []⟩, .readable 5 (.arrived 8192)] =
        (new ()).updateClient ⟨0, by decide⟩ (fun _ => waiting) ∧
      waiting.fd = some 5 ∧ waiting.rlen = 8192 ∧ waiting.SendsFrames [payload] := by
  generalize accepted_eq : Client.free.accept 5 ⟨wireFormat.encodeAll [payload], []⟩ = accepted
  have start : step silent (new ()) (.accept 5 ⟨wireFormat.encodeAll [payload], []⟩) =
      (new ()).updateClient ⟨0, by decide⟩ fun _ => accepted := by
    rw [← accepted_eq]
    rfl
  have found : ((new ()).updateClient ⟨0, by decide⟩ fun _ => accepted).findClient 5 =
      some ⟨0, by decide⟩ := findClient_first (by rw [← accepted_eq]; rfl)
  have arriving : accepted.arriving 8192 = lengthHeader 8189 ++ payload.take 8188 := by
    simp [← accepted_eq, Client.arriving, Client.accept, Client.free, Client.rlen, History.empty,
      readBufSize, FrameFormat.encode, wireFormat, long, lengthHeader]
  have declared : declaredLength (lengthHeader 8189 ++ payload.take 8188) = 8189 :=
    declaredLength_lengthHeader 8189 _ (by decide)
  have length : (lengthHeader 8189 ++ payload.take 8188).length = 8192 := by
    simp [lengthHeader, long]
  generalize received_eq : lengthHeader 8189 ++ payload.take 8188 = received at *
  have scan : (accepted.receive received).scan = .wait (accepted.receive received).withLen := by
    rw [Client.scan_eq]
    simp [← accepted_eq, Client.receive, Client.accept, Client.free, Client.rlen,
      Client.scannedLen, length, declared, maxFrame]
  have waits : step silent ((new ()).updateClient ⟨0, by decide⟩ fun _ => accepted)
      (.readable 5 (.arrived 8192)) =
      ((new ()).updateClient ⟨0, by decide⟩ fun _ => accepted).updateClient ⟨0, by decide⟩
        fun _ => drainClient (accepted.receive received).withLen := by
    refine step_readable_wait silent rfl found ?_ ?_ <;> rw [updateClient_same, arriving]
    · simp [← received_eq, lengthHeader]
    · exact scan
  have undrained : drainClient (accepted.receive received).withLen =
      (accepted.receive received).withLen := by
    simp [← accepted_eq, drainClient, Client.withLen, Client.receive, Client.accept, Client.wlen]
  refine ⟨(accepted.receive received).withLen, ?_, ?_, ?_, ?_⟩
  · rw [Machine.run_cons, start, Machine.run_cons, waits, undrained, Machine.run_nil]
    simp [updateClient]
  · rw [← accepted_eq]
    rfl
  · rw [← accepted_eq]
    exact length
  · rw [← accepted_eq]
    refine ⟨rfl, fun frame listed => ?_⟩
    rw [List.mem_singleton.mp listed, long]
    decide

/-- A frame with 8189 bytes of payload, well within the maximum, is never handled: the read after
its first 8192 bytes asks for none and closes the client. -/
theorem long_frame_unread :
    ¬Machine.Always (step silent) Framed (new ())
      [.accept 5 ⟨wireFormat.encodeAll [List.replicate 8189 32], []⟩, .readable 5 (.arrived 8192),
        .readable 5 (.arrived 1)] := by
  intro always
  have long : (List.replicate 8189 (32 : UInt8)).length = 8189 := List.length_replicate
  generalize List.replicate 8189 (32 : UInt8) = payload at always long
  obtain ⟨waiting, reached, fd, full, sends⟩ := run_of_long_frame long
  have framed := always.final ⟨0, by decide⟩
  have reads : ((new ()).updateClient ⟨0, by decide⟩ fun _ => waiting).Reads
      (.readable 5 (.arrived 1)) ⟨0, by decide⟩ := ⟨5, 1, rfl, findClient_first fd⟩
  obtain ⟨connected, closed⟩ := step_readable_full silent rfl reads
    (by rw [updateClient_same, full]; decide)
  rw [Machine.run_cons, Machine.run_cons, Machine.run_nil] at reached
  rw [Machine.run_cons, Machine.run_cons, Machine.run_cons, Machine.run_nil, reached, closed,
    updateClient_same] at framed
  rw [updateClient_same] at connected
  have rightly := (framed [payload] (sends.of_stream (Client.closeClient_stream _ _))).2.2
  rw [Client.closedRightly_closeClient_iff connected] at rightly
  cases rightly

end UdsServer

end Uds

end Typio
