import Typio.Ipc.UdsReadLoop

/-!
# The output stream of a client

What a client is sent is a prefix of the frames enqueued for it, in order.  Whether a frame still
fits is judged by all the bytes stored since the write buffer was last drained, those already sent
included; it is dropped too early exactly if the sent ones would have made room for it.
-/

namespace Typio

namespace Uds

namespace Client

/-- What was delivered and what is still to be sent make up the frames enqueued, but for the
`pending` end of the last one; a closed client was sent the beginning of them. -/
structure Streams (c : Client) (pending : Bytes) : Prop where
  stored : c.wpos ≤ c.wlen
  complete : c.fd.isSome →
    c.history.delivered ++ c.unsent ++ pending = wireFormat.encodeAll c.history.frames
  closed : c.fd = none → c.history.delivered <+: wireFormat.encodeAll c.history.frames
  unclosed : c.fd.isSome → c.history.closing = none

/-- The client was not closed for an overflow while the unsent bytes and those of the frame still to
be stored had room. -/
def OverflowJudged (c : Client) : Prop :=
  ∀ unsent following, c.history.closing = some (.overflow unsent following) →
    writeBufSize < unsent + following

/-- The bytes already sent decide whether the bytes are dropped: they fit behind those stored, or
the frame does not fit even in the place of those sent. -/
def FitsOrExceeds (c : Client) (data : Bytes) (following : Nat) : Prop :=
  ¬(writeBufSize < c.wlen + data.length ∧ c.wlen + following ≤ writeBufSize + c.wpos)

/-- Neither the length nor the payload of the frame is dropped though there is room. -/
def FrameFitsOrExceeds (c : Client) (json : Bytes) : Prop :=
  c.fd.isSome → json.length ≤ maxFrame →
    c.FitsOrExceeds (lengthHeader json.length) (4 + json.length) ∧
      ((c.enqueueHeader json).2.fd.isSome →
        (c.enqueueHeader json).2.FitsOrExceeds json json.length)

/-- The length of a frame is stored exactly if the client stays open. -/
theorem enqueueHeader_fst {c : Client} (connected : c.fd.isSome) (json : Bytes) :
    (c.enqueueHeader json).1 = (c.enqueueHeader json).2.fd.isSome := by
  have noted : (c.noteFrame json).fd.isSome := connected
  exact (clientEnqueue_open noted (lengthHeader json.length) (4 + json.length)).1

namespace Streams

variable {c : Client} {pending : Bytes}

/-- The frames of a streaming client begin with what was delivered. -/
theorem delivered_within (streams : c.Streams pending) :
    c.history.delivered <+: wireFormat.encodeAll c.history.frames := by
  cases connected : c.fd with
  | none => exact streams.closed connected
  | some fd =>
      rw [← streams.complete (by simp [connected]), List.append_assoc]
      exact List.prefix_append _ _

/-- What a closed client would still have to be sent does not matter. -/
theorem of_closed (streams : c.Streams pending) (closed : c.fd = none) (rest : Bytes) :
    c.Streams rest :=
  ⟨streams.stored, fun connected => by simp [closed] at connected, streams.closed,
    fun connected => by simp [closed] at connected⟩

theorem accept (c : Client) (fd : Nat) (socket : Socket) : (c.accept fd socket).Streams [] where
  stored := Nat.le_refl 0
  complete _ := rfl
  closed absent := by simp [Client.accept] at absent
  unclosed _ := rfl

theorem closeClient (streams : c.Streams pending) (reason : Closing) (rest : Bytes) :
    (c.closeClient reason).Streams rest := by
  have opened : ¬(c.closeClient reason).fd.isSome := by simp [closeClient_fd]
  have unchanged : (c.closeClient reason).history.delivered = c.history.delivered ∧
      (c.closeClient reason).history.frames = c.history.frames := by
    unfold Client.closeClient
    split <;> exact ⟨rfl, rfl⟩
  refine ⟨?_, fun connected => absurd connected opened, fun _ => ?_,
    fun connected => absurd connected opened⟩
  · unfold Client.closeClient
    split
    · exact streams.stored
    · exact Nat.le_refl 0
  · rw [unchanged.1, unchanged.2]
    exact streams.delivered_within

theorem sendTaken (streams : c.Streams pending) (connected : c.fd.isSome) (count : Nat) :
    (c.sendTaken count).Streams pending := by
  have opened : (c.sendTaken count).fd.isSome := by
    rw [sendTaken_fd]
    exact connected
  have complete := streams.complete connected
  have unclosed := streams.unclosed connected
  have stored := streams.stored
  refine ⟨?_, fun _ => ?_, fun closed => by simp [closed] at opened, fun _ => ?_⟩
  · unfold Client.sendTaken
    dsimp only
    split
    · exact Nat.le_refl 0
    · exact Nat.le_of_lt (Nat.lt_of_not_le ‹_›)
  · have frames : (c.sendTaken count).history.frames = c.history.frames := by
      unfold Client.sendTaken
      dsimp only
      split <;> rfl
    rw [frames, ← complete]
    unfold Client.sendTaken
    dsimp only
    split
    case isTrue drained =>
      simp only [Client.unsent, Client.wlen] at drained ⊢
      rw [List.take_of_length_le (by simp only [List.length_drop]; omega)]
      simp
    case isFalse =>
      simp only [Client.unsent, ← List.drop_drop, List.append_assoc]
      rw [← List.append_assoc (List.take _ _), List.take_append_drop]
  · unfold Client.sendTaken
    dsimp only
    split <;> exact unclosed

theorem clientWrite (streams : c.Streams pending) : c.clientWrite.2.Streams pending := by
  unfold Client.clientWrite
  split
  · exact streams
  split
  · exact streams
  case isFalse connected =>
    cases c.socket.sends with
    | nil => exact streams
    | cons outcome later =>
        have popped : ({ c with socket := { c.socket with sends := later } } : Client).Streams
            pending := ⟨streams.stored, streams.complete, streams.closed, streams.unclosed⟩
        cases outcome with
        | wouldBlock => exact popped
        | error => exact popped.closeClient _ _
        | sent count =>
            exact popped.sendTaken (by simpa [Option.isSome_iff_ne_none] using connected) count

theorem clientEnqueue {data : Bytes} (streams : c.Streams (data ++ pending)) (following : Nat) :
    (c.clientEnqueue data following).2.Streams pending := by
  unfold Client.clientEnqueue
  split
  · exact streams.closeClient _ _
  · refine clientWrite ⟨?_, fun connected => ?_, streams.closed, streams.unclosed⟩
    · have stored := streams.stored
      simp only [Client.wlen, List.length_append] at stored ⊢
      omega
    · rw [← streams.complete connected]
      simp only [Client.unsent]
      rw [List.drop_append_of_le_length streams.stored]
      simp

theorem noteFrame (streams : c.Streams []) (json : Bytes) :
    (c.noteFrame json).Streams (lengthHeader json.length ++ json) := by
  refine ⟨streams.stored, fun connected => ?_, fun closed => ?_, streams.unclosed⟩
  · have complete := streams.complete connected
    rw [List.append_nil] at complete
    change c.history.delivered ++ c.unsent ++ wireFormat.encode json = _
    simp [complete, Client.noteFrame]
  · refine (streams.closed closed).trans ?_
    simp only [Client.noteFrame, FrameFormat.encodeAll_append]
    exact List.prefix_append _ _

theorem enqueueHeader (streams : c.Streams []) (json : Bytes) :
    (c.enqueueHeader json).2.Streams json :=
  (streams.noteFrame json).clientEnqueue _

theorem clientSendFrame (streams : c.Streams []) (json : Bytes) :
    (c.clientSendFrame json).2.Streams [] := by
  unfold Client.clientSendFrame
  split
  · exact streams
  · have headed := streams.enqueueHeader json
    dsimp only
    split
    case isTrue => exact clientEnqueue (by rwa [List.append_nil]) _
    case isFalse refused =>
      refine headed.of_closed ?_ []
      cases opened : (c.enqueueHeader json).2.fd with
      | none => rfl
      | some fd =>
          have connected := ((SendKept.enqueueHeader c json).connected (by simp [opened])).1
          rw [enqueueHeader_fst connected, opened] at refused
          exact absurd rfl refused

theorem of_sends {allowed : Client → Bytes → Prop} {after : Client} (streams : c.Streams [])
    (sends : Sends allowed c after) : after.Streams [] := by
  induction sends with
  | refl => exact streams
  | tail _ sent induction =>
      cases sent with
      | frame => exact induction.clientSendFrame _

theorem drainClient (streams : c.Streams []) : (UdsServer.drainClient c).Streams [] := by
  unfold UdsServer.drainClient
  split
  · exact streams.clientWrite
  · exact streams

/-- The frame loop writes only by sending frames. -/
theorem of_reading {allowed : Client → Bytes → Prop} {after : Client} (streams : c.Streams [])
    (loop : Reading allowed c after) : after.Streams [] := by
  induction loop with
  | empty => exact streams
  | wait scan =>
      obtain ⟨rfl, -⟩ | ⟨rfl, -⟩ := scan_wait scan
      · exact streams
      · exact ⟨streams.stored, streams.complete, streams.closed, streams.unclosed⟩
  | @oversized c scanned scan =>
      obtain ⟨rfl, -⟩ := scan_oversized scan
      have noted : ({ c with frameLen := c.scannedLen } : Client).Streams [] :=
        ⟨streams.stored, streams.complete, streams.closed, streams.unclosed⟩
      exact noted.closeClient _ _
  | @overran c scanned served scan sends overrun =>
      obtain ⟨rfl, -⟩ := scan_frame scan
      have noted : (c.withLen.noteRequest c.withLen.request).Streams [] :=
        ⟨streams.stored, streams.complete, streams.closed, streams.unclosed⟩
      have served := noted.of_sends sends
      exact ⟨served.stored, served.complete, served.closed, served.unclosed⟩
  | @next c scanned served after scan sends fits later induction =>
      obtain ⟨rfl, -⟩ := scan_frame scan
      have noted : (c.withLen.noteRequest c.withLen.request).Streams [] :=
        ⟨streams.stored, streams.complete, streams.closed, streams.unclosed⟩
      have served := noted.of_sends sends
      exact induction ⟨served.stored, served.complete, served.closed, served.unclosed⟩

/-- Every step of the server keeps the streams. -/
theorem of_step {hangs reads : Prop} {allowed : Client → Bytes → Prop} {after : Client}
    (streams : c.Streams []) (step : ClientStep hangs reads allowed c after) :
    after.Streams [] := by
  have received (count : Nat) : (c.receive (c.arriving count)).Streams [] :=
    ⟨streams.stored, streams.complete, streams.closed, streams.unclosed⟩
  cases step with
  | sends sends => exact streams.of_sends sends
  | accepted fd socket => exact accept c fd socket
  | hungUp => exact streams.closeClient _ _
  | readFailed => exact streams.closeClient _ _
  | drained => exact streams.drainClient
  | readNothing => exact streams.closeClient _ _
  | read _ count _ _ loop => exact (received count).of_reading loop
  | readDrained _ count _ _ loop => exact ((received count).of_reading loop).drainClient

end Streams

/-! ## Overflows -/

theorem overflowJudged_of_none {c : Client} (unclosed : c.history.closing = none) :
    c.OverflowJudged := by
  simp [OverflowJudged, unclosed]

/-- A closing for another reason is no overflow. -/
theorem closeClient_judged {c : Client} (judged : c.OverflowJudged) {reason : Closing}
    (other : ∀ unsent following, reason ≠ .overflow unsent following) :
    (c.closeClient reason).OverflowJudged := by
  unfold closeClient
  split
  · exact judged
  · rintro unsent following closing
    exact absurd (Option.some.inj closing) (other unsent following)

theorem closeClient_judged_iff {c : Client} (streams : c.Streams []) {reason : Closing}
    (other : ∀ unsent following, reason ≠ .overflow unsent following) :
    (c.closeClient reason).OverflowJudged ↔ c.OverflowJudged := by
  by_cases connected : c.fd.isSome
  · have judged := overflowJudged_of_none (streams.unclosed connected)
    exact iff_of_true (closeClient_judged judged other) judged
  · rw [closeClient, if_pos (by simpa using connected)]

theorem clientWrite_judged {c : Client} (judged : c.OverflowJudged) :
    c.clientWrite.2.OverflowJudged := by
  unfold clientWrite
  split
  · exact judged
  split
  · exact judged
  cases c.socket.sends with
  | nil => exact judged
  | cons outcome later =>
      cases outcome with
      | wouldBlock => exact judged
      | error =>
          have popped : ({ c with socket := { c.socket with sends := later } } :
            Client).OverflowJudged := judged
          exact closeClient_judged popped (by simp)
      | sent count =>
          simp only [sendTaken]
          split <;> exact judged

/-- Storing bytes is judged by the unsent ones exactly if those sent do not decide. -/
theorem clientEnqueue_judged {c : Client} {pending : Bytes} (streams : c.Streams pending)
    (connected : c.fd.isSome) (data : Bytes) (following : Nat) :
    (c.clientEnqueue data following).2.OverflowJudged ↔ c.FitsOrExceeds data following := by
  unfold clientEnqueue
  by_cases full : writeBufSize < c.wlen + data.length
  · have stored := streams.stored
    have unsent : c.unsent.length = c.wlen - c.wpos := by simp [Client.unsent, wlen]
    rw [if_pos full, closeClient, if_neg (by simpa using Option.isSome_iff_ne_none.mp connected)]
    simp only [OverflowJudged, Option.some.injEq, Closing.overflow.injEq, FitsOrExceeds, full,
      true_and, unsent]
    constructor
    · intro bounded
      have exceeds := bounded _ _ ⟨rfl, rfl⟩
      omega
    · rintro exceeds _ _ ⟨rfl, rfl⟩
      omega
  · rw [if_neg full]
    refine iff_of_true (clientWrite_judged ?_) (fun dropped => full dropped.1)
    exact overflowJudged_of_none (streams.unclosed connected)

/-- Sending a frame is judged by the unsent bytes exactly if those sent do not decide. -/
theorem clientSendFrame_judged {c : Client} (streams : c.Streams []) (json : Bytes) :
    (c.clientSendFrame json).2.OverflowJudged ↔ c.OverflowJudged ∧ c.FrameFitsOrExceeds json := by
  by_cases connected : c.fd.isSome
  · have judged : c.OverflowJudged := overflowJudged_of_none (streams.unclosed connected)
    unfold clientSendFrame FrameFitsOrExceeds
    by_cases large : maxFrame < json.length
    · rw [if_pos large]
      refine iff_of_true judged ⟨judged, fun _ small => ?_⟩
      exact absurd small (Nat.not_le_of_lt large)
    · rw [if_neg large]
      have header := clientEnqueue_judged (streams.noteFrame json) connected
        (lengthHeader json.length) (4 + json.length)
      have header_fits : (c.noteFrame json).FitsOrExceeds (lengthHeader json.length)
          (4 + json.length) ↔ c.FitsOrExceeds (lengthHeader json.length) (4 + json.length) := Iff.rfl
      simp only [judged, connected, Nat.le_of_not_lt large, forall_const, true_and]
      rw [← header_fits, ← header, enqueueHeader_fst connected]
      by_cases opened : (c.enqueueHeader json).2.fd.isSome
      · have headed := streams.enqueueHeader json
        have stored : ((c.noteFrame json).clientEnqueue (lengthHeader json.length)
            (4 + json.length)).2.OverflowJudged := overflowJudged_of_none (headed.unclosed opened)
        rw [if_pos opened, clientEnqueue_judged headed opened]
        simp [opened, stored]
      · rw [if_neg opened]
        refine ⟨fun kept => ⟨kept, fun later => ?_⟩, And.left⟩
        exact absurd later opened
  · have same : ReadSame c (c.clientSendFrame json).2 := by
      obtain same | dropped := (SendKept.clientSendFrame c json).reading
      · exact same
      · exact absurd dropped.connected connected
    rw [OverflowJudged, same.closing]
    exact ⟨fun judged => ⟨judged, fun opened => absurd opened connected⟩, And.left⟩

end Client

namespace UdsServer

variable {σ : Type} {handler : Handler σ}

/-! ## Conditions on the frames of a step -/

/-- The bytes already sent decide about no frame. -/
def fitsOrExceeds : Fin maxClients → Client → Bytes → Prop :=
  fun _ c json => c.FrameFitsOrExceeds json

/-- All slots are streaming. -/
def Streaming (srv : UdsServer σ) : Prop := ∀ j, (srv.clients j).Streams []

/-- No slot was closed too early. -/
def Judged (srv : UdsServer σ) : Prop := ∀ j, (srv.clients j).OverflowJudged

theorem Streaming.updateClient {srv : UdsServer σ} (streaming : srv.Streaming)
    {i : Fin maxClients} {f : Client → Client} (streams : (f (srv.clients i)).Streams []) :
    (srv.updateClient i f).Streaming := by
  intro j
  by_cases same : j = i
  · subst same
    rw [updateClient_same]
    exact streams
  · rw [updateClient_other _ same]
    exact streaming j

theorem Judged.updateClient_iff {srv : UdsServer σ} {i : Fin maxClients} {f : Client → Client}
    (kept : (f (srv.clients i)).OverflowJudged ↔ (srv.clients i).OverflowJudged) :
    (srv.updateClient i f).Judged ↔ srv.Judged := by
  refine forall_congr' fun j => ?_
  by_cases same : j = i
  · subst same
    rw [updateClient_same]
    exact kept
  · rw [updateClient_other _ same]

theorem Streaming.broadcast {srv : UdsServer σ} (streaming : srv.Streaming) (json : Bytes) :
    (srv.broadcast json).Streaming :=
  fun j => (streaming j).of_sends (notify_sends fun _ => anyFrame j (srv.clients j) json)

theorem Streaming.foldl_broadcast {srv : UdsServer σ} (streaming : srv.Streaming)
    (notifications : List Bytes) : (notifications.foldl UdsServer.broadcast srv).Streaming :=
  fun j => (streaming j).of_sends
    (foldl_broadcast_sends (eachNotified_of_all anyFrame srv notifications) j)

theorem Streaming.noteRequest {srv : UdsServer σ} (streaming : srv.Streaming)
    (i : Fin maxClients) (payload : Bytes) :
    (srv.updateClient i (·.noteRequest payload)).Streaming :=
  streaming.updateClient ⟨(streaming i).stored, (streaming i).complete, (streaming i).closed,
    (streaming i).unclosed⟩

theorem Streaming.handleFrame {srv : UdsServer σ} (streaming : srv.Streaming)
    (handler : Handler σ) (i : Fin maxClients) : (srv.handleFrame handler i).Streaming :=
  fun j => (streaming.noteRequest i _ j).of_sends
    (handleFrame_sends (eachHandled_of_all anyFrame handler i srv) j)

theorem Streaming.compactClient {srv : UdsServer σ} (streaming : srv.Streaming)
    (i : Fin maxClients) : (srv.compactClient i).Streaming := by
  have noted : (srv.updateClient i Client.noteCompaction).Streaming :=
    streaming.updateClient ⟨(streaming i).stored, (streaming i).complete, (streaming i).closed,
      (streaming i).unclosed⟩
  unfold UdsServer.compactClient
  dsimp only
  split
  · exact noted
  · exact noted.updateClient ⟨(noted i).stored, (noted i).complete, (noted i).closed,
      (noted i).unclosed⟩

/-! ## Judging the frames of a step -/

theorem broadcast_judged {srv : UdsServer σ} (streaming : srv.Streaming) (json : Bytes) :
    (srv.broadcast json).Judged ↔
      srv.Judged ∧ ∀ j, (srv.clients j).listens → fitsOrExceeds j (srv.clients j) json := by
  rw [Judged, Judged, ← forall_and]
  refine forall_congr' fun j => ?_
  simp only [broadcast, notify]
  split
  case isTrue listening =>
    rw [Client.clientSendFrame_judged (streaming j)]
    simp [listening, fitsOrExceeds]
  case isFalse deaf => simp [deaf]

/-- Notifications are judged rightly exactly if the bytes sent decide about none. -/
theorem notifications_judged {srv : UdsServer σ} (streaming : srv.Streaming)
    (notifications : List Bytes) :
    (notifications.foldl broadcast srv).Judged ↔
      srv.Judged ∧ EachNotified fitsOrExceeds srv notifications := by
  induction notifications generalizing srv with
  | nil => simp [EachNotified]
  | cons json notifications induction =>
      rw [List.foldl_cons, induction (streaming.broadcast json), broadcast_judged streaming,
        EachNotified, and_assoc]

theorem respond_judged {srv : UdsServer σ} (streaming : srv.Streaming) (i : Fin maxClients)
    (response : Option Bytes) :
    (srv.respond i response).Judged ↔
      srv.Judged ∧ EachResponded fitsOrExceeds i srv response := by
  cases response with
  | none => simp [respond, EachResponded]
  | some response =>
      have own := Client.clientSendFrame_judged (streaming i) response
      rw [EachResponded, fitsOrExceeds, respond]
      constructor
      · intro last
        have sent := last i
        rw [updateClient_same, own] at sent
        refine ⟨fun j => ?_, sent.2⟩
        by_cases same : j = i
        · subst same
          exact sent.1
        · have other := last j
          rwa [updateClient_other _ same] at other
      · rintro ⟨judged, fits⟩ j
        by_cases same : j = i
        · subst same
          rw [updateClient_same, own]
          exact ⟨judged j, fits⟩
        · rw [updateClient_other _ same]
          exact judged j

/-- The frames sent while a request is handled are judged rightly exactly if the bytes sent decide
about none. -/
theorem handleFrame_judged {srv : UdsServer σ} (streaming : srv.Streaming) (handler : Handler σ)
    (i : Fin maxClients) :
    (srv.handleFrame handler i).Judged ↔
      srv.Judged ∧ EachHandled fitsOrExceeds handler i srv := by
  unfold EachHandled handleFrame
  dsimp only
  generalize handler srv.userData ((srv.clients i).request ++ [0]) = handling
  generalize noted_eq : ({ srv.updateClient i (·.noteRequest (srv.clients i).request) with
    userData := handling.userData } : UdsServer σ) = noted
  have clients : noted.clients =
      (srv.updateClient i (·.noteRequest (srv.clients i).request)).clients := by
    rw [← noted_eq]
  have noted_streaming : noted.Streaming := by
    intro j
    rw [clients]
    exact streaming.noteRequest i _ j
  have noted_judged : noted.Judged ↔ srv.Judged := by
    rw [Judged, clients]
    exact Judged.updateClient_iff Iff.rfl
  rw [respond_judged (noted_streaming.foldl_broadcast _), notifications_judged noted_streaming,
    noted_judged, and_assoc]

theorem compactClient_judged {srv : UdsServer σ} (i : Fin maxClients) :
    (srv.compactClient i).Judged ↔ srv.Judged := by
  have noted : (srv.updateClient i Client.noteCompaction).Judged ↔ srv.Judged :=
    Judged.updateClient_iff Iff.rfl
  unfold compactClient
  dsimp only
  split
  · exact noted
  · exact (Judged.updateClient_iff Iff.rfl).trans noted

/-- The frame loop judges rightly exactly if the bytes sent decide about no frame it sends. -/
theorem frameLoop_judged {i : Fin maxClients} {fuel : Nat} {srv : UdsServer σ}
    (streaming : srv.Streaming) :
    (srv.frameLoop handler i fuel).Judged ↔
      srv.Judged ∧ EachLooped fitsOrExceeds handler i fuel srv := by
  induction fuel generalizing srv with
  | zero => simp [frameLoop, EachLooped]
  | succ fuel induction =>
      unfold frameLoop EachLooped
      cases scan : (srv.clients i).scan with
      | wait c =>
          rw [Judged.updateClient_iff, and_true]
          obtain ⟨rfl, -⟩ | ⟨rfl, -⟩ := Client.scan_wait scan <;> exact Iff.rfl
      | oversized c =>
          obtain ⟨rfl, -⟩ := Client.scan_oversized scan
          have streams := streaming i
          have noted : ({ srv.clients i with frameLen := (srv.clients i).scannedLen } :
              Client).Streams [] :=
            ⟨streams.stored, streams.complete, streams.closed, streams.unclosed⟩
          rw [Judged.updateClient_iff, and_true]
          exact Client.closeClient_judged_iff noted (fun _ _ => by simp)
      | frame c =>
          obtain ⟨rfl, -⟩ := Client.scan_frame scan
          have scanned : (srv.updateClient i fun _ => (srv.clients i).withLen).Streaming :=
            streaming.updateClient ⟨(streaming i).stored, (streaming i).complete,
              (streaming i).closed, (streaming i).unclosed⟩
          have scanned_judged : (srv.updateClient i fun _ => (srv.clients i).withLen).Judged ↔
              srv.Judged := Judged.updateClient_iff Iff.rfl
          have compacted := (Streaming.handleFrame scanned handler i).compactClient i
          have judged := (compactClient_judged i).trans (handleFrame_judged scanned handler i)
          dsimp only
          rw [scanned_judged] at judged
          split
          case isTrue crashed => simp [judged, crashed]
          case isFalse runs =>
            have running := Bool.eq_false_iff.mpr runs
            rw [induction compacted, judged, and_assoc]
            simp [running]

/-! ## Runs -/

theorem Streaming.step {srv : UdsServer σ} (streaming : srv.Streaming) (event : Event) :
    (srv.step handler event).Streaming :=
  fun j => (streaming j).of_step (step_client (eachSend_of_all anyFrame handler srv event) j)

/-- Reading is judged rightly exactly if the bytes sent decide about no frame sent meanwhile. -/
theorem clientProcessRead_judged {srv : UdsServer σ} (streaming : srv.Streaming)
    (i : Fin maxClients) (count : Nat) :
    (srv.clientProcessRead handler i (.arrived count)).Judged ↔
      srv.Judged ∧ ((srv.clients i).arriving count ≠ [] →
        let srv := srv.updateClient i fun c => c.receive (c.arriving count)
        EachLooped fitsOrExceeds handler i (srv.clients i).rlen srv) := by
  unfold clientProcessRead
  dsimp only
  by_cases nothing : (srv.clients i).arriving count = []
  · rw [if_pos nothing, Judged.updateClient_iff]
    · simp [nothing]
    · exact Client.closeClient_judged_iff (streaming i) (fun _ _ => by simp)
  · have received : (srv.updateClient i (·.receive ((srv.clients i).arriving count))).Streaming :=
      streaming.updateClient ⟨(streaming i).stored, (streaming i).complete, (streaming i).closed,
        (streaming i).unclosed⟩
    have received_judged :
        (srv.updateClient i (·.receive ((srv.clients i).arriving count))).Judged ↔ srv.Judged :=
      Judged.updateClient_iff Iff.rfl
    rw [if_neg nothing, frameLoop_judged received, received_judged]
    simp only [ne_eq, nothing, not_false_eq_true, forall_const]
    rfl

theorem Streaming.clientProcessRead {srv : UdsServer σ} (streaming : srv.Streaming)
    (running : srv.crashed = false) (i : Fin maxClients) (count : Nat) :
    (srv.clientProcessRead handler i (.arrived count)).Streaming := by
  unfold UdsServer.clientProcessRead
  dsimp only
  split
  · exact streaming.updateClient ((streaming i).closeClient _ _)
  · have received : (srv.updateClient i (·.receive ((srv.clients i).arriving count))).Streaming :=
      streaming.updateClient ⟨(streaming i).stored, (streaming i).complete, (streaming i).closed,
        (streaming i).unclosed⟩
    obtain ⟨loop, others⟩ := frameLoop_reading (by exact running) (Nat.le_refl _)
      (eachLooped_of_all anyFrame handler i _
        (srv.updateClient i (·.receive ((srv.clients i).arriving count))))
    intro j
    by_cases same : j = i
    · subst same
      exact (received j).of_reading loop
    · exact (received j).of_sends (others j same)

theorem drainClient_judged {c : Client} (streams : c.Streams []) :
    (drainClient c).OverflowJudged ↔ c.OverflowJudged := by
  by_cases connected : c.fd.isSome
  · have judged := Client.overflowJudged_of_none (streams.unclosed connected)
    refine iff_of_true ?_ judged
    unfold drainClient
    split
    · exact Client.clientWrite_judged judged
    · exact judged
  · rw [drainClient_closed (by simpa using connected)]

/-- A running server judges rightly exactly if the bytes sent decide about no frame of the step. -/
theorem step_judged {srv : UdsServer σ} (running : srv.crashed = false)
    (streaming : srv.Streaming) (judged : srv.Judged) (event : Event) :
    (srv.step handler event).Judged ↔ EachSend fitsOrExceeds handler srv event := by
  rw [step, if_neg (by simp [running])]
  cases event with
  | broadcast json => simp [handle, broadcast_judged streaming, EachSend, judged]
  | accept fd socket =>
      cases found : srv.findFreeClient with
      | none => simp [handle, found, EachSend, judged]
      | some i =>
          simp only [handle, found, EachSend, iff_true]
          refine (Judged.updateClient_iff ?_).mpr judged
          exact iff_of_true (Client.overflowJudged_of_none rfl) (judged i)
  | hangUp fd =>
      cases found : srv.findClient fd with
      | none => simp [handle, found, EachSend, judged]
      | some i =>
          simp only [handle, found, EachSend, iff_true]
          exact (Judged.updateClient_iff
            (Client.closeClient_judged_iff (streaming i) fun _ _ => by simp)).mpr judged
  | readable fd outcome =>
      cases found : srv.findClient fd with
      | none => cases outcome <;> simp [handle, found, EachSend, judged]
      | some i =>
          have drained (after : UdsServer σ) (streams : after.Streaming) :
              (if after.crashed then after else after.updateClient i drainClient).Judged ↔
                after.Judged := by
            split
            · rfl
            · exact Judged.updateClient_iff (drainClient_judged (streams i))
          simp only [handle, found]
          cases outcome with
          | wouldBlock =>
              rw [drained _ (by exact streaming)]
              simpa [clientProcessRead, EachSend] using judged
          | error =>
              have closed : (srv.updateClient i (·.closeClient .readError)).Streaming :=
                streaming.updateClient ((streaming i).closeClient _ _)
              rw [clientProcessRead, drained _ closed]
              simp only [EachSend, iff_true]
              exact (Judged.updateClient_iff
                (Client.closeClient_judged_iff (streaming i) fun _ _ => by simp)).mpr judged
          | arrived count =>
              rw [drained _ (streaming.clientProcessRead running i count),
                clientProcessRead_judged streaming i count]
              simp [judged, EachSend, found]

/-- Whether the frames of a step fit is not decided by the bytes already sent. -/
def SentDecideNothing (handler : Handler σ) (srv : UdsServer σ) (event : Event) : Prop :=
  srv.crashed = false → EachSend fitsOrExceeds handler srv event

/-- In all slots, what was delivered is a prefix of the frames enqueued, and no client was closed
for an overflow while there was room. -/
def OutputIntact (srv : UdsServer σ) : Prop :=
  ∀ j, (srv.clients j).history.delivered <+:
      wireFormat.encodeAll (srv.clients j).history.frames ∧ (srv.clients j).OverflowJudged

theorem outputIntact_iff {srv : UdsServer σ} (streaming : srv.Streaming) :
    srv.OutputIntact ↔ srv.Judged :=
  forall_congr' fun j => and_iff_right (streaming j).delivered_within

/-- In every run the clients are sent prefixes of the frames enqueued for them, and are dropped for
an overflow only without room for the bytes still unsent, exactly if the bytes already sent never
decide. -/
theorem outputIntact_iff_sentDecideNothing (handler : Handler σ) (userData : σ)
    (events : List Event) :
    Machine.Always (step handler) OutputIntact (new userData) events ↔
      Machine.EachStep (step handler) (SentDecideNothing handler) (new userData) events := by
  refine Machine.always_iff_eachStep Streaming (fun srv event streaming intact => ?_)
    (fun srv event streaming _ _ => streaming.step event) ?_ ?_
  · have judged := (outputIntact_iff streaming).mp intact
    rw [outputIntact_iff (streaming.step event)]
    cases running : srv.crashed with
    | true => simp [step, running, judged, SentDecideNothing]
    | false => simp [step_judged running streaming judged, running, SentDecideNothing]
  · intro j
    exact ⟨Nat.le_refl 0, fun connected => by simp [new, Client.free] at connected,
      fun _ => List.nil_prefix, fun _ => rfl⟩
  · exact fun j => ⟨List.nil_prefix, Client.overflowJudged_of_none rfl⟩

open Client in
/-- A client whose first frame was sent but for 5008 bytes is dropped for a second one. -/
theorem closing_of_second_frame {first second : Bytes} (long : first.length = 65000)
    (short : second.length = 1000) :
    ((Machine.run (step fun (_ : Unit) _ => ⟨(), [], none⟩) (new ())
      [.accept 5 ⟨[], [.wouldBlock, .sent 60000]⟩, .broadcast first, .broadcast second]).clients
        ⟨0, by decide⟩).history.closing = some (.overflow 5008 1000) := by
  have sent : (Machine.run (step fun (_ : Unit) _ => ⟨(), [], none⟩) (new ())
      [.accept 5 ⟨[], [.wouldBlock, .sent 60000]⟩, .broadcast first, .broadcast second]).clients
        ⟨0, by decide⟩ =
      notify (notify (Client.free.accept 5 ⟨[], [.wouldBlock, .sent 60000]⟩) first) second := rfl
  rw [sent]
  simp [notify, listens, Client.accept, Client.free, clientSendFrame, enqueueHeader, noteFrame,
    clientEnqueue, clientWrite, wlen, lengthHeader, maxFrame, writeBufSize, sendTaken, closeClient,
    unsent, long, short]

/-- With 5008 bytes unsent, a frame of 1000 bytes is dropped for want of room. -/
theorem sent_bytes_drop :
    ¬Machine.Always (step fun (_ : Unit) _ => ⟨(), [], none⟩) OutputIntact (new ())
      [.accept 5 ⟨[], [.wouldBlock, .sent 60000]⟩, .broadcast (List.replicate 65000 32),
        .broadcast (List.replicate 1000 32)] := by
  intro always
  have first : (List.replicate 65000 (32 : UInt8)).length = 65000 := List.length_replicate
  have second : (List.replicate 1000 (32 : UInt8)).length = 1000 := List.length_replicate
  have judged := (always.final ⟨0, by decide⟩).2
  have dropped := judged 5008 1000 (closing_of_second_frame first second)
  revert dropped
  decide

end UdsServer

end Uds

end Typio
