import Typio.Ipc.UdsConnection

/-!
# Re-entrancy of the frame loop

The frame loop takes a frame off the read buffer after the handler has run and its response was
sent.  Either may close the client, which clears the very lengths the loop goes on to use.  The loop
is safe exactly if every frame sent to the client while one of its own frames is handled is
accepted by the write buffer and by the socket.
-/

namespace Typio

namespace Uds

namespace Client

/-- Every compaction was of an open client and took no more than the buffer held. -/
def CompactionsSafe (c : Client) : Prop :=
  ∀ compaction ∈ c.history.compactions,
    compaction.isOpen = true ∧ compaction.consumed ≤ compaction.rlen

/-- The bytes fit behind those stored, and the send that follows does not fail. -/
def Accepts (c : Client) (data : Bytes) : Prop :=
  c.wlen + data.length ≤ writeBufSize ∧
    (c.wpos < c.wlen + data.length → c.socket.sends.head? ≠ some .error)

/-- The client accepts the frame, unless it is too large to be sent at all. -/
def AcceptsFrame (c : Client) (json : Bytes) : Prop :=
  json.length ≤ maxFrame →
    (c.noteFrame json).Accepts (lengthHeader json.length) ∧ (c.enqueueHeader json).2.Accepts json

/-! ## Sending to an open client -/

theorem sendTaken_fd (c : Client) (count : Nat) : (c.sendTaken count).fd = c.fd := by
  unfold sendTaken
  dsimp only
  split <;> rfl

/-- A write keeps an open client open exactly if its send does not fail. -/
theorem clientWrite_open {c : Client} (connected : c.fd.isSome) :
    c.clientWrite.1 = c.clientWrite.2.fd.isSome ∧
      (c.clientWrite.2.fd.isSome ↔ (c.wpos < c.wlen → c.socket.sends.head? ≠ some .error)) := by
  unfold clientWrite
  by_cases drained : c.wlen ≤ c.wpos
  · simp [if_pos drained, connected]
    omega
  · rw [if_neg drained, if_neg (by simpa using Option.isSome_iff_ne_none.mp connected)]
    cases sends : c.socket.sends with
    | nil => simp [connected]
    | cons outcome later =>
        cases outcome with
        | wouldBlock => simp [connected]
        | sent count => simp [sendTaken_fd, connected]
        | error =>
            simp [closeClient_fd]
            omega

/-- Storing bytes keeps an open client open exactly if they are accepted. -/
theorem clientEnqueue_open {c : Client} (connected : c.fd.isSome) (data : Bytes)
    (following : Nat) :
    (c.clientEnqueue data following).1 = (c.clientEnqueue data following).2.fd.isSome ∧
      ((c.clientEnqueue data following).2.fd.isSome ↔ c.Accepts data) := by
  unfold clientEnqueue Accepts
  by_cases full : writeBufSize < c.wlen + data.length
  · rw [if_pos full]
    simp [closeClient_fd]
    omega
  · rw [if_neg full]
    have stored : ({ c with wbuf := c.wbuf ++ data } : Client).wlen = c.wlen + data.length := by
      simp [wlen]
    have written := clientWrite_open (c := { c with wbuf := c.wbuf ++ data }) connected
    rw [stored] at written
    refine ⟨written.1, written.2.trans ?_⟩
    simp [Nat.le_of_not_lt full]

/-- Sending a frame keeps an open client open exactly if the frame is accepted. -/
theorem clientSendFrame_open {c : Client} (connected : c.fd.isSome) (json : Bytes) :
    (c.clientSendFrame json).2.fd.isSome ↔ c.AcceptsFrame json := by
  unfold clientSendFrame AcceptsFrame
  by_cases large : maxFrame < json.length
  · rw [if_pos large]
    simp [connected]
    omega
  · rw [if_neg large]
    have headed := clientEnqueue_open (c := c.noteFrame json) connected
      (lengthHeader json.length) (4 + json.length)
    have accepts := headed.2
    simp only [Nat.le_of_not_lt large, forall_const]
    cases stored : (c.enqueueHeader json).1 with
    | false =>
        have closed : (c.enqueueHeader json).2.fd.isSome = false := by
          rw [← stored]
          exact headed.1.symm
        simp only [Bool.false_eq_true, if_false, closed, false_iff]
        rintro ⟨header, -⟩
        have opened : (c.enqueueHeader json).2.fd.isSome := accepts.mpr header
        simp [closed] at opened
    | true =>
        have opened : (c.enqueueHeader json).2.fd.isSome = true := by
          rw [← stored]
          exact headed.1.symm
        rw [if_pos rfl, (clientEnqueue_open opened json json.length).2]
        exact ⟨fun payload => ⟨accepts.mp opened, payload⟩, And.right⟩

end Client

/-- A slot that is not read from keeps its compactions safe. -/
theorem ClientStep.compactionsSafe {hangs reads : Prop} {allowed : Client → Bytes → Prop}
    {c after : Client} (step : ClientStep hangs reads allowed c after) (idle : ¬reads)
    (safe : c.CompactionsSafe) : after.CompactionsSafe := by
  have of_kept {after : Client} (kept : SendKept c after) : after.CompactionsSafe := by
    rw [Client.CompactionsSafe, kept.compactions]
    exact safe
  have of_closed (reason : Closing) : (c.closeClient reason).CompactionsSafe := by
    unfold Client.closeClient
    split <;> exact safe
  cases step with
  | sends sends => exact of_kept (.of_sends sends)
  | accepted => simp [Client.CompactionsSafe, Client.accept, History.empty]
  | hungUp => exact of_closed _
  | readFailed => exact of_closed _
  | drained => exact of_kept (.drainClient c)
  | readNothing reading => exact absurd reading idle
  | read reading => exact absurd reading idle
  | readDrained reading => exact absurd reading idle

namespace UdsServer

variable {σ : Type} {handler : Handler σ}

/-! ## The frame loop -/

/-- The frames for the client itself are accepted. -/
def ownAccepted (i : Fin maxClients) : Fin maxClients → Client → Bytes → Prop :=
  fun j c json => j = i → c.AcceptsFrame json

/-- An open client hears all notifications exactly if it accepts each. -/
theorem eachNotified_iff {i : Fin maxClients} {srv : UdsServer σ}
    (connected : (srv.clients i).fd.isSome) (notifications : List Bytes) :
    EachNotified (ownAccepted i) srv notifications ↔
      ((notifications.foldl broadcast srv).clients i).fd.isSome := by
  induction notifications generalizing srv with
  | nil => simpa [EachNotified] using connected
  | cons json notifications induction =>
      have first : (∀ j, (srv.clients j).listens → ownAccepted i j (srv.clients j) json) ↔
          ((srv.broadcast json).clients i).fd.isSome := by
        simp only [broadcast, notify]
        split
        case isTrue listening =>
          rw [Client.clientSendFrame_open connected]
          constructor
          · intro each
            exact each i listening rfl
          · rintro accepts j - rfl
            exact accepts
        case isFalse deaf =>
          simp only [connected, iff_true]
          rintro j listening rfl
          exact absurd listening deaf
      rw [EachNotified, first, List.foldl_cons]
      by_cases opened : ((srv.broadcast json).clients i).fd.isSome
      · rw [induction opened]
        simp [opened]
      · constructor
        · intro each
          exact absurd each.1 opened
        · intro last
          have sends := foldl_broadcast_sends
            (eachNotified_of_all anyFrame (srv.broadcast json) notifications) i
          exact absurd ((SendKept.of_sends sends).connected last).1 opened

/-- The client stays open while its frame is handled exactly if it accepts what it is sent. -/
theorem eachHandled_iff {i : Fin maxClients} {srv : UdsServer σ}
    (connected : (srv.clients i).fd.isSome) :
    EachHandled (ownAccepted i) handler i srv ↔
      ((srv.handleFrame handler i).clients i).fd.isSome := by
  unfold EachHandled handleFrame
  dsimp only
  generalize handling_eq : handler srv.userData ((srv.clients i).request ++ [0]) = handling
  have noted : (({ srv.updateClient i (·.noteRequest (srv.clients i).request) with
      userData := handling.userData } : UdsServer σ).clients i).fd.isSome := by
    rw [updateClient_same]
    exact connected
  rw [eachNotified_iff noted]
  generalize handling.notifications.foldl broadcast _ = notified
  cases handling.response with
  | none => simp [EachResponded, respond]
  | some response =>
      simp only [EachResponded, respond, updateClient_same, ownAccepted, forall_const]
      by_cases opened : (notified.clients i).fd.isSome
      · rw [Client.clientSendFrame_open opened]
        simp [opened]
      · have closed (last : ((notified.clients i).clientSendFrame response).2.fd.isSome) :=
          opened ((SendKept.clientSendFrame _ _).connected last).1
        simp only [opened, false_and, false_iff, Bool.false_eq_true]
        exact closed

/-- While an open client's frame is handled, its reading side is left alone or it is closed. -/
theorem handleFrame_kept (handler : Handler σ) (i : Fin maxClients) (srv : UdsServer σ) :
    SendKept ((srv.clients i).noteRequest (srv.clients i).request)
      ((srv.handleFrame handler i).clients i) := by
  have sends := handleFrame_sends (eachHandled_of_all anyFrame handler i srv) i
  rw [updateClient_same] at sends
  exact .of_sends sends

/-- The frame loop does not crash and keeps the compactions safe exactly if the client accepts all
it is sent. -/
theorem frameLoop_safe_iff {i : Fin maxClients} {fuel : Nat} {srv : UdsServer σ}
    (running : srv.crashed = false) (connected : (srv.clients i).fd.isSome)
    (enough : (srv.clients i).rlen ≤ fuel) (safe : (srv.clients i).CompactionsSafe) :
    ((srv.frameLoop handler i fuel).crashed = false ∧
        ((srv.frameLoop handler i fuel).clients i).CompactionsSafe) ↔
      EachLooped (ownAccepted i) handler i fuel srv := by
  induction fuel generalizing srv with
  | zero => exact ⟨fun _ => trivial, fun _ => ⟨running, safe⟩⟩
  | succ fuel induction =>
      unfold frameLoop EachLooped
      cases scan : (srv.clients i).scan with
      | wait c =>
          simp only [updateClient_same, updateClient_crashed, running, true_and, iff_true]
          obtain ⟨rfl, -⟩ | ⟨rfl, -⟩ := Client.scan_wait scan <;> exact safe
      | oversized c =>
          obtain ⟨rfl, -⟩ := Client.scan_oversized scan
          simp only [updateClient_same, updateClient_crashed, running, true_and, iff_true]
          unfold Client.closeClient
          split <;> exact safe
      | frame c =>
          obtain ⟨rfl, filled, whole, -⟩ := Client.scan_frame scan
          dsimp only
          have scanned : ((srv.updateClient i fun _ => (srv.clients i).withLen).clients
              i).fd.isSome := by
            rw [updateClient_same]
            exact connected
          have kept := handleFrame_kept handler i
            (srv.updateClient i fun _ => (srv.clients i).withLen)
          have still := handleFrame_crashed handler
            (srv.updateClient i fun _ => (srv.clients i).withLen) i
          rw [updateClient_crashed, running] at still
          rw [eachHandled_iff scanned]
          revert kept still
          generalize (srv.updateClient i fun _ => (srv.clients i).withLen).handleFrame handler i =
            served
          intro kept still
          simp only [updateClient_same] at kept
          have logged : (served.clients i).history.compactions =
              (srv.clients i).history.compactions := kept.compactions
          obtain ⟨overrun, crashed, noted⟩ | ⟨fits, runs, compacted⟩ := compactClient_cases
            (i := i) still
          · -- an open client has kept the frame it was scanned for
            have closed : ¬(served.clients i).fd.isSome := by
              intro opened
              obtain ⟨-, same⟩ := kept.connected opened
              simp only [Client.rlen, Client.consumed, same.rbuf, same.frameLen] at overrun
              exact absurd whole (Nat.not_le_of_lt overrun)
            rw [if_pos crashed]
            simp [closed, crashed]
          · have opened : (served.clients i).fd.isSome := by
              obtain same | dropped := kept.reading
              · rw [same.fd]
                exact connected
              · simp [Client.rlen, Client.consumed, dropped.rbuf] at fits
            obtain ⟨-, same⟩ := kept.connected opened
            have again : ((served.compactClient i).clients i).CompactionsSafe := by
              rw [compacted]
              intro compaction listed
              obtain earlier | last := List.mem_append.mp listed
              · rw [logged] at earlier
                exact safe compaction earlier
              · rw [List.mem_singleton.mp last]
                exact ⟨opened, fits⟩
            have shorter : ((served.compactClient i).clients i).rlen ≤ fuel := by
              have length := congrArg List.length same.rbuf
              rw [compacted]
              simp only [Client.rlen, Client.noteRequest, Client.withLen, Client.compact,
                Client.noteCompaction, Client.consumed, List.length_drop] at length enough ⊢
              omega
            have connected_still : ((served.compactClient i).clients i).fd.isSome := by
              rw [compacted]
              exact opened
            rw [if_neg (by simp [runs]), induction runs connected_still shorter again]
            simp [opened, runs]

/-! ## Runs -/

/-- No memory was moved out of bounds, and in all slots the frame loop has only compacted the
buffers of open clients by no more than they held. -/
def ReadsSafely (srv : UdsServer σ) : Prop :=
  srv.crashed = false ∧ ∀ i, (srv.clients i).CompactionsSafe

/-- Where the step reads frames of a client, the client accepts all that is sent to it meanwhile. -/
def RequesterAccepts (handler : Handler σ) (srv : UdsServer σ) (event : Event) : Prop :=
  EachSend (fun j c json => srv.Reads event j → c.AcceptsFrame json) handler srv event

/-- A step which reads from no slot does not crash the server. -/
theorem step_running_of_idle {srv : UdsServer σ} {event : Event} (running : srv.crashed = false)
    (idle : ∀ j, ¬srv.Reads event j) : (srv.step handler event).crashed = false := by
  rw [step, if_neg (by simp [running])]
  cases event with
  | accept fd socket =>
      unfold handle
      dsimp only
      split <;> exact running
  | hangUp fd =>
      unfold handle
      dsimp only
      split <;> exact running
  | broadcast json => exact running
  | readable fd outcome =>
      cases found : srv.findClient fd with
      | none =>
          simp only [handle, found]
          exact running
      | some i =>
          simp only [handle, found]
          cases outcome with
          | wouldBlock => simp [clientProcessRead, running]
          | error => simp [clientProcessRead, running]
          | arrived count => exact absurd ⟨fd, count, rfl, found⟩ (idle i)

/-- The slots that are not read from keep their compactions safe. -/
theorem step_compactionsSafe {srv : UdsServer σ} {event : Event} {j : Fin maxClients}
    (idle : ¬srv.Reads event j) (safe : (srv.clients j).CompactionsSafe) :
    ((srv.step handler event).clients j).CompactionsSafe :=
  (step_client (eachSend_of_all anyFrame handler srv event) j).compactionsSafe idle safe

/-- Reading from a client is safe exactly if it accepts all that is sent to it meanwhile. -/
theorem clientProcessRead_safe_iff (handler : Handler σ) {srv : UdsServer σ}
    {i : Fin maxClients} (count : Nat) (running : srv.crashed = false)
    (connected : (srv.clients i).fd.isSome) (safe : (srv.clients i).CompactionsSafe) :
    ((srv.clientProcessRead handler i (.arrived count)).crashed = false ∧
        ((srv.clientProcessRead handler i (.arrived count)).clients i).CompactionsSafe) ↔
      ((srv.clients i).arriving count ≠ [] →
        let srv := srv.updateClient i fun c => c.receive (c.arriving count)
        EachLooped (ownAccepted i) handler i (srv.clients i).rlen srv) := by
  unfold clientProcessRead
  dsimp only
  by_cases nothing : (srv.clients i).arriving count = []
  · simp only [nothing, if_true, updateClient_crashed, updateClient_same, running, true_and,
      ne_eq, not_true_eq_false, false_implies, iff_true]
    unfold Client.closeClient
    split <;> exact safe
  · rw [if_neg nothing]
    simp only [ne_eq, nothing, not_false_eq_true, forall_const]
    refine frameLoop_safe_iff running ?_ (Nat.le_refl _) ?_ <;> rw [updateClient_same]
    · exact connected
    · exact safe

theorem step_readsSafely_iff {srv : UdsServer σ} (safe : srv.ReadsSafely) (event : Event) :
    (srv.step handler event).ReadsSafely ↔ srv.RequesterAccepts handler event := by
  obtain ⟨running, slots⟩ := safe
  by_cases idle : ∀ j, ¬srv.Reads event j
  · refine iff_of_true ⟨step_running_of_idle running idle, fun j => ?_⟩ ?_
    · exact step_compactionsSafe (idle j) (slots j)
    · exact eachSend_of_all (fun j _ _ reads => absurd reads (idle j)) handler srv event
  · obtain ⟨i, fd, count, rfl, found⟩ := by simpa using idle
    have reader (j : Fin maxClients) :
        srv.Reads (.readable fd (.arrived count)) j ↔ j = i := by
      constructor
      · rintro ⟨fd', count', event_eq, found'⟩
        injection event_eq with fd_eq
        subst fd_eq
        exact Option.some.inj (found'.symm.trans found)
      · rintro rfl
        exact ⟨fd, count, rfl, found⟩
    have connected : (srv.clients i).fd.isSome := by
      rw [fd_of_findClient found]
      rfl
    have accepted : (fun (j : Fin maxClients) (c : Client) (json : Bytes) =>
        srv.Reads (.readable fd (.arrived count)) j → c.AcceptsFrame json) = ownAccepted i := by
      funext j c json
      rw [reader, ownAccepted]
    have read := clientProcessRead_safe_iff handler count running connected (slots i)
    have condition : srv.RequesterAccepts handler (.readable fd (.arrived count)) ↔
        (srv.clientProcessRead handler i (.arrived count)).crashed = false ∧
          ((srv.clientProcessRead handler i (.arrived count)).clients i).CompactionsSafe := by
      rw [read, RequesterAccepts, EachSend, accepted]
      constructor
      · intro each
        exact each i found
      · intro own j found'
        rw [Option.some.inj (found'.symm.trans found)]
        exact own
    rw [condition]
    have others (j : Fin maxClients) (other : j ≠ i) :
        ((srv.step handler (.readable fd (.arrived count))).clients j).CompactionsSafe :=
      step_compactionsSafe (fun reads => other ((reader j).mp reads)) (slots j)
    have stepped : srv.step handler (.readable fd (.arrived count)) =
        if (srv.clientProcessRead handler i (.arrived count)).crashed then
          srv.clientProcessRead handler i (.arrived count)
        else (srv.clientProcessRead handler i (.arrived count)).updateClient i drainClient := by
      rw [step, if_neg (by simp [running])]
      simp only [handle, found]
    cases crashed : (srv.clientProcessRead handler i (.arrived count)).crashed with
    | true => simp [ReadsSafely, stepped, crashed]
    | false =>
        rw [crashed, if_neg (by simp)] at stepped
        have drained : (((srv.step handler (.readable fd (.arrived count))).clients
            i).CompactionsSafe ↔
            ((srv.clientProcessRead handler i (.arrived count)).clients i).CompactionsSafe) := by
          rw [stepped, updateClient_same, Client.CompactionsSafe, Client.CompactionsSafe,
            (SendKept.drainClient _).compactions]
        rw [← drained]
        simp only [true_and]
        refine ⟨fun after => after.2 i, fun own => ⟨by rw [stepped]; exact crashed, fun j => ?_⟩⟩
        by_cases same : j = i
        · rw [same]
          exact own
        · exact others j same

/-- In every run, whatever the clients send, the handler answers and the sockets do with it, the
frame loop stays within the buffer and off closed clients exactly if each client accepts what is
sent to it while its frames are handled. -/
theorem readsSafely_iff_accepted (handler : Handler σ) (userData : σ) (events : List Event) :
    Machine.Always (step handler) ReadsSafely (new userData) events ↔
      Machine.EachStep (step handler) (RequesterAccepts handler) (new userData) events :=
  Machine.always_iff_eachStep (fun _ => True)
    (fun _ event _ safe => step_readsSafely_iff safe event) (fun _ _ _ _ _ => trivial) trivial
    ⟨rfl, fun _ => by simp [new, Client.free, Client.CompactionsSafe, History.empty]⟩

/-- The response to an empty request cannot be sent: the client is closed, and the loop then takes
four bytes off its empty buffer. -/
theorem failed_response_overruns :
    let handler : Handler Unit := fun _ _ => ⟨(), [], some [120]⟩
    ¬Machine.Always (step handler) ReadsSafely (new ())
      [.accept 5 ⟨wireFormat.encode [], [.error]⟩, .readable 5 (.arrived 4)] := by
  intro handler always
  have running := always.final.1
  revert running
  decide

end UdsServer

end Uds

end Typio
