import Mathlib.Algebra.Group.Int.Defs
import Mathlib.Algebra.Group.Nat.Defs
import Typio.JsonText
import Typio.Machine

/-!
# The command-line client of the daemon

`call` sends one request, reads one frame and takes it for the response.  The daemon answers the
requests of a connection in order, and broadcasts notifications whenever its state changes, also
while it handles a request of the same client.  The link carries frames in the order in which they
were written; what `serde_json` makes of a payload is part of the frame.
-/

namespace Typio

namespace Cli

open JsonText

/-! ## Frames -/

/-- What the daemon writes; a value is absent where the text that stands for it is not JSON. -/
inductive DaemonMessage where
  | result (id : Int) (value : Option Json)
  | error (id code : Int) (message : List UInt8)
  | notification (method : List UInt8) (params : Option Json)

namespace DaemonMessage

/-- The payload as the client parses it. -/
def json? : DaemonMessage → Option Json
  | result id value => value.map fun value =>
      .object [(ascii "jsonrpc", .string (ascii "2.0")), (ascii "id", .number id 0),
        (ascii "result", value)]
  | error id code message => some <|
      .object [(ascii "jsonrpc", .string (ascii "2.0")), (ascii "id", .number id 0),
        (ascii "error", .object [(ascii "code", .number code 0),
          (ascii "message", .string message)])]
  | notification method params => params.map fun params =>
      .object [(ascii "jsonrpc", .string (ascii "2.0")), (ascii "method", .string method),
        (ascii "params", params)]

/-- The id of a response. -/
def id? : DaemonMessage → Option Int
  | result id _ | error id _ _ => some id
  | notification _ _ => none

end DaemonMessage

/-! ## One call -/

inductive Outcome where
  | ok (value : Json)
  | failed (message : List UInt8)
  | invalidJson
  | idMismatch

/-- An integer literal; a fraction or an exponent makes a floating-point number. -/
def asI64? : Json → Option Int
  | .number mantissa 0 => if -2 ^ 63 ≤ mantissa ∧ mantissa < 2 ^ 63 then some mantissa else none
  | _ => none

/-- Either the result or the error of the response. -/
def settle (resp : Json) : Outcome :=
  match resp.get? (ascii "error") with
  | some err =>
      .failed (((err.get? (ascii "message")).bind Json.asString?).getD (ascii "unknown error"))
  | none => .ok ((resp.get? (ascii "result")).getD .null)

/-- What `call` makes of the frame it reads.  A frame without an id passes the check. -/
def interpret (id : Int) (frame : DaemonMessage) : Outcome :=
  match frame.json? with
  | none => .invalidJson
  | some resp =>
      match (resp.get? (ascii "id")).bind asI64? with
      | some respId => if respId ≠ id then .idMismatch else settle resp
      | none => settle resp

/-- The outcome is what the frame says, as the response with that id. -/
inductive Answers : DaemonMessage → Int → Outcome → Prop where
  | result (id : Int) (value : Json) : Answers (.result id (some value)) id (.ok value)
  | error (id code : Int) (message : List UInt8) :
      Answers (.error id code message) id (.failed message)

/-! ## The link -/

/-- A call that has returned: its id, the frame it read and what it returned. -/
structure Finished where
  id : Int
  frame : DaemonMessage
  outcome : Outcome

structure Link where
  nextId : Int
  pending : Option Int
  requests : List Int
  incoming : List DaemonMessage
  finished : List Finished

namespace Link

def connect : Link where
  nextId := 1
  pending := none
  requests := []
  incoming := []
  finished := []

/-- The daemon's answer to a request, apart from the id. -/
inductive Answer where
  | result (value : Option Json)
  | error (code : Int) (message : List UInt8)

def Answer.message (id : Int) : Answer → DaemonMessage
  | .result value => .result id value
  | .error code message => .error id code message

/-- A notification with the changed properties. -/
def propertiesChanged (params : Option Json) : DaemonMessage :=
  .notification (ascii "PropertiesChanged") params

/-- A request longer than the frame limit is not sent. -/
def call (link : Link) (length : Nat) : Link :=
  if link.pending.isSome then link
  else if 2 ^ 20 < length then { link with nextId := link.nextId + 1 }
  else
    { link with
      nextId := link.nextId + 1
      pending := some link.nextId
      requests := link.requests ++ [link.nextId] }

def broadcast (link : Link) (params : Option Json) : Link :=
  { link with incoming := link.incoming ++ [propertiesChanged params] }

/-- The daemon handles the oldest request.  Its handler may broadcast before it answers; the id is
narrowed to an `int`. -/
def answer (link : Link) (changes : List (Option Json)) (reply : Answer) : Link :=
  match link.requests with
  | [] => link
  | id :: later =>
      { link with
        requests := later
        incoming := link.incoming ++ changes.map propertiesChanged ++
          [reply.message (id.bmod (2 ^ 32))] }

/-- The waiting call reads the first frame and returns. -/
def read (link : Link) : Link :=
  match link.pending, link.incoming with
  | some id, frame :: later =>
      { link with
        pending := none
        incoming := later
        finished := link.finished ++ [⟨id, frame, interpret id frame⟩] }
  | _, _ => link

inductive Event where
  | call (length : Nat)
  | broadcast (params : Option Json)
  | answer (changes : List (Option Json)) (reply : Answer)
  | read

def step (link : Link) : Event → Link
  | .call length => link.call length
  | .broadcast params => link.broadcast params
  | .answer changes reply => link.answer changes reply
  | .read => link.read

/-! ## The property and the condition -/

/-- Every call returned what the response with its id says, having read that response. -/
def Matched (link : Link) : Prop :=
  ∀ call ∈ link.finished, Answers call.frame call.id call.outcome

/-- A call that reads finds no notification in front of it, but a frame which is JSON; and its id
fits an `int`. -/
def ReadsResponse (link : Link) (event : Event) : Prop :=
  event = .read → ∀ id ∈ link.pending, ∀ frame ∈ link.incoming.head?,
    frame.id?.isSome ∧ frame.json?.isSome ∧ id < 2 ^ 31

/-! ## The invariant -/

/-- Unread notifications. -/
def OnlyNotifications (frames : List DaemonMessage) : Prop :=
  ∀ frame ∈ frames, ∃ params, frame = propertiesChanged params

/-- At most one request is under way: still at the daemon, or answered by the one response among
the unread frames. -/
inductive Underway (link : Link) : Prop where
  | idle (free : link.pending = none) (none : link.requests = [])
      (unread : OnlyNotifications link.incoming)
  | asked (id : Int) (waits : link.pending = some id) (one : link.requests = [id])
      (unread : OnlyNotifications link.incoming)
  | answered (id : Int) (reply : Answer) (before after : List DaemonMessage)
      (waits : link.pending = some id) (none : link.requests = [])
      (unread : link.incoming = before ++ reply.message (id.bmod (2 ^ 32)) :: after)
      (earlier : OnlyNotifications before) (later : OnlyNotifications after)

theorem Underway.congr {link other : Link} (underway : link.Underway)
    (pending : other.pending = link.pending) (requests : other.requests = link.requests)
    (incoming : other.incoming = link.incoming) : other.Underway := by
  cases underway with
  | idle free none unread =>
      exact .idle (pending.trans free) (requests.trans none) (by rwa [incoming])
  | asked id waits one unread =>
      exact .asked id (pending.trans waits) (requests.trans one) (by rwa [incoming])
  | answered id reply before after waits none unread earlier later =>
      exact .answered id reply before after (pending.trans waits) (requests.trans none)
        (incoming.trans unread) earlier later

structure Sound (link : Link) : Prop where
  positive : 0 < link.nextId
  waiting : ∀ id ∈ link.pending, 0 < id
  underway : link.Underway

theorem OnlyNotifications.append {first second : List DaemonMessage}
    (left : OnlyNotifications first) (right : OnlyNotifications second) :
    OnlyNotifications (first ++ second) := by
  intro frame member
  obtain member | member := List.mem_append.mp member
  · exact left frame member
  · exact right frame member

theorem onlyNotifications_map (changes : List (Option Json)) :
    OnlyNotifications (changes.map propertiesChanged) := by
  intro frame member
  obtain ⟨params, -, rfl⟩ := List.mem_map.mp member
  exact ⟨params, rfl⟩

theorem bmod_eq_self_iff {id : Int} (positive : 0 < id) :
    id.bmod (2 ^ 32) = id ↔ id < 2 ^ 31 := by
  constructor
  · intro same
    have below := Int.bmod_lt (x := id) (m := 2 ^ 32) (by decide)
    omega
  · intro small
    exact Int.bmod_eq_of_le (by omega) (by omega)

/-- What a call makes of a well-formed response. -/
theorem interpret_result (id : Int) {sent : Int} (inRange : -2 ^ 63 ≤ sent ∧ sent < 2 ^ 63)
    (value : Json) : interpret id (.result sent (some value)) =
      if sent ≠ id then .idMismatch else .ok value := by
  have member : asI64? (.number sent 0) = some sent := if_pos inRange
  change (match asI64? (.number sent 0) with
    | some respId => if respId ≠ id then Outcome.idMismatch else .ok value
    | none => .ok value) = _
  rw [member]

theorem interpret_error (id : Int) {sent : Int} (inRange : -2 ^ 63 ≤ sent ∧ sent < 2 ^ 63)
    (code : Int) (message : List UInt8) : interpret id (.error sent code message) =
      if sent ≠ id then .idMismatch else .failed message := by
  have member : asI64? (.number sent 0) = some sent := if_pos inRange
  change (match asI64? (.number sent 0) with
    | some respId => if respId ≠ id then Outcome.idMismatch else .failed message
    | none => .failed message) = _
  rw [member]

/-- A response is taken as the one it is exactly when it is JSON and carries the id of the call. -/
theorem answers_interpret_iff {id sent : Int} (inRange : -2 ^ 63 ≤ sent ∧ sent < 2 ^ 63)
    (reply : Answer) :
    Answers (reply.message sent) id (interpret id (reply.message sent)) ↔
      (reply.message sent).json?.isSome ∧ sent = id := by
  constructor
  · intro answers
    generalize returned : interpret id (reply.message sent) = outcome at answers
    cases reply with
    | result value =>
        cases answers with
        | result _ value => exact ⟨rfl, rfl⟩
    | error code message =>
        cases answers with
        | error => exact ⟨rfl, rfl⟩
  · rintro ⟨wellFormed, rfl⟩
    cases reply with
    | result value =>
        cases value with
        | none => simp [Answer.message, DaemonMessage.json?] at wellFormed
        | some value =>
            rw [Answer.message, interpret_result _ inRange, if_neg (not_not.mpr rfl)]
            exact .result sent value
    | error code message =>
        rw [Answer.message, interpret_error _ inRange, if_neg (not_not.mpr rfl)]
        exact .error sent code message

theorem not_answers_notification {method : List UInt8} {params : Option Json} {id : Int}
    {outcome : Outcome} : ¬ Answers (.notification method params) id outcome := by
  intro answers
  cases answers

theorem Answer.id?_message (reply : Answer) (id : Int) : (reply.message id).id? = some id := by
  cases reply <;> rfl

theorem bmod_inRange (id : Int) :
    -2 ^ 63 ≤ id.bmod (2 ^ 32) ∧ id.bmod (2 ^ 32) < 2 ^ 63 := by
  have below := Int.bmod_lt (x := id) (m := 2 ^ 32) (by decide)
  have above := Int.le_bmod (x := id) (m := 2 ^ 32) (by decide)
  omega

/-- The frame a waiting call finds first. -/
theorem Underway.head {link : Link} (underway : link.Underway) {id : Int}
    (waits : link.pending = some id) {frame : DaemonMessage} {later : List DaemonMessage}
    (unread : link.incoming = frame :: later) :
    (∃ params, frame = propertiesChanged params) ∨
      ∃ reply : Answer, frame = reply.message (id.bmod (2 ^ 32)) ∧ link.requests = [] ∧
        OnlyNotifications later := by
  cases underway with
  | idle free => simp [free] at waits
  | asked _ _ _ only => exact .inl (only frame (by simp [unread]))
  | answered id' reply before after waits' none unread' earlier only =>
      obtain rfl : id = id' := Option.some.inj (waits.symm.trans waits')
      rw [unread] at unread'
      cases before with
      | nil =>
          obtain ⟨rfl, rfl⟩ := List.cons.inj unread'
          exact .inr ⟨reply, rfl, none, only⟩
      | cons first before =>
          obtain ⟨rfl, -⟩ := List.cons.inj unread'
          exact .inl (earlier _ (by simp))

theorem read_of_idle {link : Link} (idle : link.pending = none ∨ link.incoming = []) :
    link.read = link := by
  unfold read
  obtain idle | idle := idle
  · simp [idle]
  · cases link.pending <;> simp [idle]

theorem read_of_frame {link : Link} {id : Int} {frame : DaemonMessage}
    {later : List DaemonMessage} (waits : link.pending = some id)
    (unread : link.incoming = frame :: later) :
    link.read = { link with
      pending := none
      incoming := later
      finished := link.finished ++ [⟨id, frame, interpret id frame⟩] } := by
  simp [read, waits, unread]

/-- The frame of a read is a response exactly when the call may take it for one. -/
theorem Sound.answers_iff {link : Link} (sound : link.Sound) {id : Int} {frame : DaemonMessage}
    {later : List DaemonMessage} (waits : link.pending = some id)
    (unread : link.incoming = frame :: later) :
    Answers frame id (interpret id frame) ↔
      frame.id?.isSome ∧ frame.json?.isSome ∧ id < 2 ^ 31 := by
  obtain ⟨params, rfl⟩ | ⟨reply, rfl, -⟩ := sound.underway.head waits unread
  · simp [propertiesChanged, not_answers_notification, DaemonMessage.id?]
  · rw [answers_interpret_iff (bmod_inRange id), reply.id?_message,
      bmod_eq_self_iff (sound.waiting id waits)]
    simp

/-- A read keeps the calls matched exactly when it finds a response. -/
theorem matched_read_iff {link : Link} (sound : link.Sound) (matched : link.Matched) :
    link.read.Matched ↔ link.ReadsResponse .read := by
  cases waits : link.pending with
  | none => simp [read_of_idle (.inl waits), matched, ReadsResponse, waits]
  | some id =>
      cases unread : link.incoming with
      | nil => simp [read_of_idle (.inr unread), matched, ReadsResponse, unread]
      | cons frame later =>
          simp only [ReadsResponse, waits, unread, Option.mem_def, Option.some.injEq, List.head?_cons,
            forall_eq', true_imp_iff]
          rw [← sound.answers_iff waits unread, read_of_frame waits unread]
          constructor
          · intro matched'
            exact matched' ⟨id, frame, interpret id frame⟩ (by simp)
          · intro answers call member
            obtain old | new := List.mem_append.mp member
            · exact matched call old
            · obtain rfl := List.mem_singleton.mp new
              exact answers

theorem Sound.call {link : Link} (sound : link.Sound) (length : Nat) :
    (link.call length).Sound := by
  have next : 0 < link.nextId + 1 := by
    have := sound.positive
    omega
  unfold Link.call
  split
  · exact sound
  next free =>
    have free : link.pending = none := by simpa using free
    split
    · exact ⟨next, sound.waiting, sound.underway.congr rfl rfl rfl⟩
    · refine ⟨next, by simpa using sound.positive, ?_⟩
      cases sound.underway with
      | idle _ none unread => exact .asked link.nextId rfl (by simp [none]) unread
      | asked _ waits | answered _ _ _ _ waits => simp [free] at waits

theorem Sound.broadcast {link : Link} (sound : link.Sound) (params : Option Json) :
    (link.broadcast params).Sound := by
  have one : OnlyNotifications [propertiesChanged params] := onlyNotifications_map [params]
  refine ⟨sound.positive, sound.waiting, ?_⟩
  cases sound.underway with
  | idle free none unread => exact .idle free none (unread.append one)
  | asked id waits requests unread => exact .asked id waits requests (unread.append one)
  | answered id reply before after waits none unread earlier later =>
      refine .answered id reply before (after ++ [propertiesChanged params]) waits none ?_ earlier
        (later.append one)
      simp [Link.broadcast, unread]

theorem Sound.answer {link : Link} (sound : link.Sound) (changes : List (Option Json))
    (reply : Answer) : (link.answer changes reply).Sound := by
  unfold Link.answer
  split
  · exact sound
  next id later requests =>
    refine ⟨sound.positive, sound.waiting, ?_⟩
    cases sound.underway with
    | idle _ none | answered _ _ _ _ _ none => simp [requests] at none
    | asked id' waits one unread =>
        rw [requests] at one
        obtain ⟨rfl, rfl⟩ := List.cons.inj one
        exact .answered id reply (link.incoming ++ changes.map propertiesChanged) [] waits rfl rfl
          (unread.append (onlyNotifications_map changes)) (by simp [OnlyNotifications])

theorem Sound.read {link : Link} (sound : link.Sound) (good : link.ReadsResponse .read) :
    link.read.Sound := by
  cases waits : link.pending with
  | none => rwa [read_of_idle (.inl waits)]
  | some id =>
      cases unread : link.incoming with
      | nil => rwa [read_of_idle (.inr unread)]
      | cons frame later =>
          rw [read_of_frame waits unread]
          refine ⟨sound.positive, by simp, ?_⟩
          obtain ⟨params, rfl⟩ | ⟨reply, -, none, only⟩ := sound.underway.head waits unread
          · have response := (good rfl id waits (propertiesChanged params) (by simp [unread])).1
            simp [propertiesChanged, DaemonMessage.id?] at response
          · exact .idle rfl none only

theorem Sound.step {link : Link} (sound : link.Sound) {event : Event}
    (good : link.ReadsResponse event) : (link.step event).Sound := by
  cases event with
  | call length => exact sound.call length
  | broadcast params => exact sound.broadcast params
  | answer changes reply => exact sound.answer changes reply
  | read => exact sound.read good

/-- Only a read returns from a call. -/
theorem step_finished (link : Link) {event : Event} (other : event ≠ .read) :
    (link.step event).finished = link.finished := by
  cases event with
  | call length =>
      simp only [step, call]
      split
      · rfl
      split <;> rfl
  | broadcast params => rfl
  | answer changes reply =>
      simp only [step, answer]
      split <;> rfl
  | read => exact absurd rfl other

theorem matched_step_iff {link : Link} {event : Event} (sound : link.Sound)
    (matched : link.Matched) : (link.step event).Matched ↔ link.ReadsResponse event := by
  by_cases reads : event = .read
  · subst reads
    exact matched_read_iff sound matched
  · rw [Matched, step_finished link reads]
    exact ⟨fun _ is => absurd is reads, fun _ => matched⟩

theorem connect_sound : connect.Sound where
  positive := by decide
  waiting := by simp [connect]
  underway := .idle rfl rfl (by simp [OnlyNotifications, connect])

/-- In every run the calls return what their responses say exactly when no call reads a
notification, a frame that is not JSON, or the response to an id beyond an `int`. -/
theorem matched_iff_readsResponse (events : List Event) :
    Machine.Always step Matched connect events ↔
      Machine.EachStep step ReadsResponse connect events :=
  Machine.always_iff_eachStep Sound
    (fun _ _ sound matched => matched_step_iff sound matched)
    (fun _ _ sound _ good => sound.step good) connect_sound (by simp [Matched, connect])

/-- The properties change before the daemon handles the request for all of them; the call takes the
notification for the response and returns `null`. -/
theorem notification_taken :
    ¬ Machine.Always step Matched connect
      [.call 60, .broadcast (some (.object [])), .answer [] (.result (some (.object []))), .read] := by
  intro always
  exact not_answers_notification (always.final
    ⟨1, propertiesChanged (some (.object [])), .ok .null⟩ (List.mem_singleton.mpr rfl))

end Link

end Cli

end Typio
