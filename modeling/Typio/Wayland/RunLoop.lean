import Mathlib.Data.List.Forall2
import Typio.Wayland.PrepareRead

/-!
# A turn of the event loop

A turn prepares a read of the display, polls the display together with the other sources, and hands
on what is ready.  The sources are found again in the polled array by the indices kept beside it.
Every read which is prepared is ended once, by reading or by cancelling it, before the display is
dispatched, left for a new connection or prepared again.
-/

namespace Typio

namespace RunLoop

/-! ## The sources -/

/-- The room of `aux_handlers`. -/
def auxHandlerCap : Nat := 6

/-- The room of `fds` in `typio_wl_frontend_run`. -/
def pollFdCap : Nat := 12

/-- The handlers registered with the frontend; a full array takes no further one. -/
structure AuxHandlers (Handler : Type) where
  handlers : List Handler
  bounded : handlers.length ≤ auxHandlerCap

variable {Handler : Type}

/-- What the sources answer when a turn polls: a negative descriptor is not polled, and without a
keyboard there is no repeat timer. -/
structure Descriptors (Handler : Type) where
  display : Int
  aux : Handler → Int
  repeatTimer : Option Int
  configWatch : Int
  configReload : Int

/-- `revents`. -/
structure Revents where
  pollin : Bool
  pollerr : Bool
  pollhup : Bool
  pollnval : Bool
  deriving DecidableEq, Repr

namespace Revents

def isZero (revents : Revents) : Bool :=
  !revents.pollin && !revents.pollerr && !revents.pollhup && !revents.pollnval

/-- The errors after which a handler is not called. -/
def isError (revents : Revents) : Bool := revents.pollerr || revents.pollhup || revents.pollnval

end Revents

/-! ## The polled array -/

/-- The descriptors polled, and the indices under which the sources find theirs, `-1` for none. -/
structure PollSet where
  fds : List Int
  auxIndices : List Int
  idxRepeat : Int
  idxConfig : Int
  idxConfigReload : Int
  deriving DecidableEq, Repr

/-- A descriptor joins the array unless it is negative; its index, or `-1`. -/
def pollFd (fds : List Int) (fd : Int) : List Int × Int :=
  if 0 ≤ fd then (fds ++ [fd], fds.length) else (fds, -1)

/-- The loop of `event_loop_poll` over the handlers. -/
def pollAux (descriptors : Descriptors Handler) :
    List Handler → (fds : List Int) → List Int × List Int
  | [], fds => (fds, [])
  | handler :: handlers, fds =>
      let (fds, index) := pollFd fds (descriptors.aux handler)
      let (fds, indices) := pollAux descriptors handlers fds
      (fds, index :: indices)

/-- The array which `event_loop_poll` builds, the display first. -/
def eventLoopPoll (aux : AuxHandlers Handler) (descriptors : Descriptors Handler) : PollSet :=
  let (fds, auxIndices) := pollAux descriptors aux.handlers [descriptors.display]
  let (fds, idxRepeat) := pollFd fds (descriptors.repeatTimer.getD (-1))
  let (fds, idxConfig) := pollFd fds descriptors.configWatch
  let (fds, idxConfigReload) := pollFd fds descriptors.configReload
  ⟨fds, auxIndices, idxRepeat, idxConfig, idxConfigReload⟩

/-- What `poll` left in the array under an index. -/
def PollSet.revents (polled : PollSet) (answer : Int → Revents) (index : Int) : Option Revents :=
  if index < 0 then none else polled.fds[index.toNat]?.map answer

/-! ## Calls -/

/-- What a turn does, one call after the other.  A handler is named by its place. -/
inductive Call
  | resumeTick
  | reconcileTick
  | flushPopup
  | prepareRead (prepared : Bool)
  | dispatchPending
  | flush
  | poll
  | readEvents
  | cancelRead
  | reconnect
  | auxReady (place : Nat)
  | auxError (place : Nat)
  | repeatTimer
  | configWatch
  | configReload
  | healthCheck
  deriving DecidableEq, Repr

/-- How `poll` returns. -/
inductive PollAnswer
  | interrupted
  | failed
  | timedOut
  | ready (answer : Int → Revents)

/-- What the world answers in a turn: how often a read cannot be prepared, how the flush ends, what
is polled and found ready, whether reading fails, whether a lost connection is made anew, and
whether something called in the turn stops the frontend. -/
structure TurnAnswers (Handler : Type) where
  unprepared : Nat
  flush : FlushOutcome
  descriptors : Descriptors Handler
  poll : PollAnswer
  readFails : Bool
  reconnects : Bool
  stops : Bool

/-- The loop takes another turn, or `typio_wl_frontend_run` returns. -/
inductive TurnEnd
  | again
  | returns (result : Int)
  deriving DecidableEq, Repr

/-- The end of a turn whose loop condition is read again. -/
def TurnEnd.unless (stops : Bool) : TurnEnd := if stops then .returns 0 else .again

section Turn

variable (aux : AuxHandlers Handler) (answers : TurnAnswers Handler)

/-- The calls of `event_loop_prepare_and_flush` up to the flush. -/
def prepareCalls : List Call :=
  (List.replicate answers.unprepared [.prepareRead false, .dispatchPending]).flatten ++
    [.prepareRead true, .flush]

/-- `event_loop_recover`; a new connection runs on even if a stop was asked for. -/
def eventLoopRecover : List Call × TurnEnd :=
  ([.reconnect], if answers.reconnects then .again else .returns (-1))

/-- `event_loop_handle_wayland`, and whether the connection is kept. -/
def eventLoopHandleWayland (revents : Revents) : List Call × Bool :=
  if revents.pollin then
    if answers.readFails then ([.readEvents], false)
    else ([.readEvents, .dispatchPending], !(revents.pollerr || revents.pollhup))
  else ([.cancelRead], !(revents.pollerr || revents.pollhup))

/-- What is done for the handler at a place. -/
def auxCalls (place : Nat) : Option Revents → List Call
  | none => []
  | some revents =>
      if revents.isZero then []
      else if revents.isError then [.auxError place]
      else if revents.pollin then [.auxReady place]
      else []

/-- `event_loop_handle_aux_handlers`, from a place on. -/
def handleAuxHandlers (polled : PollSet) (answer : Int → Revents) :
    List Int → (place : Nat) → List Call
  | [], _ => []
  | index :: indices, place =>
      auxCalls place (polled.revents answer index) ++
        handleAuxHandlers polled answer indices (place + 1)

/-- A source with a handler of its own is called when there is something to read. -/
def sourceCalls (call : Call) (revents : Option Revents) : List Call :=
  if revents.any Revents.pollin then [call] else []

/-- What follows the display in a turn in which something is ready. -/
def dispatchReady (answer : Int → Revents) : List Call :=
  let polled := eventLoopPoll aux answers.descriptors
  handleAuxHandlers polled answer polled.auxIndices 0 ++
    sourceCalls .repeatTimer (polled.revents answer polled.idxRepeat) ++
    sourceCalls .configWatch (polled.revents answer polled.idxConfig) ++
    sourceCalls .configReload (polled.revents answer polled.idxConfigReload) ++ [.healthCheck]

/-- A turn of `typio_wl_frontend_run`, with what follows the display once it was handled. -/
def turnWith (dispatch : (Int → Revents) → List Call) : List Call × TurnEnd :=
  let head := [.resumeTick, .reconcileTick, .flushPopup] ++ prepareCalls answers
  if answers.flush = .failed then
    let (recovery, ending) := eventLoopRecover answers
    (head ++ [.cancelRead] ++ recovery, ending)
  else
    match answers.poll with
    | .interrupted => (head ++ [.poll, .cancelRead], .unless answers.stops)
    | .failed => (head ++ [.poll, .cancelRead], .returns (-1))
    | .timedOut => (head ++ [.poll, .cancelRead, .healthCheck], .unless answers.stops)
    | .ready answer =>
        let (wayland, kept) := eventLoopHandleWayland answers (answer answers.descriptors.display)
        if kept then (head ++ [.poll] ++ wayland ++ dispatch answer, .unless answers.stops)
        else
          let (recovery, ending) := eventLoopRecover answers
          (head ++ [.poll] ++ wayland ++ recovery, ending)

def turn : List Call × TurnEnd := turnWith answers (dispatchReady aux answers)

end Turn

/-- The loop of `typio_wl_frontend_run`: the calls of its turns, and its result once it returns. -/
def loopWith (turn : TurnAnswers Handler → List Call × TurnEnd) :
    List (TurnAnswers Handler) → List Call × Option Int
  | [] => ([], none)
  | answers :: later =>
      match turn answers with
      | (calls, .again) =>
          let (rest, result) := loopWith turn later
          (calls ++ rest, result)
      | (calls, .returns result) => (calls, some result)

/-- `typio_wl_frontend_run`. -/
def frontendRun (aux : AuxHandlers Handler) (turns : List (TurnAnswers Handler)) :
    List Call × Option Int :=
  loopWith (turn aux) turns

/-! ## Reading the display -/

/-- What a call does to the read of the display: only a prepared read is flushed, polled and ended,
and everything else waits until it is. -/
def readIntent : (prepared : Bool) → Call → Option Bool
  | false, .prepareRead prepared => some prepared
  | false, .flush | false, .poll | false, .readEvents | false, .cancelRead => none
  | false, _ => some false
  | true, .flush | true, .poll => some true
  | true, .readEvents | true, .cancelRead => some false
  | true, _ => none

/-- The calls follow the rules for reading, from one state of the read to another. -/
def Reads (before : Bool) (calls : List Call) (after : Bool) : Prop :=
  calls.foldlM readIntent before = some after

variable {answers : TurnAnswers Handler}

theorem Reads.append {first second third : Bool} {left right : List Call}
    (earlier : Reads first left second) (later : Reads second right third) :
    Reads first (left ++ right) third := by
  rw [Reads, List.foldlM_append, earlier]
  exact later

/-- Calls which have nothing to do with the display. -/
theorem reads_of_idle {calls : List Call}
    (idle : ∀ call ∈ calls, readIntent false call = some false) : Reads false calls false := by
  induction calls with
  | nil => rfl
  | cons call calls ih =>
      rw [List.forall_mem_cons] at idle
      have first : Reads false [call] false := by simp [Reads, idle.1]
      exact first.append (ih idle.2)

theorem prepareCalls_reads : Reads false (prepareCalls answers) true := by
  have unprepared (count : Nat) :
      Reads false (List.replicate count [Call.prepareRead false, .dispatchPending]).flatten
        false := by
    induction count with
    | zero => rfl
    | succ count ih =>
        have first : Reads false [.prepareRead false, .dispatchPending] false := rfl
        exact first.append ih
  have prepared : Reads false [.prepareRead true, .flush] true := rfl
  exact (unprepared answers.unprepared).append prepared

theorem recover_reads : Reads false (eventLoopRecover answers).1 false := rfl

/-- The read is over once the display has been handled, whatever came of it. -/
theorem handleWayland_reads (revents : Revents) :
    Reads true (eventLoopHandleWayland answers revents).1 false := by
  unfold eventLoopHandleWayland
  split
  · split <;> rfl
  · rfl

theorem auxCalls_idle (place : Nat) (revents : Option Revents) :
    ∀ call ∈ auxCalls place revents, readIntent false call = some false := by
  intro call member
  unfold auxCalls at member
  split at member
  · cases member
  · split at member
    · cases member
    · split at member
      · obtain rfl := List.mem_singleton.mp member
        rfl
      · split at member
        · obtain rfl := List.mem_singleton.mp member
          rfl
        · cases member

theorem handleAuxHandlers_idle (polled : PollSet) (answer : Int → Revents) (indices : List Int)
    (place : Nat) :
    ∀ call ∈ handleAuxHandlers polled answer indices place,
      readIntent false call = some false := by
  induction indices generalizing place with
  | nil => simp [handleAuxHandlers]
  | cons index indices ih =>
      intro call member
      rcases List.mem_append.mp member with own | later
      · exact auxCalls_idle _ _ call own
      · exact ih _ call later

theorem sourceCalls_idle {source : Call} (idle : readIntent false source = some false)
    (revents : Option Revents) :
    ∀ call ∈ sourceCalls source revents, readIntent false call = some false := by
  unfold sourceCalls
  split
  · simpa using idle
  · simp

theorem dispatchReady_idle (aux : AuxHandlers Handler) (answer : Int → Revents) :
    ∀ call ∈ dispatchReady aux answers answer, readIntent false call = some false := by
  unfold dispatchReady
  simp only [List.forall_mem_append, List.forall_mem_singleton]
  refine ⟨⟨⟨⟨?_, ?_⟩, ?_⟩, ?_⟩, rfl⟩
  · exact handleAuxHandlers_idle _ _ _ _
  · exact sourceCalls_idle rfl _
  · exact sourceCalls_idle rfl _
  · exact sourceCalls_idle rfl _

theorem turnWith_reads {dispatch : (Int → Revents) → List Call}
    (dispatches : ∀ answer, Reads false (dispatch answer) false) :
    Reads false (turnWith answers dispatch).1 false := by
  have ticks : Reads false [.resumeTick, .reconcileTick, .flushPopup] false := rfl
  have head := ticks.append (@prepareCalls_reads _ answers)
  have cancelled : Reads true [.cancelRead] false := rfl
  have polled : Reads true [.poll] true := rfl
  have unpolled : Reads true [.poll, .cancelRead] false := rfl
  have timedOut : Reads true [.poll, .cancelRead, .healthCheck] false := rfl
  unfold turnWith
  dsimp only
  split
  · exact (head.append cancelled).append recover_reads
  · split
    · exact head.append unpolled
    · exact head.append unpolled
    · exact head.append timedOut
    · rename_i answer _
      have wayland := @handleWayland_reads _ answers (answer answers.descriptors.display)
      have handled := (head.append polled).append wayland
      split
      · exact handled.append (dispatches _)
      · exact handled.append recover_reads

/-- Every read which a run of the event loop prepares is ended once, by reading or by cancelling,
before anything else is done with the display; no read is prepared when the run returns. -/
theorem reads_balanced (aux : AuxHandlers Handler) (turns : List (TurnAnswers Handler)) :
    Reads false (frontendRun aux turns).1 false := by
  unfold frontendRun
  induction turns with
  | nil => rfl
  | cons answers turns ih =>
      have first : Reads false (turn aux answers).1 false :=
        turnWith_reads fun answer => reads_of_idle (dispatchReady_idle aux answer)
      unfold loopWith
      split
      · rename_i calls taken
        rw [taken] at first
        exact first.append ih
      · rename_i calls result taken
        rw [taken] at first
        exact first

/-! ## What is handed on -/

/-- What `poll` tells of a descriptor, if it was polled. -/
def pollDirectly (answer : Int → Revents) (fd : Int) : Option Revents :=
  if 0 ≤ fd then some (answer fd) else none

/-- What follows the display when each source is asked on its own. -/
def dispatchDirectly (aux : AuxHandlers Handler) (descriptors : Descriptors Handler)
    (answer : Int → Revents) : List Call :=
  (aux.handlers.zipIdx.flatMap fun (handler, place) =>
    auxCalls place (pollDirectly answer (descriptors.aux handler))) ++
    sourceCalls .repeatTimer (descriptors.repeatTimer.bind (pollDirectly answer)) ++
    sourceCalls .configWatch (pollDirectly answer descriptors.configWatch) ++
    sourceCalls .configReload (pollDirectly answer descriptors.configReload) ++ [.healthCheck]

/-- The index leads to the descriptor, or it says that the descriptor is not polled. -/
structure Leads (fds : List Int) (index fd : Int) : Prop where
  polled : 0 ≤ fd → 0 ≤ index ∧ fds[index.toNat]? = some fd
  unpolled : fd < 0 → index = -1

namespace Leads

variable {fds : List Int} {index fd : Int}

theorem mono (leads : Leads fds index fd) {later : List Int} (grown : fds <+: later) :
    Leads later index fd where
  polled nonneg := by
    obtain ⟨index_nonneg, found⟩ := leads.polled nonneg
    obtain ⟨more, rfl⟩ := grown
    refine ⟨index_nonneg, ?_⟩
    rw [List.getElem?_append_left (List.getElem?_eq_some_iff.mp found).1]
    exact found
  unpolled := leads.unpolled

theorem pollFd (fds : List Int) (fd : Int) :
    Leads (pollFd fds fd).1 (pollFd fds fd).2 fd := by
  unfold RunLoop.pollFd
  split
  · refine ⟨fun _ => ⟨Int.natCast_nonneg _, ?_⟩, fun negative => by omega⟩
    simp
  · exact ⟨fun nonneg => by omega, fun _ => rfl⟩

end Leads

theorem pollFd_prefix (fds : List Int) (fd : Int) :
    fds <+: (pollFd fds fd).1 ∧ (pollFd fds fd).1.length ≤ fds.length + 1 := by
  unfold pollFd
  split
  · exact ⟨List.prefix_append fds [fd], by simp⟩
  · exact ⟨List.prefix_refl fds, Nat.le_succ _⟩

/-- The loop over the handlers keeps what is polled already and adds at most one descriptor for
each handler. -/
theorem pollAux_prefix (descriptors : Descriptors Handler) (handlers : List Handler)
    (fds : List Int) :
    fds <+: (pollAux descriptors handlers fds).1 ∧
      (pollAux descriptors handlers fds).1.length ≤ fds.length + handlers.length := by
  induction handlers generalizing fds with
  | nil => exact ⟨List.prefix_refl fds, le_rfl⟩
  | cons handler handlers ih =>
      obtain ⟨first, first_length⟩ := pollFd_prefix fds (descriptors.aux handler)
      obtain ⟨later, later_length⟩ := ih (pollFd fds (descriptors.aux handler)).1
      refine ⟨first.trans later, ?_⟩
      simp only [pollAux, List.length_cons]
      omega

/-- Its indices lead to the descriptors of the handlers, in their order. -/
theorem pollAux_leads (descriptors : Descriptors Handler) (handlers : List Handler)
    (fds : List Int) :
    List.Forall₂ (fun index handler =>
      Leads (pollAux descriptors handlers fds).1 index (descriptors.aux handler))
      (pollAux descriptors handlers fds).2 handlers := by
  induction handlers generalizing fds with
  | nil => exact .nil
  | cons handler handlers ih =>
      have own := Leads.pollFd fds (descriptors.aux handler)
      have later := pollAux_prefix descriptors handlers (pollFd fds (descriptors.aux handler)).1
      exact .cons (own.mono later.1) (ih _)

/-- Each source finds its own descriptor in the array, which fits the room there is. -/
structure Polls (aux : AuxHandlers Handler) (descriptors : Descriptors Handler)
    (polled : PollSet) : Prop where
  fits : polled.fds.length ≤ pollFdCap
  aux : List.Forall₂ (fun index handler => Leads polled.fds index (descriptors.aux handler))
    polled.auxIndices aux.handlers
  repeatTimer : Leads polled.fds polled.idxRepeat (descriptors.repeatTimer.getD (-1))
  configWatch : Leads polled.fds polled.idxConfig descriptors.configWatch
  configReload : Leads polled.fds polled.idxConfigReload descriptors.configReload

theorem eventLoopPoll_polls (aux : AuxHandlers Handler) (descriptors : Descriptors Handler) :
    Polls aux descriptors (eventLoopPoll aux descriptors) := by
  have handlers := pollAux_prefix descriptors aux.handlers [descriptors.display]
  have leads := pollAux_leads descriptors aux.handlers [descriptors.display]
  have bounded := aux.bounded
  unfold eventLoopPoll
  dsimp only
  generalize pollAux descriptors aux.handlers [descriptors.display] = auxFds at handlers leads ⊢
  have timer := pollFd_prefix auxFds.1 (descriptors.repeatTimer.getD (-1))
  have timer_leads := Leads.pollFd auxFds.1 (descriptors.repeatTimer.getD (-1))
  generalize pollFd auxFds.1 (descriptors.repeatTimer.getD (-1)) = timerFds at timer timer_leads ⊢
  have watch := pollFd_prefix timerFds.1 descriptors.configWatch
  have watch_leads := Leads.pollFd timerFds.1 descriptors.configWatch
  generalize pollFd timerFds.1 descriptors.configWatch = watchFds at watch watch_leads ⊢
  have reload := pollFd_prefix watchFds.1 descriptors.configReload
  have reload_leads := Leads.pollFd watchFds.1 descriptors.configReload
  generalize pollFd watchFds.1 descriptors.configReload = reloadFds at reload reload_leads ⊢
  have room : pollFdCap = auxHandlerCap + 6 := rfl
  have watch_grown := watch.1.trans reload.1
  have timer_grown := timer.1.trans watch_grown
  refine ⟨?_, ?_, timer_leads.mono watch_grown, watch_leads.mono reload.1, reload_leads⟩
  · rw [List.length_singleton] at handlers
    dsimp only
    omega
  · exact leads.imp fun _ _ own => own.mono timer_grown

theorem revents_of_leads {polled : PollSet} {index fd : Int} (leads : Leads polled.fds index fd)
    (answer : Int → Revents) : polled.revents answer index = pollDirectly answer fd := by
  unfold PollSet.revents pollDirectly
  rcases Int.lt_or_le fd 0 with negative | nonneg
  · rw [leads.unpolled negative, if_pos (by omega), if_neg (by omega)]
  · obtain ⟨index_nonneg, found⟩ := leads.polled nonneg
    rw [if_neg (by omega), if_pos nonneg, found, Option.map_some]

theorem handleAuxHandlers_eq {descriptors : Descriptors Handler} {polled : PollSet}
    (answer : Int → Revents) {indices : List Int} {handlers : List Handler}
    (leads : List.Forall₂ (fun index handler =>
      Leads polled.fds index (descriptors.aux handler)) indices handlers) (place : Nat) :
    handleAuxHandlers polled answer indices place =
      (handlers.zipIdx place).flatMap fun (handler, place) =>
        auxCalls place (pollDirectly answer (descriptors.aux handler)) := by
  induction leads generalizing place with
  | nil => rfl
  | cons own _ ih =>
      rw [handleAuxHandlers, revents_of_leads own, ih, List.zipIdx_cons, List.flatMap_cons]

/-- The indices never mix up the sources: what a turn hands on is what each source has ready when
it is asked on its own. -/
theorem dispatchReady_eq (aux : AuxHandlers Handler) (answers : TurnAnswers Handler)
    (answer : Int → Revents) :
    dispatchReady aux answers answer = dispatchDirectly aux answers.descriptors answer := by
  have polls := eventLoopPoll_polls aux answers.descriptors
  have timer : pollDirectly answer (answers.descriptors.repeatTimer.getD (-1)) =
      answers.descriptors.repeatTimer.bind (pollDirectly answer) := by
    cases answers.descriptors.repeatTimer <;> rfl
  unfold dispatchReady dispatchDirectly
  dsimp only
  rw [handleAuxHandlers_eq answer polls.aux, revents_of_leads polls.repeatTimer, timer,
    revents_of_leads polls.configWatch, revents_of_leads polls.configReload]

/-- The array of a turn never overflows, and the loop which finds the sources by their indices runs
as one that asks each source on its own. -/
theorem frontendRun_refines (aux : AuxHandlers Handler) (turns : List (TurnAnswers Handler)) :
    (∀ answers ∈ turns, (eventLoopPoll aux answers.descriptors).fds.length ≤ pollFdCap) ∧
      frontendRun aux turns =
        loopWith (fun answers => turnWith answers (dispatchDirectly aux answers.descriptors))
          turns := by
  refine ⟨fun answers _ => (eventLoopPoll_polls aux answers.descriptors).fits, ?_⟩
  have turn_eq : turn aux =
      fun answers => turnWith answers (dispatchDirectly aux answers.descriptors) := by
    funext answers
    rw [turn, funext (dispatchReady_eq aux answers)]
  rw [frontendRun, turn_eq]

end RunLoop

end Typio
