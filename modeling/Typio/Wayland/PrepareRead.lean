import Mathlib.Data.List.TakeWhile
import Mathlib.Logic.Function.Iterate
import Typio.WhileLoop

/-!
# Preparing to read from the compositor

Before a turn of the event loop polls, the queue is dispatched until a read can be prepared, and the
output is flushed.  The loop ends if and only if the queue gets empty: an event in the queue of a
connection which has failed is never dispatched, and the loop does not look at the error.
-/

namespace Typio

/-! ## The library -/

/-- How `wl_display_flush` ends. -/
inductive FlushOutcome
  | written
  /-- `EAGAIN`: the socket takes no more at the moment. -/
  | again
  | failed
  deriving DecidableEq

/-- What is documented of libwayland: a display with its queue of events, the error which is fatal
for the connection, and the read that has been prepared.  Dispatching an event may be what breaks
the connection. -/
structure Libwayland (Display QueuedEvent : Type) where
  queue : Display → List QueuedEvent
  fatal : Display → Bool
  reading : Display → Bool
  breaks : QueuedEvent → Bool
  prepareRead : Display → Int × Display
  dispatchPending : Display → Int × Display
  flush : Display → FlushOutcome × Display
  cancelRead : Display → Display
  /-- A read is prepared exactly when the queue is empty. -/
  prepareRead_of_empty : ∀ display, queue display = [] →
    (prepareRead display).1 = 0 ∧ reading (prepareRead display).2 = true
  prepareRead_of_queued : ∀ display, queue display ≠ [] → (prepareRead display).1 = -1
  /-- On a connection which has failed nothing is dispatched. -/
  dispatchPending_of_fatal : ∀ display, fatal display = true →
    dispatchPending display = (-1, display)
  /-- Otherwise the queue is emptied, up to an event which breaks the connection. -/
  queue_dispatchPending : ∀ display, fatal display = false →
    queue (dispatchPending display).2 = ((queue display).dropWhile (!breaks ·)).tail
  fatal_dispatchPending : ∀ display, fatal display = false →
    fatal (dispatchPending display).2 = (queue display).any breaks
  reading_flush : ∀ display, reading (flush display).2 = reading display
  reading_cancelRead : ∀ display, reading (cancelRead display) = false

/-! ## The event loop -/

/-- `TypioWlLoopStage`. -/
inductive LoopStage
  | idle
  | popupUpdate
  | prepareRead
  | flush
  | poll
  | readEvents
  | dispatchPending
  | auxIo
  | repeat
  | configReload
  deriving DecidableEq

/-- The display of the frontend, and what the watchdog sees of the loop: its stage and how often its
heart has beaten. -/
structure EventLoop (Display : Type) where
  display : Display
  stage : LoopStage
  heartbeats : Nat

/-- Where a turn of `typio_wl_frontend_run` goes on after it has prepared the read. -/
inductive TurnHead
  | poll
  /-- `event_loop_recover`, which connects again. -/
  | recover
  deriving DecidableEq

namespace EventLoop

variable {Display QueuedEvent : Type} (lib : Libwayland Display QueuedEvent)

/-- `typio_wl_frontend_watchdog_set_stage`. -/
def setStage (loop : EventLoop Display) (stage : LoopStage) : EventLoop Display :=
  { loop with stage }

/-- `typio_wl_frontend_watchdog_heartbeat`. -/
def heartbeat (loop : EventLoop Display) : EventLoop Display :=
  { loop with heartbeats := loop.heartbeats + 1 }

/-- The guard of the loop of `event_loop_prepare_and_flush`. -/
def notPrepared (loop : EventLoop Display) : Bool := (lib.prepareRead loop.display).1 != 0

/-- The body of the loop, which drops the result of `wl_display_dispatch_pending`. -/
def dispatchTurn (loop : EventLoop Display) : EventLoop Display :=
  let staged := loop.setStage .prepareRead
  { staged with display := (lib.dispatchPending staged.display).2 }.heartbeat.setStage .idle

/-- `event_loop_prepare_and_flush` after its loop. -/
def flushPrepared (loop : EventLoop Display) : Int × EventLoop Display :=
  let prepared := { loop with display := (lib.prepareRead loop.display).2 }.setStage .flush
  let flushed := lib.flush prepared.display
  if flushed.1 = .failed then (-1, { prepared with display := lib.cancelRead flushed.2 })
  else (0, { prepared with display := flushed.2 }.heartbeat)

/-- `event_loop_prepare_and_flush`, with fuel for its loop. -/
def prepareAndFlush (fuel : Nat) (loop : EventLoop Display) : Option (Int × EventLoop Display) :=
  (WhileLoop.exec (notPrepared lib) (dispatchTurn lib) fuel loop).map (flushPrepared lib)

/-- The turn goes on to poll, or the connection is lost. -/
def turnHead (fuel : Nat) (loop : EventLoop Display) : Option (TurnHead × EventLoop Display) :=
  (prepareAndFlush lib fuel loop).map fun prepared =>
    (if prepared.1 < 0 then .recover else .poll, prepared.2)

/-- The preparation returns: the turn polls with a read prepared and its output flushed as far as
the socket takes it, or the connection is given up without a read. -/
def PreparesOrRecovers (loop : EventLoop Display) : Prop :=
  ∃ fuel head after, turnHead lib fuel loop = some (head, after) ∧
    lib.reading after.display = decide (head = .poll)

/-- The queue can be emptied: it is empty, or the connection works and no event breaks it but the
last. -/
def Drains (display : Display) : Prop :=
  lib.queue display = [] ∨
    lib.fatal display = false ∧ ∀ event ∈ (lib.queue display).dropLast, lib.breaks event = false

variable {lib} {loop : EventLoop Display}

theorem notPrepared_eq_false_iff :
    notPrepared lib loop = false ↔ lib.queue loop.display = [] := by
  rw [notPrepared, bne_eq_false_iff_eq]
  constructor
  · intro prepared
    by_contra queued
    have refused := lib.prepareRead_of_queued loop.display queued
    omega
  · exact fun empty => (lib.prepareRead_of_empty loop.display empty).1

theorem notPrepared_of_queued (queued : lib.queue loop.display ≠ []) :
    notPrepared lib loop = true := by
  rw [← Bool.not_eq_false, notPrepared_eq_false_iff]
  exact queued

@[simp] theorem dispatchTurn_display :
    (dispatchTurn lib loop).display = (lib.dispatchPending loop.display).2 := rfl

@[simp] theorem dispatchTurn_heartbeats :
    (dispatchTurn lib loop).heartbeats = loop.heartbeats + 1 := rfl

/-- An event which breaks the connection leaves the events behind it in the queue. -/
theorem dropWhile_tail_eq_nil_iff {Event : Type} (breaks : Event → Bool) (events : List Event) :
    (events.dropWhile (!breaks ·)).tail = [] ↔ ∀ event ∈ events.dropLast, breaks event = false := by
  induction events with
  | nil => simp
  | cons event events induction =>
      cases broken : breaks event with
      | true =>
          cases events with
          | nil => simp [broken]
          | cons next rest => simp [broken]
      | false =>
          rw [List.dropWhile_cons_of_pos (by simp [broken]), induction]
          cases events with
          | nil => simp
          | cons next rest => simp [broken]

theorem any_of_left {Event : Type} {breaks : Event → Bool} {events : List Event}
    (left : (events.dropWhile (!breaks ·)).tail ≠ []) : events.any breaks = true := by
  by_contra whole
  rw [Bool.not_eq_true, List.any_eq_false] at whole
  refine left ((dropWhile_tail_eq_nil_iff breaks events).mpr fun event queued => ?_)
  simpa using whole event (List.dropLast_subset events queued)

/-- A connection which has failed with events in its queue keeps the loop going for ever. -/
theorem not_returnsIn_of_fatal {final : EventLoop Display}
    (failed : lib.fatal loop.display = true) (queued : lib.queue loop.display ≠ []) :
    ¬WhileLoop.ReturnsIn (notPrepared lib) (dispatchTurn lib) loop final := by
  have same := congrArg Prod.snd (lib.dispatchPending_of_fatal loop.display failed)
  refine @WhileLoop.not_returnsIn_of_invariant _ _ _ _ _
    (fun other : EventLoop Display => other.display = loop.display) (fun other here => ?_) rfl
  refine ⟨notPrepared_of_queued (here ▸ queued), ?_⟩
  rw [dispatchTurn_display, here, same]

/-- The loop leaves if and only if the queue can be emptied, after one turn at most. -/
theorem returnsIn_iff {final : EventLoop Display} :
    WhileLoop.ReturnsIn (notPrepared lib) (dispatchTurn lib) loop final ↔
      Drains lib loop.display ∧
        final = if lib.queue loop.display = [] then loop else dispatchTurn lib loop := by
  by_cases empty : lib.queue loop.display = []
  · rw [WhileLoop.returnsIn_of_not_guard (notPrepared_eq_false_iff.mpr empty), if_pos empty]
    exact (and_iff_right (.inl empty)).symm
  rw [if_neg empty, Drains, or_iff_right empty]
  cases failed : lib.fatal loop.display with
  | true => exact iff_of_false (not_returnsIn_of_fatal failed empty) fun both => nomatch both.1.1
  | false =>
      have left := lib.queue_dispatchPending loop.display failed
      rw [eq_self, true_and, ← dropWhile_tail_eq_nil_iff, ← left,
        WhileLoop.returnsIn_of_guard (notPrepared_of_queued empty)]
      by_cases drained : lib.queue (lib.dispatchPending loop.display).2 = []
      · rw [WhileLoop.returnsIn_of_not_guard (notPrepared_eq_false_iff.mpr drained)]
        exact (and_iff_right drained).symm
      · refine iff_of_false (not_returnsIn_of_fatal ?_ drained) fun both => drained both.1
        rw [dispatchTurn_display, lib.fatal_dispatchPending loop.display failed]
        exact any_of_left (left ▸ drained)

/-- A read prepared from an empty queue is flushed, or given up when the connection is lost. -/
theorem reading_flushPrepared (drained : lib.queue loop.display = []) :
    lib.reading (flushPrepared lib loop).2.display = decide ((flushPrepared lib loop).1 = 0) ∧
      ((flushPrepared lib loop).1 = 0 ∨ (flushPrepared lib loop).1 = -1) := by
  have prepared := (lib.prepareRead_of_empty loop.display drained).2
  by_cases failed : (lib.flush (lib.prepareRead loop.display).2).1 = .failed
  · have lost : flushPrepared lib loop = (-1, _) := if_pos failed
    rw [lost]
    exact ⟨lib.reading_cancelRead _, .inr rfl⟩
  · have flushed : flushPrepared lib loop = (0, _) := if_neg failed
    rw [flushed]
    exact ⟨(lib.reading_flush _).trans prepared, .inl rfl⟩

theorem queue_of_returnsIn {final : EventLoop Display}
    (returned : WhileLoop.ReturnsIn (notPrepared lib) (dispatchTurn lib) loop final) :
    lib.queue final.display = [] :=
  notPrepared_eq_false_iff.mp (WhileLoop.not_guard_of_returnsIn returned)

theorem drains_of_prepares (prepares : PreparesOrRecovers lib loop) : Drains lib loop.display := by
  obtain ⟨fuel, head, after, returned, -⟩ := prepares
  obtain ⟨prepared, flushed, -⟩ := Option.map_eq_some_iff.mp returned
  obtain ⟨final, left, -⟩ := Option.map_eq_some_iff.mp flushed
  exact (returnsIn_iff.mp ⟨fuel, left⟩).1

theorem prepares_of_drains (drains : Drains lib loop.display) : PreparesOrRecovers lib loop := by
  obtain ⟨final, returned⟩ : ∃ final, WhileLoop.ReturnsIn (notPrepared lib) (dispatchTurn lib) loop
      final := ⟨_, returnsIn_iff.mpr ⟨drains, rfl⟩⟩
  obtain ⟨reading, ended⟩ := reading_flushPrepared (queue_of_returnsIn returned)
  obtain ⟨fuel, left⟩ := returned
  refine ⟨fuel, if (flushPrepared lib final).1 < 0 then .recover else .poll,
    (flushPrepared lib final).2, ?_, ?_⟩
  · rw [turnHead, prepareAndFlush, left]
    rfl
  · rw [reading]
    obtain zero | lost := ended
    · simp [zero]
    · simp [lost]

end EventLoop

/-- The preparation of a turn returns if and only if the queue is empty, or the connection works and
no event in the queue but the last one breaks it. -/
theorem preparesOrRecovers_iff {Display QueuedEvent : Type} (lib : Libwayland Display QueuedEvent)
    (loop : EventLoop Display) :
    EventLoop.PreparesOrRecovers lib loop ↔ EventLoop.Drains lib loop.display :=
  ⟨EventLoop.drains_of_prepares, EventLoop.prepares_of_drains⟩

/-- A display that is its queue: each event with whether it breaks the connection. -/
structure QueueDisplay where
  queue : List Bool
  fatal : Bool
  reading : Bool
  flushes : FlushOutcome

/-- `wl_display_dispatch_queue_pending`: how many events were dispatched before one broke the
connection. -/
def QueueDisplay.dispatchPending (display : QueueDisplay) : Int × QueueDisplay :=
  if display.fatal then (-1, display)
  else if display.queue.any id then
    (-1, { display with queue := (display.queue.dropWhile (!·)).tail, fatal := true })
  else (display.queue.length, { display with queue := [] })

/-- The library with such displays. -/
def Libwayland.queueing : Libwayland QueueDisplay Bool where
  queue display := display.queue
  fatal display := display.fatal
  reading display := display.reading
  breaks event := event
  prepareRead display :=
    if display.queue.isEmpty then (0, { display with reading := true }) else (-1, display)
  dispatchPending := QueueDisplay.dispatchPending
  flush display := (display.flushes, display)
  cancelRead display := { display with reading := false }
  prepareRead_of_empty display empty := by simp [empty]
  prepareRead_of_queued display queued := by simp [queued]
  dispatchPending_of_fatal display failed := by simp [QueueDisplay.dispatchPending, failed]
  queue_dispatchPending display working := by
    rw [QueueDisplay.dispatchPending, working]
    cases broken : display.queue.any id with
    | true => simp
    | false =>
        have whole : display.queue.dropWhile (!·) = [] :=
          List.dropWhile_eq_nil_iff.mpr fun event queued => by
            simpa using List.any_eq_false.mp broken event queued
        simp [whole]
  fatal_dispatchPending display working := by
    rw [QueueDisplay.dispatchPending, working]
    cases broken : display.queue.any id <;> simp_all
  reading_flush _ := rfl
  reading_cancelRead _ := rfl

/-- The compositor reports a protocol error, and an event waits behind it in the queue. -/
theorem spins_on_error :
    ¬EventLoop.PreparesOrRecovers Libwayland.queueing
      { display := { queue := [true, false], fatal := false, reading := false, flushes := .failed }
        stage := .idle
        heartbeats := 0 } := by
  intro prepares
  obtain empty | ⟨-, unbroken⟩ := EventLoop.drains_of_prepares prepares
  · cases empty
  · cases unbroken true (List.mem_singleton_self true)

end Typio
