import Typio.Core.VoiceIdle

/-!
# The end of the voice session

The frontend creates the capture and gives it to the session as its audio source.  When the frontend
is destroyed it takes the source away from the session, which is then freed: the session would stop
and free its source, but has none any more, and the frontend has kept no pointer to the capture.
The inference thread and the idle thread are joined.
-/

namespace Typio

namespace Daemon

open Typio.Core

/-- A buffer of the audio stream. -/
structure AudioChunk where
  hasData : Bool
  size : Nat
  offset : Nat
  maxsize : Nat
  deriving DecidableEq, Repr

/-- The samples of a buffer; a buffer which is not well formed has none. -/
def AudioChunk.samples (chunk : AudioChunk) : Nat :=
  if !chunk.hasData || chunk.size = 0 || chunk.offset % 4 ≠ 0 || chunk.size % 4 ≠ 0 ||
      chunk.maxsize < chunk.offset || chunk.maxsize - chunk.offset < chunk.size then 0
  else chunk.size / 4

/-- A capture which was created and not freed, with a thread of its own. -/
structure Capture where
  capturing : Bool
  deriving DecidableEq, Repr

inductive SourceCall where
  | stop
  | free
  deriving DecidableEq, Repr

/-- Where the inference thread is; there is none unless the session is processing. -/
inductive InferPoint where
  | absent
  | takes
  | infers
  | signals
  | ended
  deriving DecidableEq, Repr

/-- Where `typio_wl_frontend_destroy` is with the voice session, and where, after the detaching,
`typio_voice_session_free` is. -/
inductive DestroyPoint where
  | detaches
  | loadsSource
  | stopsSource
  | freesSource
  | joinsInfer
  | sendsShutdown
  | joinsIdle
  | drops
  | returned
  deriving DecidableEq, Repr

namespace DestroyPoint

/-- The inference thread was joined. -/
def inferJoined : DestroyPoint → Bool
  | sendsShutdown | joinsIdle | drops | returned => true
  | _ => false

/-- The idle thread was joined. -/
def idleJoined : DestroyPoint → Bool
  | drops | returned => true
  | _ => false

end DestroyPoint

/-- What another thread does with the session. -/
inductive ThreadStep where
  | callback
  | infer
  | idle
  deriving DecidableEq, Repr

/-- The session with its threads and the capture.  The calls of the source, and what the threads did
after the session was freed, are kept for the statements. -/
structure VoiceTeardown where
  threads : IdleWorld
  shutdown : Bool
  idleEnded : Bool
  infer : InferPoint
  capture : Option Capture
  buffered : Nat
  point : DestroyPoint
  calls : List SourceCall
  late : List ThreadStep

namespace VoiceTeardown

variable (world : VoiceTeardown)

/-- The frontend begins at this point, whatever the threads are doing. -/
def begin (point : DestroyPoint) (threads : IdleWorld) (infer : InferPoint)
    (capture : Option Capture) (buffered : Nat) : VoiceTeardown where
  threads := threads
  shutdown := false
  idleEnded := false
  infer := infer
  capture := capture
  buffered := buffered
  point := point
  calls := []
  late := []

def goes (point : DestroyPoint) : VoiceTeardown := { world with point := point }

def session : VoiceSession := world.threads.session

def updateSession (update : VoiceSession → VoiceSession) : VoiceTeardown :=
  { world with threads := { world.threads with session := update world.threads.session } }

/-- A thread takes a step; it is late if the session was freed. -/
def takes (thread : ThreadStep) : VoiceTeardown :=
  { world with late := if world.point = .returned then thread :: world.late else world.late }

/-- `typio_voice_session_set_audio_source` with no source, then `typio_voice_session_free`. -/
def mainStep : VoiceTeardown :=
  match world.point with
  | .detaches => (world.updateSession ({ · with audioSource := false })).goes .loadsSource
  | .loadsSource => world.goes (if world.session.audioSource then .stopsSource else .joinsInfer)
  -- `pw_cap_stop`
  | .stopsSource =>
      { world with
        capture := world.capture.map ({ · with capturing := false })
        calls := world.calls ++ [.stop]
        point := .freesSource }
  -- `pw_cap_free`, which ends the thread of the capture
  | .freesSource =>
      { world with
        capture := none
        calls := world.calls ++ [.free]
        point := .joinsInfer }
  | .joinsInfer =>
      if world.infer = .absent ∨ world.infer = .ended then world.goes .sendsShutdown else world
  | .sendsShutdown => { world with shutdown := true, point := .joinsIdle }
  | .joinsIdle => if world.idleEnded then world.goes .drops else world
  | .drops => world.goes .returned
  | .returned => world

/-- `typio_voice_session_feed_audio`. -/
def feedAudio (count : Nat) : VoiceTeardown :=
  { world with
    buffered :=
      if world.session.state = .recording then world.buffered + count else world.buffered }

/-- `on_process`. -/
def process (chunk : AudioChunk) : VoiceTeardown :=
  match world.capture with
  | none => world
  | some capture =>
      if capture.capturing && decide (0 < chunk.samples) then
        (world.takes .callback).feedAudio chunk.samples
      else world

/-- `on_state_changed` with an error. -/
def streamError : VoiceTeardown :=
  { world with capture := world.capture.map ({ · with capturing := false }) }

/-- The thread which `typio_voice_session_stop` starts. -/
def inferStep (usable : Bool) : VoiceTeardown :=
  match world.infer with
  | .absent | .ended => world
  | .takes =>
      { (world.takes .infer).updateSession ({ · with pending := false }) with
        buffered := 0
        infer := if usable then .infers else .signals }
  | .infers => { world.takes .infer with infer := .signals }
  | .signals => { world.takes .infer with infer := .ended }

/-- `idle_thread_main`: the message ends it where it sleeps. -/
def idleStep : VoiceTeardown :=
  if world.idleEnded then world
  else
    match world.threads.idle, world.shutdown with
    | .sleeps .., true => { world.takes .idle with idleEnded := true }
    | _, _ => { world.takes .idle with threads := world.threads.idleStep }

inductive Event where
  | main
  | process (chunk : AudioChunk)
  | streamError
  | infer (usable : Bool)
  | idle
  | elapse (ms : Nat)

def step (world : VoiceTeardown) : Event → VoiceTeardown
  | .main => world.mainStep
  | .process chunk => world.process chunk
  | .streamError => world.streamError
  | .infer usable => world.inferStep usable
  | .idle => world.idleStep
  | .elapse ms => { world with threads := IdleWorld.step world.threads (.elapse ms) }

/-- The source, if there is one, was stopped and freed once, and nothing was late. -/
structure TornDown (source : Bool) : Prop where
  stopped : source = true → world.calls.count .stop = 1
  freed : source = true → world.calls.count .free = 1
  quiet : world.late = []

/-! ## The order of the steps -/

/-- What was called and whether the capture is there, if the session had a source (`attached`) when
it was freed and the capture was there (`source`). -/
def SourceAt (attached source : Bool) : Prop :=
  match world.point with
  | .detaches => world.calls = [] ∧ attached = false ∧ world.capture.isSome = source
  | .loadsSource =>
      world.calls = [] ∧ world.session.audioSource = attached ∧ world.capture.isSome = source
  | .stopsSource => world.calls = [] ∧ attached = true
  | .freesSource => world.calls = [.stop] ∧ attached = true
  | _ =>
      if attached then world.calls = [.stop, .free] ∧ world.capture.isSome = false
      else world.calls = [] ∧ world.capture.isSome = source

/-- The threads which were joined have ended, and only a capture which is still there is late. -/
structure Ordered (attached source : Bool) : Prop where
  infer : world.point.inferJoined → world.infer = .absent ∨ world.infer = .ended
  idle : world.point.idleJoined → world.idleEnded = true
  sourceAt : world.SourceAt attached source
  late : world.late ≠ [] → world.point = .returned ∧ world.capture.isSome = true

/-- The main thread's data, which no other thread changes; the capture stays or stays away. -/
structure ThreadKeeps (before after : VoiceTeardown) : Prop where
  point : after.point = before.point
  calls : after.calls = before.calls
  audioSource : after.session.audioSource = before.session.audioSource
  capture : after.capture.isSome = before.capture.isSome

variable {world} {attached source : Bool}

theorem ThreadKeeps.sourceAt {after : VoiceTeardown} (keeps : ThreadKeeps world after)
    (sourceAt : world.SourceAt attached source) : after.SourceAt attached source := by
  unfold SourceAt at *
  rw [keeps.point, keeps.calls, keeps.audioSource, keeps.capture]
  exact sourceAt

theorem inferStep_keeps (usable : Bool) : ThreadKeeps world (world.inferStep usable) := by
  unfold inferStep
  split <;> exact ⟨rfl, rfl, rfl, rfl⟩

theorem idleStep_keeps : ThreadKeeps world world.idleStep := by
  unfold idleStep
  split
  · exact ⟨rfl, rfl, rfl, rfl⟩
  split
  · exact ⟨rfl, rfl, rfl, rfl⟩
  · exact ⟨rfl, rfl,
      congrArg VoiceSession.audioSource world.threads.idleStep_keeps.session, rfl⟩

theorem takes_late (thread : ThreadStep) (running : world.point ≠ .returned) :
    (world.takes thread).late = world.late := if_neg running

/-- A thread which has ended takes no step, so that none is late once it was joined. -/
theorem inferStep_of_joined (usable : Bool)
    (joined : world.infer = .absent ∨ world.infer = .ended) : world.inferStep usable = world := by
  unfold inferStep
  obtain absent | ended := joined
  · rw [absent]
  · rw [ended]

theorem inferStep_late (usable : Bool) (running : world.point ≠ .returned) :
    (world.inferStep usable).late = world.late := by
  unfold inferStep
  split
  case h_1 | h_2 => rfl
  all_goals exact takes_late .infer running

theorem idleStep_of_ended (ended : world.idleEnded = true) : world.idleStep = world := if_pos ended

theorem idleStep_late (running : world.point ≠ .returned) : world.idleStep.late = world.late := by
  unfold idleStep
  split
  · rfl
  split <;> exact takes_late .idle running

namespace Ordered

theorem thread {after : VoiceTeardown} (ordered : world.Ordered attached source)
    (keeps : ThreadKeeps world after)
    (infer : world.point.inferJoined → after.infer = world.infer)
    (idle : world.point.idleJoined → after.idleEnded = world.idleEnded)
    (late : after.late = world.late ∨ world.point = .returned ∧ world.capture.isSome = true) :
    after.Ordered attached source where
  infer joined := by
    rw [keeps.point] at joined
    rw [infer joined]
    exact ordered.infer joined
  idle joined := by
    rw [keeps.point] at joined
    rw [idle joined]
    exact ordered.idle joined
  sourceAt := keeps.sourceAt ordered.sourceAt
  late some := by
    rw [keeps.point, keeps.capture]
    obtain same | returned := late
    · exact ordered.late (same ▸ some)
    · exact returned

theorem process (ordered : world.Ordered attached source) (chunk : AudioChunk) :
    (world.process chunk).Ordered attached source := by
  unfold VoiceTeardown.process
  split
  · exact ordered
  next capture held =>
    split
    · refine ordered.thread ⟨rfl, rfl, rfl, rfl⟩ (fun _ => rfl) (fun _ => rfl) ?_
      by_cases running : world.point ≠ .returned
      · exact .inl (takes_late .callback running)
      · exact .inr ⟨not_not.mp running, by rw [held]; rfl⟩
    · exact ordered

theorem inferStep (ordered : world.Ordered attached source) (usable : Bool) :
    (world.inferStep usable).Ordered attached source := by
  cases joined : world.point.inferJoined with
  | true =>
      rw [inferStep_of_joined usable (ordered.infer joined)]
      exact ordered
  | false =>
      refine ordered.thread (world.inferStep_keeps usable) (fun joined' => ?_) (fun _ => ?_)
        (.inl (inferStep_late usable fun returned => ?_))
      · exact absurd (joined.symm.trans joined') (by decide)
      · unfold VoiceTeardown.inferStep
        split <;> rfl
      · rw [returned] at joined
        exact nomatch joined

theorem idleStep (ordered : world.Ordered attached source) :
    world.idleStep.Ordered attached source := by
  cases joined : world.point.idleJoined with
  | true =>
      rw [idleStep_of_ended (ordered.idle joined)]
      exact ordered
  | false =>
      refine ordered.thread world.idleStep_keeps (fun _ => ?_) (fun joined' => ?_)
        (.inl (idleStep_late fun returned => ?_))
      · unfold VoiceTeardown.idleStep
        split
        · rfl
        split <;> rfl
      · exact absurd (joined.symm.trans joined') (by decide)
      · rw [returned] at joined
        exact nomatch joined

theorem streamError (ordered : world.Ordered attached source) :
    world.streamError.Ordered attached source :=
  ordered.thread ⟨rfl, rfl, rfl, Option.isSome_map ..⟩ (fun _ => rfl) (fun _ => rfl) (.inl rfl)

theorem quiet (ordered : world.Ordered attached source) (running : world.point ≠ .returned) :
    world.late = [] := by
  by_contra some
  exact running (ordered.late some).1

theorem mainStep (ordered : world.Ordered attached source) :
    world.mainStep.Ordered attached source := by
  have early (running : world.point ≠ .returned) : world.late ≠ [] → False :=
    fun some => some (ordered.quiet running)
  have sourceAt := ordered.sourceAt
  unfold SourceAt at sourceAt
  rw [VoiceTeardown.mainStep]
  cases point : world.point with
  | returned => exact ordered
  | detaches =>
      rw [point] at sourceAt early
      obtain ⟨calls, detached, held⟩ := sourceAt
      exact ⟨nofun, nofun, ⟨calls, detached.symm, held⟩, fun some => (early nofun some).elim⟩
  | loadsSource =>
      rw [point] at sourceAt early
      obtain ⟨calls, same, held⟩ := sourceAt
      dsimp only
      cases given : world.session.audioSource with
      | true =>
          rw [given] at same
          exact ⟨nofun, nofun, ⟨calls, same.symm⟩, fun some => (early nofun some).elim⟩
      | false =>
          rw [given] at same
          subst same
          exact ⟨nofun, nofun, ⟨calls, held⟩, fun some => (early nofun some).elim⟩
  | stopsSource =>
      rw [point] at sourceAt early
      obtain ⟨calls, given⟩ := sourceAt
      exact ⟨nofun, nofun, ⟨by rw [calls]; rfl, given⟩, fun some => (early nofun some).elim⟩
  | freesSource =>
      rw [point] at sourceAt early
      obtain ⟨calls, given⟩ := sourceAt
      subst given
      exact ⟨nofun, nofun, ⟨by rw [calls]; rfl, rfl⟩, fun some => (early nofun some).elim⟩
  | joinsInfer =>
      rw [point] at sourceAt early
      dsimp only
      split
      · next joined =>
          exact ⟨fun _ => joined, nofun, sourceAt, fun some => (early nofun some).elim⟩
      · exact ordered
  | sendsShutdown =>
      have joined := ordered.infer (by rw [point]; rfl)
      rw [point] at sourceAt early
      exact ⟨fun _ => joined, nofun, sourceAt, fun some => (early nofun some).elim⟩
  | joinsIdle =>
      have joined := ordered.infer (by rw [point]; rfl)
      rw [point] at sourceAt early
      dsimp only
      split
      · next ended =>
          exact ⟨fun _ => joined, fun _ => ended, sourceAt, fun some => (early nofun some).elim⟩
      · exact ordered
  | drops =>
      have joined := ordered.infer (by rw [point]; rfl)
      have ended := ordered.idle (by rw [point]; rfl)
      rw [point] at sourceAt early
      exact ⟨fun _ => joined, fun _ => ended, sourceAt, fun some => (early nofun some).elim⟩

theorem step (ordered : world.Ordered attached source) (event : Event) :
    (step world event).Ordered attached source := by
  cases event with
  | main => exact ordered.mainStep
  | process chunk => exact ordered.process chunk
  | streamError => exact ordered.streamError
  | infer usable => exact ordered.inferStep usable
  | idle => exact ordered.idleStep
  | elapse ms =>
      exact ordered.thread ⟨rfl, rfl, rfl, rfl⟩ (fun _ => rfl) (fun _ => rfl) (.inl rfl)

end Ordered

/-- The session is torn down if it had the source when it was freed, or if there was no source. -/
theorem Ordered.tornDown_iff (ordered : world.Ordered attached source)
    (returned : world.point = .returned) :
    world.TornDown source ↔ attached = true ∨ source = false := by
  have sourceAt := ordered.sourceAt
  rw [SourceAt, returned] at sourceAt
  dsimp only at sourceAt
  have quiet (gone : world.capture.isSome = false) : world.late = [] := by
    by_contra some
    exact absurd ((ordered.late some).2.symm.trans gone) (by decide)
  cases attached with
  | true =>
      obtain ⟨calls, gone⟩ := sourceAt
      refine iff_of_true ⟨fun _ => ?_, fun _ => ?_, quiet gone⟩ (.inl rfl)
      · rw [calls]; rfl
      · rw [calls]; rfl
  | false =>
      obtain ⟨calls, held⟩ := sourceAt
      cases source with
      | false => exact iff_of_true ⟨nofun, nofun, quiet held⟩ (.inr rfl)
      | true =>
          refine iff_of_false (fun tornDown => ?_) (by decide)
          have stopped := tornDown.stopped rfl
          rw [calls] at stopped
          exact nomatch stopped

/-! ## The threads are joined -/

/-- The main thread can come to the end. -/
def Completes (world : VoiceTeardown) : Prop :=
  ∃ events, (Machine.run step world events).point = .returned

theorem Completes.before (event : Event) (completes : (step world event).Completes) :
    world.Completes := by
  obtain ⟨events, returned⟩ := completes
  exact ⟨event :: events, returned⟩

/-- How far the idle thread is from its sleep. -/
def stepsToSleep : IdlePoint → Nat
  | .sleeps .. => 0
  | .begins .. => 1
  | .chooses _ => 2
  | .loads => 3
  | .disarms => 4
  | .unloads _ => 5
  | .loadsEngine => 6
  | .readsState .. => 7
  | .readsFlag .. => 8

theorem stepsToSleep_idleStep (threads : IdleWorld) (awake : stepsToSleep threads.idle ≠ 0) :
    stepsToSleep threads.idleStep.idle < stepsToSleep threads.idle := by
  unfold IdleWorld.idleStep
  cases point : threads.idle with
  | sleeps =>
      rw [point] at awake
      exact absurd rfl awake
  | loadsEngine =>
      dsimp only
      cases threads.session.voiceEngine with
      | none => exact Nat.lt_of_sub_eq_succ rfl
      | some engine => dsimp only; split <;> exact Nat.lt_of_sub_eq_succ rfl
  | readsFlag | readsState => dsimp only; split <;> exact Nat.lt_of_sub_eq_succ rfl
  | loads | chooses | begins | unloads | disarms => exact Nat.lt_of_sub_eq_succ rfl

theorem completes_of_ended (point : world.point = .joinsIdle) (ended : world.idleEnded = true) :
    world.Completes := by
  refine ⟨[.main, .main], ?_⟩
  have joined : world.mainStep = world.goes .drops := by
    rw [mainStep, point]
    exact if_pos ended
  rw [Machine.run_cons, step, joined]
  rfl

/-- The message finds the idle thread where it sleeps, and it comes there from everywhere. -/
theorem completes_of_joinsIdle (point : world.point = .joinsIdle) (told : world.shutdown = true) :
    world.Completes := by
  induction left : stepsToSleep world.threads.idle using Nat.strong_induction_on
    generalizing world with
  | _ left induction =>
      by_cases ended : world.idleEnded = true
      · exact completes_of_ended point ended
      have stepped : world.idleStep = if stepsToSleep world.threads.idle = 0 then
          { world.takes .idle with idleEnded := true }
          else { world.takes .idle with threads := world.threads.idleStep } := by
        unfold VoiceTeardown.idleStep
        rw [if_neg ended, told]
        cases world.threads.idle <;> rfl
      refine .before .idle ?_
      change world.idleStep.Completes
      rw [stepped]
      split
      · exact completes_of_ended point rfl
      · next awake =>
          exact induction _ (left ▸ stepsToSleep_idleStep world.threads awake) point told rfl

/-- How far the inference thread is from its end. -/
def stepsToEnd : InferPoint → Nat
  | .absent | .ended => 0
  | .signals => 1
  | .infers => 2
  | .takes => 3

theorem stepsToEnd_inferStep (joined : ¬ (world.infer = .absent ∨ world.infer = .ended)) :
    stepsToEnd (world.inferStep true).infer < stepsToEnd world.infer := by
  unfold inferStep
  cases point : world.infer with
  | absent => exact absurd (.inl point) joined
  | ended => exact absurd (.inr point) joined
  | takes | infers | signals => exact Nat.lt_of_sub_eq_succ rfl

theorem completes_of_joinsInfer (point : world.point = .joinsInfer) : world.Completes := by
  induction left : stepsToEnd world.infer using Nat.strong_induction_on generalizing world with
  | _ left induction =>
      by_cases joined : world.infer = .absent ∨ world.infer = .ended
      · have joins : world.mainStep = world.goes .sendsShutdown := by
          rw [mainStep, point]
          exact if_pos joined
        refine .before .main (.before .main ?_)
        change world.mainStep.mainStep.Completes
        rw [joins]
        exact completes_of_joinsIdle rfl rfl
      · exact .before (.infer true) (induction _ (left ▸ stepsToEnd_inferStep joined)
          ((world.inferStep_keeps true).point.trans point) rfl)

/-- Whatever the threads are doing when the frontend is destroyed, the destroying can end. -/
theorem completes_begin (threads : IdleWorld) (infer : InferPoint) (capture : Option Capture)
    (buffered : Nat) : (begin .detaches threads infer capture buffered).Completes :=
  .before .main (.before .main (completes_of_joinsInfer rfl))

theorem ordered_begin (threads : IdleWorld) (infer : InferPoint) (capture : Option Capture)
    (buffered : Nat) :
    (begin .detaches threads infer capture buffered).Ordered false capture.isSome :=
  ⟨nofun, nofun, ⟨rfl, rfl, rfl⟩, fun some => absurd rfl some⟩

theorem ordered_run (ordered : world.Ordered attached source) (events : List Event) :
    (Machine.run step world events).Ordered attached source :=
  (Machine.Always.of_preserved (Ordered · attached source)
    (fun _ event ordered => ordered.step event) ordered).final

/-- In whatever state the session is when the frontend is destroyed, and whatever the threads are
doing, every run to the end tears the session down if and only if there is no audio source. -/
theorem tornDown_iff_no_source (threads : IdleWorld) (infer : InferPoint)
    (capture : Option Capture) (buffered : Nat) :
    (∀ events, (Machine.run step (begin .detaches threads infer capture buffered) events).point =
        .returned →
      (Machine.run step (begin .detaches threads infer capture buffered) events).TornDown
        capture.isSome) ↔ capture = none := by
  have ordered := ordered_begin threads infer capture buffered
  constructor
  · intro tearsDown
    obtain ⟨events, returned⟩ := completes_begin threads infer capture buffered
    have tornDown := tearsDown events returned
    simpa using ((ordered_run ordered events).tornDown_iff returned).mp tornDown
  · rintro rfl events returned
    exact ((ordered_run ordered events).tornDown_iff returned).mpr (.inr rfl)

/-- A session which is freed with its source is torn down in every run to the end. -/
theorem tornDown_of_attached (threads : IdleWorld) (infer : InferPoint)
    (capture : Option Capture) (buffered : Nat)
    (attached : threads.session.audioSource = capture.isSome) (events : List Event) :
    (Machine.run step (begin .loadsSource threads infer capture buffered) events).point =
        .returned →
      (Machine.run step (begin .loadsSource threads infer capture buffered) events).TornDown
        capture.isSome := by
  intro returned
  have ordered : (begin .loadsSource threads infer capture buffered).Ordered
      threads.session.audioSource capture.isSome :=
    ⟨nofun, nofun, ⟨rfl, rfl, rfl⟩, fun some => absurd rfl some⟩
  refine ((ordered_run ordered events).tornDown_iff returned).mpr ?_
  rw [attached]
  cases capture with
  | none => exact .inr rfl
  | some capture => exact .inl rfl

/-- The frontend is destroyed during a recording; the capture goes on and calls back into the
session which was freed. -/
theorem callback_after_free :
    ¬ ∀ events,
      let session := IdleWorld.create (some ⟨"whisper", 0⟩) true 480000 fun _ => true
      let destroyed := begin .detaches (session.setState .recording) .absent (some ⟨true⟩) 0
      (Machine.run step destroyed events).point = .returned →
        (Machine.run step destroyed events).TornDown true := by
  intro tearsDown
  have tornDown := tearsDown [.main, .main, .main, .main, .idle, .idle, .idle, .idle, .main, .main,
    .process ⟨true, 1024, 0, 1024⟩] (by decide +kernel)
  have late := tornDown.quiet
  exact absurd late (by decide +kernel)

end VoiceTeardown

end Daemon

end Typio
