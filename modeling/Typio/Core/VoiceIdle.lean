import Typio.Core.VoiceSession

/-!
# The idle thread of the voice session

The idle thread unloads the engine of a session which is not used.  It sleeps for the timeout if it
finds the flag set and for a hundred milliseconds if not; then it reads the flag and the state, one
after the other, and unloads the engine without the lock.  The main thread sets the flag once the
session is idle and clears it when a recording starts.  Every access to what the threads share is
one step, and time passes between the steps.
-/

namespace Typio

namespace Core

inductive SessionCall where
  | start
  | stop
  | dispatch
  deriving DecidableEq, Repr

/-- Where the main thread is in a call: what it does next. -/
inductive MainPoint where
  | returned
  | startLocks
  | startFocuses
  | startRelocks
  | startBegins
  | startRecords
  | startRearms
  | startFires
  | stopSpawns
  | dispatchLocks
  | loadBegins (hasEngine shouldAutoStart : Bool)
  | loadRecords
  | loadCalms
  | loadArms
  | dispatchJoins
  | dispatchCalms
  | dispatchReloads
  | dispatchArms
  | fires
  deriving DecidableEq, Repr

namespace MainPoint

/-- A start call is in progress. -/
def starting : MainPoint → Bool
  | startLocks | startFocuses | startRelocks | startBegins | startRecords | startRearms
  | startFires => true
  | _ => false

/-- A dispatch call has found the session loading and has not ended that. -/
def loads : MainPoint → Bool
  | loadBegins .. | loadRecords | loadCalms => true
  | _ => false

/-- The next step sets the flag. -/
def arms : MainPoint → Bool
  | startRearms | loadArms | dispatchArms => true
  | _ => false

end MainPoint

/-- Where the idle thread is: what it does next.  It keeps the timeout it has read, how long it
sleeps, and since when. -/
inductive IdlePoint where
  | loads
  | chooses (timeout : Nat)
  | begins (timeout wait : Nat)
  | sleeps (timeout wait since : Nat)
  | readsFlag (timeout wait since : Nat)
  | readsState (timeout wait since : Nat)
  | loadsEngine
  | unloads (engine : EngineRef)
  | disarms
  deriving DecidableEq, Repr

/-- The idle thread has found the session idle and has not unloaded the engine. -/
def IdlePoint.decided : IdlePoint → Bool
  | .loadsEngine | .unloads _ => true
  | _ => false

/-- When the idle thread reads the flag or the state, its sleep is over. -/
def IdlePoint.Woken (now : Nat) : IdlePoint → Prop
  | .readsFlag _ wait since | .readsState _ wait since => since + wait ≤ now
  | _ => True

theorem IdlePoint.Woken.mono {point : IdlePoint} {now later : Nat} (woken : point.Woken now)
    (after : now ≤ later) : point.Woken later := by
  cases point with
  | readsFlag | readsState => exact woken.trans after
  | _ => trivial

/-- The session, its two threads and the time.  When the session became idle is kept for the
statements; no function reads it. -/
structure IdleWorld where
  session : VoiceSession
  idleArmed : Bool
  idleTimeoutMs : Nat
  hasDeactivate : EngineRef → Bool
  main : MainPoint
  idle : IdlePoint
  now : Nat
  becameIdle : Nat

namespace IdleWorld

variable (world : IdleWorld)

/-- `typio_voice_session_new`, which starts the idle thread. -/
def create (voiceEngine : Option EngineRef) (audioSource : Bool) (idleTimeoutMs : Nat)
    (hasDeactivate : EngineRef → Bool) : IdleWorld where
  session :=
    { voiceEngine := voiceEngine
      audioSource := audioSource
      state := .idle
      reloadPending := false
      pending := false
      autoStartOnLoad := false }
  idleArmed := false
  idleTimeoutMs := idleTimeoutMs
  hasDeactivate := hasDeactivate
  main := .returned
  idle := .loads
  now := 0
  becameIdle := 0

/-- The main thread goes on to a point. -/
def goes (point : MainPoint) : IdleWorld := { world with main := point }

def arm (armed : Bool) : IdleWorld := { world with idleArmed := armed }

def setState (state : VoiceState) : IdleWorld :=
  { world with
    session := { world.session with state := state }
    becameIdle :=
      if state = .idle ∧ world.session.state ≠ .idle then world.now else world.becameIdle }

/-- A call begins with its first access.  The session has one main thread. -/
def call (call : SessionCall) : IdleWorld :=
  if world.main ≠ .returned then world
  else
    match call with
    | .start => (world.arm false).goes .startLocks
    | .stop =>
        match world.session.state with
        | .loading =>
            let calm := world.setState .idle
            { calm with
              session := { calm.session with autoStartOnLoad := false }
              main := .fires }
        | .recording => (world.setState .processing).goes .stopSpawns
        | .idle | .processing => world
    | .dispatch => world.goes .dispatchLocks

/-- The part of `typio_voice_session_start` between finding out about the engine and unlocking. -/
def check (ready : Bool) : IdleWorld :=
  if !ready || world.session.state ≠ .idle || !world.session.audioSource then
    world.goes .startRearms
  else world.goes .startBegins

/-- `try_begin_recording`. -/
def begins (conduct : VoiceConduct) : Bool := world.session.audioSource && conduct.sourceStarts

/-- The main thread goes on with its call. -/
def mainStep (conduct : VoiceConduct) : IdleWorld :=
  match world.main with
  | .returned => world
  | .startLocks =>
      if world.session.state = .loading then world.goes .returned
      else if world.session.voiceEngine.any fun engine =>
          !conduct.ready engine && conduct.hasFocusIn engine then
        world.goes .startFocuses
      else world.check (world.session.voiceEngine.any conduct.ready)
  | .startFocuses => world.goes .startRelocks
  | .startRelocks => world.check (world.session.voiceEngine.any conduct.loaded)
  | .startBegins => world.goes (if world.begins conduct then .startRecords else .startRearms)
  | .startRecords => (world.setState .recording).goes .startFires
  | .startRearms => (world.arm true).goes .returned
  | .startFires => world.goes .returned
  | .stopSpawns =>
      { world with session := { world.session with pending := true }, main := .returned }
  | .dispatchLocks =>
      if world.session.state = .loading then
        { world with
          session := { world.session with autoStartOnLoad := false }
          main := .loadBegins (world.session.voiceEngine.any conduct.ready)
            world.session.autoStartOnLoad }
      else world.goes .dispatchJoins
  | .loadBegins hasEngine shouldAutoStart =>
      world.goes
        (if hasEngine && shouldAutoStart && world.begins conduct then .loadRecords else .loadCalms)
  | .loadRecords => (world.setState .recording).goes .fires
  | .loadCalms => (world.setState .idle).goes .loadArms
  | .loadArms => (world.arm true).goes .returned
  | .dispatchJoins =>
      { world with session := { world.session with pending := false }, main := .dispatchCalms }
  | .dispatchCalms =>
      let calm := world.setState .idle
      { calm with
        session := { calm.session with reloadPending := false }
        main := if world.session.reloadPending then .dispatchReloads else .dispatchArms }
  | .dispatchReloads => world.goes .dispatchArms
  | .dispatchArms => (world.arm true).goes .fires
  | .fires => world.goes .returned

/-- `idle_thread_main`. -/
def idleStep : IdleWorld :=
  match world.idle with
  | .loads => { world with idle := .chooses world.idleTimeoutMs }
  | .chooses timeout =>
      { world with
        idle := .begins timeout (if world.idleArmed && decide (0 < timeout) then timeout else 100) }
  | .begins timeout wait => { world with idle := .sleeps timeout wait world.now }
  | .sleeps timeout wait since =>
      if world.now < since + wait then world
      else { world with idle := if 0 < timeout then .readsFlag timeout wait since else .loads }
  | .readsFlag timeout wait since =>
      { world with idle := if world.idleArmed then .readsState timeout wait since else .loads }
  | .readsState _ _ _ =>
      { world with idle := if world.session.state = .idle then .loadsEngine else .loads }
  | .loadsEngine =>
      { world with
        idle :=
          match world.session.voiceEngine with
          | some engine => if world.hasDeactivate engine then .unloads engine else .disarms
          | none => .disarms }
  -- The call of `deactivate`: what the engine answers after it is in the conduct.
  | .unloads _ => { world with idle := .disarms }
  | .disarms => { world.arm false with idle := .loads }

inductive Event where
  | call (call : SessionCall)
  | main (conduct : VoiceConduct)
  | idle
  | elapse (ms : Nat)

def step (world : IdleWorld) : Event → IdleWorld
  | .call call => world.call call
  | .main conduct => world.mainStep conduct
  | .idle => world.idleStep
  | .elapse ms => { world with now := world.now + ms }

/-! ## Whole calls -/

/-- What the call is to a main thread which is alone. -/
def wholeCall (conduct : VoiceConduct) : SessionCall → VoiceWorld.Event
  | .start => .start conduct
  | .stop => .stop
  | .dispatch => .dispatch conduct

/-- The main thread, if it is alone, returns from its call with this session. -/
inductive Finishes (conduct : VoiceConduct) (session : VoiceSession) : IdleWorld → Prop where
  | returned {world : IdleWorld} (main : world.main = .returned)
      (same : world.session = session) : Finishes conduct session world
  | next {world : IdleWorld} (later : Finishes conduct session (world.mainStep conduct)) :
      Finishes conduct session world

namespace Finishes

variable {world} {conduct : VoiceConduct}

theorem check_of_refused {ready : Bool}
    (refused : (!ready || world.session.state ≠ .idle || !world.session.audioSource) = true) :
    Finishes conduct world.session (world.check ready) := by
  rw [IdleWorld.check, if_pos refused]
  exact .next (.returned rfl rfl)

theorem check_of_silent (ready : Bool) (silent : world.begins conduct = false) :
    Finishes conduct world.session (world.check ready) := by
  unfold IdleWorld.check
  split
  · exact .next (.returned rfl rfl)
  · refine .next ?_
    change Finishes _ _ (world.goes (if world.begins conduct then .startRecords else .startRearms))
    rw [silent]
    exact .next (.returned rfl rfl)

theorem check_of_begins {ready : Bool}
    (accepted : ¬ (!ready || world.session.state ≠ .idle || !world.session.audioSource) = true)
    (begins : world.begins conduct = true) :
    Finishes conduct { world.session with state := .recording } (world.check ready) := by
  rw [IdleWorld.check, if_neg accepted]
  refine .next ?_
  change Finishes _ _ (world.goes (if world.begins conduct then .startRecords else .startRearms))
  rw [begins]
  exact .next (.next (.returned rfl rfl))

theorem check_start {voice : VoiceWorld} (same : world.session = voice.session)
    (free : voice.session.state ≠ .loading) {ready : Bool}
    (found : (voice.session.voiceEngine.any fun engine =>
      conduct.ready engine || (conduct.hasFocusIn engine && conduct.loaded engine)) = ready) :
    Finishes conduct (voice.start conduct).1.session (world.check ready) := by
  have sourceStarts : world.begins conduct = voice.begins conduct := by
    rw [begins, VoiceWorld.begins, same]
  rw [VoiceWorld.start, if_neg free]
  dsimp only
  rw [found]
  split
  · next refused => exact same ▸ check_of_refused (same ▸ refused)
  next accepted =>
    split
    · next silent => exact same ▸ check_of_silent ready (by simpa [sourceStarts] using silent)
    · next begins =>
        have recording : Finishes conduct { world.session with state := .recording } _ :=
          check_of_begins (same ▸ accepted) (by simpa [sourceStarts] using begins)
        rw [same] at recording
        exact recording

/-- From the first lock on, whether or not the engine is loaded by its `focus_in`. -/
theorem startLocks {voice : VoiceWorld} (same : world.session = voice.session)
    (point : world.main = .startLocks) :
    Finishes conduct (voice.start conduct).1.session world := by
  refine .next ?_
  unfold mainStep
  rw [point]
  dsimp only
  split
  · next loading =>
      rw [VoiceWorld.start, if_pos (same ▸ loading)]
      exact .returned rfl same
  next busy =>
    have busy' : voice.session.state ≠ .loading := same ▸ busy
    split
    · next focuses =>
        refine .next (.next (check_start same busy' ?_))
        change _ = world.session.voiceEngine.any conduct.loaded
        rw [← same]
        cases engine : world.session.voiceEngine with
        | none => rfl
        | some engine => simp_all
    · next settled =>
        refine check_start same busy' ?_
        rw [← same]
        cases engine : world.session.voiceEngine with
        | none => rfl
        | some held => cases ready : conduct.ready held <;> simp_all

theorem loadBegins {hasEngine shouldAutoStart begun : Bool}
    (point : world.main = .loadBegins hasEngine shouldAutoStart)
    (found : (hasEngine && shouldAutoStart && world.begins conduct) = begun) :
    Finishes conduct { world.session with state := if begun then .recording else .idle } world := by
  refine .next ?_
  rw [mainStep, point]
  dsimp only
  rw [found]
  cases begun <;> exact .next (.next (.returned rfl rfl))

theorem dispatchJoins (point : world.main = .dispatchJoins) :
    Finishes conduct
      { world.session with state := .idle, pending := false, reloadPending := false } world := by
  refine .next ?_
  rw [mainStep, point]
  refine .next ?_
  change Finishes _ _ { ({ world with
      session := { world.session with pending := false }
      main := .dispatchCalms }.setState .idle) with
    session := { world.session with state := .idle, pending := false, reloadPending := false }
    main := if world.session.reloadPending then .dispatchReloads else .dispatchArms }
  split
  · exact .next (.next (.next (.returned rfl rfl)))
  · exact .next (.next (.returned rfl rfl))

theorem dispatchLocks {voice : VoiceWorld} (same : world.session = voice.session)
    (point : world.main = .dispatchLocks) :
    Finishes conduct (voice.dispatch conduct).session world := by
  refine .next ?_
  rw [mainStep, point, VoiceWorld.dispatch, same]
  dsimp only
  split
  · next loading =>
      generalize found : (voice.session.voiceEngine.any conduct.ready &&
        voice.session.autoStartOnLoad && voice.begins conduct) = begun
      refine cast (congrArg (Finishes conduct · _) ?_) (loadBegins rfl found)
      cases begun <;> rfl
  · next busy =>
      refine cast (congrArg (Finishes conduct · _) ?_) (dispatchJoins rfl)
      have joined := voice.infer_session conduct
      split
      · change _ = { (voice.infer conduct).session with state := .idle, reloadPending := false }
        rw [joined, ← same]
        rfl
      · change _ = { (voice.infer conduct).session with state := .idle, reloadPending := false }
        rw [joined, ← same]
        rfl

end Finishes

/-- A call which is carried out without a break does to the session what it does in one step. -/
theorem finishes_call (voice : VoiceWorld) (conduct : VoiceConduct) (call : SessionCall)
    (same : world.session = voice.session) (free : world.main = .returned) :
    Finishes conduct (voice.step (wholeCall conduct call)).session (world.call call) := by
  unfold IdleWorld.call
  rw [if_neg (not_not.mpr free)]
  cases call with
  | start => exact .startLocks same rfl
  | dispatch => exact .dispatchLocks same rfl
  | stop =>
      obtain ⟨session, _, _, _, main, _, _, _⟩ := world
      obtain rfl : session = voice.session := same
      change Finishes conduct voice.stop.session _
      unfold VoiceWorld.stop
      dsimp only
      cases voice.session.state with
      | loading | recording => exact .next (.returned rfl rfl)
      | idle | processing => exact .returned free rfl

/-! ## The property and the condition -/

/-- The session is not used: it is idle, nothing starts it, and it has been idle for the timeout. -/
structure Calm : Prop where
  state : world.session.state = .idle
  starting : world.main.starting = false
  elapsed : world.becameIdle + world.idleTimeoutMs ≤ world.now

/-- If the idle thread unloads the engine, the session is not used. -/
def UnloadsCalm (world : IdleWorld) : Event → Prop
  | .idle => ∀ engine, world.idle = .unloads engine → world.Calm
  | _ => True

/-- If the idle thread reads that the session is idle, then the flag is still set, and the sleep it
comes from did not end before the session had been idle for the timeout.  No start call begins
between this and the unloading. -/
def Undisturbed (world : IdleWorld) : Event → Prop
  | .call .start => world.main = .returned → world.idle.decided = false
  | .idle =>
      match world.idle with
      | .readsState _ wait since => world.session.state = .idle →
          world.idleArmed = true ∧ world.becameIdle + world.idleTimeoutMs ≤ since + wait
      | _ => True
  | _ => True

instance (event : Event) : Decidable (Undisturbed world event) := by
  unfold Undisturbed
  split
  · infer_instance
  · split <;> infer_instance
  · infer_instance

/-! ## The invariant -/

/-- The flag is off as long as a start call is in progress, and once the idle thread has decided to
unload the engine the session is not used. -/
structure Guarded : Prop where
  flag : world.main.starting → world.idleArmed = false
  loading : world.main.loads → world.session.state = .loading
  woken : world.idle.Woken world.now
  calm : world.idle.decided → world.Calm

theorem guarded_create (voiceEngine : Option EngineRef) (audioSource : Bool) (idleTimeoutMs : Nat)
    (hasDeactivate : EngineRef → Bool) :
    (create voiceEngine audioSource idleTimeoutMs hasDeactivate).Guarded where
  flag := nofun
  loading := nofun
  woken := trivial
  calm := nofun

/-- The idle thread, the time and the timeout are not the main thread's. -/
structure MainKeeps (before after : IdleWorld) : Prop where
  idle : after.idle = before.idle
  now : after.now = before.now
  idleTimeoutMs : after.idleTimeoutMs = before.idleTimeoutMs

theorem check_keeps (ready : Bool) : MainKeeps world (world.check ready) := by
  unfold check
  split <;> exact ⟨rfl, rfl, rfl⟩

theorem mainStep_keeps (conduct : VoiceConduct) : MainKeeps world (world.mainStep conduct) := by
  unfold mainStep
  split
  case h_2 =>
    split
    · exact ⟨rfl, rfl, rfl⟩
    split
    · exact ⟨rfl, rfl, rfl⟩
    · exact world.check_keeps _
  case h_4 => exact world.check_keeps _
  case h_10 => split <;> exact ⟨rfl, rfl, rfl⟩
  all_goals exact ⟨rfl, rfl, rfl⟩

theorem call_keeps (call : SessionCall) : MainKeeps world (world.call call) := by
  unfold IdleWorld.call
  split
  · exact ⟨rfl, rfl, rfl⟩
  cases call with
  | start | dispatch => exact ⟨rfl, rfl, rfl⟩
  | stop => dsimp only; split <;> exact ⟨rfl, rfl, rfl⟩

variable {world}

theorem MainKeeps.woken {after : IdleWorld} (keeps : MainKeeps world after)
    (woken : world.idle.Woken world.now) : after.idle.Woken after.now := by
  rw [keeps.idle, keeps.now]
  exact woken

theorem check_idleArmed (ready : Bool) : (world.check ready).idleArmed = world.idleArmed := by
  unfold check
  split <;> rfl

theorem check_loads (ready : Bool) : (world.check ready).main.loads = false := by
  unfold check
  split <;> rfl

theorem mainStep_idleArmed (conduct : VoiceConduct) :
    (world.mainStep conduct).idleArmed = (world.idleArmed || world.main.arms) := by
  unfold mainStep
  cases world.main with
  | startLocks =>
      dsimp only
      repeat' split
      all_goals simp [check_idleArmed, goes, MainPoint.arms]
  | startRelocks => simp [check_idleArmed, MainPoint.arms]
  | dispatchLocks =>
      dsimp only
      split <;> simp [goes, MainPoint.arms]
  | _ => simp [goes, arm, setState, MainPoint.arms]

/-- A start call which is in progress after a step was so before, and the step was not its last. -/
theorem starting_of_mainStep (conduct : VoiceConduct)
    (starting : (world.mainStep conduct).main.starting) :
    world.main.starting ∧ world.main.arms = false := by
  unfold mainStep at starting
  cases point : world.main with
  | startLocks | startFocuses | startRelocks | startBegins | startRecords => exact ⟨rfl, rfl⟩
  | _ =>
      exfalso
      revert starting
      simp only [point, goes]
      repeat' split
      all_goals simp_all [MainPoint.starting]

theorem Calm.mainStep (calm : world.Calm)
    (loading : world.main.loads → world.session.state = .loading) (conduct : VoiceConduct) :
    (world.mainStep conduct).Calm := by
  obtain ⟨state, starting, elapsed⟩ := calm
  unfold IdleWorld.mainStep
  cases point : world.main with
  | returned => exact ⟨state, starting, elapsed⟩
  | startLocks | startFocuses | startRelocks | startBegins | startRecords | startRearms
  | startFires =>
      rw [point] at starting
      exact absurd starting (by decide)
  | loadBegins | loadRecords | loadCalms =>
      have busy := loading (by rw [point]; rfl)
      exact absurd (state.symm.trans busy) (by decide)
  | dispatchLocks =>
      dsimp only
      rw [if_neg (by rw [state]; decide)]
      exact ⟨state, rfl, elapsed⟩
  | dispatchCalms =>
      refine ⟨rfl, ?_, ?_⟩
      · dsimp only
        split <;> rfl
      -- A session which is idle does not become idle.
      · change (if _ ∧ world.session.state ≠ .idle then _ else _) + _ ≤ world.now
        rw [if_neg fun becomes => becomes.2 state]
        exact elapsed
  | stopSpawns | loadArms | dispatchJoins | dispatchReloads | dispatchArms | fires =>
      exact ⟨state, rfl, elapsed⟩

theorem Calm.call (calm : world.Calm) {call : SessionCall} (other : call ≠ .start) :
    (world.call call).Calm := by
  unfold IdleWorld.call
  split
  · exact calm
  cases call with
  | start => exact absurd rfl other
  | stop =>
      dsimp only
      rw [calm.state]
      exact calm
  | dispatch => exact ⟨calm.state, rfl, calm.elapsed⟩

theorem mainStep_loads (conduct : VoiceConduct)
    (loading : world.main.loads → world.session.state = .loading)
    (loads : (world.mainStep conduct).main.loads) :
    (world.mainStep conduct).session.state = .loading := by
  unfold mainStep at loads ⊢
  cases point : world.main with
  | loadBegins => exact loading (by rw [point]; rfl)
  | dispatchLocks =>
      rw [point] at loads
      dsimp only at loads ⊢
      split
      · next busy => exact busy
      · next calm => rw [if_neg calm] at loads; exact nomatch loads
  | startLocks =>
      rw [point] at loads
      dsimp only at loads
      split at loads
      · exact nomatch loads
      split at loads
      · exact nomatch loads
      · rw [check_loads] at loads
        exact nomatch loads
  | startRelocks =>
      rw [point] at loads
      dsimp only at loads
      rw [check_loads] at loads
      exact nomatch loads
  | _ =>
      exfalso
      revert loads
      simp only [point, goes]
      repeat' split
      all_goals simp_all [MainPoint.loads]

theorem Guarded.main (guarded : world.Guarded) (conduct : VoiceConduct) :
    (world.mainStep conduct).Guarded where
  flag starting := by
    obtain ⟨before, arms⟩ := starting_of_mainStep conduct starting
    rw [mainStep_idleArmed, guarded.flag before, arms, Bool.or_self]
  loading := mainStep_loads conduct guarded.loading
  woken := (world.mainStep_keeps conduct).woken guarded.woken
  calm decided := by
    rw [(world.mainStep_keeps conduct).idle] at decided
    exact (guarded.calm decided).mainStep guarded.loading conduct

/-- A call which is begun is no load, and if it is a start the flag is off. -/
theorem call_cases (call : SessionCall) :
    world.call call = world ∨ (world.call call).main.loads = false ∧
      ((world.call call).main.starting → (world.call call).idleArmed = false) := by
  unfold IdleWorld.call
  split
  · exact .inl rfl
  cases call with
  | start => exact .inr ⟨rfl, fun _ => rfl⟩
  | dispatch => exact .inr ⟨rfl, nofun⟩
  | stop =>
      cases world.session.state with
      | loading | recording => exact .inr ⟨rfl, nofun⟩
      | idle | processing => exact .inl rfl

theorem Guarded.call (guarded : world.Guarded) {call : SessionCall}
    (undisturbed : Undisturbed world (.call call)) : (world.call call).Guarded where
  flag starting := by
    obtain same | ⟨-, started⟩ := world.call_cases call
    · rw [same] at starting ⊢
      exact guarded.flag starting
    · exact started starting
  loading loads := by
    obtain same | ⟨other, -⟩ := world.call_cases call
    · rw [same] at loads ⊢
      exact guarded.loading loads
    · rw [other] at loads
      exact nomatch loads
  woken := (world.call_keeps call).woken guarded.woken
  calm decided := by
    rw [(world.call_keeps call).idle] at decided
    by_cases start : call = .start
    · subst start
      by_cases free : world.main = .returned
      · exact absurd (undisturbed free) (by simp [decided])
      · rw [IdleWorld.call, if_pos free]
        exact guarded.calm decided
    · exact (guarded.calm decided).call start

theorem Guarded.elapse (guarded : world.Guarded) (ms : Nat) :
    (step world (.elapse ms)).Guarded where
  flag := guarded.flag
  loading := guarded.loading
  woken := guarded.woken.mono (Nat.le_add_right ..)
  calm decided := by
    obtain ⟨state, starting, elapsed⟩ := guarded.calm decided
    exact ⟨state, starting, elapsed.trans (Nat.le_add_right ..)⟩

/-- The session, the main thread and the time are not the idle thread's, and it sets no flag. -/
structure IdleKeeps (before after : IdleWorld) : Prop where
  session : after.session = before.session
  main : after.main = before.main
  flag : before.idleArmed = false → after.idleArmed = false
  now : after.now = before.now
  becameIdle : after.becameIdle = before.becameIdle
  idleTimeoutMs : after.idleTimeoutMs = before.idleTimeoutMs

theorem idleStep_keeps : IdleKeeps world world.idleStep := by
  unfold idleStep
  split
  case h_4 => split <;> exact ⟨rfl, rfl, id, rfl, rfl, rfl⟩
  case h_9 => exact ⟨rfl, rfl, fun _ => rfl, rfl, rfl, rfl⟩
  all_goals exact ⟨rfl, rfl, id, rfl, rfl, rfl⟩

theorem Calm.idle (calm : world.Calm) : world.idleStep.Calm := by
  have keeps := world.idleStep_keeps
  refine ⟨?_, ?_, ?_⟩
  · rw [keeps.session]; exact calm.state
  · rw [keeps.main]; exact calm.starting
  · rw [keeps.becameIdle, keeps.idleTimeoutMs, keeps.now]; exact calm.elapsed

theorem idleStep_woken (woken : world.idle.Woken world.now) :
    world.idleStep.idle.Woken world.now := by
  unfold idleStep
  cases point : world.idle with
  | sleeps timeout wait since =>
      dsimp only
      split
      · rw [point]; trivial
      next slept =>
        dsimp only
        split
        · exact Nat.not_lt.mp slept
        · trivial
  | readsFlag timeout wait since =>
      rw [point] at woken
      dsimp only
      split
      · exact woken
      · trivial
  | readsState | loadsEngine =>
      dsimp only
      repeat' split
      all_goals trivial
  | _ => trivial

/-- The idle thread decides to unload the engine when it reads that the session is idle.  The flag
which is still set tells that no start call is in progress. -/
theorem calm_of_decides (guarded : world.Guarded) (undisturbed : Undisturbed world .idle)
    (before : world.idle.decided = false) (decided : world.idleStep.idle.decided) :
    world.Calm := by
  unfold idleStep at decided
  cases point : world.idle with
  | readsState timeout wait since =>
      have woken := guarded.woken
      rw [point] at woken
      rw [Undisturbed, point] at undisturbed
      rw [point] at decided
      by_cases state : world.session.state = .idle
      · obtain ⟨armed, slept⟩ := undisturbed state
        refine ⟨state, ?_, slept.trans woken⟩
        by_contra starting
        rw [guarded.flag (by simpa using starting)] at armed
        exact nomatch armed
      · dsimp only at decided
        rw [if_neg state] at decided
        exact nomatch decided
  | loadsEngine | unloads =>
      rw [point] at before
      exact nomatch before
  | sleeps | readsFlag =>
      rw [point] at decided
      dsimp only at decided
      repeat' split at decided
      all_goals simp_all [IdlePoint.decided]
  | loads | chooses | begins | disarms =>
      rw [point] at decided
      exact nomatch decided

theorem Guarded.idle (guarded : world.Guarded) (undisturbed : Undisturbed world .idle) :
    world.idleStep.Guarded where
  flag starting := by
    rw [world.idleStep_keeps.main] at starting
    exact world.idleStep_keeps.flag (guarded.flag starting)
  loading loads := by
    rw [world.idleStep_keeps.main] at loads
    rw [world.idleStep_keeps.session]
    exact guarded.loading loads
  woken := by
    rw [world.idleStep_keeps.now]
    exact idleStep_woken guarded.woken
  calm decided := by
    refine Calm.idle ?_
    cases before : world.idle.decided with
    | true => exact guarded.calm before
    | false => exact calm_of_decides guarded undisturbed before decided

theorem Guarded.step (guarded : world.Guarded) (event : Event)
    (undisturbed : Undisturbed world event) : (step world event).Guarded := by
  cases event with
  | call call => exact guarded.call undisturbed
  | main conduct => exact guarded.main conduct
  | idle => exact guarded.idle undisturbed
  | elapse ms => exact guarded.elapse ms

/-- In every run in which the flag is still set when the idle thread finds the session idle, no
sleep which leads there ended early, and no start call begins before the engine is unloaded, the
idle thread unloads the engine only of a session which is not used. -/
theorem unloadsCalm_of_undisturbed (voiceEngine : Option EngineRef) (audioSource : Bool)
    (idleTimeoutMs : Nat) (hasDeactivate : EngineRef → Bool) (events : List Event)
    (each : Machine.EachStep step Undisturbed
      (create voiceEngine audioSource idleTimeoutMs hasDeactivate) events) :
    Machine.EachStep step UnloadsCalm (create voiceEngine audioSource idleTimeoutMs hasDeactivate)
      events := by
  have guarded : Machine.Always step Guarded
      (create voiceEngine audioSource idleTimeoutMs hasDeactivate) events :=
    Machine.Always.of_invariant Guarded
      (fun _ event guarded undisturbed => guarded.step event undisturbed)
      (guarded_create ..) each
  refine Machine.EachStep.of_always (fun world event guarded => ?_) guarded
  cases event with
  | idle =>
      intro engine unloads
      exact guarded.calm (by rw [unloads]; rfl)
  | call | main | elapse => trivial

/-- A recording of a ready engine, and its result. -/
def dictation : List Event :=
  let conduct : VoiceConduct := ⟨fun _ => true, fun _ => true, fun _ => true, true, true⟩
  .call .start :: List.replicate 4 (.main conduct) ++
    .call .stop :: .main conduct :: .call .dispatch :: List.replicate 5 (.main conduct)

/-- The idle thread begins its next sleep once the dictation is over. -/
theorem unloadsCalm_after_timeout :
    let session := create (some ⟨"whisper", 0⟩) true 480000 fun _ => true
    let before := .idle :: .idle :: .idle :: .elapse 100 :: .idle :: .idle :: dictation ++
      [.idle, .idle, .idle, .elapse 480000, .idle, .idle, .idle, .idle]
    (Machine.run step session before).idle = .unloads ⟨"whisper", 0⟩ ∧
      Machine.EachStep step UnloadsCalm session (before ++ [.idle]) :=
  ⟨by decide +kernel, unloadsCalm_of_undisturbed _ _ _ _ _ (by decide +kernel)⟩

/-- The whole dictation falls into a sleep which began with the flag off. -/
theorem unloaded_early :
    ¬ Machine.EachStep step UnloadsCalm (create (some ⟨"whisper", 0⟩) true 480000 fun _ => true)
      (.idle :: .idle :: .idle :: dictation ++
        [.elapse 100, .idle, .idle, .idle, .idle, .idle]) := by
  intro each
  have calm := each (.idle :: .idle :: .idle :: dictation ++
    [.elapse 100, .idle, .idle, .idle, .idle]) .idle ⟨[], rfl⟩ ⟨"whisper", 0⟩ (by decide +kernel)
  exact absurd calm.elapsed (by decide +kernel)

end IdleWorld

end Core

end Typio
