import Typio.Core.VoiceSession

/-!
# The states of the voice session

The event loop drives the session: it starts and stops recordings, feeds samples, dispatches what
the thread signalled and refreshes the configuration.  A reload which the session is asked for
while it is busy waits for its return to idle; a refresh of the configuration also reloads the
engine in the voice slot itself, whatever the session is doing.  The states are kept exactly as
long as no refresh finds the engine of a busy session in a slot.
-/

namespace Typio

namespace Core

namespace VoiceWorld

variable (world : VoiceWorld)

/-- `typio_engine_manager_get_active` and `typio_engine_manager_get_active_voice`. -/
def inSlot (slot : Slot) : Option EngineRef :=
  (world.manager.occupant slot).bind fun entry =>
    if entry.engine.isSome then some ⟨entry.name, world.unloads entry.name⟩ else none

/-- The engine which the configuration names for a slot is activated unless it is there. -/
def configure (slot : Slot) (configured : Option String) (calls : Calls) : VoiceWorld :=
  match configured.filter (· ≠ "") with
  | none => world
  | some name =>
      if (world.inSlot slot).map EngineRef.name = some name then world
      else
        match slot with
        | .keyboard => world.manage (.operation (.setActive name calls))
        | .voice => world.manage (.operation (.setActiveVoice name calls))

/-- `typio_voice_session_start` has come to `try_begin_recording`. -/
def readyToRecord (conduct : VoiceConduct) : Bool :=
  world.session.state = .idle && world.session.audioSource &&
    world.session.voiceEngine.any fun engine =>
      conduct.ready engine || (conduct.hasFocusIn engine && conduct.loaded engine)

/-- `typio_voice_session_dispatch` begins the recording which waited for the model. -/
def beginsOnLoad (conduct : VoiceConduct) : Bool :=
  world.session.state = .loading && world.session.voiceEngine.any conduct.ready &&
    world.session.autoStartOnLoad && world.begins conduct

end VoiceWorld

/-- What `runtime_config_refresh` reads from the configuration, and what the engines do when they
are activated: in `typio_instance_reload_config` and, when the voice engine is still another one,
once more. -/
structure Refresh where
  loaded : Bool
  defaultEngine : Option String
  defaultVoiceEngine : Option String
  calls : Calls
  voiceCalls : Calls
  retried : Calls
  conduct : VoiceConduct

namespace Refresh

variable (refresh : Refresh) (world : VoiceWorld)

/-- The world in which `typio_instance_reload_config` reloads the keyboard engine. -/
def keyboardChosen : VoiceWorld := world.configure .keyboard refresh.defaultEngine refresh.calls

/-- The world in which `runtime_config_refresh` reloads the voice engine. -/
def voiceChosen : VoiceWorld :=
  ((refresh.keyboardChosen world).configure .voice refresh.defaultVoiceEngine
    refresh.voiceCalls).configure .voice refresh.defaultVoiceEngine refresh.retried

end Refresh

/-- The session with its audio source, its event descriptor and its audio buffer.  For the
statements it is recorded in which states the engine of the session was reloaded, how often it had
been when the first of the requests was made that wait, how often it was reloaded from then until
the request was settled, and in which states a finished transcription was dispatched. -/
structure DrivenSession (Sample : Type*) where
  world : VoiceWorld
  sourceRunning : Bool
  signalled : Bool
  audioBuffer : List Sample
  reloads : List VoiceState
  owed : Option Nat
  settled : List Nat
  dispatched : List VoiceState

namespace DrivenSession

variable {Sample : Type*}

def create (manager : EngineManager) (unloads : String → Nat) (audioSource : Bool) :
    DrivenSession Sample where
  world := .create manager unloads audioSource
  sourceRunning := false
  signalled := false
  audioBuffer := []
  reloads := []
  owed := none
  settled := []
  dispatched := []

variable (driven : DrivenSession Sample)

def state : VoiceState := driven.world.session.state

/-- `reload_config` of an engine, which is recorded if it is the engine of the session. -/
def reloadConfig (engine : Option EngineRef) : DrivenSession Sample :=
  if engine.isSome ∧ engine = driven.world.session.voiceEngine then
    { driven with reloads := driven.state :: driven.reloads }
  else driven

/-- `typio_voice_session_start`. -/
def start (conduct : VoiceConduct) : DrivenSession Sample :=
  { driven with
    world := (driven.world.start conduct).1
    sourceRunning := driven.sourceRunning ||
      (driven.world.readyToRecord conduct && driven.world.begins conduct)
    audioBuffer := if driven.world.readyToRecord conduct then [] else driven.audioBuffer }

/-- `typio_voice_session_stop`. -/
def stop : DrivenSession Sample :=
  { driven with
    world := driven.world.stop
    sourceRunning := driven.sourceRunning &&
      !(driven.state = .recording && driven.world.session.audioSource) }

/-- `typio_voice_session_feed_audio`. -/
def feedAudio (samples : List Sample) : DrivenSession Sample :=
  if driven.state ≠ .recording then driven
  else { driven with audioBuffer := driven.audioBuffer ++ samples }

/-- The thread takes the buffer, transcribes and signals the event loop. -/
def infer (conduct : VoiceConduct) : DrivenSession Sample :=
  if !driven.world.session.pending then driven
  else
    { driven with world := driven.world.infer conduct, signalled := true, audioBuffer := [] }

/-- `typio_voice_session_reload_engine`. -/
def reloadEngine : DrivenSession Sample :=
  if driven.state ≠ .idle then
    { driven with
      world := driven.world.reload, owed := driven.owed.or (some driven.reloads.length) }
  else
    { driven.reloadConfig driven.world.session.voiceEngine with world := driven.world.reload }

/-- Back in idle, the request which waited is settled. -/
def settle : DrivenSession Sample :=
  { driven with
    owed := none
    settled := (driven.owed.map (driven.reloads.length - ·)).toList ++ driven.settled }

/-- `typio_voice_session_dispatch`, which the event loop calls when the descriptor was signalled. -/
def dispatch (conduct : VoiceConduct) : DrivenSession Sample :=
  if !driven.signalled then driven
  else
    let after :=
      { driven with
        world := driven.world.dispatch conduct
        signalled := false
        sourceRunning := driven.sourceRunning || driven.world.beginsOnLoad conduct }
    if driven.state = .loading then after
    else
      let joined := { after with dispatched := driven.state :: driven.dispatched }
      if driven.world.session.reloadPending then
        (joined.reloadConfig driven.world.session.voiceEngine).settle
      else joined.settle

/-- The engine found in a slot is reloaded, once the slot is configured. -/
def reloadSlot (slot : Slot) (chosen : VoiceWorld) : DrivenSession Sample :=
  { driven with world := chosen }.reloadConfig (chosen.inSlot slot)

/-- `runtime_config_refresh`. -/
def refreshConfig (refresh : Refresh) : DrivenSession Sample :=
  if !refresh.loaded then driven
  else
    let keyboard := driven.reloadSlot .keyboard (refresh.keyboardChosen driven.world)
    let asked := (keyboard.reloadSlot .voice (refresh.voiceChosen driven.world)).reloadEngine
    { asked with world := (asked.world.isAvailable refresh.conduct).1 }

inductive Event (Sample : Type*) where
  | manage (operation : EngineManager.RegistryOperation)
  | start (conduct : VoiceConduct)
  | stop
  | feedAudio (samples : List Sample)
  | infer (conduct : VoiceConduct)
  | reloadEngine
  | refreshConfig (refresh : Refresh)
  | dispatch (conduct : VoiceConduct)

def step (driven : DrivenSession Sample) : Event Sample → DrivenSession Sample
  | .manage operation => { driven with world := driven.world.manage operation }
  | .start conduct => driven.start conduct
  | .stop => driven.stop
  | .feedAudio samples => driven.feedAudio samples
  | .infer conduct => driven.infer conduct
  | .reloadEngine => driven.reloadEngine
  | .refreshConfig refresh => driven.refreshConfig refresh
  | .dispatch conduct => driven.dispatch conduct

/-! ## The property and the condition -/

/-- The states are kept. -/
structure Kept : Prop where
  /-- The engine is reloaded in idle only. -/
  idle : ∀ state ∈ driven.reloads, state = .idle
  /-- A request which had to wait was performed once when it was settled. -/
  once : ∀ performed ∈ driven.settled, performed = 1
  /-- No request waits in idle. -/
  performed : driven.owed.isSome → driven.state ≠ .idle
  source : driven.sourceRunning = true ↔ driven.state = .recording
  /-- No recording was ended by a dispatch. -/
  ended : .recording ∉ driven.dispatched

/-- A refresh reloads the engine of the session itself: when it reloads an engine, that one is in
the slot. -/
def ReloadsSession (engine : Option EngineRef) (refresh : Refresh) (world : VoiceWorld) : Prop :=
  engine.isSome ∧ ((refresh.keyboardChosen world).inSlot .keyboard = engine ∨
    (refresh.voiceChosen world).inSlot .voice = engine)

/-- The step is no refresh which reloads the engine of a busy session. -/
def RefreshesApart : Event Sample → Prop
  | .refreshConfig refresh =>
      refresh.loaded → driven.state ≠ .idle →
        ¬ ReloadsSession driven.world.session.voiceEngine refresh driven.world
  | _ => True

/-! ## Steps -/

/-- What holds between the session, the descriptor and the record. -/
structure Sound : Prop where
  loaded : driven.state ≠ .loading
  engine : driven.state ≠ .idle → driven.world.session.voiceEngine.isSome
  source : driven.state = .recording → driven.world.session.audioSource = true
  signalled : driven.signalled = true → driven.state = .processing
  pending : driven.world.session.pending = true → driven.state = .processing
  reloadPending : driven.world.session.reloadPending = driven.owed.isSome
  owed : ∀ count ∈ driven.owed, driven.reloads.length = count

variable {driven}

theorem configure_session (world : VoiceWorld) (slot : Slot) (configured : Option String)
    (calls : Calls) : (world.configure slot configured calls).session = world.session := by
  unfold VoiceWorld.configure
  split
  · rfl
  · split
    · rfl
    · cases slot <;> rfl

theorem keyboardChosen_session (refresh : Refresh) (world : VoiceWorld) :
    (refresh.keyboardChosen world).session = world.session := configure_session ..

theorem voiceChosen_session (refresh : Refresh) (world : VoiceWorld) :
    (refresh.voiceChosen world).session = world.session := by
  unfold Refresh.voiceChosen
  rw [configure_session, configure_session, keyboardChosen_session]

/-- Nothing but the world and the buffer changed, and in the world nothing of the session. -/
theorem Sound.of_session (sound : driven.Sound) {world : VoiceWorld} (buffer : List Sample)
    (same : world.session = driven.world.session) :
    Sound { driven with world := world, audioBuffer := buffer } := by
  constructor <;> simp only [state, same]
  exacts [sound.loaded, sound.engine, sound.source, sound.signalled, sound.pending,
    sound.reloadPending, sound.owed]

theorem Kept.of_session (kept : driven.Kept) {world : VoiceWorld} (buffer : List Sample)
    (same : world.session = driven.world.session) :
    Kept { driven with world := world, audioBuffer := buffer } := by
  constructor <;> simp only [state, same]
  exacts [kept.idle, kept.once, kept.performed, kept.source, kept.ended]

theorem start_session (world : VoiceWorld) (conduct : VoiceConduct) :
    (world.start conduct).1.session =
      if world.readyToRecord conduct && world.begins conduct then
        { world.session with state := .recording }
      else world.session := by
  unfold VoiceWorld.start VoiceWorld.readyToRecord
  by_cases idle : world.session.state = .idle
  swap
  · split <;> simp [idle, VoiceWorld.consult]
  by_cases ready : (world.session.voiceEngine.any fun engine =>
      conduct.ready engine || (conduct.hasFocusIn engine && conduct.loaded engine)) = true
  · by_cases source : world.session.audioSource = true
    · by_cases begins : world.begins conduct = true
      · simp [idle, ready, source, begins, VoiceWorld.updateSession, VoiceWorld.consult]
      · simp [idle, ready, source, begins, VoiceWorld.consult]
    · simp [idle, source, VoiceWorld.consult]
  · simp only [Bool.not_eq_true] at ready
    simp [idle, ready, VoiceWorld.consult]

theorem start_steady (sound : driven.Sound) (kept : driven.Kept) (conduct : VoiceConduct) :
    (driven.start conduct).Sound ∧ (driven.start conduct).Kept := by
  have session := start_session driven.world conduct
  by_cases begins : (driven.world.readyToRecord conduct && driven.world.begins conduct) = true
  · rw [if_pos begins] at session
    obtain ⟨ready, -⟩ := (Bool.and_eq_true ..).mp begins
    unfold VoiceWorld.readyToRecord at ready
    simp only [Bool.and_eq_true, decide_eq_true_eq] at ready
    obtain ⟨⟨idle, source⟩, usable⟩ := ready
    have engine : driven.world.session.voiceEngine.isSome := by
      cases held : driven.world.session.voiceEngine with
      | none => simp [held] at usable
      | some engine => rfl
    have nobody : driven.owed = none := by
      cases owed : driven.owed with
      | none => rfl
      | some count => exact absurd idle (kept.performed (by simp [owed]))
    have quiet : ¬ driven.signalled := fun up => by
      have := sound.signalled up
      simp [state, idle] at this
    have calm : ¬ driven.world.session.pending := fun up => by
      have := sound.pending up
      simp [state, idle] at this
    constructor
    · constructor <;> simp only [start, state, session, begins]
      · simp
      · exact fun _ => engine
      · exact fun _ => source
      · exact fun up => absurd up quiet
      · exact fun up => absurd up calm
      · exact sound.reloadPending
      · exact sound.owed
    · constructor <;> simp only [start, state, session, begins]
      · exact kept.idle
      · exact kept.once
      · simp
      · simp
      · exact kept.ended
  · rw [if_neg begins] at session
    have same : driven.start conduct =
        { driven with
          world := (driven.world.start conduct).1
          audioBuffer := (driven.start conduct).audioBuffer } := by
      unfold start
      simp only [begins, Bool.or_false]
    rw [same]
    exact ⟨sound.of_session _ session, kept.of_session _ session⟩

theorem Sound.quiet_of_idle (sound : driven.Sound) (kept : driven.Kept)
    (idle : driven.state = .idle) :
    driven.signalled = false ∧ driven.world.session.pending = false ∧ driven.owed = none := by
  refine ⟨?_, ?_, ?_⟩
  · by_contra up
    exact absurd (idle.symm.trans (sound.signalled (by simpa using up))) (by decide)
  · by_contra up
    exact absurd (idle.symm.trans (sound.pending (by simpa using up))) (by decide)
  · by_contra some
    exact kept.performed (Option.isSome_iff_ne_none.mpr some) idle

theorem stop_steady (sound : driven.Sound) (kept : driven.Kept) :
    driven.stop.Sound ∧ driven.stop.Kept := by
  by_cases recording : driven.state = .recording
  swap
  · -- in the states which are left, nothing happens
    have same : driven.stop = driven := by
      have world : driven.world.stop = driven.world := by
        unfold VoiceWorld.stop
        split
        · next loading => exact absurd loading sound.loaded
        · next again => exact absurd again recording
        · rfl
        · rfl
      unfold stop
      simp [world, recording]
    rw [same]
    exact ⟨sound, kept⟩
  have engine := sound.engine (by rw [recording]; decide)
  have source := sound.source recording
  have quiet : ¬ driven.signalled := fun up => by
    exact absurd (recording.symm.trans (sound.signalled up)) (by decide)
  have session : driven.world.stop.session =
      { driven.world.session with state := .processing, pending := true } := by
    have here : driven.world.session.state = .recording := recording
    unfold VoiceWorld.stop
    rw [here]
    rfl
  constructor
  · constructor <;> simp only [stop, state, session]
    · decide
    · exact fun _ => engine
    · exact fun _ => source
    · exact fun _ => trivial
    · exact fun _ => trivial
    · exact sound.reloadPending
    · exact sound.owed
  · constructor <;> simp only [stop]
    · exact kept.idle
    · exact kept.once
    · simp [state, session]
    · simp [state, session, show driven.world.session.state = .recording from recording, source]
    · exact kept.ended

theorem infer_session (world : VoiceWorld) (conduct : VoiceConduct) :
    (world.infer conduct).session = { world.session with pending := false } := by
  unfold VoiceWorld.infer
  by_cases pending : world.session.pending = true
  · simp only [pending, Bool.not_true, Bool.false_eq_true, ↓reduceIte]
    split <;> rfl
  · have calm : { world.session with pending := false } = world.session := by
      rw [← Bool.eq_false_iff.mpr pending]
    rw [calm]
    simp [pending]

theorem infer_steady (sound : driven.Sound) (kept : driven.Kept) (conduct : VoiceConduct) :
    (driven.infer conduct).Sound ∧ (driven.infer conduct).Kept := by
  unfold infer
  split
  · exact ⟨sound, kept⟩
  next pending =>
    have processing := sound.pending (by simpa using pending)
    have session := infer_session driven.world conduct
    constructor
    · constructor <;> simp only [state, session]
      · exact sound.loaded
      · exact sound.engine
      · exact sound.source
      · exact fun _ => processing
      · exact fun absent => nomatch absent
      · exact sound.reloadPending
      · exact sound.owed
    · constructor <;> simp only [state, session]
      exacts [kept.idle, kept.once, kept.performed, kept.source, kept.ended]

theorem feedAudio_steady (sound : driven.Sound) (kept : driven.Kept) (samples : List Sample) :
    (driven.feedAudio samples).Sound ∧ (driven.feedAudio samples).Kept := by
  unfold feedAudio
  split
  · exact ⟨sound, kept⟩
  · exact ⟨sound.of_session _ rfl, kept.of_session _ rfl⟩

theorem dispatch_session {world : VoiceWorld} (loaded : world.session.state ≠ .loading)
    (conduct : VoiceConduct) :
    (world.dispatch conduct).session =
      { world.session with state := .idle, reloadPending := false, pending := false } := by
  unfold VoiceWorld.dispatch
  rw [if_neg loaded]
  dsimp only
  split
  · change { (world.infer conduct).session with state := .idle, reloadPending := false } = _
    rw [infer_session]
  · change { (world.infer conduct).session with state := .idle, reloadPending := false } = _
    rw [infer_session]

/-- The transcription is dispatched in processing, and the session is idle again.  A request which
waited is performed, and no other one. -/
theorem dispatch_steady (sound : driven.Sound) (kept : driven.Kept) (conduct : VoiceConduct) :
    (driven.dispatch conduct).Sound ∧ (driven.dispatch conduct).Kept := by
  unfold dispatch
  split
  · exact ⟨sound, kept⟩
  next signalled =>
    have processing := sound.signalled (by simpa using signalled)
    have engine := sound.engine (by rw [processing]; decide)
    have session := dispatch_session sound.loaded conduct
    have begins : driven.world.beginsOnLoad conduct = false := by
      simp [VoiceWorld.beginsOnLoad, show driven.world.session.state = _ from processing]
    have stopped : driven.sourceRunning = false := by
      rw [← Bool.not_eq_true, kept.source, processing]
      decide
    have ended : VoiceState.recording ∉ driven.state :: driven.dispatched :=
      List.not_mem_cons_of_ne_of_not_mem (by rw [processing]; decide) kept.ended
    dsimp only
    rw [if_neg sound.loaded]
    by_cases pending : driven.world.session.reloadPending = true
    · obtain ⟨count, owed⟩ := Option.isSome_iff_exists.mp (sound.reloadPending ▸ pending)
      have length : driven.reloads.length = count := sound.owed count owed
      rw [if_pos pending]
      unfold reloadConfig
      rw [if_pos ⟨engine, by rw [session]⟩]
      constructor
      · constructor <;> simp [settle, state, session]
      · constructor <;> simp only [settle, state, session, begins, stopped, owed]
        · exact List.forall_mem_cons.mpr ⟨rfl, kept.idle⟩
        · have one : (driven.reloads.length + 1) - count = 1 := by omega
          simpa [one] using kept.once
        · simp
        · simp
        · exact ended
    · have owed : driven.owed = none := by
        simpa [sound.reloadPending] using pending
      rw [if_neg pending]
      constructor
      · constructor <;> simp [settle, state, session]
      · constructor <;> simp only [settle, state, session, begins, stopped, owed]
        · exact kept.idle
        · simpa using kept.once
        · simp
        · simp
        · exact ended

/-- In idle an engine is reloaded at once. -/
theorem reloadConfig_steady (sound : driven.Sound) (kept : driven.Kept)
    (idle : driven.state = .idle) (engine : Option EngineRef) :
    (driven.reloadConfig engine).Sound ∧ (driven.reloadConfig engine).Kept := by
  unfold reloadConfig
  split
  swap
  · exact ⟨sound, kept⟩
  obtain ⟨-, -, owed⟩ := sound.quiet_of_idle kept idle
  constructor
  · constructor <;> simp only [state]
    exacts [sound.loaded, sound.engine, sound.source, sound.signalled, sound.pending,
      sound.reloadPending, by simp [owed]]
  · constructor <;> simp only [state]
    exacts [List.forall_mem_cons.mpr ⟨idle, kept.idle⟩, kept.once, kept.performed, kept.source,
      kept.ended]

theorem reloadEngine_steady (sound : driven.Sound) (kept : driven.Kept) :
    driven.reloadEngine.Sound ∧ driven.reloadEngine.Kept := by
  unfold reloadEngine
  split
  · next busy =>
      have session : driven.world.reload.session =
          { driven.world.session with reloadPending := true } := by
        unfold VoiceWorld.reload
        rw [if_pos (show driven.world.session.state ≠ .idle from busy)]
        rfl
      have owed : ∀ count ∈ driven.owed.or (some driven.reloads.length),
          driven.reloads.length = count := by
        cases held : driven.owed with
        | none => simp
        | some before => simpa using sound.owed before held
      constructor
      · constructor <;> simp only [state, session]
        exacts [sound.loaded, sound.engine, sound.source, sound.signalled, sound.pending,
          by simp, owed]
      · constructor <;> simp only [state, session]
        exacts [kept.idle, kept.once, fun _ => busy, kept.source, kept.ended]
  · next calm =>
      have idle : driven.state = .idle := by simpa using calm
      have session : driven.world.reload.session = driven.world.session := by
        unfold VoiceWorld.reload
        rw [if_neg (show ¬ driven.world.session.state ≠ .idle from calm)]
        rfl
      obtain ⟨sound, kept⟩ :=
        reloadConfig_steady sound kept idle driven.world.session.voiceEngine
      have same : (driven.reloadConfig driven.world.session.voiceEngine).world = driven.world := by
        unfold reloadConfig
        split <;> rfl
      have carried := session.trans (congrArg VoiceWorld.session same.symm)
      exact ⟨sound.of_session _ carried, kept.of_session _ carried⟩

theorem reloadConfig_world (engine : Option EngineRef) :
    (driven.reloadConfig engine).world = driven.world := by
  unfold reloadConfig
  split <;> rfl

/-- In idle an engine is reloaded at once, and no engine but the session's is recorded. -/
theorem reloadSlot_steady (slot : Slot) (sound : driven.Sound) (kept : driven.Kept)
    {chosen : VoiceWorld} (same : chosen.session = driven.world.session)
    (apart : driven.state ≠ .idle → ¬ (driven.world.session.voiceEngine.isSome ∧
      chosen.inSlot slot = driven.world.session.voiceEngine)) :
    (driven.reloadSlot slot chosen).Sound ∧ (driven.reloadSlot slot chosen).Kept := by
  have sound' := sound.of_session driven.audioBuffer same
  have kept' := kept.of_session driven.audioBuffer same
  unfold reloadSlot
  by_cases idle : driven.state = .idle
  · exact reloadConfig_steady sound' kept' (by rwa [state, same]) _
  · unfold reloadConfig
    rw [if_neg]
    · exact ⟨sound', kept'⟩
    · rintro ⟨some, here⟩
      rw [same] at here
      exact apart idle ⟨here ▸ some, here⟩

theorem reloadSlot_session {slot : Slot} {chosen : VoiceWorld} :
    (driven.reloadSlot slot chosen).world = chosen := reloadConfig_world ..

/-- While the session is idle, a refresh keeps the states; while it is busy, it does so if it
reloads no engine of the session. -/
theorem refreshConfig_steady (sound : driven.Sound) (kept : driven.Kept) {refresh : Refresh}
    (apart : driven.RefreshesApart (.refreshConfig refresh)) :
    (driven.refreshConfig refresh).Sound ∧ (driven.refreshConfig refresh).Kept := by
  unfold refreshConfig
  split
  · exact ⟨sound, kept⟩
  next loaded =>
    have keyboard := keyboardChosen_session refresh driven.world
    have voice := voiceChosen_session refresh driven.world
    have apart := apart (by simpa using loaded)
    obtain ⟨sound₁, kept₁⟩ := reloadSlot_steady .keyboard sound kept keyboard
      fun busy here => apart busy ⟨here.1, .inl here.2⟩
    have session : (driven.reloadSlot .keyboard (refresh.keyboardChosen driven.world)).world.session
        = driven.world.session := by rw [reloadSlot_session, keyboard]
    obtain ⟨sound₂, kept₂⟩ := reloadSlot_steady .voice sound₁ kept₁
      (voice.trans session.symm) fun busy here => by
        rw [session] at here
        exact apart (by rwa [state, session] at busy) ⟨here.1, .inr here.2⟩
    obtain ⟨sound₃, kept₃⟩ := reloadEngine_steady sound₂ kept₂
    exact ⟨sound₃.of_session _ rfl, kept₃.of_session _ rfl⟩

/-! ### The record only grows -/

theorem reloads_subset_reloadConfig (engine : Option EngineRef) :
    driven.reloads ⊆ (driven.reloadConfig engine).reloads := by
  unfold reloadConfig
  split
  · exact List.subset_cons_self ..
  · exact fun _ member => member

theorem reloads_subset_reloadEngine : driven.reloads ⊆ driven.reloadEngine.reloads := by
  unfold reloadEngine
  split
  · exact fun _ member => member
  · exact reloads_subset_reloadConfig _

theorem state_mem_reloadSlot {slot : Slot} {chosen : VoiceWorld}
    (same : chosen.session = driven.world.session)
    (some : driven.world.session.voiceEngine.isSome)
    (here : chosen.inSlot slot = driven.world.session.voiceEngine) :
    driven.state ∈ (driven.reloadSlot slot chosen).reloads := by
  unfold reloadSlot reloadConfig
  rw [if_pos ⟨here ▸ some, by rw [here, same]⟩]
  change driven.state ∈ chosen.session.state :: driven.reloads
  rw [same]
  exact List.mem_cons_self

/-- A refresh which reloads the engine of a busy session does so in a state other than idle. -/
theorem refreshConfig_reloads {refresh : Refresh} (loaded : refresh.loaded = true)
    (reloads : ReloadsSession driven.world.session.voiceEngine refresh driven.world) :
    driven.state ∈ (driven.refreshConfig refresh).reloads := by
  obtain ⟨some, found⟩ := reloads
  have keyboard := keyboardChosen_session refresh driven.world
  have voice := voiceChosen_session refresh driven.world
  have session : (driven.reloadSlot .keyboard (refresh.keyboardChosen driven.world)).world.session
      = driven.world.session := by rw [reloadSlot_session, keyboard]
  unfold refreshConfig
  rw [if_neg (by simp [loaded])]
  apply reloads_subset_reloadEngine
  obtain first | second := found
  · exact reloads_subset_reloadConfig _ (state_mem_reloadSlot keyboard some first)
  · rw [state, ← session]
    rw [← session] at some second
    exact state_mem_reloadSlot (voice.trans session.symm) some second

theorem create_steady (manager : EngineManager) (unloads : String → Nat) (audioSource : Bool) :
    (create manager unloads audioSource : DrivenSession Sample).Sound ∧
      (create manager unloads audioSource : DrivenSession Sample).Kept := by
  constructor
  · constructor <;> simp [create, state, VoiceWorld.create]
  · constructor <;> simp [create, state, VoiceWorld.create]

theorem step_steady (sound : driven.Sound) (kept : driven.Kept) {event : Event Sample}
    (apart : driven.RefreshesApart event) :
    (driven.step event).Sound ∧ (driven.step event).Kept := by
  cases event with
  | manage operation => exact ⟨sound.of_session _ rfl, kept.of_session _ rfl⟩
  | start conduct => exact start_steady sound kept conduct
  | stop => exact stop_steady sound kept
  | feedAudio samples => exact feedAudio_steady sound kept samples
  | infer conduct => exact infer_steady sound kept conduct
  | reloadEngine => exact reloadEngine_steady sound kept
  | refreshConfig refresh => exact refreshConfig_steady sound kept apart
  | dispatch conduct => exact dispatch_steady sound kept conduct

/-- In every run, the states are kept if and only if no refresh finds the engine of the session in
a slot while the session is busy. -/
theorem statesKept_iff (manager : EngineManager) (unloads : String → Nat) (audioSource : Bool)
    (events : List (Event Sample)) :
    Machine.Always step Kept (create manager unloads audioSource) events ↔
      Machine.EachStep step RefreshesApart (create manager unloads audioSource) events := by
  obtain ⟨sound, kept⟩ := @create_steady Sample manager unloads audioSource
  refine Machine.always_iff_eachStep Sound (fun driven event sound kept => ?_)
    (fun driven event sound kept apart => (step_steady sound kept apart).1) sound kept
  constructor
  · intro after
    cases event with
    | refreshConfig refresh =>
        intro loaded busy reloads
        exact busy (after.idle _ (refreshConfig_reloads loaded reloads))
    | _ => trivial
  · exact fun apart => (step_steady sound kept apart).2

/-- The configuration is saved while a recording goes on: the engine which records is reloaded. -/
theorem refreshed_while_recording :
    let calls : Calls := ⟨some ⟨true, true, false, true⟩, .ok, .ok⟩
    let conduct : VoiceConduct := ⟨fun _ => true, fun _ => true, fun _ => true, true, true⟩
    let manager := Machine.run EngineManager.step (.new none none)
      [.register (some { name := "whisper", type := .voice }), .setActiveVoice "whisper" calls]
    ¬ Machine.Always step Kept (create manager (fun _ => 0) true : DrivenSession Nat)
      [.start conduct, .refreshConfig ⟨true, none, some "whisper", calls, calls, calls, conduct⟩] := by
  intro calls conduct manager always
  exact absurd (always.final.idle .recording (by decide +kernel)) (by decide)

end DrivenSession

end Core

end Typio
