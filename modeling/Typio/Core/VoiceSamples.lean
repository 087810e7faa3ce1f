import Typio.Core.VoiceStates

/-!
# The samples of a recording

The audio source delivers its samples on a thread of its own, and another thread takes the buffer
to transcribe it.  Whatever the order of the calls, the buffer of a stopped recording holds what was
delivered while it was recorded: a new recording, which clears the buffer, does not begin before the
thread has taken the old one.
-/

namespace Typio

namespace Core

/-- A session with the samples delivered since the recording began, the recordings which were
stopped and the buffers which the thread took, first one first. -/
structure Dictation (Sample : Type*) where
  driven : DrivenSession Sample
  speaking : List Sample
  recordings : List (List Sample)
  taken : List (List Sample)

namespace Dictation

open DrivenSession

variable {Sample : Type*}

def create (manager : EngineManager) (unloads : String → Nat) (audioSource : Bool) :
    Dictation Sample where
  driven := DrivenSession.create manager unloads audioSource
  speaking := []
  recordings := []
  taken := []

/-- The samples delivered to the recording which goes on after an event. -/
def spokenAfter (dictation : Dictation Sample) (event : Event Sample) : List Sample :=
  if dictation.driven.state ≠ .recording then []
  else
    match event with
    | .feedAudio samples => dictation.speaking ++ samples
    | _ => dictation.speaking

def step (dictation : Dictation Sample) (event : Event Sample) : Dictation Sample where
  driven := dictation.driven.step event
  speaking := dictation.spokenAfter event
  recordings :=
    match event with
    | .stop =>
        if dictation.driven.state = .recording then dictation.recordings ++ [dictation.speaking]
        else dictation.recordings
    | _ => dictation.recordings
  taken :=
    match event with
    | .infer _ =>
        if dictation.driven.world.session.pending then
          dictation.taken ++ [dictation.driven.audioBuffer]
        else dictation.taken
    | _ => dictation.taken

/-- The buffer which waits for the thread. -/
def waiting (driven : DrivenSession Sample) : List (List Sample) :=
  if driven.world.session.pending then [driven.audioBuffer] else []

/-! ## Steps -/

/-- What holds between the buffer, the thread and the record. -/
structure Sound (dictation : Dictation Sample) : Prop where
  loaded : dictation.driven.state ≠ .loading
  pending : dictation.driven.world.session.pending = true → dictation.driven.state = .processing
  signalled : dictation.driven.signalled = true →
    dictation.driven.state = .processing ∧ dictation.driven.world.session.pending = false
  buffer : dictation.driven.state = .recording →
    dictation.driven.audioBuffer = dictation.speaking
  taken : dictation.recordings = dictation.taken ++ waiting dictation.driven

/-- The session, the descriptor and the buffer are left alone. -/
structure Untouched (before after : DrivenSession Sample) : Prop where
  state : after.state = before.state
  pending : after.world.session.pending = before.world.session.pending
  signalled : after.signalled = before.signalled
  buffer : after.audioBuffer = before.audioBuffer

namespace Untouched

variable {before after first second third : DrivenSession Sample}

theorem trans (left : Untouched first second) (right : Untouched second third) :
    Untouched first third where
  state := right.state.trans left.state
  pending := right.pending.trans left.pending
  signalled := right.signalled.trans left.signalled
  buffer := right.buffer.trans left.buffer

theorem reloadConfig (driven : DrivenSession Sample) (engine : Option EngineRef) :
    Untouched driven (driven.reloadConfig engine) := by
  unfold DrivenSession.reloadConfig
  split
  · exact ⟨rfl, rfl, rfl, rfl⟩
  · exact ⟨rfl, rfl, rfl, rfl⟩

theorem reloadSlot (driven : DrivenSession Sample) (slot : Slot) {chosen : VoiceWorld}
    (same : chosen.session = driven.world.session) :
    Untouched driven (driven.reloadSlot slot chosen) := by
  have moved : Untouched driven { driven with world := chosen } :=
    ⟨congrArg VoiceSession.state same, congrArg VoiceSession.pending same, rfl, rfl⟩
  exact moved.trans (reloadConfig ..)

theorem reloadEngine (driven : DrivenSession Sample) : Untouched driven driven.reloadEngine := by
  have reload (world : VoiceWorld) : world.reload.session.state = world.session.state ∧
      world.reload.session.pending = world.session.pending := by
    unfold VoiceWorld.reload
    split
    · exact ⟨rfl, rfl⟩
    · exact ⟨rfl, rfl⟩
  unfold DrivenSession.reloadEngine
  split
  · exact ⟨(reload _).1, (reload _).2, rfl, rfl⟩
  · have kept := reloadConfig driven driven.world.session.voiceEngine
    exact ⟨(reload _).1, (reload _).2, kept.signalled, kept.buffer⟩

theorem refreshConfig (driven : DrivenSession Sample) (refresh : Refresh) :
    Untouched driven (driven.refreshConfig refresh) := by
  unfold DrivenSession.refreshConfig
  split
  · exact ⟨rfl, rfl, rfl, rfl⟩
  · have keyboard := reloadSlot driven .keyboard (keyboardChosen_session refresh driven.world)
    have session : (driven.reloadSlot .keyboard (refresh.keyboardChosen driven.world)).world.session
        = driven.world.session := by
      rw [reloadSlot_session, keyboardChosen_session]
    have voice := reloadSlot (driven.reloadSlot .keyboard (refresh.keyboardChosen driven.world))
      .voice ((voiceChosen_session refresh driven.world).trans session.symm)
    have asked := (keyboard.trans voice).trans (reloadEngine _)
    exact ⟨asked.state, asked.pending, asked.signalled, asked.buffer⟩

end Untouched

variable {dictation : Dictation Sample}

theorem Sound.of_untouched (sound : dictation.Sound) {event : Event Sample}
    (untouched : Untouched dictation.driven (dictation.driven.step event))
    (spoken : dictation.driven.state = .recording → dictation.spokenAfter event =
      dictation.speaking)
    (recordings : (dictation.step event).recordings = dictation.recordings)
    (taken : (dictation.step event).taken = dictation.taken) : (dictation.step event).Sound where
  loaded := untouched.state ▸ sound.loaded
  pending pending := untouched.state.trans (sound.pending (untouched.pending.symm.trans pending))
  signalled signalled := by
    obtain ⟨processing, calm⟩ := sound.signalled (untouched.signalled.symm.trans signalled)
    exact ⟨untouched.state.trans processing, untouched.pending.trans calm⟩
  buffer recording := by
    have before : dictation.driven.state = .recording := untouched.state.symm.trans recording
    exact (untouched.buffer.trans (sound.buffer before)).trans (spoken before).symm
  taken := by
    have waits : waiting (dictation.driven.step event) = waiting dictation.driven := by
      unfold waiting
      rw [untouched.pending, untouched.buffer]
    rw [recordings, taken]
    exact sound.taken.trans (congrArg (dictation.taken ++ ·) waits.symm)

/-- Outside of processing, the thread does not run. -/
theorem Sound.calm (sound : dictation.Sound) (calm : dictation.driven.state ≠ .processing) :
    dictation.driven.world.session.pending = false :=
  Bool.eq_false_iff.mpr fun pending => calm (sound.pending pending)

/-- Outside of processing, no transcription is finished. -/
theorem Sound.quiet (sound : dictation.Sound) (calm : dictation.driven.state ≠ .processing) :
    dictation.driven.signalled = false :=
  Bool.eq_false_iff.mpr fun signalled => calm (sound.signalled signalled).1

theorem waiting_of_calm {driven : DrivenSession Sample}
    (calm : driven.world.session.pending = false) : waiting driven = [] := by
  unfold waiting
  rw [calm, if_neg Bool.false_ne_true]

theorem spokenAfter_of_idle (idle : dictation.driven.state ≠ .recording) (event : Event Sample) :
    dictation.spokenAfter event = [] := if_pos idle

theorem spokenAfter_feedAudio (recording : dictation.driven.state = .recording)
    (samples : List Sample) :
    dictation.spokenAfter (.feedAudio samples) = dictation.speaking ++ samples :=
  if_neg (not_not_intro recording)

theorem Sound.start (sound : dictation.Sound) (conduct : VoiceConduct) :
    (dictation.step (.start conduct)).Sound := by
  have session := start_session dictation.driven.world conduct
  cases ready : dictation.driven.world.readyToRecord conduct with
  | false =>
      rw [ready, Bool.false_and, if_neg Bool.false_ne_true] at session
      refine sound.of_untouched ?_ (fun recording => if_neg (not_not_intro recording)) rfl rfl
      refine ⟨congrArg VoiceSession.state session, congrArg VoiceSession.pending session, rfl, ?_⟩
      change (if dictation.driven.world.readyToRecord conduct then _ else _) = _
      rw [ready, if_neg Bool.false_ne_true]
  | true =>
      have idle : dictation.driven.state = .idle := by
        unfold VoiceWorld.readyToRecord at ready
        simp only [Bool.and_eq_true, decide_eq_true_eq] at ready
        exact ready.1.1
      have resting : dictation.driven.state ≠ .processing := by simp [idle]
      have silent : dictation.driven.state ≠ .recording := by simp [idle]
      have calm := sound.calm resting
      have pending : (dictation.driven.world.start conduct).1.session.pending = false := by
        rw [session]
        split
        · exact calm
        · exact calm
      have buffer : (dictation.driven.start conduct).audioBuffer = [] := if_pos ready
      refine ⟨?_, fun up => ?_, fun up => ?_, fun _ => ?_, ?_⟩
      · change (dictation.driven.world.start conduct).1.session.state ≠ .loading
        rw [session]
        split
        · simp
        · exact sound.loaded
      · cases pending.symm.trans up
      · cases (sound.quiet resting).symm.trans up
      · exact buffer.trans (spokenAfter_of_idle silent (.start conduct)).symm
      · have nothing : waiting (dictation.driven.start conduct) = [] := waiting_of_calm pending
        refine sound.taken.trans (congrArg (dictation.taken ++ ·) ?_)
        rw [waiting_of_calm calm]
        exact nothing.symm

theorem Sound.stop (sound : dictation.Sound) : (dictation.step .stop).Sound := by
  by_cases recording : dictation.driven.state = .recording
  · have session : dictation.driven.world.stop.session =
        { dictation.driven.world.session with state := .processing, pending := true } := by
      have here : dictation.driven.world.session.state = .recording := recording
      unfold VoiceWorld.stop
      rw [here]
      rfl
    have processing : dictation.driven.stop.state = .processing :=
      congrArg VoiceSession.state session
    have resting : dictation.driven.state ≠ .processing := by simp [recording]
    refine ⟨?_, fun _ => processing, fun up => ?_, fun again => ?_, ?_⟩
    · intro loading
      cases processing.symm.trans loading
    · cases (sound.quiet resting).symm.trans up
    · cases processing.symm.trans again
    · have waits : waiting dictation.driven.stop = [dictation.speaking] := by
        unfold waiting
        change (if dictation.driven.world.stop.session.pending then
          [dictation.driven.audioBuffer] else []) = _
        rw [session, if_pos rfl, sound.buffer recording]
      change (if dictation.driven.state = .recording then _ else _) =
        dictation.taken ++ waiting dictation.driven.stop
      rw [if_pos recording, waits, sound.taken, waiting_of_calm (sound.calm resting),
        List.append_nil]
  · have world : dictation.driven.world.stop = dictation.driven.world := by
      unfold VoiceWorld.stop
      split
      · next loading => exact absurd loading sound.loaded
      · next again => exact absurd again recording
      · rfl
      · rfl
    refine sound.of_untouched ?_ (fun again => absurd again recording) (if_neg recording) rfl
    exact ⟨congrArg (·.session.state) world, congrArg (·.session.pending) world, rfl, rfl⟩

theorem Sound.feedAudio (sound : dictation.Sound) (samples : List Sample) :
    (dictation.step (.feedAudio samples)).Sound := by
  have fed : (dictation.driven.feedAudio samples).world = dictation.driven.world ∧
      (dictation.driven.feedAudio samples).signalled = dictation.driven.signalled := by
    unfold DrivenSession.feedAudio
    split
    · exact ⟨rfl, rfl⟩
    · exact ⟨rfl, rfl⟩
  by_cases recording : dictation.driven.state = .recording
  · have buffer : (dictation.driven.feedAudio samples).audioBuffer =
        dictation.driven.audioBuffer ++ samples := by
      unfold DrivenSession.feedAudio
      rw [if_neg (not_not_intro recording)]
    have state : (dictation.driven.feedAudio samples).state = .recording :=
      (congrArg (·.session.state) fed.1).trans recording
    have resting : dictation.driven.state ≠ .processing := by simp [recording]
    have calm := sound.calm resting
    have pending : (dictation.driven.feedAudio samples).world.session.pending = false :=
      (congrArg (·.session.pending) fed.1).trans calm
    refine ⟨?_, fun up => ?_, fun up => ?_, fun _ => ?_, ?_⟩
    · intro loading
      cases state.symm.trans loading
    · cases pending.symm.trans up
    · cases (sound.quiet resting).symm.trans (fed.2.symm.trans up)
    · refine buffer.trans ?_
      rw [sound.buffer recording]
      exact (spokenAfter_feedAudio recording samples).symm
    · have nothing := waiting_of_calm pending
      refine sound.taken.trans (congrArg (dictation.taken ++ ·) ?_)
      rw [waiting_of_calm calm]
      exact nothing.symm
  · refine sound.of_untouched ?_ (fun again => absurd again recording) rfl rfl
    have same : dictation.driven.feedAudio samples = dictation.driven := if_pos recording
    change Untouched dictation.driven (dictation.driven.feedAudio samples)
    rw [same]
    exact ⟨rfl, rfl, rfl, rfl⟩

theorem Sound.infer (sound : dictation.Sound) (conduct : VoiceConduct) :
    (dictation.step (.infer conduct)).Sound := by
  cases pending : dictation.driven.world.session.pending with
  | false =>
      refine sound.of_untouched ?_ (fun recording => if_neg (not_not_intro recording)) rfl ?_
      · change Untouched dictation.driven (dictation.driven.infer conduct)
        unfold DrivenSession.infer
        rw [pending, if_pos (by rfl)]
        exact ⟨rfl, rfl, rfl, rfl⟩
      · change (if dictation.driven.world.session.pending then _ else _) = _
        rw [pending, if_neg Bool.false_ne_true]
  | true =>
      have processing := sound.pending pending
      have session := infer_session dictation.driven.world conduct
      have inferred : dictation.driven.infer conduct =
          { dictation.driven with
            world := dictation.driven.world.infer conduct, signalled := true
            audioBuffer := [] } := by
        unfold DrivenSession.infer
        rw [pending, if_neg (by simp)]
      have state : (dictation.driven.infer conduct).state = .processing := by
        rw [inferred]
        exact (congrArg VoiceSession.state session).trans processing
      have done : (dictation.driven.infer conduct).world.session.pending = false := by
        rw [inferred]
        exact congrArg VoiceSession.pending session
      refine ⟨?_, fun up => ?_, fun _ => ⟨state, done⟩, fun recording => ?_, ?_⟩
      · intro loading
        cases state.symm.trans loading
      · cases done.symm.trans up
      · cases state.symm.trans recording
      · have nothing := waiting_of_calm done
        have waits : waiting dictation.driven = [dictation.driven.audioBuffer] := if_pos pending
        change dictation.recordings = (if dictation.driven.world.session.pending then _ else _) ++
          waiting (dictation.driven.infer conduct)
        rw [pending, if_pos rfl, nothing, List.append_nil, sound.taken, waits]

theorem Sound.dispatch (sound : dictation.Sound) (conduct : VoiceConduct) :
    (dictation.step (.dispatch conduct)).Sound := by
  cases signalled : dictation.driven.signalled with
  | false =>
      refine sound.of_untouched ?_ (fun recording => if_neg (not_not_intro recording)) rfl rfl
      change Untouched dictation.driven (dictation.driven.dispatch conduct)
      unfold DrivenSession.dispatch
      rw [signalled, if_pos (by rfl)]
      exact ⟨rfl, rfl, rfl, rfl⟩
  | true =>
      obtain ⟨processing, calm⟩ := sound.signalled signalled
      have session := dispatch_session sound.loaded conduct
      have world : (dictation.driven.dispatch conduct).world =
          dictation.driven.world.dispatch conduct := by
        unfold DrivenSession.dispatch
        rw [signalled, if_neg (by simp)]
        dsimp only
        rw [if_neg sound.loaded]
        split
        · exact reloadConfig_world _
        · rfl
      have down : (dictation.driven.dispatch conduct).signalled = false := by
        unfold DrivenSession.dispatch
        rw [signalled, if_neg (by simp)]
        dsimp only
        rw [if_neg sound.loaded]
        split
        · exact (Untouched.reloadConfig _ _).signalled
        · rfl
      have state : (dictation.driven.dispatch conduct).state = .idle := by
        rw [DrivenSession.state, world, session]
      have done : (dictation.driven.dispatch conduct).world.session.pending = false := by
        rw [world, session]
      refine ⟨?_, fun up => ?_, fun up => ?_, fun recording => ?_, ?_⟩
      · intro loading
        cases state.symm.trans loading
      · cases done.symm.trans up
      · cases down.symm.trans up
      · cases state.symm.trans recording
      · have nothing := waiting_of_calm done
        refine sound.taken.trans (congrArg (dictation.taken ++ ·) ?_)
        rw [waiting_of_calm calm]
        exact nothing.symm

theorem Sound.step (sound : dictation.Sound) (event : Event Sample) :
    (dictation.step event).Sound := by
  cases event with
  | manage operation =>
      exact sound.of_untouched ⟨rfl, rfl, rfl, rfl⟩
        (fun recording => if_neg (not_not_intro recording)) rfl rfl
  | start conduct => exact sound.start conduct
  | stop => exact sound.stop
  | feedAudio samples => exact sound.feedAudio samples
  | infer conduct => exact sound.infer conduct
  | reloadEngine =>
      exact sound.of_untouched (Untouched.reloadEngine dictation.driven)
        (fun recording => if_neg (not_not_intro recording)) rfl rfl
  | refreshConfig refresh =>
      exact sound.of_untouched (Untouched.refreshConfig dictation.driven refresh)
        (fun recording => if_neg (not_not_intro recording)) rfl rfl
  | dispatch conduct => exact sound.dispatch conduct

theorem create_sound (manager : EngineManager) (unloads : String → Nat) (audioSource : Bool) :
    (create manager unloads audioSource : Dictation Sample).Sound := by
  constructor <;> simp [create, DrivenSession.create, VoiceWorld.create, DrivenSession.state,
    waiting]

/-- In every run, the recordings which were stopped are, in their order and each once, the buffers
which the thread took, followed by the one which waits for it; and the buffer of the recording which
goes on holds what was delivered to it. -/
theorem recordings_are_taken (manager : EngineManager) (unloads : String → Nat)
    (audioSource : Bool) (events : List (Event Sample)) :
    let reached := Machine.run step (create manager unloads audioSource) events
    reached.recordings = reached.taken ++ waiting reached.driven ∧
      (reached.driven.state = .recording → reached.driven.audioBuffer = reached.speaking) := by
  intro reached
  have always : Machine.Always step Sound (create manager unloads audioSource) events :=
    Machine.Always.of_preserved Sound (fun _ event sound => sound.step event)
      (create_sound manager unloads audioSource)
  exact ⟨always.final.taken, always.final.buffer⟩

end Dictation

end Core

end Typio
