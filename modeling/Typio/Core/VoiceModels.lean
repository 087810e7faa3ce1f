import Mathlib.Data.Option.Basic
import Typio.Core.VoiceStates

/-!
# The models of the voice engines

The engines `whisper` and `sherpa-onnx` build a backend when they get the focus without one, from
the language and the model which are then configured, and keep it until they are deactivated.
Their `reload_config` does nothing.  A recording is transcribed with the settings of the last
reload, or of a later one, if no recording is started while the engine still keeps a backend which
was built from other settings.
-/

namespace Typio

namespace Core

/-- The voice engines which are built in. -/
inductive BuiltIn where
  | whisper
  | sherpaOnnx
  deriving DecidableEq, Repr

structure EngineSettings where
  language : Option String
  model : Option String
  deriving DecidableEq, Repr

/-- The sections `engines.whisper` and `engines.sherpa-onnx`. -/
abbrev VoiceConfig := BuiltIn → EngineSettings

namespace BuiltIn

def ofName (name : String) : Option BuiltIn :=
  if name = "whisper" then some whisper
  else if name = "sherpa-onnx" then some sherpaOnnx
  else none

/-- What the backend is built from. -/
def settings (builtIn : BuiltIn) (config : VoiceConfig) : EngineSettings :=
  match builtIn with
  | whisper =>
      { language := (config whisper).language
        model := some ((config whisper).model.getD "base") }
  | sherpaOnnx => config sherpaOnnx

end BuiltIn

namespace EngineRef

def builtIn (engine : EngineRef) : Option BuiltIn := BuiltIn.ofName engine.name

end EngineRef

/-- A transcription by a built-in engine: what its backend was built from, and the configurations
since the last reload before the recording was started. -/
structure Transcription where
  builtIn : BuiltIn
  backend : EngineSettings
  since : List VoiceConfig

/-- The backend was built from the settings of the last reload before the recording, or of a later
one. -/
def Transcription.Current (transcription : Transcription) : Prop :=
  ∃ config ∈ transcription.since,
    transcription.backend = transcription.builtIn.settings config

/-- The session with the configuration and the backends of the engines.  The configurations since
the last reload before the recording and the transcriptions are kept for the statements. -/
structure VoiceModels where
  world : VoiceWorld
  config : VoiceConfig
  backends : EngineRef → Option EngineSettings
  idleArmed : Bool
  since : List VoiceConfig
  transcribed : List Transcription

namespace VoiceModels

def create (manager : EngineManager) (unloads : String → Nat) (audioSource : Bool)
    (config : VoiceConfig) : VoiceModels where
  world := .create manager unloads audioSource
  config := config
  backends _ := none
  idleArmed := false
  since := []
  transcribed := []

variable (models : VoiceModels)

def state : VoiceState := models.world.session.state

/-! ## The engines -/

/-- `clear_impl`, `set_impl`. -/
def setBackend (engine : EngineRef) (backend : Option EngineSettings) : VoiceModels :=
  { models with backends := Function.update models.backends engine backend }

/-- `deactivate` of `SherpaEngine` and `WhisperEngine`. -/
def deactivate (engine : Option EngineRef) : VoiceModels :=
  match engine with
  | none => models
  | some engine => models.setBackend engine none

/-- `focus_in` of `SherpaEngine` and `WhisperEngine`; the configured model loads. -/
def focusIn (engine : Option EngineRef) : VoiceModels :=
  match engine with
  | none => models
  | some engine =>
      match engine.builtIn with
      | none => models
      | some builtIn =>
          if (models.backends engine).isSome then models
          else models.setBackend engine (some (builtIn.settings models.config))

/-- `reload_config` of `SherpaEngine` and `WhisperEngine`. -/
def reloadConfig (_engine : Option EngineRef) : VoiceModels := models

/-- The conduct of the built-in engines follows from their backends. -/
def conductOf (conduct : VoiceConduct) : VoiceConduct :=
  { conduct with
    ready := fun engine =>
      if engine.builtIn.isSome then (models.backends engine).isSome else conduct.ready engine
    loaded := fun engine => engine.builtIn.isSome || conduct.loaded engine
    hasFocusIn := fun engine => engine.builtIn.isSome || conduct.hasFocusIn engine }

/-! ## Engine switches -/

/-- `typio_engine_manager_set_active` deactivates the engine in the slot, and `init` of an engine
which was not initialized makes an empty proxy. -/
def switchBackends (name : String) : VoiceModels :=
  match models.world.manager.findEntryIndex name with
  | none => models
  | some index =>
      match models.world.manager.entries[index]? with
      | none => models
      | some entry =>
          if !entry.isVoice ∨ models.world.manager.active .voice = some index then models
          else
            let idle := models.deactivate models.world.slot
            if entry.engine.all (!·.initialized) then
              idle.deactivate (some ⟨entry.name, models.world.unloads entry.name⟩)
            else idle

def setActive (name : String) (calls : Calls) : VoiceModels :=
  { models.switchBackends name with
    world := models.world.manage (.operation (.setActive name calls)) }

def setActiveVoice (name : String) (calls : Calls) : VoiceModels :=
  { models.switchBackends name with
    world := models.world.manage (.operation (.setActiveVoice name calls)) }

/-- The engine which the configuration names for a slot is activated unless it is there. -/
def configure (slot : Slot) (configured : Option String) (calls : Calls) : VoiceModels :=
  match configured.filter (· ≠ "") with
  | none => models
  | some name =>
      if (models.world.inSlot slot).map EngineRef.name = some name then models
      else
        match slot with
        | .keyboard => models.setActive name calls
        | .voice => models.setActiveVoice name calls

/-! ## The session -/

/-- `typio_voice_session_start`. -/
def start (conduct : VoiceConduct) : VoiceModels :=
  if models.state = .loading then { models with idleArmed := false }
  else
    let conduct := models.conductOf conduct
    let began := models.world.readyToRecord conduct && models.world.begins conduct
    let focused := models.focusIn models.world.session.voiceEngine
    { focused with
      world := (models.world.start conduct).1
      idleArmed := !began
      since := if began then [models.config] else models.since }

/-- `typio_voice_session_stop`. -/
def stop : VoiceModels := { models with world := models.world.stop }

/-- The backend with which the thread transcribes. -/
def transcription : Option Transcription := do
  let engine ← models.world.session.voiceEngine
  let builtIn ← engine.builtIn
  let backend ← models.backends engine
  return ⟨builtIn, backend, models.since⟩

/-- The thread transcribes what is usable. -/
def infer (conduct : VoiceConduct) : VoiceModels :=
  if !models.world.session.pending then models
  else
    { models with
      world := models.world.infer conduct
      transcribed :=
        (if conduct.usable then models.transcription.toList else []) ++ models.transcribed }

/-- `typio_voice_session_reload_engine`. -/
def reloadEngine : VoiceModels :=
  if models.state ≠ .idle then { models with world := models.world.reload }
  else
    { models.reloadConfig models.world.session.voiceEngine with world := models.world.reload }

/-- `typio_voice_session_dispatch`, which waits for the thread. -/
def dispatch (conduct : VoiceConduct) : VoiceModels :=
  if models.state = .loading then
    let conduct := models.conductOf conduct
    { models with
      world := models.world.dispatch conduct
      idleArmed := models.idleArmed || !models.world.beginsOnLoad conduct
      since := if models.world.beginsOnLoad conduct then [models.config] else models.since }
  else
    let joined := models.infer conduct
    let after := { joined with world := joined.world.dispatch conduct, idleArmed := true }
    if models.world.session.reloadPending then
      after.reloadConfig models.world.session.voiceEngine
    else after

/-- `idle_thread_main` finds the session idle when the time is over. -/
def idleTimeout : VoiceModels :=
  if models.idleArmed ∧ models.state = .idle then
    { models.deactivate models.world.session.voiceEngine with idleArmed := false }
  else models

/-- The engines which the configuration names are activated. -/
def activateConfigured (refresh : Refresh) : VoiceModels :=
  ((models.configure .keyboard refresh.defaultEngine refresh.calls).configure
    .voice refresh.defaultVoiceEngine refresh.voiceCalls).configure
      .voice refresh.defaultVoiceEngine refresh.retried

/-- `runtime_config_refresh`.  The configuration is read again; if the file is missing, the old one
stays. -/
def refreshConfig (refresh : Refresh) (config : Option VoiceConfig) : VoiceModels :=
  if !refresh.loaded then models
  else
    let config := config.getD models.config
    let read := { models with config := config, since := config :: models.since }
    let voice := read.activateConfigured refresh
    let asked := (voice.reloadConfig (voice.world.inSlot .voice)).reloadEngine
    { asked with world := (asked.world.isAvailable (asked.conductOf refresh.conduct)).1 }

inductive Event where
  | setActive (name : String) (calls : Calls)
  | setActiveVoice (name : String) (calls : Calls)
  | start (conduct : VoiceConduct)
  | stop
  | infer (conduct : VoiceConduct)
  | dispatch (conduct : VoiceConduct)
  | reloadEngine
  | refreshConfig (refresh : Refresh) (config : Option VoiceConfig)
  | idleTimeout

def step (models : VoiceModels) : Event → VoiceModels
  | .setActive name calls => models.setActive name calls
  | .setActiveVoice name calls => models.setActiveVoice name calls
  | .start conduct => models.start conduct
  | .stop => models.stop
  | .infer conduct => models.infer conduct
  | .dispatch conduct => models.dispatch conduct
  | .reloadEngine => models.reloadEngine
  | .refreshConfig refresh config => models.refreshConfig refresh config
  | .idleTimeout => models.idleTimeout

/-! ## The property and the condition -/

/-- Every transcription was made with settings which were current. -/
def FollowsConfiguration : Prop := ∀ transcription ∈ models.transcribed, transcription.Current

/-- When a recording is started, the engine has no backend or one built from the settings which are
configured. -/
def StartsFresh : Event → Prop
  | .start conduct =>
      models.world.readyToRecord (models.conductOf conduct) = true →
        models.world.begins conduct = true →
          ∀ engine ∈ models.world.session.voiceEngine, ∀ builtIn ∈ engine.builtIn,
            ∀ backend ∈ models.backends engine, backend = builtIn.settings models.config
  | _ => True

/-! ## Backends -/

variable {models}

/-- The engine of the session has no backend, or one which was built from one of the settings. -/
def Recent (models : VoiceModels) (configs : List VoiceConfig) : Prop :=
  ∀ engine ∈ models.world.session.voiceEngine, ∀ builtIn ∈ engine.builtIn,
    ∀ backend ∈ models.backends engine, ∃ config ∈ configs, backend = builtIn.settings config

/-- No engine has another backend than before, and the session is the same. -/
structure Calmer (before after : VoiceModels) : Prop where
  session : after.world.session = before.world.session
  backends : ∀ engine, ∀ backend ∈ after.backends engine, backend ∈ before.backends engine
  config : after.config = before.config
  since : after.since = before.since
  transcribed : after.transcribed = before.transcribed

namespace Calmer

variable {before middle after : VoiceModels}

theorem refl (models : VoiceModels) : Calmer models models :=
  ⟨rfl, fun _ _ kept => kept, rfl, rfl, rfl⟩

theorem trans (first : Calmer before middle) (second : Calmer middle after) :
    Calmer before after where
  session := second.session.trans first.session
  backends engine backend kept := first.backends engine backend (second.backends engine backend kept)
  config := second.config.trans first.config
  since := second.since.trans first.since
  transcribed := second.transcribed.trans first.transcribed

theorem world (calmer : Calmer before after) (world : VoiceWorld) (idleArmed : Bool)
    (same : world.session = before.world.session) :
    Calmer before { after with world := world, idleArmed := idleArmed } :=
  ⟨same, calmer.backends, calmer.config, calmer.since, calmer.transcribed⟩

theorem deactivate (models : VoiceModels) (engine : Option EngineRef) :
    Calmer models (models.deactivate engine) := by
  cases engine with
  | none => exact .refl models
  | some engine =>
      refine ⟨rfl, fun other backend kept => ?_, rfl, rfl, rfl⟩
      change backend ∈ Function.update models.backends engine none other at kept
      by_cases same : other = engine
      · subst same
        simp at kept
      · rwa [Function.update_of_ne same] at kept

theorem switchBackends (models : VoiceModels) (name : String) :
    Calmer models (models.switchBackends name) := by
  unfold VoiceModels.switchBackends
  split
  · exact .refl models
  · split
    · exact .refl models
    · split
      · exact .refl models
      · dsimp only
        split
        · exact (deactivate models _).trans (deactivate _ _)
        · exact deactivate models _

theorem configure (models : VoiceModels) (slot : Slot) (configured : Option String)
    (calls : Calls) : Calmer models (models.configure slot configured calls) := by
  unfold VoiceModels.configure
  split
  · exact .refl models
  next name _ =>
    split
    · exact .refl models
    · cases slot
      · exact (switchBackends models name).world _ _ rfl
      · exact (switchBackends models name).world _ _ rfl

theorem activateConfigured (models : VoiceModels) (refresh : Refresh) :
    Calmer models (models.activateConfigured refresh) :=
  ((configure models ..).trans (configure _ ..)).trans (configure _ ..)

theorem recent (calmer : Calmer before after) {configs : List VoiceConfig}
    (recent : before.Recent configs) : after.Recent configs := by
  intro engine here builtIn known backend kept
  rw [calmer.session] at here
  exact recent engine here builtIn known backend (calmer.backends engine backend kept)

end Calmer

/-! ## Steps -/

/-- While the session is busy, its engine has at most a backend which is as recent as the
recording. -/
structure Sound (models : VoiceModels) : Prop where
  loaded : models.state ≠ .loading
  pending : models.world.session.pending = true → models.state = .processing
  config : models.state ≠ .idle → models.config ∈ models.since
  recent : models.state ≠ .idle → models.Recent models.since

theorem Sound.of_calmer (sound : models.Sound) {after : VoiceModels}
    (calmer : Calmer models after) : after.Sound := by
  constructor <;> simp only [state, calmer.session, calmer.config, calmer.since]
  exacts [sound.loaded, sound.pending, sound.config, fun busy => calmer.recent (sound.recent busy)]

theorem FollowsConfiguration.of_calmer (follows : models.FollowsConfiguration)
    {after : VoiceModels} (calmer : Calmer models after) : after.FollowsConfiguration := by
  unfold FollowsConfiguration
  rwa [calmer.transcribed]

theorem focusIn_world (engine : Option EngineRef) :
    (models.focusIn engine).world = models.world := by
  unfold focusIn
  repeat' split
  all_goals rfl

/-- What the engine gets on its focus is built from what is configured. -/
theorem recent_focusIn {configs : List VoiceConfig} (recent : models.Recent configs)
    (member : models.config ∈ configs) :
    (models.focusIn models.world.session.voiceEngine).Recent configs := by
  intro engine here builtIn known backend kept
  rw [focusIn_world] at here
  unfold focusIn at kept
  rw [show models.world.session.voiceEngine = some engine from here] at kept
  dsimp only at kept
  rw [show engine.builtIn = some builtIn from known] at kept
  dsimp only at kept
  split at kept
  · exact recent engine here builtIn known backend kept
  · change backend ∈ Function.update models.backends engine _ engine at kept
    rw [Function.update_self] at kept
    exact ⟨models.config, member, (Option.some.inj kept).symm⟩

theorem focusIn_transcribed (engine : Option EngineRef) :
    (models.focusIn engine).transcribed = models.transcribed := by
  unfold focusIn
  repeat' split
  all_goals rfl

theorem focusIn_config (engine : Option EngineRef) :
    (models.focusIn engine).config = models.config := by
  unfold focusIn
  repeat' split
  all_goals rfl

/-- A recording begins with a backend which is built from what is configured. -/
theorem start_sound (sound : models.Sound) {conduct : VoiceConduct}
    (fresh : models.StartsFresh (.start conduct)) : (models.start conduct).Sound := by
  have session := DrivenSession.start_session models.world (models.conductOf conduct)
  unfold start
  rw [if_neg sound.loaded]
  dsimp only
  by_cases began : (models.world.readyToRecord (models.conductOf conduct) &&
      models.world.begins (models.conductOf conduct)) = true
  · rw [if_pos began] at session
    obtain ⟨ready, begins⟩ := (Bool.and_eq_true ..).mp began
    have idle : models.world.session.state = .idle := by
      unfold VoiceWorld.readyToRecord at ready
      simp only [Bool.and_eq_true, decide_eq_true_eq] at ready
      exact ready.1.1
    have built : models.Recent [models.config] := by
      intro engine here builtIn known backend kept
      exact ⟨models.config, List.mem_singleton_self _,
        fresh ready begins engine here builtIn known backend kept⟩
    have focused := recent_focusIn built (List.mem_singleton_self _)
    constructor <;> simp only [state, session, began, focusIn_config, ↓reduceIte]
    · decide
    · intro pending
      exact absurd (idle.symm.trans (sound.pending pending)) (by decide)
    · exact fun _ => List.mem_singleton_self _
    · intro _ engine here
      rw [session] at here
      exact focused engine (by rwa [focusIn_world])
  · rw [if_neg began] at session
    constructor <;> simp only [state, session, began, focusIn_config, Bool.false_eq_true, ↓reduceIte]
    · exact sound.loaded
    · exact sound.pending
    · exact sound.config
    · intro busy engine here
      rw [session] at here
      exact recent_focusIn (sound.recent busy) (sound.config busy) engine (by rwa [focusIn_world])

theorem stop_sound (sound : models.Sound) : models.stop.Sound := by
  by_cases recording : models.state = .recording
  · have session : models.world.stop.session =
        { models.world.session with state := .processing, pending := true } := by
      unfold VoiceWorld.stop
      rw [show models.world.session.state = .recording from recording]
      rfl
    have busy : models.state ≠ .idle := by rw [recording]; decide
    constructor <;> simp only [stop, state, session]
    · decide
    · exact fun _ => trivial
    · exact fun _ => sound.config busy
    · intro _ engine here
      rw [session] at here
      exact sound.recent busy engine here
  · have same : models.world.stop = models.world := by
      unfold VoiceWorld.stop
      split
      · next loading => exact absurd loading sound.loaded
      · next again => exact absurd again recording
      · rfl
      · rfl
    unfold stop
    rw [same]
    exact sound

/-- What the thread transcribes with is as recent as the recording. -/
theorem transcription_current (sound : models.Sound) (busy : models.state ≠ .idle) :
    ∀ transcription ∈ models.transcription, transcription.Current := by
  intro transcription made
  unfold VoiceModels.transcription at made
  simp only [Option.bind_eq_bind, Option.mem_def, Option.bind_eq_some_iff,
    Option.pure_def, Option.some.injEq] at made
  obtain ⟨engine, here, builtIn, known, backend, kept, rfl⟩ := made
  exact sound.recent busy engine here builtIn known backend kept

theorem infer_steady (sound : models.Sound) (follows : models.FollowsConfiguration)
    (conduct : VoiceConduct) :
    (models.infer conduct).Sound ∧ (models.infer conduct).FollowsConfiguration := by
  unfold infer
  split
  · exact ⟨sound, follows⟩
  next pending =>
    have processing := sound.pending (by simpa using pending)
    have busy : models.state ≠ .idle := by rw [processing]; decide
    have session := DrivenSession.infer_session models.world conduct
    constructor
    · constructor <;> simp only [state, session]
      · exact sound.loaded
      · exact fun absent => nomatch absent
      · exact sound.config
      · intro _ engine here
        rw [session] at here
        exact sound.recent busy engine here
    · intro transcription member
      obtain new | old := List.mem_append.mp member
      · split at new
        · exact transcription_current sound busy transcription (Option.mem_toList.mp new)
        · exact absurd new List.not_mem_nil
      · exact follows transcription old

theorem dispatch_steady (sound : models.Sound) (follows : models.FollowsConfiguration)
    (conduct : VoiceConduct) :
    (models.dispatch conduct).Sound ∧ (models.dispatch conduct).FollowsConfiguration := by
  obtain ⟨joined, finished⟩ := infer_steady sound follows conduct
  have session := DrivenSession.dispatch_session joined.loaded conduct
  unfold dispatch
  rw [if_neg sound.loaded]
  have after : Sound { models.infer conduct with
      world := (models.infer conduct).world.dispatch conduct, idleArmed := true } := by
    constructor <;> simp [state, session]
  split
  · exact ⟨after, finished⟩
  · exact ⟨after, finished⟩

theorem reload_session (world : VoiceWorld) :
    world.reload.session.state = world.session.state ∧
      world.reload.session.pending = world.session.pending ∧
        world.reload.session.voiceEngine = world.session.voiceEngine := by
  unfold VoiceWorld.reload
  split <;> exact ⟨rfl, rfl, rfl⟩

theorem reloadEngine_steady (sound : models.Sound) (follows : models.FollowsConfiguration) :
    models.reloadEngine.Sound ∧ models.reloadEngine.FollowsConfiguration := by
  obtain ⟨state', pending, engine⟩ := reload_session models.world
  have same : models.reloadEngine = { models with world := models.world.reload } := by
    unfold reloadEngine
    split <;> rfl
  rw [same]
  refine ⟨?_, follows⟩
  constructor <;> simp only [state, state', pending]
  · exact sound.loaded
  · exact sound.pending
  · exact sound.config
  · intro busy held here
    rw [engine] at here
    exact sound.recent busy held here

/-- The configuration which is read counts as one since the reload. -/
theorem read_steady (sound : models.Sound) (follows : models.FollowsConfiguration)
    (config : VoiceConfig) :
    Sound { models with config := config, since := config :: models.since } ∧
      FollowsConfiguration { models with config := config, since := config :: models.since } := by
  refine ⟨?_, follows⟩
  constructor <;> simp only [state]
  · exact sound.loaded
  · exact sound.pending
  · exact fun _ => List.mem_cons_self
  · intro busy engine here builtIn known backend kept
    obtain ⟨found, member, built⟩ := sound.recent busy engine here builtIn known backend kept
    exact ⟨found, List.mem_cons_of_mem _ member, built⟩

theorem refreshConfig_steady (sound : models.Sound) (follows : models.FollowsConfiguration)
    (refresh : Refresh) (config : Option VoiceConfig) :
    (models.refreshConfig refresh config).Sound ∧
      (models.refreshConfig refresh config).FollowsConfiguration := by
  unfold refreshConfig
  split
  · exact ⟨sound, follows⟩
  · let config := config.getD models.config
    let read : VoiceModels := { models with config := config, since := config :: models.since }
    obtain ⟨sound₀, follows₀⟩ := read_steady sound follows config
    have calmer := Calmer.activateConfigured read refresh
    obtain ⟨sound₁, follows₁⟩ :=
      reloadEngine_steady (sound₀.of_calmer calmer) (follows₀.of_calmer calmer)
    let asked := (read.activateConfigured refresh).reloadEngine
    have last := (Calmer.refl asked).world
      (asked.world.isAvailable (asked.conductOf refresh.conduct)).1 asked.idleArmed rfl
    exact ⟨sound₁.of_calmer last, follows₁.of_calmer last⟩

theorem step_steady (sound : models.Sound) (follows : models.FollowsConfiguration) {event : Event}
    (fresh : models.StartsFresh event) :
    (models.step event).Sound ∧ (models.step event).FollowsConfiguration := by
  cases event with
  | setActive name calls =>
      have calmer := (Calmer.switchBackends models name).world
        (models.world.manage (.operation (.setActive name calls)))
        (models.switchBackends name).idleArmed rfl
      exact ⟨sound.of_calmer calmer, follows.of_calmer calmer⟩
  | setActiveVoice name calls =>
      have calmer := (Calmer.switchBackends models name).world
        (models.world.manage (.operation (.setActiveVoice name calls)))
        (models.switchBackends name).idleArmed rfl
      exact ⟨sound.of_calmer calmer, follows.of_calmer calmer⟩
  | start conduct =>
      refine ⟨start_sound sound fresh, ?_⟩
      change (models.start conduct).FollowsConfiguration
      unfold start
      rw [if_neg sound.loaded]
      intro transcription member
      rw [show _ = models.transcribed from focusIn_transcribed _] at member
      exact follows transcription member
  | stop => exact ⟨stop_sound sound, follows⟩
  | infer conduct => exact infer_steady sound follows conduct
  | dispatch conduct => exact dispatch_steady sound follows conduct
  | reloadEngine => exact reloadEngine_steady sound follows
  | refreshConfig refresh config => exact refreshConfig_steady sound follows refresh config
  | idleTimeout =>
      change models.idleTimeout.Sound ∧ models.idleTimeout.FollowsConfiguration
      unfold idleTimeout
      split
      · have idle := Calmer.deactivate models models.world.session.voiceEngine
        have calmer := idle.world _ false idle.session
        exact ⟨sound.of_calmer calmer, follows.of_calmer calmer⟩
      · exact ⟨sound, follows⟩

theorem create_steady (manager : EngineManager) (unloads : String → Nat) (audioSource : Bool)
    (config : VoiceConfig) :
    (create manager unloads audioSource config).Sound ∧
      (create manager unloads audioSource config).FollowsConfiguration := by
  constructor
  · constructor <;> simp [create, state, VoiceWorld.create]
  · exact fun _ member => (List.not_mem_nil member).elim

/-- In every run, if every recording is started while the engine has no backend or one built from
the settings which are configured, every transcription is made with the settings of the last reload
before its recording, or of a later one. -/
theorem followsConfiguration (manager : EngineManager) (unloads : String → Nat)
    (audioSource : Bool) (config : VoiceConfig) (events : List Event)
    (fresh : Machine.EachStep step StartsFresh (create manager unloads audioSource config)
      events) :
    Machine.Always step FollowsConfiguration (create manager unloads audioSource config)
      events := by
  have steady : Machine.Always step (fun models => models.Sound ∧ models.FollowsConfiguration)
      (create manager unloads audioSource config) events :=
    Machine.Always.of_invariant _
      (fun models event steady fresh => step_steady steady.1 steady.2 fresh)
      (create_steady manager unloads audioSource config) fresh
  exact steady.mono fun models both => both.2

/-- A daemon with the engine `whisper` in the voice slot. -/
def withWhisper (config : VoiceConfig) : VoiceModels :=
  create (Machine.run EngineManager.step (.new none none)
      [.register (some { name := "whisper", type := .voice }),
        .setActiveVoice "whisper" ⟨some ⟨true, true, false, true⟩, .ok, .ok⟩])
    (fun _ => 0) true config

/-- A source which starts, and audio which is usable. -/
def usableAudio : VoiceConduct :=
  ⟨fun _ => false, fun _ => false, fun _ => false, true, true⟩

/-- `runtime_config_refresh` with another model for `whisper`. -/
def changeModel (model : String) : Event :=
  let calls : Calls := ⟨none, .ok, .ok⟩
  .refreshConfig ⟨true, none, none, calls, calls, calls, usableAudio⟩
    (some fun _ => ⟨none, some model⟩)

/-- The model is changed while none is loaded. -/
theorem unloaded_model_followed :
    Machine.Always step FollowsConfiguration (withWhisper fun _ => ⟨none, none⟩)
      [changeModel "small", .start usableAudio, .stop, .dispatch usableAudio] := by
  refine followsConfiguration _ _ _ _ _ ?_
  simp only [Machine.eachStep_cons, Machine.eachStep_nil, and_true]
  refine ⟨trivial, fun _ _ engine _ builtIn _ backend kept => ?_, trivial, trivial⟩
  cases kept

/-- The model is changed after a recording: the next recording is transcribed by the backend of the
first one. -/
theorem loaded_model_kept :
    ¬ Machine.Always step FollowsConfiguration (withWhisper fun _ => ⟨none, none⟩)
      [.start usableAudio, .stop, .dispatch usableAudio, changeModel "small", .start usableAudio,
        .stop, .dispatch usableAudio] := by
  intro always
  obtain ⟨config, member, built⟩ := always.final
    ⟨.whisper, ⟨none, some "base"⟩, [fun _ => ⟨none, some "small"⟩]⟩ (.head _)
  rw [List.mem_singleton] at member
  subst member
  exact absurd built (by decide)

end VoiceModels

end Core

end Typio
