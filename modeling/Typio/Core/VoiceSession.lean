import Typio.Core.EngineRegistry
import Typio.Machine

/-!
# The voice session and the voice slot

The voice session reads the engine in the manager's voice slot once, when it is created, and keeps
the pointer.  Nothing that changes the slot reaches the session.  The session uses the engine in the
slot exactly as long as the slot holds, whenever the engine is consulted, what it held when the
session was created.
-/

namespace Typio

namespace Core

inductive VoiceState where
  | idle
  | recording
  | processing
  | loading
  deriving DecidableEq, Repr

/-- An instance of an engine.  An engine which was unloaded and registered again is another
instance. -/
structure EngineRef where
  name : String
  unloads : Nat
  deriving DecidableEq, Repr

/-- What the session consults its engine for. -/
inductive VoiceUse where
  | load
  | transcribe
  | reload
  | availability
  deriving DecidableEq, Repr

/-- The session consulted its engine while the slot held the other one. -/
structure Consultation where
  use : VoiceUse
  engine : Option EngineRef
  slot : Option EngineRef
  deriving DecidableEq, Repr

/-- The session.  The thread which transcribes is there from `stop` until it is joined; it is
`pending` until it has read the engine. -/
structure VoiceSession where
  voiceEngine : Option EngineRef
  audioSource : Bool
  state : VoiceState
  reloadPending : Bool
  pending : Bool
  autoStartOnLoad : Bool
  deriving DecidableEq, Repr

/-- What the engines and the audio source do: whether an engine is ready before and after its
`focus_in`, whether it has one, whether the source starts, and whether the audio is usable. -/
structure VoiceConduct where
  ready : EngineRef → Bool
  loaded : EngineRef → Bool
  hasFocusIn : EngineRef → Bool
  sourceStarts : Bool
  usable : Bool

/-- The manager and the session.  How often each engine was unloaded and what the session consulted
are kept for the statements; no function reads them. -/
structure VoiceWorld where
  manager : EngineManager
  unloads : String → Nat
  session : VoiceSession
  consulted : List Consultation

namespace VoiceWorld

/-- `typio_engine_manager_get_active_voice`. -/
def slotOf (manager : EngineManager) (unloads : String → Nat) : Option EngineRef :=
  (manager.occupant .voice).bind fun entry =>
    if entry.engine.isSome then some ⟨entry.name, unloads entry.name⟩ else none

variable (world : VoiceWorld)

def slot : Option EngineRef := slotOf world.manager world.unloads

/-- `typio_voice_session_new`. -/
def create (manager : EngineManager) (unloads : String → Nat) (audioSource : Bool) :
    VoiceWorld where
  manager := manager
  unloads := unloads
  session :=
    { voiceEngine := slotOf manager unloads
      audioSource := audioSource
      state := .idle
      reloadPending := false
      pending := false
      autoStartOnLoad := false }
  consulted := []

def updateSession (update : VoiceSession → VoiceSession) : VoiceWorld :=
  { world with session := update world.session }

/-- The session consults its engine. -/
def consult (use : VoiceUse) : VoiceWorld :=
  { world with consulted := ⟨use, world.session.voiceEngine, world.slot⟩ :: world.consulted }

/-- An operation on the manager. -/
def manage (operation : EngineManager.RegistryOperation) : VoiceWorld :=
  { world with
    manager := world.manager.registryStep operation
    unloads :=
      match operation with
      | .operation (.unload name) =>
          if (world.manager.findEntryIndex name).isSome then
            Function.update world.unloads name (world.unloads name + 1)
          else world.unloads
      | _ => world.unloads }

/-- `try_begin_recording`. -/
def begins (conduct : VoiceConduct) : Bool := world.session.audioSource && conduct.sourceStarts

/-- `typio_voice_session_start`: an engine which is not ready is loaded by its `focus_in`. -/
def start (conduct : VoiceConduct) : VoiceWorld × Bool :=
  if world.session.state = .loading then (world, true)
  else
    let asked := world.consult .load
    let ready := world.session.voiceEngine.any fun engine =>
      conduct.ready engine || (conduct.hasFocusIn engine && conduct.loaded engine)
    if !ready || world.session.state ≠ .idle || !world.session.audioSource then (asked, false)
    else if !world.begins conduct then (asked, false)
    else (asked.updateSession ({ · with state := .recording }), true)

/-- `typio_voice_session_stop`, which starts the thread. -/
def stop : VoiceWorld :=
  match world.session.state with
  | .loading => world.updateSession ({ · with autoStartOnLoad := false, state := .idle })
  | .recording => world.updateSession ({ · with state := .processing, pending := true })
  | .idle | .processing => world

/-- The thread transcribes; it consults the engine if there is something to transcribe. -/
def infer (conduct : VoiceConduct) : VoiceWorld :=
  if !world.session.pending then world
  else
    let done := world.updateSession ({ · with pending := false })
    if conduct.usable then done.consult .transcribe else done

/-- `do_reload_engine`. -/
def doReload : VoiceWorld := world.consult .reload

/-- `typio_voice_session_dispatch`, which waits for the thread. -/
def dispatch (conduct : VoiceConduct) : VoiceWorld :=
  if world.session.state = .loading then
    let asked := world.consult .load
    let calm := asked.updateSession ({ · with autoStartOnLoad := false })
    if world.session.voiceEngine.any conduct.ready && world.session.autoStartOnLoad &&
        world.begins conduct then
      calm.updateSession ({ · with state := .recording })
    else calm.updateSession ({ · with state := .idle })
  else
    let joined := world.infer conduct
    let idle := joined.updateSession ({ · with state := .idle, reloadPending := false })
    if world.session.reloadPending then idle.doReload else idle

/-- `typio_voice_session_reload_engine`. -/
def reload : VoiceWorld :=
  if world.session.state ≠ .idle then world.updateSession ({ · with reloadPending := true })
  else world.doReload

/-- `typio_voice_session_is_available`. -/
def isAvailable (conduct : VoiceConduct) : VoiceWorld × Bool :=
  (world.consult .availability,
    world.session.audioSource && world.session.voiceEngine.any fun engine =>
      conduct.ready engine || conduct.hasFocusIn engine)

inductive Event where
  | manage (operation : EngineManager.RegistryOperation)
  | start (conduct : VoiceConduct)
  | stop
  | infer (conduct : VoiceConduct)
  | dispatch (conduct : VoiceConduct)
  | reload
  | isAvailable (conduct : VoiceConduct)

def step (world : VoiceWorld) : Event → VoiceWorld
  | .manage operation => world.manage operation
  | .start conduct => (world.start conduct).1
  | .stop => world.stop
  | .infer conduct => world.infer conduct
  | .dispatch conduct => world.dispatch conduct
  | .reload => world.reload
  | .isAvailable conduct => (world.isAvailable conduct).1

/-! ## The property and the condition -/

/-- Whenever the session consulted its engine, this was the one in the slot. -/
def FollowsSlot : Prop := ∀ given ∈ world.consulted, given.engine = given.slot

/-- The step has the session consult its engine. -/
def Consults : Event → Prop
  | .start _ => world.session.state ≠ .loading
  | .infer conduct => world.session.pending ∧ conduct.usable
  | .dispatch conduct => world.session.state = .loading ∨
      (world.session.pending ∧ conduct.usable) ∨ world.session.reloadPending
  | .reload => world.session.state = .idle
  | .isAvailable _ => True
  | .manage _ | .stop => False

/-- If the session consults its engine, the slot holds what it held when the session was created. -/
def FindsSlot (created : Option EngineRef) (world : VoiceWorld) (event : Event) : Prop :=
  world.Consults event → world.slot = created

/-! ## Steps -/

/-- The session's engine is as it was, and it was consulted while the slot was as it was. -/
structure Consulting (before after : VoiceWorld) (consults : Prop) : Prop where
  engine : after.session.voiceEngine = before.session.voiceEngine
  consulted : ∃ new, after.consulted = new ++ before.consulted ∧
    (∀ given ∈ new, given.engine = before.session.voiceEngine ∧ given.slot = before.slot) ∧
      (new ≠ [] ↔ consults)

namespace Consulting

variable {world middle after : VoiceWorld} {first second : Prop}

theorem quiet (engine : after.session.voiceEngine = world.session.voiceEngine)
    (consulted : after.consulted = world.consulted) : Consulting world after False :=
  ⟨engine, [], consulted, by simp, by simp⟩

theorem one (use : VoiceUse) (engine : after.session.voiceEngine = world.session.voiceEngine)
    (consulted : after.consulted = (world.consult use).consulted) : Consulting world after True :=
  ⟨engine, [_], consulted, by simp, by simp⟩

theorem congr (consulting : Consulting world after first) (same : first ↔ second) :
    Consulting world after second := by rwa [← propext same]

theorem trans (before : Consulting world middle first) (slot : middle.slot = world.slot)
    (later : Consulting middle after second) : Consulting world after (first ∨ second) := by
  obtain ⟨new, grown, right, some⟩ := before.consulted
  obtain ⟨new', grown', right', some'⟩ := later.consulted
  refine ⟨later.engine.trans before.engine, new' ++ new, ?_, fun given member => ?_, ?_⟩
  · rw [grown', grown, List.append_assoc]
  · obtain new' | new := List.mem_append.mp member
    · obtain ⟨engine, held⟩ := right' given new'
      exact ⟨engine.trans before.engine, held.trans slot⟩
    · exact right given new
  · rw [← some, ← some', ne_eq, List.append_eq_nil_iff]
    tauto

end Consulting

theorem infer_consulting (conduct : VoiceConduct) :
    Consulting world (world.infer conduct) (world.session.pending ∧ conduct.usable) := by
  unfold infer
  by_cases pending : world.session.pending
  · by_cases usable : conduct.usable
    · simp only [pending, usable, Bool.not_true, Bool.false_eq_true, ↓reduceIte, and_self]
      exact .one .transcribe rfl rfl
    · simp only [pending, usable, Bool.not_true, Bool.false_eq_true, ↓reduceIte, and_false]
      exact .quiet rfl rfl
  · simp only [pending, Bool.not_false, Bool.false_eq_true, ↓reduceIte, false_and]
    exact .quiet rfl rfl

theorem infer_session (conduct : VoiceConduct) :
    (world.infer conduct).session = { world.session with pending := false } := by
  unfold infer
  split
  · next joined =>
      rw [Bool.not_eq_eq_eq_not, Bool.not_true] at joined
      rw [← joined]
  · dsimp only
    split <;> rfl

theorem infer_slot (conduct : VoiceConduct) : (world.infer conduct).slot = world.slot := by
  unfold infer
  split
  · rfl
  · dsimp only
    split <;> rfl

theorem start_consulting (conduct : VoiceConduct) :
    Consulting world (world.start conduct).1 (world.session.state ≠ .loading) := by
  unfold start
  split
  · next loading => exact (Consulting.quiet rfl rfl).congr (by simp [loading])
  next busy =>
    refine Consulting.congr ?_ (iff_of_true trivial busy)
    dsimp only
    repeat' split
    all_goals exact .one .load rfl rfl

theorem dispatch_consulting (conduct : VoiceConduct) :
    Consulting world (world.dispatch conduct) (world.session.state = .loading ∨
      (world.session.pending ∧ conduct.usable) ∨ world.session.reloadPending) := by
  unfold dispatch
  split
  · next loading =>
      refine Consulting.congr ?_ (iff_of_true trivial (.inl loading))
      dsimp only
      split <;> exact .one .load rfl rfl
  next busy =>
    have joined := world.infer_consulting conduct
    have idle : Consulting (world.infer conduct) ((world.infer conduct).updateSession
        ({ · with state := .idle, reloadPending := false })) False := .quiet rfl rfl
    dsimp only
    by_cases reloads : world.session.reloadPending
    · rw [if_pos reloads]
      have reloaded : Consulting (world.infer conduct) ((world.infer conduct).updateSession
          ({ · with state := .idle, reloadPending := false })).doReload True := .one .reload rfl rfl
      exact (joined.trans (world.infer_slot conduct) reloaded).congr (by simp [reloads])
    · rw [if_neg reloads]
      exact (joined.trans (world.infer_slot conduct) idle).congr (by simp [busy, reloads])

theorem step_consulting (event : Event) :
    Consulting world (world.step event) (world.Consults event) := by
  cases event with
  | manage operation => exact .quiet rfl rfl
  | start conduct => exact world.start_consulting conduct
  | infer conduct => exact world.infer_consulting conduct
  | dispatch conduct => exact world.dispatch_consulting conduct
  | isAvailable conduct => exact .one .availability rfl rfl
  | stop =>
      change Consulting world world.stop False
      unfold stop
      split <;> exact .quiet rfl rfl
  | reload =>
      change Consulting world world.reload _
      unfold reload
      split
      · next busy =>
          refine Consulting.congr (.quiet rfl rfl) ?_
          simpa [Consults] using busy
      · next idle =>
          refine Consulting.congr (.one .reload rfl rfl) ?_
          simpa [Consults] using idle

/-- In every run, the engine which the session consults is the one in the slot if and only if the
slot holds, whenever the session consults its engine, what it held when the session was created. -/
theorem followsSlot_iff (manager : EngineManager) (unloads : String → Nat) (audioSource : Bool)
    (events : List Event) :
    Machine.Always step FollowsSlot (create manager unloads audioSource) events ↔
      Machine.EachStep step (FindsSlot (slotOf manager unloads))
        (create manager unloads audioSource) events := by
  refine Machine.always_iff_eachStep
    (fun world => world.session.voiceEngine = slotOf manager unloads)
    (fun world event held follows => ?_)
    (fun world event held _ _ => (world.step_consulting event).engine.trans held) rfl
    fun _ member => (List.not_mem_nil member).elim
  obtain ⟨new, grown, right, consults⟩ := (world.step_consulting event).consulted
  constructor
  · intro after asks
    obtain ⟨given, member⟩ := List.exists_mem_of_ne_nil new (consults.mpr asks)
    obtain ⟨engine, slot⟩ := right given member
    rw [← held, ← engine, ← slot]
    exact (after given (grown ▸ List.mem_append_left _ member)).symm
  · intro finds given member
    rw [grown] at member
    obtain new' | old := List.mem_append.mp member
    · obtain ⟨engine, slot⟩ := right given new'
      rw [engine, slot, held, finds (consults.mp (List.ne_nil_of_mem new'))]
    · exact follows given old

/-- The voice engine `sherpa` replaces `whisper` after the session was created with it, and a
recording is started. -/
theorem replaced_engine_loaded :
    let calls : Calls := ⟨some ⟨true, true, false, true⟩, .ok, .ok⟩
    let manager := Machine.run EngineManager.step (.new none none)
      [.register (some { name := "whisper", type := .voice }),
        .register (some { name := "sherpa", type := .voice }), .setActiveVoice "whisper" calls]
    ¬ Machine.Always step FollowsSlot (create manager (fun _ => 0) true)
      [.manage (.operation (.setActiveVoice "sherpa" calls)),
        .start ⟨fun _ => true, fun _ => true, fun _ => true, true, true⟩] := by
  intro calls manager always
  have follows := always.final ⟨.load, some ⟨"whisper", 0⟩, some ⟨"sherpa", 0⟩⟩
    (List.mem_singleton.mpr (by decide +kernel))
  exact absurd follows (by decide)

end VoiceWorld

end Core

end Typio
