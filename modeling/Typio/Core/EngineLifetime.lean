import Typio.Core.InstanceSwitch
import Typio.Core.VoiceSession
import Typio.Lifetime

/-!
# What is left of an engine which was destroyed

The manager destroys an engine when it is unloaded and when the instance is freed.  The contexts
keep the properties which the engine stored in them, with the functions that free them, and the
voice session keeps its pointer to the engine.  Neither is told of the end of an engine, so the
engine is called after it when such a property is freed, when the session consults the engine and
when the threads of the session do.
-/

namespace Typio

namespace Core

/-- The calls into an engine: its operations, the free function of a property it stored, what the
voice session consults it for, and the model unloaded by the thread of the idle timeout. -/
inductive EngineCallback where
  | operation (call : EngineCall)
  | processKey
  | freeProperty (key : String)
  | voice (use : VoiceUse)
  | idleDeactivate
  deriving DecidableEq, Repr

/-- `PropertyEntry`, with the engine which stored it.  `value` says whether the value is there, and
`free` whether it has a free function. -/
structure Property where
  key : String
  owner : EngineRef
  value : Bool
  free : Bool
  deriving DecidableEq, Repr

/-- What an engine passes to `typio_input_context_set_property`. -/
structure StoredProperty where
  key : String
  value : Bool
  free : Bool
  deriving DecidableEq, Repr

/-- A context of the instance. -/
structure OpenContext where
  id : Nat
  focused : Bool
  properties : List Property
  deriving DecidableEq, Repr

/-- An instance with its contexts, its manager and its voice session.  How often each engine was
unloaded and the trace of the calls are kept for the statements; no function reads them. -/
structure EngineWorld where
  manager : EngineManager
  unloads : String → Nat
  contexts : List OpenContext
  created : Nat
  focused : Option Nat
  voice : Option VoiceSession
  idleArmed : Bool
  freed : Bool
  trace : Lifetime.Trace EngineRef EngineCallback

namespace EngineWorld

def new (recentPrimary recentSecondary : Option String) : EngineWorld where
  manager := .new recentPrimary recentSecondary
  unloads _ := 0
  contexts := []
  created := 0
  focused := none
  voice := none
  idleArmed := false
  freed := false
  trace := []

variable (world : EngineWorld)

/-- The engine of that name, as long as it is not unloaded. -/
def refOf (name : String) : EngineRef := ⟨name, world.unloads name⟩

def record (entry : Lifetime.Entry EngineRef EngineCallback) : EngineWorld :=
  { world with trace := world.trace ++ [entry] }

def use (engine : EngineRef) (callback : EngineCallback) : EngineWorld :=
  world.record (.used engine callback)

/-! ## Properties -/

/-- The free function of a property is called if there is one, and a value. -/
def freeProperty (property : Property) : EngineWorld :=
  if property.free && property.value then world.use property.owner (.freeProperty property.key)
  else world

def freeProperties (properties : List Property) : EngineWorld :=
  properties.foldl freeProperty world

def modifyContext (ctx : Nat) (change : OpenContext → OpenContext) : EngineWorld :=
  { world with
    contexts := world.contexts.map fun context => if context.id = ctx then change context
      else context }

def contextOf (ctx : Nat) : Option OpenContext := world.contexts.find? (·.id == ctx)

/-- `typio_input_context_set_property`, from a call into an engine. -/
def setProperty (ctx : Nat) (owner : EngineRef) (stored : StoredProperty) : EngineWorld :=
  match world.contextOf ctx with
  | none => world
  | some context =>
      let property : Property := ⟨stored.key, owner, stored.value, stored.free⟩
      match context.properties.findIdx? (·.key == stored.key) with
      | some place =>
          (world.freeProperties context.properties[place]?.toList).modifyContext ctx fun context =>
            { context with properties := context.properties.set place property }
      | none =>
          world.modifyContext ctx fun context =>
            { context with properties := context.properties ++ [property] }

/-! ## Calls into the engines -/

/-- An engine is called for a context, and stores properties in it before it returns. -/
def callFor (ctx : Nat) (engine : EngineRef) (callback : EngineCallback)
    (stores : List StoredProperty) : EngineWorld :=
  stores.foldl (fun world stored => world.setProperty ctx engine stored)
    (world.use engine callback)

/-- `typio_engine_manager_get_active`. -/
def activeKeyboard : Option EngineRef :=
  (world.manager.occupant .keyboard).bind fun entry =>
    if entry.engine.any (·.userData) then some (world.refOf entry.name) else none

def callActive (ctx : Nat) (callback : EngineCallback) (stores : List StoredProperty) :
    EngineWorld :=
  match world.activeKeyboard with
  | none => world
  | some engine => world.callFor ctx engine callback stores

/-- The calls of a switch which are for the focused context. -/
def takesContext : EngineCall → Bool
  | .init | .deactivate => false
  | .focusIn | .focusOut | .reset | .getMode | .setMode _ => true

/-- What an engine stores in the focused context during a call of a switch. -/
def storesOf (stores : String → EngineCall → List StoredProperty) :
    LogEntry → List StoredProperty
  | .noticed _ _ => []
  | .called engine call => if takesContext call then stores engine call else []

/-- A call of a switch. -/
def logged (stores : String → EngineCall → List StoredProperty) (entry : LogEntry) : EngineWorld :=
  match entry with
  | .noticed _ _ => world
  | .called engine call =>
      match world.focused with
      | none => world.use (world.refOf engine) (.operation call)
      | some ctx =>
          world.callFor ctx (world.refOf engine) (.operation call) (storesOf stores entry)

/-! ## The manager -/

/-- The instance the manager switches in; nothing it tells its owner concerns the engines. -/
def hosted : Hosted Unit where
  inst :=
    { manager := world.manager, focused := world.focused.isSome, lastMode := none,
      lastStatusIcon := none, log := [] }
  owner := ()

/-- `typio_engine_manager_unload`: the entry is dropped with its engine. -/
def unload (name : String) : EngineWorld :=
  match world.manager.findEntryIndex name with
  | none => world
  | some index =>
      let dropped :=
        if ((world.manager.entries[index]?).bind EngineEntry.engine).isSome then
          world.record (.ended (world.refOf name))
        else world
      { dropped with
        manager := (world.manager.unload name).1
        unloads := Function.update world.unloads name (world.unloads name + 1) }

def switched (operation : EngineManager.RegistryOperation) : Hosted Unit :=
  world.hosted.manage (fun _ _ owner => owner) .silent operation

/-- An operation on the manager, with what the engines store when they are called. -/
def manage (operation : EngineManager.RegistryOperation)
    (stores : String → EngineCall → List StoredProperty) : EngineWorld :=
  match operation with
  | .operation (.unload name) => world.unload name
  | operation =>
      (world.switched operation).inst.log.reverse.foldl
        (fun world entry => world.logged stores entry)
        { world with manager := (world.switched operation).inst.manager }

/-- `typio_engine_manager_free`. -/
def freeManager : EngineWorld :=
  { (world.manager.entries.filter (·.engine.isSome)).foldl
      (fun world entry => world.record (.ended (world.refOf entry.name))) world with
    manager := { world.manager with entries := [], active := fun _ => none } }

/-! ## Contexts -/

/-- `typio_instance_create_context`. -/
def createContext : EngineWorld :=
  { world with
    contexts := world.contexts ++ [⟨world.created, false, []⟩]
    created := world.created + 1 }

/-- `typio_instance_destroy_context`. -/
def destroyContext (ctx : Nat) : EngineWorld :=
  match world.contextOf ctx with
  | none => world
  | some context =>
      { world.freeProperties context.properties with
        contexts := world.contexts.filter (·.id ≠ ctx)
        focused := if world.focused = some ctx then none else world.focused }

/-- `typio_input_context_focus_in`. -/
def focusIn (ctx : Nat) (stores : List StoredProperty) : EngineWorld :=
  match world.contextOf ctx with
  | none => world
  | some context =>
      if context.focused then world
      else
        let entered := world.modifyContext ctx ({ · with focused := true })
        { entered with focused := some ctx }.callActive ctx (.operation .focusIn) stores

/-- `typio_input_context_focus_out`. -/
def focusOut (ctx : Nat) (stores : List StoredProperty) : EngineWorld :=
  match world.contextOf ctx with
  | none => world
  | some context =>
      if !context.focused then world
      else
        let left := world.callActive ctx (.operation .focusOut) stores
        { left.modifyContext ctx ({ · with focused := false }) with focused := none }

/-- `typio_input_context_reset` and `typio_input_context_process_key`. -/
def callContext (ctx : Nat) (callback : EngineCallback) (stores : List StoredProperty) :
    EngineWorld :=
  match world.contextOf ctx with
  | none => world
  | some _ => world.callActive ctx callback stores

/-! ## The voice session -/

def voiceWorld (session : VoiceSession) : VoiceWorld where
  manager := world.manager
  unloads := world.unloads
  session := session
  consulted := []

/-- The session is given to an instance which has none. -/
def createVoice (audioSource : Bool) : EngineWorld :=
  if world.voice.isSome then world
  else
    { world with
      voice := some (VoiceWorld.create world.manager world.unloads audioSource).session
      idleArmed := false }

/-- The session consults its engine, if it has one. -/
def consulting (consultation : Consultation) : EngineWorld :=
  match consultation.engine with
  | none => world
  | some engine => world.use engine (.voice consultation.use)

/-- The idle timeout is armed when a recording could not start and when the session is idle
again. -/
def armedAfter (before : VoiceSession) (event : VoiceWorld.Event) (after : VoiceSession) : Bool :=
  match event with
  | .start conduct => !((world.voiceWorld before).start conduct).2
  | .dispatch _ =>
      if before.state = .loading ∧ after.state = .recording then world.idleArmed else true
  | .manage _ | .stop | .infer _ | .reload | .isAvailable _ => world.idleArmed

/-- A step of the session. -/
def voiceStep (event : VoiceWorld.Event) : EngineWorld :=
  match world.voice with
  | none => world
  | some session =>
      let after := (world.voiceWorld session).step event
      after.consulted.reverse.foldl consulting
        { world with
          voice := some after.session
          idleArmed := world.armedAfter session event after.session }

/-- The timeout of `idle_thread_main`. -/
def idleTimeout : EngineWorld :=
  match world.voice with
  | none => world
  | some session =>
      if world.idleArmed && session.state == .idle then
        let unloaded :=
          match session.voiceEngine with
          | none => world
          | some engine => world.use engine .idleDeactivate
        { unloaded with idleArmed := false }
      else world

/-- `typio_voice_session_free`, which waits for the thread that transcribes. -/
def freeVoice (conduct : VoiceConduct) : EngineWorld :=
  { world.voiceStep (.infer conduct) with voice := none }

/-- `Drop` of the instance.  `idle` says whether the idle timeout passes once the manager is
freed. -/
def freeInstance (conduct : VoiceConduct) (idle : Bool) : EngineWorld :=
  let closed :=
    { world.freeProperties (world.contexts.flatMap OpenContext.properties) with
      contexts := [], focused := none }
  let unmanaged := closed.freeManager
  let timedOut := if idle then unmanaged.idleTimeout else unmanaged
  { timedOut.freeVoice conduct with freed := true }

/-! ## Steps -/

inductive Event where
  | manage (operation : EngineManager.RegistryOperation)
      (stores : String → EngineCall → List StoredProperty)
  | createContext
  | destroyContext (ctx : Nat)
  | focusIn (ctx : Nat) (stores : List StoredProperty)
  | focusOut (ctx : Nat) (stores : List StoredProperty)
  | reset (ctx : Nat) (stores : List StoredProperty)
  | key (ctx : Nat) (stores : List StoredProperty)
  | createVoice (audioSource : Bool)
  | voice (event : VoiceWorld.Event)
  | idleTimeout
  | freeVoice (conduct : VoiceConduct)
  | freeInstance (conduct : VoiceConduct) (idle : Bool)

/-- Nothing happens to an instance which was freed. -/
def step (world : EngineWorld) (event : Event) : EngineWorld :=
  if world.freed then world
  else
    match event with
    | .manage operation stores => world.manage operation stores
    | .createContext => world.createContext
    | .destroyContext ctx => world.destroyContext ctx
    | .focusIn ctx stores => world.focusIn ctx stores
    | .focusOut ctx stores => world.focusOut ctx stores
    | .reset ctx stores => world.callContext ctx (.operation .reset) stores
    | .key ctx stores => world.callContext ctx .processKey stores
    | .createVoice audioSource => world.createVoice audioSource
    | .voice event => world.voiceStep event
    | .idleTimeout => world.idleTimeout
    | .freeVoice conduct => world.freeVoice conduct
    | .freeInstance conduct idle => world.freeInstance conduct idle

/-! ## The property and the condition -/

/-- No engine is called after it was destroyed. -/
def NoUseAfterDestroy : Prop := Lifetime.Sound world.trace

/-- The engine was not unloaded. -/
def Loaded (engine : EngineRef) : Prop := world.unloads engine.name = engine.unloads

/-- The properties which have something to free were stored by engines that are loaded. -/
def OwnersLoaded (properties : List Property) : Prop :=
  ∀ property ∈ properties, property.free = true → property.value = true →
    world.Loaded property.owner

/-- What is stored under the keys replaces nothing of an engine that was unloaded. -/
def ReplacesLoaded (ctx : Nat) (keys : List String) : Prop :=
  ∀ context ∈ world.contexts, context.id = ctx →
    world.OwnersLoaded (context.properties.filter (·.key ∈ keys))

/-- The engine of the session is loaded. -/
def VoiceLoaded (session : VoiceSession) : Prop :=
  ∀ engine ∈ session.voiceEngine, world.Loaded engine

/-- What the step frees and consults is of engines that are loaded, and the threads of the session
have nothing to do with an engine when the instance is freed. -/
def Respects : Event → Prop
  | .manage operation stores => ∀ ctx ∈ world.focused, world.ReplacesLoaded ctx
      (((world.switched operation).inst.log.flatMap (storesOf stores)).map StoredProperty.key)
  | .focusIn ctx stores | .focusOut ctx stores | .reset ctx stores | .key ctx stores =>
      world.ReplacesLoaded ctx (stores.map StoredProperty.key)
  | .destroyContext ctx => ∀ context ∈ world.contexts, context.id = ctx →
      world.OwnersLoaded context.properties
  | .voice event => ∀ session ∈ world.voice,
      (world.voiceWorld session).Consults event → world.VoiceLoaded session
  | .idleTimeout => ∀ session ∈ world.voice,
      world.idleArmed = true → session.state = .idle → world.VoiceLoaded session
  | .freeVoice conduct => ∀ session ∈ world.voice,
      (world.voiceWorld session).Consults (.infer conduct) → world.VoiceLoaded session
  | .freeInstance conduct idle =>
      world.OwnersLoaded (world.contexts.flatMap OpenContext.properties) ∧
        ∀ session ∈ world.voice, session.voiceEngine = none ∨
          ¬(world.voiceWorld session).Consults (.infer conduct) ∧
            (idle = true → world.idleArmed = true → session.state ≠ .idle)
  | .createContext | .createVoice _ => True

section Decidable

instance (engine : EngineRef) : Decidable (world.Loaded engine) :=
  inferInstanceAs (Decidable (_ = _))

instance (properties : List Property) : Decidable (world.OwnersLoaded properties) :=
  inferInstanceAs (Decidable (∀ _ ∈ properties, _ → _ → _))

instance (ctx : Nat) (keys : List String) : Decidable (world.ReplacesLoaded ctx keys) :=
  inferInstanceAs (Decidable (∀ _ ∈ world.contexts, _ → _))

instance (session : VoiceSession) : Decidable (world.VoiceLoaded session) :=
  inferInstanceAs (Decidable (∀ _ ∈ session.voiceEngine, _))

instance (voice : VoiceWorld) : DecidablePred voice.Consults
  | .manage _ | .stop => inferInstanceAs (Decidable False)
  | .start _ => inferInstanceAs (Decidable (_ ≠ _))
  | .infer _ => inferInstanceAs (Decidable (_ ∧ _))
  | .dispatch _ => inferInstanceAs (Decidable (_ ∨ (_ ∧ _) ∨ _))
  | .reload => inferInstanceAs (Decidable (_ = _))
  | .isAvailable _ => inferInstanceAs (Decidable True)

instance : DecidablePred world.Respects
  | .manage _ _ => inferInstanceAs (Decidable (∀ _ ∈ world.focused, _))
  | .focusIn _ _ | .focusOut _ _ | .reset _ _ | .key _ _ =>
      inferInstanceAs (Decidable (world.ReplacesLoaded _ _))
  | .destroyContext _ => inferInstanceAs (Decidable (∀ _ ∈ world.contexts, _ → _))
  | .voice _ => inferInstanceAs (Decidable (∀ _ ∈ world.voice, _ → _))
  | .idleTimeout => inferInstanceAs (Decidable (∀ _ ∈ world.voice, _ → _ → _))
  | .freeVoice _ => inferInstanceAs (Decidable (∀ _ ∈ world.voice, _ → _))
  | .freeInstance _ _ => inferInstanceAs (Decidable (_ ∧ ∀ _ ∈ world.voice, _ ∨ _ ∧ (_ → _ → _)))
  | .createContext | .createVoice _ => inferInstanceAs (Decidable True)

end Decidable

/-! ## Uses of engines that are loaded -/

/-- The engine was unloaded. -/
def Past (engine : EngineRef) : Prop := engine.unloads < world.unloads engine.name

/-- A sound trace, of which every engine that was destroyed is past. -/
def Kept : Prop := Lifetime.Kept world.Past world.trace

variable {world}

theorem refOf_loaded (world : EngineWorld) (name : String) : world.Loaded (world.refOf name) := rfl

theorem Loaded.not_past {engine : EngineRef} (loaded : world.Loaded engine) :
    ¬world.Past engine := by
  unfold Past
  rw [show world.unloads engine.name = engine.unloads from loaded]
  exact lt_irrefl _

/-- Only the contexts changed, and only engines that are loaded were used. -/
structure Uses (before after : EngineWorld) : Prop where
  frame : ∃ trace contexts, after = { before with trace := trace, contexts := contexts }
  kept : before.Kept → after.Kept

namespace Uses

variable {before middle after : EngineWorld}

theorem refl (world : EngineWorld) : Uses world world := ⟨⟨_, _, rfl⟩, id⟩

theorem trans (first : Uses before middle) (second : Uses middle after) : Uses before after := by
  obtain ⟨trace, contexts, rfl⟩ := first.frame
  obtain ⟨later, changed, rfl⟩ := second.frame
  exact ⟨⟨later, changed, rfl⟩, second.kept ∘ first.kept⟩

theorem unloads (uses : Uses before after) : after.unloads = before.unloads := by
  obtain ⟨_, _, rfl⟩ := uses.frame
  rfl

theorem focused (uses : Uses before after) : after.focused = before.focused := by
  obtain ⟨_, _, rfl⟩ := uses.frame
  rfl

theorem loaded (uses : Uses before after) {engine : EngineRef} (loaded : before.Loaded engine) :
    after.Loaded engine := by
  unfold Loaded at *
  rw [uses.unloads]
  exact loaded

theorem modifyContext (world : EngineWorld) (ctx : Nat) (change : OpenContext → OpenContext) :
    Uses world (world.modifyContext ctx change) := ⟨⟨_, _, rfl⟩, id⟩

theorem use {engine : EngineRef} (loaded : world.Loaded engine) (callback : EngineCallback) :
    Uses world (world.use engine callback) :=
  ⟨⟨_, _, rfl⟩, fun kept => Lifetime.Kept.used kept loaded.not_past callback⟩

end Uses

theorem freeProperty_uses {property : Property}
    (owned : property.free = true → property.value = true → world.Loaded property.owner) :
    Uses world (world.freeProperty property) := by
  unfold freeProperty
  split
  next frees =>
    obtain ⟨free, value⟩ := Bool.and_eq_true_iff.mp frees
    exact .use (owned free value) _
  · exact .refl world

theorem freeProperties_uses {properties : List Property} (owned : world.OwnersLoaded properties) :
    Uses world (world.freeProperties properties) := by
  induction properties generalizing world with
  | nil => exact .refl world
  | cons property properties ih =>
      obtain ⟨here, later⟩ := List.forall_mem_cons.mp owned
      have freed := freeProperty_uses here
      exact freed.trans (ih fun other member free value =>
        freed.loaded (later other member free value))

theorem freeProperties_contexts (world : EngineWorld) (properties : List Property) :
    (world.freeProperties properties).contexts = world.contexts := by
  induction properties generalizing world with
  | nil => rfl
  | cons property properties ih =>
      refine (ih (world.freeProperty property)).trans ?_
      unfold freeProperty
      split <;> rfl

/-- A context which only gets a property of an engine that is loaded. -/
theorem modifyContext_replaces {ctx : Nat} {keys : List String} {property : Property}
    {change : OpenContext → OpenContext} (replaces : world.ReplacesLoaded ctx keys)
    (owned : world.Loaded property.owner)
    (members : ∀ context, ∀ other ∈ (change context).properties,
      other = property ∨ other ∈ context.properties) :
    (world.modifyContext ctx change).ReplacesLoaded ctx keys := by
  intro context member here other filtered free value
  obtain ⟨before, held, rfl⟩ := List.mem_map.mp member
  obtain ⟨stored, named⟩ := List.mem_filter.mp filtered
  by_cases same : before.id = ctx
  · rw [if_pos same] at stored
    obtain rfl | kept := members before other stored
    · exact owned
    · exact replaces before held same other (List.mem_filter.mpr ⟨kept, named⟩) free value
  · rw [if_neg same] at here
    exact absurd here same

/-- Storing a property uses the engine whose property is replaced. -/
theorem setProperty_uses {ctx : Nat} {owner : EngineRef} {stored : StoredProperty}
    {keys : List String} (member : stored.key ∈ keys) (owned : world.Loaded owner)
    (replaces : world.ReplacesLoaded ctx keys) :
    Uses world (world.setProperty ctx owner stored) ∧
      (world.setProperty ctx owner stored).ReplacesLoaded ctx keys := by
  unfold setProperty
  split
  · exact ⟨.refl world, replaces⟩
  next context is =>
    have open_ : context ∈ world.contexts := List.mem_of_find?_eq_some is
    have here : context.id = ctx := by simpa using List.find?_some is
    dsimp only
    split
    next place found =>
      obtain ⟨inside, named, -⟩ := List.findIdx?_eq_some_iff_getElem.mp found
      have owners : world.OwnersLoaded context.properties[place]?.toList := by
        intro property old
        rw [Option.mem_toList, List.getElem?_eq_getElem inside] at old
        obtain rfl := Option.some.inj old
        refine replaces context open_ here _ (List.mem_filter.mpr ⟨List.getElem_mem inside, ?_⟩)
        simpa [show (context.properties[place]).key = stored.key by simpa using named] using member
      have freed := freeProperties_uses owners
      refine ⟨freed.trans (.modifyContext _ ctx _), ?_⟩
      refine @modifyContext_replaces _ ctx keys ⟨stored.key, owner, stored.value, stored.free⟩ _ ?_
        (freed.loaded owned) fun context other member => (List.mem_or_eq_of_mem_set member).symm
      intro other held same property filtered free value
      rw [freeProperties_contexts] at held
      exact freed.loaded (replaces other held same property filtered free value)
    next fresh =>
      refine ⟨.modifyContext world ctx _, ?_⟩
      refine @modifyContext_replaces _ ctx keys ⟨stored.key, owner, stored.value, stored.free⟩ _
        replaces owned fun context other member => ?_
      obtain old | new := List.mem_append.mp member
      · exact .inr old
      · exact .inl (List.mem_singleton.mp new)

theorem stores_uses {ctx : Nat} {owner : EngineRef} {stores : List StoredProperty}
    {keys : List String} (members : ∀ stored ∈ stores, stored.key ∈ keys)
    (owned : world.Loaded owner) (replaces : world.ReplacesLoaded ctx keys) :
    Uses world (stores.foldl (fun world stored => world.setProperty ctx owner stored) world) ∧
      (stores.foldl (fun world stored => world.setProperty ctx owner stored) world).ReplacesLoaded
        ctx keys := by
  induction stores generalizing world with
  | nil => exact ⟨.refl world, replaces⟩
  | cons stored stores ih =>
      obtain ⟨here, later⟩ := List.forall_mem_cons.mp members
      obtain ⟨uses, still⟩ := setProperty_uses here owned replaces
      obtain ⟨further, last⟩ := ih later (uses.loaded owned) still
      exact ⟨uses.trans further, last⟩

theorem callFor_uses {ctx : Nat} {engine : EngineRef} {callback : EngineCallback}
    {stores : List StoredProperty} {keys : List String}
    (members : ∀ stored ∈ stores, stored.key ∈ keys) (loaded : world.Loaded engine)
    (replaces : world.ReplacesLoaded ctx keys) :
    Uses world (world.callFor ctx engine callback stores) ∧
      (world.callFor ctx engine callback stores).ReplacesLoaded ctx keys := by
  have called : Uses world (world.use engine callback) := .use loaded callback
  obtain ⟨uses, still⟩ := @stores_uses (world.use engine callback) ctx engine stores keys members
    loaded replaces
  exact ⟨called.trans uses, still⟩

theorem callActive_uses {ctx : Nat} {callback : EngineCallback} {stores : List StoredProperty}
    (replaces : world.ReplacesLoaded ctx (stores.map StoredProperty.key)) :
    Uses world (world.callActive ctx callback stores) := by
  unfold callActive
  split
  · exact .refl world
  next engine active =>
    obtain ⟨entry, -, is⟩ := Option.bind_eq_some_iff.mp active
    have loaded : world.Loaded engine := by
      split at is
      · rw [← Option.some.inj is]
        rfl
      · simp at is
    exact (callFor_uses (fun stored member => List.mem_map_of_mem member) loaded replaces).1

theorem logged_uses {stores : String → EngineCall → List StoredProperty} {keys : List String}
    {entry : LogEntry} (members : ∀ stored ∈ storesOf stores entry, stored.key ∈ keys)
    (replaces : ∀ ctx ∈ world.focused, world.ReplacesLoaded ctx keys) :
    Uses world (world.logged stores entry) ∧
      ∀ ctx ∈ (world.logged stores entry).focused,
        (world.logged stores entry).ReplacesLoaded ctx keys := by
  cases entry with
  | noticed engine notice => exact ⟨.refl world, replaces⟩
  | called engine call =>
      unfold logged
      cases focus : world.focused with
      | none =>
          refine ⟨.use (world.refOf_loaded engine) _, fun ctx focused => ?_⟩
          change ctx ∈ world.focused at focused
          simp [focus] at focused
      | some ctx =>
          obtain ⟨uses, still⟩ := @callFor_uses world ctx (world.refOf engine) (.operation call) _
            keys members rfl (replaces ctx focus)
          refine ⟨uses, fun other focused => ?_⟩
          dsimp only at focused
          rw [uses.focused, focus] at focused
          obtain rfl := Option.some.inj focused
          exact still

theorem logs_uses {stores : String → EngineCall → List StoredProperty} {keys : List String}
    {entries : List LogEntry}
    (members : ∀ entry ∈ entries, ∀ stored ∈ storesOf stores entry, stored.key ∈ keys)
    (replaces : ∀ ctx ∈ world.focused, world.ReplacesLoaded ctx keys) :
    Uses world (entries.foldl (fun world entry => world.logged stores entry) world) := by
  induction entries generalizing world with
  | nil => exact .refl world
  | cons entry entries ih =>
      obtain ⟨here, later⟩ := List.forall_mem_cons.mp members
      obtain ⟨uses, still⟩ := logged_uses here replaces
      exact uses.trans (ih later still)

/-- Every consultation of a session is of the engine it has. -/
theorem consulting_uses {session : VoiceSession} {consulted : List Consultation}
    (same : ∀ given ∈ consulted, given.engine = session.voiceEngine)
    (loaded : consulted ≠ [] → world.VoiceLoaded session) :
    Uses world (consulted.foldl consulting world) := by
  induction consulted generalizing world with
  | nil => exact .refl world
  | cons given consulted ih =>
      obtain ⟨here, later⟩ := List.forall_mem_cons.mp same
      have voiced := loaded (List.cons_ne_nil _ _)
      have consults : Uses world (world.consulting given) := by
        unfold consulting
        split
        · exact .refl world
        next engine is => exact .use (voiced engine (here.symm.trans is)) _
      exact consults.trans (ih later fun _ engine held => consults.loaded (voiced engine held))

theorem consulted_eq (session : VoiceSession) (event : VoiceWorld.Event) :
    (∀ given ∈ ((world.voiceWorld session).step event).consulted,
        given.engine = session.voiceEngine) ∧
      (((world.voiceWorld session).step event).consulted ≠ [] ↔
        (world.voiceWorld session).Consults event) := by
  obtain ⟨new, grown, right, consults⟩ :=
    ((world.voiceWorld session).step_consulting event).consulted
  rw [show (world.voiceWorld session).consulted = [] from rfl, List.append_nil] at grown
  rw [grown]
  exact ⟨fun given member => (right given member).1, consults⟩

/-! ## Steps -/

/-- The entries of the manager have different names, and the trace is sound so far. -/
structure Sane (world : EngineWorld) : Prop where
  intact : world.manager.Integrity
  kept : world.Kept

theorem Sane.uses {after : EngineWorld} (sane : world.Sane) (uses : Uses world after) :
    after.Sane := by
  have kept := uses.kept sane.kept
  obtain ⟨trace, contexts, rfl⟩ := uses.frame
  exact ⟨sane.intact, kept⟩

theorem unload_sane (sane : world.Sane) (name : String) : (world.unload name).Sane := by
  unfold unload
  split
  · exact sane
  next index found =>
    have grows : ∀ engine : EngineRef, world.Past engine →
        engine.unloads < Function.update world.unloads name (world.unloads name + 1)
          engine.name := by
      intro engine past
      by_cases here : engine.name = name
      · subst here
        rw [Function.update_self]
        exact Nat.lt_succ_of_lt past
      · rwa [Function.update_of_ne here]
    refine ⟨sane.intact.unload name, ?_⟩
    dsimp only
    split
    · refine sane.kept.finish (world.refOf_loaded name).not_past grows ?_
      change world.unloads name <
        Function.update world.unloads name (world.unloads name + 1) name
      rw [Function.update_self]
      exact Nat.lt_succ_self _
    · exact ⟨sane.kept.sound, fun engine ended => grows engine (sane.kept.ended engine ended)⟩

theorem manage_sane (sane : world.Sane) {operation : EngineManager.RegistryOperation}
    {stores : String → EngineCall → List StoredProperty}
    (respects : world.Respects (.manage operation stores)) :
    (world.manage operation stores).Sane := by
  have switches : Sane ((world.switched operation).inst.log.reverse.foldl
      (fun world entry => world.logged stores entry)
        { world with manager := (world.switched operation).inst.manager }) := by
    have managed : Sane { world with manager := (world.switched operation).inst.manager } := by
      refine ⟨?_, sane.kept⟩
      unfold switched
      rw [Hosted.manage_manager]
      exact sane.intact.registryStep operation
    refine managed.uses (logs_uses (fun entry logged stored member => ?_) respects)
    refine List.mem_map_of_mem (List.mem_flatMap.mpr ⟨entry, ?_, member⟩)
    exact List.mem_reverse.mp logged
  unfold manage
  split
  · exact unload_sane sane _
  · exact switches

theorem destroyContext_sane (sane : world.Sane) {ctx : Nat}
    (respects : world.Respects (.destroyContext ctx)) : (world.destroyContext ctx).Sane := by
  unfold destroyContext
  split
  · exact sane
  next context is =>
    have freed := sane.uses (freeProperties_uses
      (respects context (List.mem_of_find?_eq_some is) (by simpa using List.find?_some is)))
    exact ⟨freed.intact, freed.kept⟩

theorem focusIn_sane (sane : world.Sane) {ctx : Nat} {stores : List StoredProperty}
    (respects : world.Respects (.focusIn ctx stores)) : (world.focusIn ctx stores).Sane := by
  unfold focusIn
  split
  · exact sane
  split
  · exact sane
  · have entered : Sane { world.modifyContext ctx ({ · with focused := true }) with
        focused := some ctx } := ⟨sane.intact, sane.kept⟩
    refine entered.uses (callActive_uses ?_)
    intro context member here other filtered free value
    obtain ⟨before, held, rfl⟩ := List.mem_map.mp member
    by_cases same : before.id = ctx
    · rw [if_pos same] at filtered
      exact respects before held same other filtered free value
    · rw [if_neg same] at here
      exact absurd here same

theorem focusOut_sane (sane : world.Sane) {ctx : Nat} {stores : List StoredProperty}
    (respects : world.Respects (.focusOut ctx stores)) : (world.focusOut ctx stores).Sane := by
  unfold focusOut
  split
  · exact sane
  split
  · exact sane
  · have left := sane.uses (@callActive_uses world ctx (.operation .focusOut) stores respects)
    exact ⟨left.intact, left.kept⟩

theorem callContext_sane (sane : world.Sane) {ctx : Nat} {callback : EngineCallback}
    {stores : List StoredProperty}
    (respects : world.ReplacesLoaded ctx (stores.map StoredProperty.key)) :
    (world.callContext ctx callback stores).Sane := by
  unfold callContext
  split
  · exact sane
  · exact sane.uses (callActive_uses respects)

theorem createVoice_sane (sane : world.Sane) (audioSource : Bool) :
    (world.createVoice audioSource).Sane := by
  unfold createVoice
  split
  · exact sane
  · exact ⟨sane.intact, sane.kept⟩

theorem voiceStep_sane (sane : world.Sane) {event : VoiceWorld.Event}
    (respects : world.Respects (.voice event)) : (world.voiceStep event).Sane := by
  unfold voiceStep
  split
  · exact sane
  next session held =>
    obtain ⟨same, consults⟩ := @consulted_eq world session event
    have stepped : Sane { world with
        voice := some ((world.voiceWorld session).step event).session
        idleArmed := world.armedAfter session event ((world.voiceWorld session).step event).session
          } := ⟨sane.intact, sane.kept⟩
    refine stepped.uses (@consulting_uses _ session _ ?_ ?_)
    · intro given member
      exact same given (List.mem_reverse.mp member)
    · intro asked
      exact respects session held (consults.mp fun empty => asked (by simp [empty]))

theorem idleTimeout_sane (sane : world.Sane) (respects : world.Respects .idleTimeout) :
    world.idleTimeout.Sane := by
  unfold idleTimeout
  split
  · exact sane
  next session held =>
    split
    next fires =>
      obtain ⟨armed, idle⟩ := Bool.and_eq_true_iff.mp fires
      dsimp only
      split
      · exact ⟨sane.intact, sane.kept⟩
      next engine is =>
        have loaded := respects session held armed (by simpa using idle) engine is
        have used := sane.uses (.use loaded .idleDeactivate)
        exact ⟨used.intact, used.kept⟩
    · exact sane

theorem freeVoice_sane (sane : world.Sane) {conduct : VoiceConduct}
    (respects : world.Respects (.freeVoice conduct)) : (world.freeVoice conduct).Sane := by
  have joined := @voiceStep_sane world sane (.infer conduct) respects
  exact ⟨joined.intact, joined.kept⟩

/-! ## The end of the instance -/

theorem freeManager_trace (world : EngineWorld) : world.freeManager.trace = world.trace ++
    (((world.manager.entries.filter (·.engine.isSome)).map EngineEntry.name).map
      world.refOf).map .ended := by
  have records (entries : List EngineEntry) (before : EngineWorld)
      (same : before.unloads = world.unloads) :
      (entries.foldl (fun world entry => world.record (.ended (world.refOf entry.name)))
        before).trace =
          before.trace ++ ((entries.map EngineEntry.name).map world.refOf).map .ended := by
    induction entries generalizing before with
    | nil => simp
    | cons entry entries ih =>
        refine (ih (before.record (.ended (before.refOf entry.name))) same).trans ?_
        simp [record, refOf, same]
  exact records _ world rfl

theorem freeManager_voice (world : EngineWorld) : world.freeManager.voice = world.voice ∧
    world.freeManager.idleArmed = world.idleArmed := by
  have records (entries : List EngineEntry) (before : EngineWorld) :
      (entries.foldl (fun world entry => world.record (.ended (world.refOf entry.name)))
          before).voice = before.voice ∧
        (entries.foldl (fun world entry => world.record (.ended (world.refOf entry.name)))
          before).idleArmed = before.idleArmed := by
    induction entries generalizing before with
    | nil => exact ⟨rfl, rfl⟩
    | cons entry entries ih => exact ih _
  exact records _ world

/-- The manager destroys the engines it has, none of which was destroyed before. -/
theorem freeManager_sound (sane : world.Sane) : world.freeManager.NoUseAfterDestroy := by
  have once : (((world.manager.entries.filter (·.engine.isSome)).map EngineEntry.name).map
      world.refOf).Nodup := by
    refine List.Nodup.map (fun left right same => congrArg EngineRef.name same) ?_
    exact sane.intact.unique.sublist (List.filter_sublist.map _)
  unfold NoUseAfterDestroy
  rw [freeManager_trace]
  refine (sane.kept.finishAll (fun resource member => ?_) once).sound
  obtain ⟨name, -, rfl⟩ := List.mem_map.mp member
  exact (world.refOf_loaded name).not_past

/-- The idle timeout passes without a call if there is no engine, or if it does not pass. -/
theorem idleTimeout_trace
    (quiet : ∀ session ∈ world.voice, session.voiceEngine = none ∨
      (world.idleArmed = true → session.state ≠ .idle)) :
    world.idleTimeout.trace = world.trace ∧ world.idleTimeout.voice = world.voice := by
  unfold idleTimeout
  split
  · exact ⟨rfl, rfl⟩
  next session held =>
    split
    next fires =>
      obtain ⟨armed, idle⟩ := Bool.and_eq_true_iff.mp fires
      obtain without | unmoved := quiet session held
      · rw [without]
        exact ⟨rfl, rfl⟩
      · exact absurd (by simpa using idle) (unmoved armed)
    · exact ⟨rfl, rfl⟩

/-- The thread is waited for without a call if there is no engine, or nothing to transcribe. -/
theorem freeVoice_trace {conduct : VoiceConduct}
    (quiet : ∀ session ∈ world.voice, session.voiceEngine = none ∨
      ¬(world.voiceWorld session).Consults (.infer conduct)) :
    (world.freeVoice conduct).trace = world.trace := by
  unfold freeVoice voiceStep
  split
  · rfl
  next session held =>
    obtain ⟨same, consults⟩ := @consulted_eq world session (.infer conduct)
    have silent (consulted : List Consultation)
        (unasked : ∀ given ∈ consulted, given.engine = none) (before : EngineWorld) :
        (consulted.foldl consulting before).trace = before.trace := by
      induction consulted generalizing before with
      | nil => rfl
      | cons given consulted ih =>
          obtain ⟨here, later⟩ := List.forall_mem_cons.mp unasked
          refine (ih later _).trans ?_
          unfold consulting
          rw [here]
    refine silent _ (fun given member => ?_) _
    have asked := List.mem_reverse.mp member
    obtain without | unasked := quiet session held
    · exact (same given asked).trans without
    · exact absurd (consults.mp (List.ne_nil_of_mem asked)) unasked

theorem freeInstance_sound (sane : world.Sane) {conduct : VoiceConduct} {idle : Bool}
    (respects : world.Respects (.freeInstance conduct idle)) :
    (world.freeInstance conduct idle).NoUseAfterDestroy := by
  obtain ⟨owners, quiet⟩ := respects
  have freed := freeProperties_uses owners
  have closed : Sane { world.freeProperties (world.contexts.flatMap OpenContext.properties) with
      contexts := [], focused := none } :=
    ⟨(sane.uses freed).intact, (sane.uses freed).kept⟩
  have sound := freeManager_sound closed
  generalize is : ({ world.freeProperties (world.contexts.flatMap OpenContext.properties) with
    contexts := [], focused := none } : EngineWorld) = after at sound
  have voice : after.freeManager.voice = world.voice ∧
      after.freeManager.idleArmed = world.idleArmed := by
    obtain ⟨trace, contexts, same⟩ := freed.frame
    rw [after.freeManager_voice.1, after.freeManager_voice.2, ← is, same]
    exact ⟨rfl, rfl⟩
  have joined {timedOut : EngineWorld} (trace : timedOut.trace = after.freeManager.trace)
      (kept : timedOut.voice = after.freeManager.voice) :
      (timedOut.freeVoice conduct).NoUseAfterDestroy := by
    unfold NoUseAfterDestroy
    rw [freeVoice_trace fun session held => ?_, trace]
    · exact sound
    · rw [kept, voice.1] at held
      exact (quiet session held).imp id And.left
  have ends : (world.freeInstance conduct idle).trace =
      ((if idle then after.freeManager.idleTimeout else after.freeManager).freeVoice
        conduct).trace := by
    rw [← is]
    rfl
  unfold NoUseAfterDestroy
  rw [ends]
  cases idle with
  | false => exact joined rfl rfl
  | true =>
      obtain ⟨trace, kept⟩ := @idleTimeout_trace after.freeManager fun session held => by
        rw [voice.1] at held
        rw [voice.2]
        exact (quiet session held).imp id fun both => both.2 rfl
      exact joined trace kept

/-! ## Runs -/

/-- The instance is sane until it is freed, and no engine was called after its end. -/
def Safe (world : EngineWorld) : Prop :=
  world.NoUseAfterDestroy ∧ (world.freed = false → world.Sane)

theorem Sane.safe (sane : world.Sane) : world.Safe := ⟨sane.kept.sound, fun _ => sane⟩

theorem step_safe (event : Event) (safe : world.Safe)
    (respects : world.freed = false → world.Respects event) : (world.step event).Safe := by
  obtain ⟨sound, sane⟩ := safe
  unfold step
  split
  next gone => exact ⟨sound, fun here => by simp [gone] at here⟩
  next here =>
    have sane := sane (by simpa using here)
    have respects := respects (by simpa using here)
    cases event with
    | manage operation stores => exact (manage_sane sane respects).safe
    | createContext => exact @Sane.safe world.createContext ⟨sane.intact, sane.kept⟩
    | destroyContext ctx => exact (destroyContext_sane sane respects).safe
    | focusIn ctx stores => exact (focusIn_sane sane respects).safe
    | focusOut ctx stores => exact (focusOut_sane sane respects).safe
    | reset ctx stores => exact (callContext_sane sane respects).safe
    | key ctx stores => exact (callContext_sane sane respects).safe
    | createVoice audioSource => exact (createVoice_sane sane audioSource).safe
    | voice event => exact (voiceStep_sane sane respects).safe
    | idleTimeout => exact (idleTimeout_sane sane respects).safe
    | freeVoice conduct => exact (freeVoice_sane sane respects).safe
    | freeInstance conduct idle =>
        exact ⟨freeInstance_sound sane respects, fun freed => by simp [freeInstance] at freed⟩

/-- No engine is called after it was destroyed in a run in which what is freed and consulted is of
engines that are loaded. -/
theorem always_noUseAfterDestroy (recentPrimary recentSecondary : Option String)
    (events : List Event)
    (each : Machine.EachStep step (fun world event => world.freed = false → world.Respects event)
      (new recentPrimary recentSecondary) events) :
    Machine.Always step NoUseAfterDestroy (new recentPrimary recentSecondary) events := by
  have initial : (new recentPrimary recentSecondary).Safe :=
    Sane.safe ⟨EngineManager.new_integrity _ _, Lifetime.Kept.nil⟩
  refine Machine.Always.mono (fun _ safe => safe.1) (Machine.Always.of_invariant Safe
    (fun world event safe respects => ?_) initial each)
  exact step_safe event safe respects

/-- The keyboard engine `rime`, switched to. -/
def withRime : List Event :=
  [.manage (.operation (.register (some { name := "rime", type := .keyboard }))) fun _ _ => [],
    .manage (.operation (.setActive "rime" ⟨some ⟨true, true, true, false⟩, .ok, .ok⟩))
      fun _ _ => []]

/-- The voice engine `whisper`, switched to, and a session with it. -/
def withWhisper : List Event :=
  [.manage (.operation (.register (some { name := "whisper", type := .voice }))) fun _ _ => [],
    .manage (.operation (.setActive "whisper" ⟨some ⟨true, true, false, true⟩, .ok, .ok⟩))
      fun _ _ => [],
    .createVoice true]

/-- The session of Rime in a context. -/
def rimeSession : StoredProperty := ⟨"rime.session", true, true⟩

/-- Every voice engine is ready, and the audio is usable. -/
def readyConduct : VoiceConduct := ⟨fun _ => true, fun _ => true, fun _ => true, true, true⟩

/-- The contexts are destroyed and the session is freed before the engines are. -/
def orderly : List Event :=
  withRime ++ withWhisper ++
    [.createContext, .focusIn 0 [rimeSession], .key 0 [], .voice (.start readyConduct),
      .voice .stop, .voice (.dispatch readyConduct), .focusOut 0 [], .destroyContext 0,
      .manage (.operation (.unload "rime")) fun _ _ => [], .idleTimeout,
      .freeVoice readyConduct, .freeInstance readyConduct true]

theorem orderly_noUseAfterDestroy :
    Machine.Always step NoUseAfterDestroy (new none none) orderly ∧
      (Machine.run step (new none none) orderly).trace ≠ [] :=
  ⟨always_noUseAfterDestroy none none orderly (by decide +kernel), by decide +kernel⟩

/-- An engine is unloaded while a context has its session. -/
def unloadedEarly : List Event :=
  withRime ++
    [.createContext, .focusIn 0 [rimeSession], .manage (.operation (.unload "rime")) fun _ _ => [],
      .destroyContext 0]

/-- The instance is freed while the session transcribes. -/
def freedEarly : List Event :=
  withWhisper ++ [.voice (.start readyConduct), .voice .stop, .freeInstance readyConduct false]

/-- The free function of the property and the thread of the session call an engine that was
destroyed. -/
theorem used_after_destroy : ¬Machine.Always step NoUseAfterDestroy (new none none) unloadedEarly ∧
    ¬Machine.Always step NoUseAfterDestroy (new none none) freedEarly := by
  constructor
  · intro always
    have sound : Lifetime.Sound (Machine.run step (new none none) unloadedEarly).trace :=
      always.final
    exact absurd sound (by decide +kernel)
  · intro always
    have sound : Lifetime.Sound (Machine.run step (new none none) freedEarly).trace :=
      always.final
    exact absurd sound (by decide +kernel)

end EngineWorld

end Core

end Typio
