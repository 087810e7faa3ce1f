import Typio.Daemon.ReloadNotices
import Typio.Machine

/-!
# What a reload leaves alone

A reload with the same defaults changes nothing about the engines exactly if the defaults are
active or do not come up, and the modes that are notified on the way are the ones remembered.  It
does not look whether the defaults have changed, so the engine which a user chose, or which was
restored for an application, gives way to the default.
-/

namespace Typio

namespace Daemon

open Typio.Core Config StrSlice

variable {Float : Type}

/-! ## The property -/

/-- The active engines, and what is remembered for the focused application. -/
structure Untouched (before after : Host) : Prop where
  slots : ∀ slot, after.engineName slot = before.engineName slot
  engine : after.remembered.bind IdentityMemory.loadEngine =
    before.remembered.bind IdentityMemory.loadEngine
  mode : after.remembered.bind IdentityMemory.loadMode =
    before.remembered.bind IdentityMemory.loadMode

/-- What happens to the daemon, a reload being one of the things. -/
inductive RuntimeEvent (Float : Type) where
  | event (event : Event)
  | reload (reloader : Reloader) (calls : ReloadCalls) (config : Entries Float)

def runtimeStep (host : Host) : RuntimeEvent Float → Host
  | .event event => step host event
  | .reload reloader calls config => host.reloadEngines reloader calls config

/-! ## The condition -/

/-- The ids of the modes that are told, which are not the last one again. -/
def toldModes (last : Option EngineMode) : List Notice → List String
  | [] => []
  | .statusIcon _ :: later => toldModes last later
  | .mode mode :: later =>
      if last.any (·.equal mode) then toldModes last later
      else (mode.modeId.filter (· ≠ "")).toList ++ toldModes (some mode) later

/-- The default engines are active or do not come up.  Where the memory is written, the last mode
that is told is the one remembered for the active engine. -/
structure Undisturbed (reloader : Reloader) (calls : ReloadCalls)
    (default defaultVoice : Option String) (preferences : Bool) (host : Host) : Prop where
  slots : EngineManager.SlotsStay host.inst.manager default defaultVoice calls.keyboard
    (calls.voice :: reloader.tries)
  modes : preferences = true → ∀ memory ∈ host.remembered, ∀ active ∈ host.engineName .keyboard,
    active ≠ "" →
      ∀ modeId ∈ (toldModes host.inst.lastMode
        (reloadNotices reloader calls default defaultVoice host.inst.manager)).getLast?,
          memory.loadMode = some (active, modeId)

/-! ## What the notices write -/

/-- After the notices the memory has the last mode that was told. -/
theorem foldl_notice_memory {active : String} (named : active ≠ "") (given : List Notice)
    {sight : Sight} {memory : IdentityMemory} (there : sight.memory = some memory) :
    ∃ written, (given.foldl (Sight.notice (some active)) sight).memory = some written ∧
      written.loadEngine = memory.loadEngine ∧
      written.loadMode = (((toldModes sight.lastMode given).getLast?).map (active, ·)).or
        memory.loadMode := by
  induction given generalizing sight memory with
  | nil => exact ⟨memory, there, rfl, rfl⟩
  | cons first later induction =>
      rw [List.foldl_cons]
      cases first with
      | statusIcon icon => exact induction there
      | mode mode =>
          rw [toldModes, Sight.notice.eq_def]
          by_cases known : sight.lastMode.any (·.equal mode)
          · rw [if_pos known]
            dsimp only
            rw [if_pos known]
            exact induction there
          rw [if_neg known]
          dsimp only
          rw [if_neg known, there]
          cases identified : mode.modeId.filter (· ≠ "") with
          | none => exact induction rfl
          | some modeId =>
              obtain ⟨-, other⟩ := Option.filter_eq_some_iff.mp identified
              have stored := @induction
                { lastMode := some mode, memory := some (memory.storeMode active modeId) }
                (memory.storeMode active modeId) rfl
              obtain ⟨written, same, engine, last⟩ := stored
              refine ⟨written, same, ?_, ?_⟩
              · rw [engine, IdentityMemory.storeMode_loadEngine]
              · rw [last, IdentityMemory.storeMode_loadMode memory named (by simpa using other),
                  Option.toList_some, List.singleton_append, List.getLast?_cons]
                cases (toldModes (some mode) later).getLast? <;> rfl

/-- Without the name of an active engine nothing is written. -/
theorem foldl_notice_unnamed {active : Option String} (unnamed : ∀ name ∈ active, name = "")
    (given : List Notice) (sight : Sight) :
    (given.foldl (Sight.notice active) sight).memory = sight.memory := by
  induction given generalizing sight with
  | nil => rfl
  | cons first later induction =>
      rw [List.foldl_cons, induction]
      cases first with
      | statusIcon icon => rfl
      | mode mode =>
          rw [Sight.notice.eq_def]
          dsimp only
          split
          · rfl
          cases active with
          | none => rfl
          | some name =>
              obtain rfl := unnamed name rfl
              cases mode.modeId.filter (· ≠ "") with
              | none => rfl
              | some modeId =>
                  cases sight.memory with
                  | none => rfl
                  | some memory => exact congrArg some (if_pos (.inl rfl))

/-! ## Who is asked -/

section Reload

variable {host : Host} {reloader : Reloader} {calls : ReloadCalls}
  {default defaultVoice : Option String}

theorem reloadWith_kept {invariant : Host → Prop} (kept : Hosted.Kept App.onCallback invariant)
    (holds : invariant host) : invariant (host.reloadWith reloader calls default defaultVoice) := by
  have attempted {host : Host} (slot : Slot) (name : Option String) (calling : Calls)
      (holds : invariant host) : invariant (host.attempt calls.behaviour slot name calling) := by
    rw [Host.attempt.eq_def]
    cases name with
    | none => exact holds
    | some name =>
        dsimp only
        split
        · exact holds
        cases slot with
        | keyboard => exact kept.setActive calls.behaviour name calling holds
        | voice =>
            exact kept.manage calls.behaviour (.operation (.setActiveVoice name calling)) holds
  have reloaded {host : Host} (slot : Slot) (given : String → List Notice)
      (holds : invariant host) : invariant (host.reloadActive slot given) := by
    rw [Host.reloadActive]
    cases host.entryAt (host.inst.manager.active slot) with
    | none => exact holds
    | some entry =>
        dsimp only
        generalize given entry.name = notices
        induction notices generalizing host with
        | nil => exact holds
        | cons first later induction => exact induction (kept.notice entry.name first holds)
  have instance_kept := attempted .voice defaultVoice calls.voice
    (reloaded .keyboard calls.reloadConfig (attempted .keyboard default calls.keyboard holds))
  cases reloader with
  | inst => exact instance_kept
  | daemon voice reloadConfig =>
      exact reloaded .voice reloadConfig (attempted .voice defaultVoice voice instance_kept)

theorem remembered_of_serves {identity : Option String} (serves : host.owner.Serves identity) :
    host.remembered = host.owner.currentMemory := by
  obtain ⟨frontend, there, preferences, -⟩ := serves
  rw [Host.remembered, App.currentMemory, Option.mem_def.mp there, Option.bind_some,
    Option.bind_some, IdentityFrontend.remembering, if_pos preferences]

/-- Nothing is written unless preferences are kept. -/
theorem remembered_reloadWith (unkept : ∀ frontend ∈ host.owner.frontend,
      frontend.remembering = none) :
    (host.reloadWith reloader calls default defaultVoice).remembered = host.remembered := by
  rw [Host.remembered, Host.remembered]
  exact congrArg (Option.bind · _) (reloadWith_kept (unknown_kept unkept) rfl)

/-- The memory that a reload writes, if preferences are kept and the application is known. -/
theorem reloadWith_memory (orderly : host.inst.manager.Orderly) {app : String}
    (serves : host.owner.Serves (some app))
    (stays : ∀ name ∈ default, host.inst.manager.slotName .keyboard ≠ some name →
      ∀ entry ∈ host.inst.manager.entryNamed name, entry.isVoice = false →
        ¬ entry.ComesUp calls.keyboard) :
    (host.reloadWith reloader calls default defaultVoice).remembered =
      ((reloadNotices reloader calls default defaultVoice host.inst.manager).foldl
        (Sight.notice (host.engineName .keyboard)) host.sight).memory := by
  have start : Seen (host.engineName .keyboard) host.sight [] host :=
    ⟨present_of_live orderly.live, rfl, rfl⟩
  have seen := @Seen.reloadWith _ _ _ start orderly reloader calls default defaultVoice stays
  have served := @reloadWith_kept host reloader calls default defaultVoice _
    (serves_kept (some app)) serves
  rw [remembered_of_serves served]
  exact congrArg Sight.memory seen.sight

/-- The memory is the same if the last mode that is told is the one remembered. -/
theorem remembered_kept_iff (orderly : host.inst.manager.Orderly) {app : String}
    (serves : host.owner.Serves (some app)) {memory : IdentityMemory}
    (there : host.remembered = some memory)
    (stays : ∀ name ∈ default, host.inst.manager.slotName .keyboard ≠ some name →
      ∀ entry ∈ host.inst.manager.entryNamed name, entry.isVoice = false →
        ¬ entry.ComesUp calls.keyboard) :
    ((host.reloadWith reloader calls default defaultVoice).remembered.bind
        IdentityMemory.loadEngine = memory.loadEngine) ∧
      ((host.reloadWith reloader calls default defaultVoice).remembered.bind
          IdentityMemory.loadMode = memory.loadMode ↔
        ∀ active ∈ host.engineName .keyboard, active ≠ "" →
          ∀ modeId ∈ (toldModes host.inst.lastMode
            (reloadNotices reloader calls default defaultVoice host.inst.manager)).getLast?,
              memory.loadMode = some (active, modeId)) := by
  have sighted : host.sight.memory = some memory :=
    (remembered_of_serves serves).symm.trans there
  rw [reloadWith_memory orderly serves stays]
  by_cases unnamed : ∀ name ∈ host.engineName .keyboard, name = ""
  · rw [foldl_notice_unnamed unnamed, sighted]
    exact ⟨rfl, iff_of_true rfl fun active member named => absurd (unnamed active member) named⟩
  push Not at unnamed
  obtain ⟨active, member, named⟩ := unnamed
  rw [Option.mem_def.mp member]
  obtain ⟨written, same, engine, mode⟩ := foldl_notice_memory named
    (reloadNotices reloader calls default defaultVoice host.inst.manager) sighted
  rw [same, Option.bind_some, Option.bind_some]
  refine ⟨engine, ?_⟩
  rw [mode]
  have last : host.sight.lastMode = host.inst.lastMode := rfl
  rw [last]
  cases (toldModes host.inst.lastMode
      (reloadNotices reloader calls default defaultVoice host.inst.manager)).getLast? with
  | none => exact iff_of_true rfl nofun
  | some modeId =>
      constructor
      · intro kept other member' _ modeId' told
        obtain rfl := Option.some.inj member'
        obtain rfl := Option.some.inj told
        exact kept.symm
      · intro kept
        exact (kept active rfl named modeId rfl).symm

theorem engineNames_iff (orderly : host.inst.manager.Orderly) :
    (∀ slot, (host.reloadWith reloader calls default defaultVoice).engineName slot =
        host.engineName slot) ↔
      EngineManager.SlotsStay host.inst.manager default defaultVoice calls.keyboard
        (calls.voice :: reloader.tries) := by
  have manager := @reloadWith_manager host orderly reloader calls default defaultVoice
  have after : (host.reloadWith reloader calls default defaultVoice).inst.manager.Orderly := by
    rw [manager]
    exact (orderly.attempt ..).attempts _ _
  rw [← EngineManager.slotsStay_iff orderly (List.cons_ne_nil calls.voice reloader.tries)]
  refine forall_congr' fun slot => ?_
  rw [engineName_eq after, engineName_eq orderly, manager]

/-- While preferences are kept and the application is known, its memory has to stay as well. -/
theorem untouched_iff_of_serves (orderly : host.inst.manager.Orderly) {app : String}
    (serves : host.owner.Serves (some app)) :
    Untouched host (host.reloadWith reloader calls default defaultVoice) ↔
      Undisturbed reloader calls default defaultVoice true host := by
  have remembers : ∃ memory, host.remembered = some memory := by
    obtain ⟨frontend, there, -, identity⟩ := serves
    rw [Host.remembered, Option.mem_def.mp there, Option.bind_some, identity]
    exact ⟨_, rfl⟩
  obtain ⟨memory, there⟩ := remembers
  have names := @engineNames_iff host reloader calls default defaultVoice orderly
  constructor
  · intro untouched
    have stay := names.mp untouched.slots
    obtain ⟨-, mode⟩ := @remembered_kept_iff host reloader calls default defaultVoice orderly app
      serves memory there stay.keyboard
    refine ⟨stay, fun _ other member => ?_⟩
    obtain rfl := Option.some.inj (there.symm.trans member)
    refine mode.mp (untouched.mode.trans ?_)
    rw [there, Option.bind_some]
  · intro undisturbed
    obtain ⟨engine, mode⟩ := @remembered_kept_iff host reloader calls default defaultVoice orderly
      app serves memory there undisturbed.slots.keyboard
    have last := mode.mpr (undisturbed.modes rfl memory there)
    refine ⟨names.mpr undisturbed.slots, engine.trans ?_, last.trans ?_⟩
    · rw [there, Option.bind_some]
    · rw [there, Option.bind_some]

/-- Otherwise nothing but the slots can change. -/
theorem untouched_iff_of_unkept (orderly : host.inst.manager.Orderly)
    (unkept : ∀ frontend ∈ host.owner.frontend, frontend.remembering = none) :
    Untouched host (host.reloadWith reloader calls default defaultVoice) ↔
      EngineManager.SlotsStay host.inst.manager default defaultVoice calls.keyboard
        (calls.voice :: reloader.tries) := by
  rw [← engineNames_iff orderly]
  have after := @remembered_reloadWith host reloader calls default defaultVoice unkept
  constructor
  · intro untouched
    exact untouched.slots
  · intro slots
    exact ⟨slots, congrArg (Option.bind · _) after, congrArg (Option.bind · _) after⟩

end Reload

/-! ## A reload -/

section Engines

variable {host : Host} {reloader : Reloader} {calls : ReloadCalls}

theorem reloadEngines_manager (orderly : host.inst.manager.Orderly) (config : Entries Float) :
    (host.reloadEngines reloader calls config).inst.manager =
      host.inst.manager.reload (configuredEngine config defaultEngineKey)
        (configuredEngine config defaultVoiceEngineKey) calls.keyboard
        (calls.voice :: reloader.tries) := by
  let started := host.updateFrontend fun frontend =>
    { frontend with preferences := getBool config preferencesKey true }
  exact @reloadWith_manager started orderly reloader calls _ _

theorem reloadEngines_orderly (orderly : host.inst.manager.Orderly) (config : Entries Float) :
    (host.reloadEngines reloader calls config).inst.manager.Orderly := by
  rw [reloadEngines_manager orderly]
  exact (orderly.attempt ..).attempts _ _

/-- Whether preferences are kept says nothing of what is remembered. -/
theorem remembered_preferences (preferences : Bool) :
    (host.updateFrontend fun frontend => { frontend with preferences }).remembered =
      host.remembered := by
  change (host.owner.frontend.map _).bind _ = host.owner.frontend.bind _
  cases host.owner.frontend <;> rfl

theorem untouched_iff (orderly : host.inst.manager.Orderly) (config : Entries Float) :
    Untouched host (host.reloadEngines reloader calls config) ↔
      Undisturbed reloader calls (configuredEngine config defaultEngineKey)
        (configuredEngine config defaultVoiceEngineKey) (getBool config preferencesKey true)
        host := by
  rw [Host.reloadEngines]
  generalize getBool config preferencesKey true = preferences
  generalize configuredEngine config defaultEngineKey = default
  generalize configuredEngine config defaultVoiceEngineKey = defaultVoice
  have same := @remembered_preferences host preferences
  generalize start : host.updateFrontend (fun frontend => { frontend with preferences }) = started
    at same ⊢
  have inst : started.inst = host.inst := start ▸ rfl
  have frontend : started.owner.frontend =
      host.owner.frontend.map fun frontend => { frontend with preferences } := start ▸ rfl
  have names (slot : Slot) : started.engineName slot = host.engineName slot := by
    rw [Host.engineName, inst, Host.engineName]
  have untouched (after : Host) : Untouched host after ↔ Untouched started after := by
    constructor
    · rintro ⟨slots, engine, mode⟩
      exact ⟨fun slot => (slots slot).trans (names slot).symm, same ▸ engine, same ▸ mode⟩
    · rintro ⟨slots, engine, mode⟩
      exact ⟨fun slot => (slots slot).trans (names slot), same ▸ engine, same ▸ mode⟩
  by_cases kept : ∃ app, started.owner.Serves (some app)
  · obtain ⟨app, serves⟩ := kept
    obtain ⟨written, there, set, -⟩ := id serves
    rw [frontend] at there
    obtain ⟨before, -, rfl⟩ := Option.map_eq_some_iff.mp there
    obtain rfl : preferences = true := set
    rw [untouched, untouched_iff_of_serves (inst ▸ orderly) serves]
    constructor
    · rintro ⟨slots, modes⟩
      rw [inst, same, names] at modes
      exact ⟨inst ▸ slots, modes⟩
    · rintro ⟨slots, modes⟩
      rw [← inst, ← same, ← names] at modes
      exact ⟨inst ▸ slots, modes⟩
  · have unkept : ∀ frontend ∈ started.owner.frontend, frontend.remembering = none := by
      intro frontend there
      rw [IdentityFrontend.remembering]
      split
      next set =>
        cases identity : frontend.currentIdentity with
        | none => rfl
        | some app => exact absurd ⟨app, frontend, there, set, identity⟩ kept
      next => rfl
    rw [untouched, untouched_iff_of_unkept (inst ▸ orderly) unkept, inst]
    constructor
    · intro slots
      refine ⟨slots, fun set memory member => absurd ?_ kept⟩
      obtain ⟨before, there, known⟩ := Option.bind_eq_some_iff.mp member
      obtain ⟨app, identity, -⟩ := Option.map_eq_some_iff.mp known
      refine ⟨app, { before with preferences }, ?_, set, identity⟩
      rw [frontend]
      exact Option.mem_map_of_mem _ there
    · intro undisturbed
      exact undisturbed.slots

end Engines

/-! ## The calls -/

section Calls

variable {toml : Str → Option (TomlValue Float)} {parseF64 : Str → Option Float}
  {floatText : Float → Str} {outside : Surroundings Float} {reloader : Reloader}
  {calls : ReloadCalls} {inst after : TypioInstance Float Host} {result : TypioResult}

theorem configuredEngine_congr {config other : Entries Float} {key : Str}
    (same : Config.get config key = Config.get other key) :
    configuredEngine config key = configuredEngine other key := by
  rw [configuredEngine, getString, same, configuredEngine, getString]

theorem reloadConfig_engines {switchEngines : Entries Float → Host → Host}
    (called : Config.reloadConfig toml parseF64 switchEngines outside inst = .ok (result, after)) :
    (result = .ok → ∀ new ∈ after.config, after.engines = switchEngines new inst.engines) ∧
      (result ≠ .ok → after.engines = inst.engines) := by
  rw [Config.reloadConfig] at called
  cases directory : inst.configDir with
  | none =>
      rw [directory] at called
      obtain ⟨rfl, rfl⟩ := Prod.mk.inj (Except.ok.inj called)
      refine ⟨fun impossible => ?_, fun _ => rfl⟩
      cases impossible
  | some path =>
      rw [directory] at called
      cases loaded : loadFile toml parseF64 (if outside.reads then inst.file else none) with
      | error panic =>
          rw [loaded] at called
          cases called
      | ok entries =>
          rw [loaded] at called
          obtain ⟨rfl, rfl⟩ := Prod.mk.inj (Except.ok.inj called)
          refine ⟨fun _ new member => ?_, fun failed => absurd rfl failed⟩
          obtain rfl := Option.some.inj member
          rfl

/-- A call that succeeds does to the engines what a reload does, and no other call does anything to
them. -/
theorem run_engines {call : ConfigCall}
    (called : call.run toml parseF64 floatText outside reloader calls inst = .ok (result, after)) :
    (result = .ok → ∀ new ∈ after.config,
        after.engines = inst.engines.reloadEngines reloader calls new) ∧
      (result ≠ .ok → after.engines = inst.engines) := by
  cases call with
  | reloadConfig =>
      rw [ConfigCall.run] at called
      exact reloadConfig_engines called
  | setConfigText content =>
      rw [ConfigCall.run] at called
      obtain ⟨failed, rfl⟩ | ⟨parsed, -, reloaded⟩ := setConfigText_cases called
      · exact ⟨fun succeeded => absurd succeeded failed, fun _ => rfl⟩
      · exact reloadConfig_engines reloaded

end Calls

/-! ## Every state -/

theorem runtime_orderly (recentPrimary recentSecondary : Option String)
    (frontend : Option IdentityFrontend) (events : List (RuntimeEvent Float)) :
    (Machine.run runtimeStep (Hosted.start (.new recentPrimary recentSecondary)
      (App.new frontend)) events).inst.manager.Orderly := by
  have always := @Machine.Always.of_preserved _ _ runtimeStep
    (Hosted.start (.new recentPrimary recentSecondary) (App.new frontend)) events
    (fun host : Host => host.inst.manager.Orderly)
    (fun host event orderly => by
      cases event with
      | event event => exact step_orderly orderly event
      | reload reloader calls config => exact reloadEngines_orderly orderly config)
    (EngineManager.new_orderly recentPrimary recentSecondary)
  exact always.final

/-- A call that succeeds and replaces a configuration with the same defaults touches nothing exactly
if it is undisturbed; a call that fails touches nothing. -/
theorem reload_touches_iff (recentPrimary recentSecondary : Option String)
    (frontend : Option IdentityFrontend) (events : List (RuntimeEvent Float))
    {toml : Str → Option (TomlValue Float)} {parseF64 : Str → Option Float}
    {floatText : Float → Str} {outside : Surroundings Float} {reloader : Reloader}
    {calls : ReloadCalls} {inst after : TypioInstance Float Host} {call : ConfigCall}
    {result : TypioResult}
    (reached : inst.engines = Machine.run runtimeStep
      (Hosted.start (.new recentPrimary recentSecondary) (App.new frontend)) events)
    (called : call.run toml parseF64 floatText outside reloader calls inst =
      .ok (result, after)) :
    ∀ old ∈ inst.config, ∀ new ∈ after.config,
      Config.get new defaultEngineKey = Config.get old defaultEngineKey →
      Config.get new defaultVoiceEngineKey = Config.get old defaultVoiceEngineKey →
        (result = .ok → (Untouched inst.engines after.engines ↔
          Undisturbed reloader calls (configuredEngine old defaultEngineKey)
            (configuredEngine old defaultVoiceEngineKey) (getBool new preferencesKey true)
            inst.engines)) ∧
        (result ≠ .ok → Untouched inst.engines after.engines) := by
  intro old _ new replaced default defaultVoice
  obtain ⟨succeeds, fails⟩ := run_engines called
  have orderly : inst.engines.inst.manager.Orderly := reached ▸ runtime_orderly ..
  constructor
  · intro succeeded
    rw [succeeds succeeded new replaced, untouched_iff orderly, configuredEngine_congr default,
      configuredEngine_congr defaultVoice]
  · intro failed
    rw [fails failed]
    exact ⟨fun _ => rfl, rfl, rfl⟩

/-- The calls of engines which come up and notify nothing. -/
def quietCalls : ReloadCalls where
  behaviour := .silent
  keyboard := startUp
  voice := startUp
  reloadConfig _ := []

/-- An application has the focus, and one of two keyboard engines is chosen. -/
def chosen (engine : String) : List (RuntimeEvent Unit) :=
  [.event (.inst (.manage (.operation
      (.register (some { name := "basic", type := .keyboard }))) .silent)),
    .event (.inst (.manage (.operation
      (.register (some { name := "rime", type := .keyboard }))) .silent)),
    .event (.activated (some "editor") .silent startUp),
    .event (.inst (.manage (.operation (.setActive engine startUp)) .silent))]

def basicConfig : Entries Unit := [(defaultEngineKey, .string (.utf8 "basic".toList))]

/-- The default engine is `basic`, and the file is gone. -/
def withChosen (engine : String) : TypioInstance Unit Host where
  config := some basicConfig
  configDir := some []
  file := none
  engines := Machine.run runtimeStep (Hosted.start (.new none none) (App.new (some blankFrontend)))
    (chosen engine)

def unwritable : Surroundings Unit where
  writes := false
  reads := false
  iterate := id
  iterates _ := .refl _

/-- The configuration is reloaded while that engine is active. -/
def reloaded (engine : String) : TypioInstance Unit Host :=
  { withChosen engine with
    engines := (withChosen engine).engines.reloadEngines .inst quietCalls basicConfig }

theorem reloaded_run (engine : String) :
    ConfigCall.reloadConfig.run (fun _ => none) (fun _ => none) (fun _ => []) unwritable .inst
      quietCalls (withChosen engine) = .ok (.ok, reloaded engine) := rfl

/-- Nothing is touched while the default engine is active. -/
theorem reload_touches_iff_default :
    Untouched (withChosen "basic").engines (reloaded "basic").engines := by
  have touches := reload_touches_iff none none (some blankFrontend) (chosen "basic") rfl
    (reloaded_run "basic") basicConfig rfl basicConfig rfl rfl rfl
  have default : configuredEngine basicConfig defaultEngineKey = some "basic" := by decide +kernel
  have active : (withChosen "basic").engines.inst.manager.slotName .keyboard = some "basic" := by
    decide +kernel
  have no_voice : configuredEngine basicConfig defaultVoiceEngineKey = none := by decide +kernel
  have keyboard : ((withChosen "basic").engines.inst.manager.entryNamed "basic").any
      EngineEntry.isVoice = false := by decide +kernel
  have silent : reloadNotices .inst quietCalls (some "basic") none
      (withChosen "basic").engines.inst.manager = [] := by decide +kernel
  rw [default, no_voice] at touches
  refine (touches.1 rfl).mpr ⟨⟨?_, .inr ⟨?_, nofun⟩⟩, fun _ _ _ _ _ _ modeId told => ?_⟩
  · intro name member absent
    exact absurd (active.trans member) absent
  · intro name member _ entry found voice
    obtain rfl := Option.some.inj member
    rw [Option.mem_def.mp found, Option.any_some, voice] at keyboard
    cases keyboard
  · rw [silent] at told
    cases told

/-- The engine which was chosen gives way to the default, here and in the memory. -/
theorem reload_replaces_engine :
    ConfigCall.reloadConfig.run (fun _ => none) (fun _ => none) (fun _ => []) unwritable .inst
        quietCalls (withChosen "rime") = .ok (.ok, reloaded "rime") ∧
      (reloaded "rime").config = (withChosen "rime").config ∧
      ¬ Untouched (withChosen "rime").engines (reloaded "rime").engines := by
  refine ⟨rfl, rfl, fun untouched => ?_⟩
  exact absurd (untouched.slots .keyboard) (by decide +kernel)

end Daemon

end Typio
