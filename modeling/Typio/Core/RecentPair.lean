import Typio.Config.RoundTrip
import Typio.Core.CyclingProgress
import Typio.Core.RecentState

/-!
# The recent pair

The manager remembers the engine which committed last and the one before it.  The pair is written
into the state file when it changes, and the next manager starts with what it finds there.  As the
two are never the same, a slow call of `next` goes back and forth between them.
-/

namespace Typio

namespace Core

open StrSlice Config

namespace EngineManager

/-! ## Saving the pair -/

/-- The condition under which `update_recent_pair` saves the pair, once it has set it. -/
def recentChanged (manager : EngineManager) (stableName : String) : Prop :=
  stableName ≠ "" ∧ manager.recentPrimary ≠ some stableName ∧
    (manager.recentPrimary ≠ some stableName ∨
      manager.recentSecondary ≠ (manager.updateRecentPair stableName).recentSecondary)

instance (manager : EngineManager) (stableName : String) :
    Decidable (manager.recentChanged stableName) := inferInstanceAs (Decidable (_ ∧ _ ∧ (_ ∨ _)))

/-- The operation saves the pair: a commit of an engine that changes it. -/
def savesPair (manager : EngineManager) : RegistryOperation → Bool
  | .operation .notifyCommit => manager.activeName.any fun name => manager.recentChanged name
  | _ => false

/-! ## What moves the pair -/

theorem updateRecentPair_sound {manager : EngineManager}
    (sound : RecentPair.Sound manager.recentPair) {stableName : String}
    (terminated : '\x00' ∉ stableName.toList) :
    RecentPair.Sound (manager.updateRecentPair stableName).recentPair := by
  unfold updateRecentPair
  split
  · exact sound
  next changed =>
    obtain ⟨nonempty, -⟩ := not_or.mp changed
    have secondary : ∀ name, ((manager.recentPrimary.filter (· ≠ stableName)).or
        (manager.recentSecondary.filter (· ≠ stableName))) = some name →
          name ≠ stableName ∧ IsSavedName name := by
      intro name found
      obtain there | ⟨-, there⟩ := Option.or_eq_some_iff.mp found
      · obtain ⟨member, other⟩ := Option.filter_eq_some_iff.mp there
        exact ⟨of_decide_eq_true other, sound.primary name member⟩
      · obtain ⟨member, other⟩ := Option.filter_eq_some_iff.mp there
        exact ⟨of_decide_eq_true other, sound.secondary name member⟩
    refine ⟨fun name primary found => ?_, fun name primary => ?_, fun name found => ?_⟩
    · exact (secondary name found).1 (Option.some.inj primary).symm
    · obtain rfl := Option.some.inj primary
      exact ⟨nonempty, terminated⟩
    · exact (secondary name found).2

/-- Only a commit moves the pair. -/
theorem registryStep_recentPair (manager : EngineManager) (operation : RegistryOperation) :
    (manager.registryStep operation).recentPair = manager.recentPair ∨
      ∃ name ∈ manager.activeName,
        manager.registryStep operation = manager.updateRecentPair name := by
  have registered (info : Option EngineInfo) :
      (manager.register info).1.recentPair = manager.recentPair := by
    unfold EngineManager.register
    repeat' split
    all_goals rfl
  cases operation with
  | load library =>
      obtain refused | ⟨info, -, entered⟩ := manager.load_cases library
      · exact .inl (congrArg recentPair refused)
      · exact .inl ((congrArg recentPair entered).trans (registered _))
  | operation operation =>
      cases operation with
      | register info => exact .inl (registered info)
      | unload name =>
          refine .inl ?_
          change (manager.unload name).1.recentPair = _
          unfold EngineManager.unload
          split <;> rfl
      | setActive name calls => exact .inl (setActive_recentPair manager name calls)
      | setActiveVoice name calls =>
          refine .inl ?_
          change (manager.setActiveVoice name calls).1.recentPair = _
          unfold EngineManager.setActiveVoice
          repeat' split
          all_goals first | rfl | exact setActive_recentPair manager name calls
      | getEngine name made =>
          refine .inl ?_
          change (manager.getEngine name made).1.recentPair = _
          unfold EngineManager.getEngine
          repeat' split
          all_goals rfl
      | cycle forward stable order calls =>
          refine .inl ?_
          change (manager.cycle forward stable order calls).1.recentPair = _
          rw [cycle_eq]
          split
          · rfl
          · exact setActive_recentPair ..
      | notifyCommit =>
          change manager.notifyCommit.recentPair = _ ∨ _
          unfold EngineManager.registryStep EngineManager.step EngineManager.notifyCommit
          split
          next => exact .inl rfl
          next name active => exact .inr ⟨name, active, rfl⟩

/-- What holds of a manager whose engines have C strings for names. -/
structure Recalls (manager : EngineManager) : Prop where
  orderly : manager.Orderly
  terminated : ∀ name ∈ manager.names, '\x00' ∉ name.toList
  pair : RecentPair.Sound manager.recentPair

theorem new_recalls {pair : RecentPair} (sound : pair.Sound) : (new pair.1 pair.2).Recalls :=
  ⟨new_orderly pair.1 pair.2, nofun, sound⟩

theorem activeName_mem_names {manager : EngineManager} {name : String}
    (active : manager.activeName = some name) : name ∈ manager.names := by
  obtain ⟨index, entry, -, here, rfl⟩ := activeName_eq_some_iff.mp active
  exact List.mem_map_of_mem (List.mem_of_getElem? here)

theorem Recalls.registryStep {manager : EngineManager} (recalls : manager.Recalls)
    {operation : RegistryOperation}
    (terminated : ∀ name ∈ operation.engineName, '\x00' ∉ name.toList) :
    (manager.registryStep operation).Recalls := by
  refine ⟨recalls.orderly.registryStep operation, fun name member => ?_, ?_⟩
  · obtain same | ⟨index, erased⟩ | ⟨added, -, registered, last⟩ :=
      manager.names_registryStep operation
    · exact recalls.terminated name (same ▸ member)
    · exact recalls.terminated name (List.mem_of_mem_eraseIdx (erased ▸ member))
    · rw [last, List.mem_append, List.mem_singleton] at member
      obtain old | rfl := member
      · exact recalls.terminated name old
      · exact terminated name registered
  · obtain same | ⟨name, active, committed⟩ := manager.registryStep_recentPair operation
    · exact same ▸ recalls.pair
    · rw [committed]
      exact updateRecentPair_sound recalls.pair
        (recalls.terminated name (activeName_mem_names active))

end EngineManager

/-- The engine manager of the daemon, unless none runs, and the state file: the entries which were
written into it, in the order of their lines. -/
structure Recall (Float : Type) where
  manager : Option EngineManager
  file : Option (Entries Float)

/-- The daemon starts, whether it can read the file or not, or its manager does something.  A pair
which it saves is written, or writing fails; the two entries come in one order or in the other. -/
inductive RecallEvent where
  | start (readable : Bool)
  | registry (operation : EngineManager.RegistryOperation) (written reversed : Bool)

/-- The names of engines are C strings. -/
def RecallEvent.WellFormed : RecallEvent → Prop
  | start _ => True
  | registry operation _ _ => ∀ name ∈ operation.engineName, '\x00' ∉ name.toList

namespace Recall

variable {Float : Type}

/-- Before the daemon was started for the first time. -/
def empty : Recall Float := ⟨none, none⟩

section Step

variable (toml : Str → Option (TomlValue Float)) (parseF64 : Str → Option Float)
  (floatText : Float → Str)

/-- A panic while the file is read ends the daemon. -/
def start (state : Recall Float) (readable : Bool) : Recall Float :=
  let file := if readable then state.file.map (configToStringInternal floatText) else none
  match loadRecentState toml parseF64 file with
  | .ok pair => { state with manager := some (.new pair.1 pair.2) }
  | .error _ => { state with manager := none }

def registry (state : Recall Float) (operation : EngineManager.RegistryOperation)
    (written reversed : Bool) : Recall Float :=
  match state.manager with
  | none => state
  | some manager =>
      let after := manager.registryStep operation
      let entries := recentEntries after.recentPair
      { manager := some after
        file :=
          if manager.savesPair operation && written then
            some (if reversed then entries.reverse else entries)
          else state.file }

def step (state : Recall Float) : RecallEvent → Recall Float
  | .start readable => state.start toml parseF64 floatText readable
  | .registry operation written reversed => state.registry operation written reversed

/-- A file which the daemon reads at its start is read as TOML says. -/
def ReadsFile (state : Recall Float) : RecallEvent → Prop
  | .start true => ∀ order ∈ state.file, ReadsToml toml (document floatText order)
  | _ => True

end Step

/-- What holds in every run: the pair of the manager, and that in the file, is one of two names. -/
structure Sound (state : Recall Float) : Prop where
  manager : ∀ manager ∈ state.manager, manager.Recalls
  file : ∀ order ∈ state.file, ∃ pair : RecentPair, pair.Sound ∧ order.Perm (recentEntries pair)

theorem empty_sound : (empty : Recall Float).Sound := ⟨nofun, nofun⟩

section Step

variable {toml : Str → Option (TomlValue Float)} {parseF64 : Str → Option Float}
  {floatText : Float → Str} {state : Recall Float}

/-- A start ends with a manager, and with a pair of two names. -/
theorem Sound.start (sound : state.Sound) {readable : Bool}
    (reads : state.ReadsFile toml floatText (.start readable)) :
    ∃ pair : RecentPair, pair.Sound ∧ state.start toml parseF64 floatText readable =
      { state with manager := some (.new pair.1 pair.2) } := by
  have absent : loadRecentState toml parseF64 none = .ok (none, none) := rfl
  cases readable with
  | false => exact ⟨(none, none), RecentPair.sound_empty, by simp [Recall.start, absent]⟩
  | true =>
      cases written : state.file with
      | none =>
          exact ⟨(none, none), RecentPair.sound_empty, by simp [Recall.start, written, absent]⟩
      | some order =>
          obtain ⟨saved, saved_sound, same⟩ := sound.file order written
          obtain ⟨pair, pair_sound, loaded⟩ : ∃ pair : RecentPair, pair.Sound ∧
              loadRecentState toml parseF64 (some (configToStringInternal floatText order)) =
                .ok pair := sound_of_saved saved_sound same (reads order written)
          exact ⟨pair, pair_sound, by simp [Recall.start, written, loaded]⟩

theorem Sound.registry (sound : state.Sound) {operation : EngineManager.RegistryOperation}
    (terminated : ∀ name ∈ operation.engineName, '\x00' ∉ name.toList) (written reversed : Bool) :
    (state.registry operation written reversed).Sound := by
  cases running : state.manager with
  | none => simpa [Recall.registry, running] using sound
  | some manager =>
      have recalls := (sound.manager manager running).registryStep terminated
      rw [Recall.registry, running]
      refine ⟨fun after member => ?_, fun order member => ?_⟩
      · obtain rfl := Option.some.inj member
        exact recalls
      · dsimp only at member
        split at member
        · obtain rfl := Option.some.inj member
          refine ⟨_, recalls.pair, ?_⟩
          split
          · exact List.reverse_perm _
          · exact .refl _
        · exact sound.file order member

theorem Sound.step (sound : state.Sound) {event : RecallEvent} (wellFormed : event.WellFormed)
    (reads : state.ReadsFile toml floatText event) :
    (state.step toml parseF64 floatText event).Sound := by
  cases event with
  | start readable =>
      obtain ⟨pair, pair_sound, started⟩ := sound.start reads
      rw [Recall.step, started]
      refine ⟨fun manager member => ?_, sound.file⟩
      obtain rfl := Option.some.inj member
      exact EngineManager.new_recalls pair_sound
  | registry operation written reversed => exact sound.registry wellFormed written reversed

end Step

end Recall

/-! ## Going back and forth -/

namespace EngineManager

/-- The two engines are the recent pair, in one order or the other. -/
def IsPair (manager : EngineManager) (current partner : String) : Prop :=
  manager.recentPair = (some current, some partner) ∨
    manager.recentPair = (some partner, some current)

variable {manager : EngineManager} {current partner : String}

theorem IsPair.symm (pair : manager.IsPair current partner) : manager.IsPair partner current :=
  Or.symm pair

theorem IsPair.ne (pair : manager.IsPair current partner)
    (sound : RecentPair.Sound manager.recentPair) : current ≠ partner := by
  rintro rfl
  have both : manager.recentPair = (some current, some current) := pair.elim id id
  exact sound.distinct current (congrArg Prod.fst both) (congrArg Prod.snd both)

/-- Each engine of the pair has the other one for its partner. -/
theorem IsPair.recentPartner (pair : manager.IsPair current partner) (apart : current ≠ partner)
    (keyboard : manager.nameIsKeyboard partner = true) :
    manager.recentPartner current = some partner := by
  rw [EngineManager.recentPartner]
  obtain same | same := pair
  · obtain ⟨primary, secondary⟩ := Prod.mk.inj same
    rw [primary, secondary, if_pos rfl, Option.filter_some, if_pos keyboard]
  · obtain ⟨primary, secondary⟩ := Prod.mk.inj same
    have other : some partner ≠ some current := fun equal => apart (Option.some.inj equal).symm
    rw [primary, secondary, if_neg other, if_pos rfl, Option.filter_some, if_pos keyboard]

theorem notifyCommit_entries (manager : EngineManager) :
    manager.notifyCommit.entries = manager.entries := by
  unfold notifyCommit updateRecentPair
  repeat' split
  all_goals rfl

theorem notifyCommit_active (manager : EngineManager) :
    manager.notifyCommit.active = manager.active := by
  unfold notifyCommit updateRecentPair
  repeat' split
  all_goals rfl

theorem notifyCommit_activeName (manager : EngineManager) :
    manager.notifyCommit.activeName = manager.activeName := by
  rw [activeName, activeName, notifyCommit_entries, notifyCommit_active]

/-- A commit of an engine of the pair puts it first. -/
theorem IsPair.notifyCommit (pair : manager.IsPair current partner) (apart : current ≠ partner)
    (active : manager.activeName = some current) : manager.notifyCommit.IsPair current partner := by
  rw [EngineManager.notifyCommit, active]
  change (manager.updateRecentPair current).IsPair current partner
  unfold updateRecentPair
  split
  · exact pair
  next changed =>
    obtain ⟨-, other⟩ := not_or.mp changed
    obtain same | same := pair
    · exact absurd (congrArg Prod.fst same) other
    · obtain ⟨primary, -⟩ := Prod.mk.inj same
      have differs : (some partner).filter (· ≠ current) = some partner := by
        rw [Option.filter_some, if_pos (by simpa using apart.symm)]
      refine .inl (Prod.ext rfl ?_)
      change ((manager.recentPrimary.filter (· ≠ current)).or _) = some partner
      rw [primary, differs]
      rfl

/-- After a stable while the partner is picked. -/
theorem pick_recent (active : manager.activeName = some current)
    (recent : manager.recentPartner current = some partner) (order : List String)
    (forward : Bool) : manager.pick order forward true = some partner := by
  obtain ⟨index, entry, -, here, -⟩ := activeName_eq_some_iff.mp active
  have some_entry : ¬ manager.entries.isEmpty = true := by
    rw [List.isEmpty_iff]
    exact List.ne_nil_of_mem (List.mem_of_getElem? here)
  rw [pick, if_neg some_entry, resolveSwitch, active, Option.bind_some, if_pos rfl, recent]

end EngineManager

namespace ClockedManager

open EngineManager

variable {setting : Setting} {clocked : ClockedManager} {current partner : String}

/-- So many commits of the active engine. -/
def commits (clocked : ClockedManager) (count : Nat) : ClockedManager :=
  ⟨EngineManager.notifyCommit^[count] clocked.manager, clocked.lastSwitch⟩

/-- The engine is active, and it and its partner are the recent pair: keyboards which activate. -/
structure Paired (setting : Setting) (clocked : ClockedManager) (current partner : String) :
    Prop where
  pair : clocked.manager.IsPair current partner
  active : clocked.manager.activeName = some current
  keyboards : ∀ name ∈ [current, partner], name ∈ clocked.manager.keyboards
  activate : ∀ name ∈ [current, partner], clocked.manager.Activates setting.engines name

theorem Paired.commits (paired : clocked.Paired setting current partner)
    (apart : current ≠ partner) (count : Nat) :
    (clocked.commits count).Paired setting current partner := by
  induction count with
  | zero => exact paired
  | succ count induction =>
      obtain ⟨pair, active, keyboards, activate⟩ := induction
      have later : (clocked.commits (count + 1)).manager =
          (clocked.commits count).manager.notifyCommit := Function.iterate_succ_apply' ..
      refine ⟨later ▸ pair.notifyCommit apart active, ?_, fun name member => ?_,
        fun name member => ?_⟩
      · rw [later, notifyCommit_activeName, active]
      · rw [later, EngineManager.keyboards, notifyCommit_entries]
        exact keyboards name member
      · rw [later, Activates, notifyCommit_entries]
        exact activate name member

/-- A slow call of `next` goes over to the partner. -/
theorem Paired.step_next (paired : clocked.Paired setting current partner)
    (orderly : clocked.manager.Orderly) (apart : current ≠ partner) {now : Nat}
    (slow : setting.threshold < clocked.elapsed now) :
    (clocked.step setting (next now)).Paired setting partner current := by
  obtain ⟨pair, active, keyboards, activate⟩ := paired
  have there : partner ∈ [current, partner] := List.mem_cons_of_mem _ List.mem_cons_self
  have keyboard : clocked.manager.nameIsKeyboard partner = true :=
    (orderly.intact.nameIsKeyboard_iff partner).mpr (keyboards partner there)
  have stable : decide (setting.threshold < clocked.elapsed (next now).now) = true :=
    decide_eq_true slow
  have picked : clocked.target setting (next now) = some partner := by
    rw [target, stable]
    exact pick_recent active (pair.recentPartner apart keyboard) setting.order true
  obtain ⟨switched, -, -, kept⟩ := step_done orderly picked (activate partner there)
  refine ⟨?_, switched, fun name member => ?_, fun name member => ?_⟩
  · rw [IsPair, step_recentPair]
    exact pair.symm
  · rw [step_inPlace.keyboards]
    exact keyboards name (List.mem_pair.mpr (List.mem_pair.mp member).symm)
  · exact kept name (activate name (List.mem_pair.mpr (List.mem_pair.mp member).symm))

/-- A slow call of `next` activates the partner, and after any number of commits another one
activates the engine from which the first one left. -/
def Toggles (setting : Setting) (clocked : ClockedManager) (current partner : String) : Prop :=
  ∀ now, setting.threshold < clocked.elapsed now →
    (clocked.step setting (next now)).manager.activeName = some partner ∧
      ∀ count later, setting.threshold < (clocked.step setting (next now)).elapsed later →
        ((((clocked.step setting (next now)).commits count).step setting
          (next later)).manager.activeName = some current)

theorem commits_orderly (orderly : clocked.manager.Orderly) (count : Nat) :
    (clocked.commits count).manager.Orderly := by
  induction count with
  | zero => exact orderly
  | succ count induction =>
      have later : (clocked.commits (count + 1)).manager =
          (clocked.commits count).manager.notifyCommit := Function.iterate_succ_apply' ..
      rw [later]
      exact induction.registryStep (.operation .notifyCommit)

theorem Paired.toggles (paired : clocked.Paired setting current partner)
    (recalls : clocked.manager.Recalls) : clocked.Toggles setting current partner := by
  have apart := paired.pair.ne recalls.pair
  intro now slow
  have there := paired.step_next recalls.orderly apart slow
  refine ⟨there.active, fun count later slow_again => ?_⟩
  have committed := there.commits apart.symm count
  have switched : (clocked.step setting (next now)).manager.Orderly := step_orderly recalls.orderly
  have orderly := commits_orderly switched count
  exact (committed.step_next orderly apart.symm slow_again).active

end ClockedManager

/-- In every run of starts, switches, commits and saves of the pair, the primary engine is not the
secondary one, and a slow call of `next` goes back and forth between them. -/
theorem recent_pair_toggles {Float : Type} (toml : Str → Option (TomlValue Float))
    (parseF64 : Str → Option Float) (floatText : Float → Str) {events : List RecallEvent}
    (wellFormed : ∀ event ∈ events, event.WellFormed)
    (reads : Machine.EachStep (Recall.step toml parseF64 floatText)
      (Recall.ReadsFile toml floatText) Recall.empty events) :
    ∀ manager ∈ (Machine.run (Recall.step toml parseF64 floatText) Recall.empty events).manager,
      (∀ name, manager.recentPrimary = some name → manager.recentSecondary ≠ some name) ∧
        ∀ (setting : Setting) (lastSwitch : Option Nat) (current partner : String),
          ClockedManager.Paired setting ⟨manager, lastSwitch⟩ current partner →
            ClockedManager.Toggles setting ⟨manager, lastSwitch⟩ current partner := by
  have each : Machine.EachStep (Recall.step toml parseF64 floatText)
      (fun state event => event.WellFormed ∧ state.ReadsFile toml floatText event)
      Recall.empty events := fun front event front_prefix =>
    ⟨wellFormed event (List.IsPrefix.mem (by simp) front_prefix), reads front event front_prefix⟩
  have sound : (Machine.run (Recall.step toml parseF64 floatText) Recall.empty events).Sound :=
    (Machine.Always.of_invariant Recall.Sound
      (fun _ _ sound good => sound.step good.1 good.2) Recall.empty_sound each).final
  intro manager running
  have recalls := sound.manager manager running
  exact ⟨recalls.pair.distinct, fun setting lastSwitch current partner paired =>
    paired.toggles recalls⟩

/-! ## A run with a restart -/

section Example

/-- The code of a keyboard which can be made and initialized. -/
def keyboardCode : Calls where
  made := some { unified := false, userData := true, keyboard := true, voice := false }
  init := .ok
  restored := .ok

def registerKeyboard (name : String) : RecallEvent :=
  .registry (.operation (.register (some { name := name, type := .keyboard }))) false false

def switchTo (name : String) : RecallEvent :=
  .registry (.operation (.setActive name keyboardCode)) false false

/-- Both engines commit, and the pair is saved twice. -/
def firstRun : List RecallEvent :=
  [.start true, registerKeyboard "basic", registerKeyboard "pinyin", switchTo "basic",
    .registry (.operation .notifyCommit) true false, switchTo "pinyin",
    .registry (.operation .notifyCommit) true true]

def secondRun : List RecallEvent :=
  [registerKeyboard "basic", registerKeyboard "pinyin", switchTo "pinyin"]

def pinyinAndBasic : RecentPair := (some "pinyin", some "basic")

theorem pinyinAndBasic_sound : pinyinAndBasic.Sound where
  distinct name primary secondary := by
    obtain rfl := Option.some.inj primary
    exact absurd secondary (by decide)
  primary name member := by
    obtain rfl := Option.some.inj member
    exact ⟨by decide, by decide⟩
  secondary name member := by
    obtain rfl := Option.some.inj member
    exact ⟨by decide, by decide⟩

/-- The file of the first run, as it is read. -/
def recentToml (_ : Str) : Option (TomlValue Unit) :=
  some (.table [("recent".toList, .table
    [("primary".toList, .string "pinyin".toList), ("secondary".toList, .string "basic".toList)])])

/-- The state in which the daemon is started again. -/
def firstState : Recall Unit :=
  Machine.run (Recall.step recentToml noF64 noFloat) Recall.empty firstRun

theorem file_firstState : firstState.file = some (recentEntries pinyinAndBasic).reverse := rfl

theorem reads_firstState :
    ReadsToml recentToml (document noFloat (recentEntries pinyinAndBasic).reverse) := by
  have same : (recentEntries pinyinAndBasic : Entries Unit).reverse.Perm _ := List.reverse_perm _
  have plain := (plain_recentEntries pinyinAndBasic_sound).of_perm same.symm
  have apart := (keysApart_recentEntries pinyinAndBasic_sound).of_perm same.symm
  refine readsToml_of_leaves plain apart (by decide) rfl (.of_eq ?_)
  have written : (recentEntries pinyinAndBasic : Entries Unit).reverse.map tomlEntry =
      [(["recent".toList, "primary".toList], .string "pinyin".toList),
        (["recent".toList, "secondary".toList], .string "basic".toList)] := rfl
  rw [written]
  simp [tomlLeaves]

theorem firstState_start : firstState.start recentToml noF64 noFloat true =
    { firstState with manager := some (.new (some "pinyin") (some "basic")) } := by
  have loaded : loadRecentState recentToml noF64 (some (configToStringInternal noFloat
      (recentEntries pinyinAndBasic).reverse)) = .ok pinyinAndBasic :=
    (loadRecentState_saved pinyinAndBasic_sound (List.reverse_perm _) reads_firstState).trans
      (congrArg Except.ok (if_pos (by decide)))
  rw [Recall.start, file_firstState]
  simp only [if_true, Option.map_some, loaded]
  rfl

/-- The engine which the first manager saved is the partner in the second one. -/
theorem restarted_toggles : ∃ manager,
    (Machine.run (Recall.step recentToml noF64 noFloat) Recall.empty
        (firstRun ++ .start true :: secondRun)).manager = some manager ∧
      ClockedManager.Toggles ⟨1000, [], fun _ => keyboardCode⟩ ⟨manager, none⟩ "pinyin"
        "basic" := by
  have running : (Machine.run (Recall.step recentToml noF64 noFloat) Recall.empty
      (firstRun ++ .start true :: secondRun)).manager =
        some (Machine.run EngineManager.registryStep (.new (some "pinyin") (some "basic"))
          [.operation (.register (some { name := "basic", type := .keyboard })),
            .operation (.register (some { name := "pinyin", type := .keyboard })),
            .operation (.setActive "pinyin" keyboardCode)]) := by
    rw [Machine.run_append, Machine.run_cons]
    change (Machine.run _ (firstState.start recentToml noF64 noFloat true) _).manager = _
    rw [firstState_start]
    rfl
  have wellFormed : ∀ event ∈ firstRun ++ .start true :: secondRun, event.WellFormed := by
    simp [firstRun, secondRun, registerKeyboard, switchTo, RecallEvent.WellFormed,
      EngineManager.RegistryOperation.engineName]
  have reads : Machine.EachStep (Recall.step recentToml noF64 noFloat)
      (Recall.ReadsFile recentToml noFloat) Recall.empty
      (firstRun ++ .start true :: secondRun) := by
    simp only [firstRun, secondRun, List.cons_append, List.nil_append, Machine.eachStep_cons,
      Machine.eachStep_nil, and_true]
    refine ⟨fun order there => ?_, trivial, trivial, trivial, trivial, trivial, trivial,
      fun order there => ?_, trivial, trivial, trivial⟩
    · cases there
    · obtain rfl := Option.some.inj (file_firstState.symm.trans there)
      exact reads_firstState
  refine ⟨_, running, ((recent_pair_toggles recentToml noF64 noFloat wellFormed reads) _ running).2
    _ none "pinyin" "basic" ⟨.inl rfl, by decide, ?_, ?_⟩⟩
  · rw [List.forall_mem_cons, List.forall_mem_singleton]
    exact ⟨by decide, by decide⟩
  · rw [List.forall_mem_cons, List.forall_mem_singleton]
    exact ⟨⟨_, List.mem_cons_of_mem _ List.mem_cons_self, rfl, _, rfl, .inl rfl, rfl, .inl rfl⟩,
      ⟨_, List.mem_cons_self, rfl, _, rfl, .inr rfl, rfl, .inr rfl⟩⟩

end Example

end Core

end Typio
