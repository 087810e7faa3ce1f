import Mathlib.Logic.Function.Basic
import Mathlib.Algebra.Group.Nat.Defs
import Typio.Machine

/-!
# The watch over the configuration

The configuration directory and its directory `engines` are watched with inotify; what the watches
notice arms a timer, and when it expires the configuration is read again.  The directories belong
to other programs, which may change, remove and make them at any time.
-/

namespace Typio

inductive WatchedDir
  | config
  | engines
  deriving DecidableEq, Repr

/-- What inotify may tell of a directory. -/
inductive InotifyMask
  | closeWrite
  | movedTo
  | create
  | delete
  | deleteSelf
  | moveSelf
  | attrib
  | movedFrom
  | modify
  deriving DecidableEq, Repr

namespace InotifyMask

/-- The mask given to `inotify_add_watch`, which is also the one that asks for a reload. -/
def watched : InotifyMask → Bool
  | closeWrite | movedTo | create | delete | deleteSelf | moveSelf | attrib => true
  | movedFrom | modify => false

/-- `should_rearm`. -/
def rearms : InotifyMask → Bool
  | deleteSelf | moveSelf => true
  | _ => false

end InotifyMask

/-- The directories which are at the two paths, numbered in the order in which they were made, the
versions of what lies at the paths, and the part of the frontend which watches them: the
directories watched, the notices not read yet, the timer and the versions read last. -/
structure ConfigWatch where
  there : WatchedDir → Option Nat
  made : Nat
  disk : WatchedDir → Nat
  watch : WatchedDir → Option Nat
  queue : List InotifyMask
  enginesFits : Bool
  timerFd : Bool
  timer : Option Nat
  reloadPending : Bool
  refreshed : WatchedDir → Nat
  now : Nat

namespace ConfigWatch

/-- `TYPIO_CONFIG_RELOAD_DEBOUNCE_MS`. -/
def reloadDebounceMs : Nat := 100

variable (state : ConfigWatch)

/-! ## The directories -/

/-- The directory at the path is watched. -/
def Live (dir : WatchedDir) : Prop := state.there dir ≠ none ∧ state.watch dir = state.there dir

instance (dir : WatchedDir) : Decidable (state.Live dir) :=
  inferInstanceAs (Decidable (_ ∧ _))

/-- A watch tells only what is in its mask. -/
def notice (dir : WatchedDir) (mask : InotifyMask) : ConfigWatch :=
  if state.Live dir ∧ mask.watched = true then { state with queue := state.queue ++ [mask] }
  else state

@[simps] def touch (dir : WatchedDir) : ConfigWatch :=
  { state with disk := Function.update state.disk dir (state.disk dir + 1) }

@[simps] def place (dir : WatchedDir) (found : Option Nat) : ConfigWatch :=
  { state with there := Function.update state.there dir found }

/-- Something in the directory changes. -/
def change (dir : WatchedDir) (mask : InotifyMask) : ConfigWatch :=
  if state.there dir = none then state else (state.notice dir mask).touch dir

/-- `engines` goes away. -/
def removeEngines (moved : Bool) : ConfigWatch :=
  if state.there .engines = none then state
  else
    (((state.notice .engines (if moved then .moveSelf else .deleteSelf)).notice .config
      (if moved then .movedFrom else .delete)).touch .engines).place .engines none

/-- The configuration directory goes away, with all that is in it; of what was in it a move tells
nothing. -/
def removeConfig (moved : Bool) : ConfigWatch :=
  if state.there .config = none then state
  else
    let emptied := if moved then (state.touch .engines).place .engines none
      else state.removeEngines false
    ((emptied.notice .config (if moved then .moveSelf else .deleteSelf)).touch .config).place
      .config none

def remove (dir : WatchedDir) (moved : Bool) : ConfigWatch :=
  match dir with
  | .config => state.removeConfig moved
  | .engines => state.removeEngines moved

/-- A new directory is at the path; `engines` lies in the configuration directory. -/
def make (dir : WatchedDir) : ConfigWatch :=
  if state.there dir ≠ none ∨ state.there .config = none ∧ dir = .engines then state
  else
    let fresh := { (state.touch dir).place dir (some state.made) with made := state.made + 1 }
    if dir = .engines then fresh.notice .config .create else fresh

/-! ## The frontend -/

/-- The watches which `inotify_add_watch` adds. -/
def added (dir : WatchedDir) : Option Nat :=
  match dir with
  | .config => state.there .config
  | .engines => if state.enginesFits then state.there .engines else none

/-- `runtime_config_rearm_watch`. -/
def rearmWatch : ConfigWatch := { state with watch := state.added }

/-- `runtime_config_refresh`, which reads what lies at the paths now. -/
def refresh : ConfigWatch := { state with refreshed := state.disk }

def setPending (pending : Bool) : ConfigWatch := { state with reloadPending := pending }

/-- `runtime_config_schedule_reload`; `armed` is whether `timerfd_settime` succeeds. -/
def scheduleReload (armed : Bool) : ConfigWatch :=
  if state.timerFd ∧ armed then
    { state.setPending true with timer := some (state.now + reloadDebounceMs) }
  else state.refresh.setPending false

/-- `typio_wl_frontend_handle_config_watch`. -/
def handleConfigWatch (armed : Bool) : ConfigWatch :=
  let drained := { state with queue := [] }
  let rearmed := if state.queue.any InotifyMask.rearms then drained.rearmWatch else drained
  if state.queue.any InotifyMask.watched then rearmed.scheduleReload armed else rearmed

/-- `typio_wl_frontend_dispatch_config_reload`; the read fails until the timer has expired. -/
def dispatchConfigReload : ConfigWatch :=
  match state.timer with
  | none => state
  | some deadline =>
      if state.now < deadline then state
      else
        let read := { state with timer := none }
        if state.reloadPending then (read.setPending false).refresh else read

/-- `frontend_setup_config_watch`, after the configuration was read. -/
def setup (config engines enginesFits timerFd : Bool) : ConfigWatch :=
  let state : ConfigWatch :=
    { there := fun dir => match dir with
        | .config => if config then some 0 else none
        | .engines => if config ∧ engines then some 1 else none
      made := 2
      disk := fun _ => 0
      watch := fun _ => none
      queue := []
      enginesFits := enginesFits
      timerFd := timerFd
      timer := none
      reloadPending := false
      refreshed := fun _ => 0
      now := 0 }
  state.rearmWatch

inductive Event
  | change (dir : WatchedDir) (mask : InotifyMask)
  | remove (dir : WatchedDir) (moved : Bool)
  | make (dir : WatchedDir)
  /-- A watched directory which was moved away changes. -/
  | stray (dir : WatchedDir) (mask : InotifyMask)
  | elapse (ms : Nat)
  | handleConfigWatch (armed : Bool)
  | dispatchConfigReload
  deriving DecidableEq

def step (state : ConfigWatch) : Event → ConfigWatch
  | .change dir mask => state.change dir mask
  | .remove dir moved => state.remove dir moved
  | .make dir => state.make dir
  | .stray dir mask =>
      if state.watch dir ≠ none ∧ state.watch dir ≠ state.there dir ∧ mask.watched = true then
        { state with queue := state.queue ++ [mask] }
      else state
  | .elapse ms => { state with now := state.now + ms }
  | .handleConfigWatch armed => state.handleConfigWatch armed
  | .dispatchConfigReload => state.dispatchConfigReload

/-- A reload is on its way: a notice is to be read, or the timer is armed for it. -/
def OnItsWay : Prop :=
  (∃ mask ∈ state.queue, mask.watched = true) ∨ state.reloadPending = true ∧ state.timer.isSome

/-- The path holds what was read last, or a reload is on its way. -/
def Attended (dir : WatchedDir) : Prop := state.refreshed dir = state.disk dir ∨ state.OnItsWay

/-- A change is one which the watches tell of, and when the watches are added again the
configuration directory is there. -/
def Noticed (state : ConfigWatch) : Event → Prop
  | .change _ mask => mask.watched = true
  | .handleConfigWatch _ =>
      state.queue.any InotifyMask.rearms = true → state.there .config ≠ none
  | _ => True

/-! ## What a step keeps -/

theorem watched_of_rearms {mask : InotifyMask} (rearms : mask.rearms = true) :
    mask.watched = true := by
  cases mask <;> first | rfl | cases rearms

theorem notice_eq (dir : WatchedDir) (mask : InotifyMask) : ∃ told : List InotifyMask,
    state.notice dir mask = { state with queue := state.queue ++ told } ∧
      (state.Live dir → mask.watched = true → mask ∈ told) := by
  rw [notice]
  split
  next => exact ⟨[mask], rfl, fun _ _ => List.mem_singleton_self mask⟩
  next quiet => exact ⟨[], by simp, fun live watched => absurd ⟨live, watched⟩ quiet⟩

/-- Notices do not get lost. -/
theorem OnItsWay.append {state : ConfigWatch} (way : state.OnItsWay) (told : List InotifyMask) :
    ({ state with queue := state.queue ++ told } : ConfigWatch).OnItsWay := by
  rcases way with ⟨mask, member, watched⟩ | armed
  · exact .inl ⟨mask, List.mem_append_left _ member, watched⟩
  · exact .inr armed

/-- The state of a watch which loses nothing. -/
structure Watched : Prop where
  fresh : ∀ dir, ∀ index ∈ state.watch dir, index < state.made
  placed : ∀ dir, ∀ index ∈ state.there dir, index < state.made
  pending : state.reloadPending = true → state.timer.isSome
  config : state.Attended .config
  live : state.Live .config ∨ ∃ mask ∈ state.queue, mask.rearms = true
  engines : state.Live .engines → state.Attended .engines

namespace Watched

variable {state}

theorem append (watched : state.Watched) (told : List InotifyMask) :
    ({ state with queue := state.queue ++ told } : ConfigWatch).Watched where
  fresh := watched.fresh
  placed := watched.placed
  pending := watched.pending
  config := watched.config.imp_right (·.append told)
  live := watched.live.imp_right fun ⟨mask, member, rearms⟩ =>
    ⟨mask, List.mem_append_left _ member, rearms⟩
  engines live := (watched.engines live).imp_right (·.append told)

theorem notice (watched : state.Watched) (dir : WatchedDir) (mask : InotifyMask) :
    (state.notice dir mask).Watched := by
  obtain ⟨told, same, -⟩ := state.notice_eq dir mask
  rw [same]
  exact watched.append told

theorem attended_touch {dir other : WatchedDir} (attended : state.Attended dir)
    (differs : dir ≠ other) : (state.touch other).Attended dir := by
  rcases attended with same | way
  · left
    rw [touch_refreshed, touch_disk, Function.update_of_ne differs]
    exact same
  · exact .inr way

/-- Where the configuration directory was not watched, the watches are about to be added again. -/
theorem onItsWay_of_gone (watched : state.Watched) (gone : ¬state.Live .config) :
    state.OnItsWay := by
  obtain ⟨mask, member, rearms⟩ := watched.live.resolve_left gone
  exact .inl ⟨mask, member, watched_of_rearms rearms⟩

theorem change (watched : state.Watched) (dir : WatchedDir) {mask : InotifyMask}
    (tells : mask.watched = true) : (state.change dir mask).Watched := by
  rw [ConfigWatch.change]
  split
  next => exact watched
  next =>
    obtain ⟨told, same, when_live⟩ := state.notice_eq dir mask
    have grown : (state.notice dir mask).Watched := watched.notice dir mask
    have way : state.Live dir → (state.notice dir mask).OnItsWay := by
      intro live
      rw [same]
      exact .inl ⟨mask, List.mem_append_right _ (when_live live tells), tells⟩
    have where_same : (state.notice dir mask).there = state.there ∧
        (state.notice dir mask).watch = state.watch := by
      rw [same]
      exact ⟨rfl, rfl⟩
    refine ⟨grown.fresh, grown.placed, grown.pending, ?_, grown.live, ?_⟩
    · cases dir with
      | engines => exact attended_touch grown.config (by decide)
      | config =>
          right
          by_cases live : state.Live .config
          · exact way live
          · apply grown.onItsWay_of_gone
            rw [Live, where_same.1, where_same.2]
            exact live
    · intro live
      cases dir with
      | config => exact attended_touch (grown.engines live) (by decide)
      | engines =>
          right
          apply way
          rw [Live, ← where_same.1, ← where_same.2]
          exact live

theorem placed_place (watched : state.Watched) (dir : WatchedDir) {found : Option Nat}
    (bounded : ∀ index ∈ found, index < state.made) :
    ∀ other, ∀ index ∈ (state.place dir found).there other, index < state.made := by
  intro other index member
  rcases eq_or_ne other dir with rfl | differs
  · rw [place_there, Function.update_self] at member
    exact bounded index member
  · rw [place_there, Function.update_of_ne differs] at member
    exact watched.placed other index member

/-- Another directory is at the path of `engines`, or none. -/
theorem place_engines (watched : state.Watched) {found : Option Nat}
    (bounded : ∀ index ∈ found, index < state.made)
    (other : found ≠ none → state.watch .engines ≠ found) :
    ((state.touch .engines).place .engines found).Watched := by
  have config : (state.touch .engines).Attended .config := attended_touch watched.config (by decide)
  refine ⟨watched.fresh, watched.placed_place .engines bounded, watched.pending, config,
    watched.live, ?_⟩
  rintro ⟨there, live⟩
  exact absurd live (other there)

/-- Another directory is at the path of the configuration, or none; the watch has told so. -/
theorem place_config (watched : state.Watched) {found : Option Nat}
    (bounded : ∀ index ∈ found, index < state.made)
    (told : ∃ mask ∈ state.queue, mask.rearms = true) :
    ((state.touch .config).place .config found).Watched := by
  have engines : state.Live .engines → (state.touch .config).Attended .engines :=
    fun live => attended_touch (watched.engines live) (by decide)
  obtain ⟨mask, member, rearms⟩ := told
  exact ⟨watched.fresh, watched.placed_place .config bounded, watched.pending,
    .inr (.inl ⟨mask, member, watched_of_rearms rearms⟩), .inr ⟨mask, member, rearms⟩, engines⟩

theorem removeEngines (watched : state.Watched) (moved : Bool) :
    (state.removeEngines moved).Watched := by
  rw [ConfigWatch.removeEngines]
  split
  · exact watched
  · exact ((watched.notice _ _).notice _ _).place_engines nofun (absurd rfl)

theorem removeConfig (watched : state.Watched) (moved : Bool) :
    (state.removeConfig moved).Watched := by
  rw [ConfigWatch.removeConfig]
  split
  next => exact watched
  next there =>
    have emptied : (if moved then (state.touch .engines).place .engines none
        else state.removeEngines false).Watched := by
      split
      · exact watched.place_engines nofun (absurd rfl)
      · exact watched.removeEngines false
    refine (emptied.notice _ _).place_config (by simp) ?_
    obtain ⟨told, same, when_live⟩ := notice_eq
      (if moved then (state.touch .engines).place .engines none else state.removeEngines false)
      .config (if moved then .moveSelf else .deleteSelf)
    rw [same]
    rcases emptied.live with live | ⟨mask, member, rearms⟩
    · refine ⟨_, List.mem_append_right _ (when_live live ?_), ?_⟩ <;> cases moved <;> rfl
    · exact ⟨mask, List.mem_append_left _ member, rearms⟩

theorem make (watched : state.Watched) (dir : WatchedDir) : (state.make dir).Watched := by
  rw [ConfigWatch.make]
  split
  next => exact watched
  next absent =>
    rw [not_or, not_not] at absent
    have raised : ({ state with made := state.made + 1 } : ConfigWatch).Watched :=
      ⟨fun dir index member => Nat.lt_succ_of_lt (watched.fresh dir index member),
        fun dir index member => Nat.lt_succ_of_lt (watched.placed dir index member),
        watched.pending, watched.config, watched.live, watched.engines⟩
    have bounded : ∀ index ∈ some state.made, index < state.made + 1 := by
      rintro index ⟨⟩
      exact Nat.lt_succ_self _
    cases dir with
    | engines =>
        have placed : (({ state with made := state.made + 1 } : ConfigWatch).touch .engines
            |>.place .engines (some state.made)).Watched := by
          apply raised.place_engines bounded
          intro _ same
          exact absurd (watched.fresh .engines state.made same) (Nat.lt_irrefl _)
        exact placed.notice .config .create
    | config =>
        have gone : ¬state.Live .config := fun live => live.1 absent.1
        exact raised.place_config bounded (watched.live.resolve_left gone)

/-- The paths hold what was read last, or the timer is armed. -/
theorem of_read (fresh : ∀ dir, ∀ index ∈ state.watch dir, index < state.made)
    (placed : ∀ dir, ∀ index ∈ state.there dir, index < state.made) (live : state.Live .config)
    (pending : state.reloadPending = true → state.timer.isSome)
    (read : ∀ dir, state.Attended dir) : state.Watched :=
  ⟨fresh, placed, pending, read .config, .inl live, fun _ => read .engines⟩

theorem scheduleReload (fresh : ∀ dir, ∀ index ∈ state.watch dir, index < state.made)
    (placed : ∀ dir, ∀ index ∈ state.there dir, index < state.made) (live : state.Live .config)
    (armed : Bool) : (state.scheduleReload armed).Watched := by
  rw [ConfigWatch.scheduleReload]
  split
  · exact of_read fresh placed live (fun _ => rfl) (fun _ => .inr (.inr ⟨rfl, rfl⟩))
  · exact of_read fresh placed live nofun (fun _ => .inl rfl)

theorem added_lt (watched : state.Watched) (dir : WatchedDir) :
    ∀ index ∈ state.added dir, index < state.made := by
  intro index member
  cases dir with
  | config => exact watched.placed .config index member
  | engines =>
      rw [added] at member
      split at member
      · exact watched.placed .engines index member
      · cases member

theorem handleConfigWatch (watched : state.Watched) (armed : Bool)
    (found : state.queue.any InotifyMask.rearms = true → state.there .config ≠ none) :
    (state.handleConfigWatch armed).Watched := by
  rw [ConfigWatch.handleConfigWatch]
  by_cases rearms : state.queue.any InotifyMask.rearms = true
  · have reloads : state.queue.any InotifyMask.watched = true := by
      obtain ⟨mask, member, rearms⟩ := List.any_eq_true.mp rearms
      exact List.any_eq_true.mpr ⟨mask, member, watched_of_rearms rearms⟩
    rw [if_pos rearms, if_pos reloads]
    apply scheduleReload
    · exact watched.added_lt
    · exact watched.placed
    · exact ⟨found rearms, rfl⟩
  · have live : state.Live .config := by
      rcases watched.live with live | ⟨mask, member, tells⟩
      · exact live
      · exact absurd (List.any_eq_true.mpr ⟨mask, member, tells⟩) rearms
    rw [if_neg rearms]
    split
    next =>
      apply scheduleReload
      · exact watched.fresh
      · exact watched.placed
      · exact live
    next quiet =>
      -- nothing that was read asks for a reload
      have way : state.OnItsWay → ({ state with queue := [] } : ConfigWatch).OnItsWay := by
        rintro (⟨mask, member, tells⟩ | armed)
        · exact absurd (List.any_eq_true.mpr ⟨mask, member, tells⟩) quiet
        · exact .inr armed
      exact ⟨watched.fresh, watched.placed, watched.pending, watched.config.imp_right way,
        .inl live, fun live => (watched.engines live).imp_right way⟩

theorem dispatchConfigReload (watched : state.Watched) :
    state.dispatchConfigReload.Watched := by
  rw [ConfigWatch.dispatchConfigReload]
  split
  next => exact watched
  next deadline armed =>
    split
    next => exact watched
    next =>
      split
      next =>
        exact ⟨watched.fresh, watched.placed, nofun, .inl rfl, watched.live, fun _ => .inl rfl⟩
      next idle =>
        have way : state.OnItsWay → ({ state with timer := none } : ConfigWatch).OnItsWay :=
          fun way => .inl (way.resolve_right fun armed => idle armed.1)
        exact ⟨watched.fresh, watched.placed, fun pending => absurd pending idle,
          watched.config.imp_right way, watched.live,
          fun live => (watched.engines live).imp_right way⟩

theorem step (watched : state.Watched) {event : Event} (noticed : Noticed state event) :
    (ConfigWatch.step state event).Watched := by
  cases event with
  | change dir mask => exact watched.change dir noticed
  | remove dir moved =>
      cases dir with
      | config => exact watched.removeConfig moved
      | engines => exact watched.removeEngines moved
  | make dir => exact watched.make dir
  | stray dir mask =>
      rw [ConfigWatch.step]
      split
      · exact watched.append [mask]
      · exact watched
  | elapse ms =>
      exact ⟨watched.fresh, watched.placed, watched.pending, watched.config, watched.live,
        watched.engines⟩
  | handleConfigWatch armed => exact watched.handleConfigWatch armed noticed
  | dispatchConfigReload => exact watched.dispatchConfigReload

end Watched

theorem setup_watched (engines enginesFits timerFd : Bool) :
    (setup true engines enginesFits timerFd).Watched := by
  refine ⟨?_, ?_, nofun, .inl rfl, .inl ⟨nofun, rfl⟩, fun _ => .inl rfl⟩
  · intro dir index member
    cases dir <;> cases engines <;> cases enginesFits <;> cases member <;>
      simp [setup, rearmWatch]
  · intro dir index member
    cases dir <;> cases engines <;> cases member <;> simp [setup, rearmWatch]

/-! ## Without a directory to watch -/

/-- Nothing is watched and nothing is left to be read. -/
structure Deaf : Prop where
  unwatched : ∀ dir, state.watch dir = none
  empty : state.queue = []

namespace Deaf

variable {state}

theorem notice (deaf : state.Deaf) (dir : WatchedDir) (mask : InotifyMask) :
    state.notice dir mask = state := by
  apply if_neg
  rintro ⟨⟨there, live⟩, -⟩
  exact there (live.symm.trans (deaf.unwatched dir))

/-- Only the timer can still make it read. -/
structure Stays (before after : ConfigWatch) : Prop where
  deaf : after.Deaf
  idle : before.reloadPending = false → after.reloadPending = false ∧
    after.refreshed = before.refreshed

theorem removeEngines (deaf : state.Deaf) (moved : Bool) :
    Stays state (state.removeEngines moved) := by
  rw [ConfigWatch.removeEngines]
  split
  · exact ⟨deaf, fun idle => ⟨idle, rfl⟩⟩
  · rw [deaf.notice, deaf.notice]
    exact ⟨⟨deaf.unwatched, deaf.empty⟩, fun idle => ⟨idle, rfl⟩⟩

theorem removeConfig (deaf : state.Deaf) (moved : Bool) :
    Stays state (state.removeConfig moved) := by
  rw [ConfigWatch.removeConfig]
  split
  next => exact ⟨deaf, fun idle => ⟨idle, rfl⟩⟩
  next =>
    have emptied : Stays state (if moved then (state.touch .engines).place .engines none
        else state.removeEngines false) := by
      split
      · exact ⟨⟨deaf.unwatched, deaf.empty⟩, fun idle => ⟨idle, rfl⟩⟩
      · exact deaf.removeEngines false
    simp only [emptied.deaf.notice]
    exact ⟨⟨emptied.deaf.unwatched, emptied.deaf.empty⟩, emptied.idle⟩

theorem make (deaf : state.Deaf) (dir : WatchedDir) : Stays state (state.make dir) := by
  rw [ConfigWatch.make]
  split
  next => exact ⟨deaf, fun idle => ⟨idle, rfl⟩⟩
  next =>
    have fresh : ({ (state.touch dir).place dir (some state.made) with
        made := state.made + 1 } : ConfigWatch).Deaf := ⟨deaf.unwatched, deaf.empty⟩
    split
    · rw [fresh.notice]
      exact ⟨fresh, fun idle => ⟨idle, rfl⟩⟩
    · exact ⟨fresh, fun idle => ⟨idle, rfl⟩⟩

theorem step (deaf : state.Deaf) (event : Event) :
    Stays state (ConfigWatch.step state event) := by
  cases event with
  | change dir mask =>
      rw [ConfigWatch.step, change]
      split
      · exact ⟨deaf, fun idle => ⟨idle, rfl⟩⟩
      · rw [deaf.notice]
        exact ⟨⟨deaf.unwatched, deaf.empty⟩, fun idle => ⟨idle, rfl⟩⟩
  | remove dir moved =>
      cases dir with
      | config => exact deaf.removeConfig moved
      | engines => exact deaf.removeEngines moved
  | make dir => exact deaf.make dir
  | stray dir mask =>
      rw [ConfigWatch.step, if_neg fun told => told.1 (deaf.unwatched dir)]
      exact ⟨deaf, fun idle => ⟨idle, rfl⟩⟩
  | elapse ms => exact ⟨⟨deaf.unwatched, deaf.empty⟩, fun idle => ⟨idle, rfl⟩⟩
  | handleConfigWatch armed =>
      simp only [ConfigWatch.step, handleConfigWatch, deaf.empty, List.any_nil,
        Bool.false_eq_true, if_false]
      exact ⟨⟨deaf.unwatched, rfl⟩, fun idle => ⟨idle, rfl⟩⟩
  | dispatchConfigReload =>
      rw [ConfigWatch.step, dispatchConfigReload]
      split
      · exact ⟨deaf, fun idle => ⟨idle, rfl⟩⟩
      · split
        · exact ⟨deaf, fun idle => ⟨idle, rfl⟩⟩
        · split
          next pending =>
            refine ⟨⟨deaf.unwatched, deaf.empty⟩, fun idle => ?_⟩
            rw [idle] at pending
            cases pending
          next => exact ⟨⟨deaf.unwatched, deaf.empty⟩, fun idle => ⟨idle, rfl⟩⟩

theorem run (deaf : state.Deaf) (events : List Event) :
    Stays state (Machine.run ConfigWatch.step state events) := by
  induction events generalizing state with
  | nil => exact ⟨deaf, fun idle => ⟨idle, rfl⟩⟩
  | cons event events ih =>
      have first := deaf.step event
      have rest := ih first.deaf
      refine ⟨rest.deaf, fun idle => ?_⟩
      obtain ⟨still, same⟩ := first.idle idle
      obtain ⟨finally_idle, finally_same⟩ := rest.idle still
      exact ⟨finally_idle, finally_same.trans same⟩

end Deaf

/-- `engines` lies in the configuration directory. -/
def Inside : Prop := state.there .config = none → state.there .engines = none

theorem notice_there (dir : WatchedDir) (mask : InotifyMask) :
    (state.notice dir mask).there = state.there := by
  rw [notice]
  split <;> rfl

theorem Inside.of_there {state after : ConfigWatch} (inside : state.Inside)
    (same : after.there = state.there) : after.Inside := by
  rw [Inside, same]
  exact inside

theorem Inside.removeEngines {state : ConfigWatch} (inside : state.Inside) (moved : Bool) :
    (state.removeEngines moved).Inside := by
  rw [ConfigWatch.removeEngines]
  split
  · exact inside
  · exact fun _ => rfl

theorem removeEngines_engines (moved : Bool) :
    (state.removeEngines moved).there .engines = none := by
  rw [removeEngines]
  split
  next absent => exact absent
  next => rfl

theorem Inside.removeConfig {state : ConfigWatch} (inside : state.Inside) (moved : Bool) :
    (state.removeConfig moved).Inside := by
  rw [ConfigWatch.removeConfig]
  split
  next => exact inside
  next =>
    intro _
    rw [place_there, Function.update_of_ne (by decide), touch_there, notice_there]
    cases moved with
    | false => exact removeEngines_engines state false
    | true => rfl

theorem Inside.make {state : ConfigWatch} (inside : state.Inside) (dir : WatchedDir) :
    (state.make dir).Inside := by
  rw [ConfigWatch.make]
  split
  next => exact inside
  next absent =>
    rw [not_or, not_not, not_and] at absent
    cases dir with
    | config =>
        intro missing
        cases missing
    | engines =>
        intro missing
        rw [if_pos rfl, notice_there] at missing
        exact absurd rfl (absent.2 missing)

theorem Inside.step {state : ConfigWatch} (inside : state.Inside) (event : Event) :
    (ConfigWatch.step state event).Inside := by
  cases event with
  | change dir mask =>
      rw [ConfigWatch.step, change]
      split
      · exact inside
      · exact inside.of_there (notice_there ..)
  | remove dir moved =>
      cases dir with
      | engines => exact inside.removeEngines moved
      | config => exact inside.removeConfig moved
  | make dir => exact inside.make dir
  | stray dir mask =>
      rw [ConfigWatch.step]
      split <;> exact inside
  | elapse ms => exact inside
  | handleConfigWatch armed =>
      apply inside.of_there
      rw [ConfigWatch.step, handleConfigWatch]
      split <;> split <;> first | rfl | (rw [scheduleReload]; split <;> rfl)
  | dispatchConfigReload =>
      apply inside.of_there
      rw [ConfigWatch.step, dispatchConfigReload]
      split
      · rfl
      · split
        · rfl
        · split <;> rfl

theorem deaf_of_missing {state : ConfigWatch} (inside : state.Inside)
    (rearms : state.queue.any InotifyMask.rearms = true) (missing : state.there .config = none)
    (armed : Bool) : (state.handleConfigWatch armed).Deaf := by
  have unwatched : ∀ dir, state.added dir = none := by
    intro dir
    cases dir with
    | config => exact missing
    | engines =>
        rw [added, inside missing]
        exact ite_self none
  have rearmed : ({ state with queue := [] } : ConfigWatch).rearmWatch.Deaf := ⟨unwatched, rfl⟩
  rw [handleConfigWatch, if_pos rearms]
  split
  · rw [scheduleReload]
    split <;> exact ⟨rearmed.unwatched, rearmed.empty⟩
  · exact rearmed

/-- If the directory is missing when the watches are added again, nothing is noticed any more: from
then on only a timer which is still armed makes the configuration be read. -/
theorem deaf_without_directory (config engines enginesFits timerFd : Bool) (events : List Event)
    (rearms : (Machine.run step (setup config engines enginesFits timerFd) events).queue.any
      InotifyMask.rearms = true)
    (missing : (Machine.run step (setup config engines enginesFits timerFd) events).there
      .config = none) (armed : Bool) (front back : List Event) :
    let deaf := step (Machine.run step (setup config engines enginesFits timerFd) events)
      (.handleConfigWatch armed)
    let later := Machine.run step deaf front
    later.queue = [] ∧ (later.reloadPending = false →
      (Machine.run step later back).refreshed = later.refreshed) := by
  intro deaf later
  have always : Machine.Always step Inside (setup config engines enginesFits timerFd) events := by
    apply Machine.Always.of_preserved
    · exact fun _ event inside => inside.step event
    · intro missing
      cases config with
      | true => cases missing
      | false => rfl
  have start : deaf.Deaf := deaf_of_missing always.final rearms missing armed
  have before : later.Deaf := (start.run front).deaf
  exact ⟨before.empty, fun idle => ((before.run back).idle idle).2⟩

/-- The directory is gone when its removal is read, and made again later. -/
theorem deaf_without_directory_removed :
    let deaf := step (Machine.run step (setup true true true true) [.remove .config false])
      (.handleConfigWatch true)
    let later := Machine.run step deaf [.elapse 100, .dispatchConfigReload, .make .config]
    later.queue = [] ∧ (later.reloadPending = false →
      (Machine.run step later [.change .config .closeWrite]).refreshed = later.refreshed) :=
  deaf_without_directory true true true true [.remove .config false] (by decide) (by decide) true
    [.elapse 100, .dispatchConfigReload, .make .config] [.change .config .closeWrite]

end ConfigWatch

end Typio
