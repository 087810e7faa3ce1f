import Typio.Core.EngineCycling

/-!
# Progress by cycling

A call of `next` tries one engine.  When that engine fails the one before is restored, and the pair,
the order and the time of the last switch are as they were, so a later call picks the same engine
for the same gap.  A run leaves the active engine exactly when one of its calls picks an engine
which activates, or one which starts and has been tried before: the first attempt caches its
instance, and a cached instance is not validated.
-/

namespace Typio

namespace Core

namespace ClockedManager

open EngineManager

variable (setting : Setting)

/-- A call of `next`. -/
def next (now : Nat) : Press := ⟨true, now⟩

/-- A call at this time, after calls at the earlier times which all failed, switches to an engine
other than the current one.  Everything is read in the state before the first call. -/
def Succeeds (clocked : ClockedManager) (current : String) (earlier : List Nat) (now : Nat) :
    Prop :=
  ∃ name, clocked.target setting (next now) = some name ∧ name ≠ current ∧
    (clocked.manager.Activates setting.engines name ∨
      clocked.manager.Starts setting.engines name ∧
        ∃ before ∈ earlier, clocked.target setting (next before) = some name)

/-- The calls of `next` leave the current engine active. -/
def Stays (clocked : ClockedManager) (current : String) (times : List Nat) : Prop :=
  Machine.Always (step setting) (fun state => state.manager.activeName = some current) clocked
    (times.map next)

variable {setting} {clocked : ClockedManager} {current : String}

theorem step_target {now : Nat}
    (clock : (clocked.step setting (next now)).lastSwitch = clocked.lastSwitch)
    (active : (clocked.step setting (next now)).manager.activeName = clocked.manager.activeName)
    (press : Press) :
    (clocked.step setting (next now)).target setting press = clocked.target setting press := by
  rw [target, target, elapsed, elapsed, clock]
  exact pick_congr step_inPlace active step_recentPair ..

/-- A call which fails changes what the later calls do only in that its engine has been tried. -/
theorem step_of_not_succeeds (orderly : clocked.manager.Orderly)
    (active : clocked.manager.activeName = some current) {now : Nat}
    (fails : ¬ clocked.Succeeds setting current [] now) :
    (clocked.step setting (next now)).manager.activeName = some current ∧
      ∀ earlier later, (clocked.step setting (next now)).Succeeds setting current earlier later ↔
        clocked.Succeeds setting current (now :: earlier) later := by
  have idle (same : clocked.step setting (next now) = clocked)
      (other : ∀ name ≠ current, clocked.target setting (next now) ≠ some name) :
      (clocked.step setting (next now)).manager.activeName = some current ∧
        ∀ earlier later, (clocked.step setting (next now)).Succeeds setting current earlier later ↔
          clocked.Succeeds setting current (now :: earlier) later := by
    rw [same]
    refine ⟨active, fun earlier later => exists_congr fun name => and_congr_right fun _ =>
      and_congr_right fun differs => ?_⟩
    simp [other name differs]
  cases picked : clocked.target setting (next now) with
  | none =>
      exact idle (by simp [step, cycle, picked]) (by simp [picked])
  | some name =>
      by_cases own : name = current
      · subst own
        refine idle (step_current orderly picked active) fun other differs found => ?_
        exact differs (Option.some.inj (found.symm.trans picked))
      · have stays : ¬ clocked.manager.Activates setting.engines name := fun up =>
          fails ⟨name, picked, own, .inl up⟩
        have aside : clocked.manager.activeName ≠ some name := by
          rw [active]
          exact fun same => own (Option.some.inj same).symm
        obtain ⟨clock, -, kept, tries⟩ := step_failed orderly picked aside stays
        refine ⟨kept.trans active, fun earlier later => exists_congr fun tried => ?_⟩
        simp only [step_target clock kept, (tries tried).1, (tries tried).2, List.mem_cons,
          exists_eq_or_imp, picked, Option.some.injEq]
        refine and_congr_right fun _ => and_congr_right fun _ => ?_
        by_cases again : tried = name
        · subst again
          rw [if_pos rfl]
          have starts := fun up : clocked.manager.Activates setting.engines tried => stays up
          tauto
        · rw [if_neg again]
          have apart : name ≠ tried := fun same => again same.symm
          tauto

/-- A call which succeeds leaves the current engine. -/
theorem step_of_succeeds (orderly : clocked.manager.Orderly) {now : Nat}
    (succeeds : clocked.Succeeds setting current [] now) :
    (clocked.step setting (next now)).manager.activeName ≠ some current := by
  obtain ⟨name, picked, differs, up | ⟨-, before, nowhere, -⟩⟩ := succeeds
  · rw [(step_done orderly picked up).1]
    exact fun same => differs (Option.some.inj same)
  · cases nowhere

theorem stays_iff (orderly : clocked.manager.Orderly)
    (active : clocked.manager.activeName = some current) (times : List Nat) :
    clocked.Stays setting current times ↔
      ∀ earlier now later, times = earlier ++ now :: later →
        ¬ clocked.Succeeds setting current earlier now := by
  induction times generalizing clocked with
  | nil => simpa [Stays] using active
  | cons first times induction =>
      rw [Stays, List.map_cons, Machine.always_cons]
      by_cases succeeds : clocked.Succeeds setting current [] first
      · constructor
        · rintro ⟨-, later⟩
          exact absurd (later [] List.nil_prefix) (step_of_succeeds orderly succeeds)
        · intro never
          exact absurd succeeds (never [] first times rfl)
      · obtain ⟨active', tried⟩ := step_of_not_succeeds orderly active succeeds
        have later := induction (step_orderly orderly) active'
        rw [Stays] at later
        rw [and_iff_right active, later]
        constructor
        · intro never earlier now rest split
          cases earlier with
          | nil =>
              obtain ⟨rfl, rfl⟩ := List.cons.inj split
              exact succeeds
          | cons before earlier =>
              obtain ⟨rfl, rfl⟩ := List.cons.inj split
              exact (tried earlier now).not.mp (never earlier now rest rfl)
        · rintro never earlier now rest rfl
          exact (tried earlier now).not.mpr (never (first :: earlier) now rest rfl)

/-- The code of a keyboard that can be made and initialized, and of one whose factory fails. -/
def oneBroken (name : String) : Calls where
  made :=
    if name = "broken" then none
    else some { unified := false, userData := true, keyboard := true, voice := false }
  init := .ok
  restored := .ok

/-! ## A run without progress -/

/-- While every call picks an engine which does not start, the current engine stays. -/
theorem stays_of_picks (orderly : clocked.manager.Orderly)
    (active : clocked.manager.activeName = some current) {broken : String}
    (picks : ∀ stable, clocked.manager.pick setting.order true stable = some broken)
    (stuck : ¬ clocked.manager.Starts setting.engines broken) (times : List Nat) :
    clocked.Stays setting current times := by
  refine (stays_iff orderly active times).mpr fun earlier now later _ succeeds => ?_
  obtain ⟨name, picked, -, tried⟩ := succeeds
  obtain rfl : broken = name := Option.some.inj ((picks _).symm.trans picked)
  obtain ⟨entry, member, named, up⟩ | ⟨starts, -⟩ := tried
  · exact stuck ⟨entry, member, named, up.startable⟩
  · exact stuck starts

end ClockedManager

end Core

end Typio
