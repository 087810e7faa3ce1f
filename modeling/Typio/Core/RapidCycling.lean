import Mathlib.Data.List.Rotate
import Typio.Core.EngineCycling

/-!
# Rapid cycling

Presses which follow one another within the threshold step through the ordered list: the active
engine is the entry behind the one before, modulo the length of the list.  As many presses as there
are keyboards visit each of them once.
-/

namespace Typio

namespace Core

namespace EngineManager

/-! ## The cyclic neighbour -/

/-- The place in the ordered list which comes after the current engine; the list is begun when the
engine is not in it. -/
def turn (ordered : List String) (current : String) : Nat :=
  match ordered.findIdx? (· == current) with
  | none => 0
  | some position => position + 1

theorem findIdx?_of_getElem? {ordered : List String} (nodup : ordered.Nodup) {position : Nat}
    {current : String} (here : ordered[position]? = some current) :
    ordered.findIdx? (· == current) = some position := by
  obtain ⟨inside, rfl⟩ := List.getElem?_eq_some_iff.mp here
  refine List.findIdx?_eq_some_iff_getElem.mpr ⟨inside, by simp, fun place before => ?_⟩
  simpa using fun same => before.ne ((nodup.getElem_inj_iff).mp same)

theorem turn_of_getElem? {ordered : List String} (nodup : ordered.Nodup) {position : Nat}
    {current : String} (here : ordered[position]? = some current) :
    turn ordered current = position + 1 := by
  rw [turn, findIdx?_of_getElem? nodup here]

theorem entries_nonempty {manager : EngineManager} {current : String}
    (active : manager.activeName = some current) : manager.entries.isEmpty = false := by
  obtain ⟨index, entry, -, here, -⟩ := activeName_eq_some_iff.mp active
  rw [List.isEmpty_eq_false_iff]
  exact List.ne_nil_of_mem (List.mem_of_getElem? here)

/-- When the only keyboard is alone in the list, the recent pair makes no difference. -/
theorem pick_single {manager : EngineManager} (intact : manager.Integrity) {order : List String}
    (single : (manager.listOrderedKeyboards order).length = 1) {current : String}
    (active : manager.activeName = some current) (forward stable : Bool) :
    manager.pick order forward stable = (manager.listOrderedKeyboards order)[0]? := by
  obtain ⟨only, list⟩ := List.length_eq_one_iff.mp single
  cases picked : manager.pick order forward stable with
  | some name =>
      have member := (mem_listOrderedKeyboards intact order name).mpr
        (intact.mem_keyboards_of_pick picked)
      rw [list, List.mem_singleton] at member
      rw [list, member]
      rfl
  | none =>
      unfold pick resolveSwitch at picked
      rw [entries_nonempty active, active, list] at picked
      simp only [Bool.false_eq_true, ↓reduceIte, Option.bind_some] at picked
      split at picked
      · cases picked
      split at picked
      · cases picked
      next position found =>
        have inside := (List.findIdx?_eq_some_iff_getElem.mp found).1
        obtain rfl : position = 0 := by simpa using inside
        cases forward <;> simp at picked

theorem pick_forward {manager : EngineManager} {order : List String} {current : String}
    (active : manager.activeName = some current) :
    manager.pick order true false =
      (manager.listOrderedKeyboards order)[turn (manager.listOrderedKeyboards order) current %
        (manager.listOrderedKeyboards order).length]? := by
  rw [pick, entries_nonempty active, resolveSwitch, active]
  simp only [Bool.false_eq_true, ↓reduceIte, Option.bind_some, turn]
  cases (manager.listOrderedKeyboards order).findIdx? (· == current) with
  | none => simp [List.head?_eq_getElem?]
  | some position => rfl

theorem pick_backward {manager : EngineManager} (intact : manager.Integrity) {order : List String}
    {current : String} {position : Nat} (active : manager.activeName = some current)
    (here : (manager.listOrderedKeyboards order)[position]? = some current) :
    manager.pick order false false =
      (manager.listOrderedKeyboards order)[if position = 0 then
        (manager.listOrderedKeyboards order).length - 1 else position - 1]? := by
  rw [pick, entries_nonempty active, resolveSwitch, active]
  simp only [Bool.false_eq_true, ↓reduceIte, Option.bind_some,
    findIdx?_of_getElem? (listOrderedKeyboards_nodup intact order) here]

end EngineManager

/-! ## Runs of rapid presses -/

namespace ClockedManager

open EngineManager

variable (setting : Setting)

/-- The ordered list of keyboards. -/
def ordered (clocked : ClockedManager) : List String :=
  clocked.manager.listOrderedKeyboards setting.order

/-- The active engine after each of the presses. -/
def visits (clocked : ClockedManager) : List Press → List (Option String)
  | [] => []
  | press :: presses =>
      (clocked.step setting press).manager.activeName ::
        (clocked.step setting press).visits presses

/-- Each call comes within the threshold after the call before it, and the first one after the last
switch. -/
def Rapid (last : Nat) (times : List Nat) : Prop :=
  (last :: times).IsChain fun earlier later => millisSince earlier later ≤ setting.threshold

/-- The presses to come are not taken for slow ones.  The clock stands still when the only keyboard
is picked again, but then the recent pair makes no difference. -/
def Paced (clocked : ClockedManager) (presses : List Press) : Prop :=
  (∃ last, clocked.lastSwitch = some last ∧ Rapid setting last (presses.map Press.now)) ∨
    (clocked.ordered setting).length = 1

/-- What holds between the presses. -/
structure Cycles (clocked : ClockedManager) : Prop where
  orderly : clocked.manager.Orderly
  allUp : clocked.manager.AllUp setting.engines

variable {setting} {clocked : ClockedManager} {press : Press} {presses : List Press}

theorem step_ordered : (clocked.step setting press).ordered setting = clocked.ordered setting :=
  step_inPlace.listOrderedKeyboards setting.order

theorem Cycles.nodup (cycles : clocked.Cycles setting) : (clocked.ordered setting).Nodup :=
  listOrderedKeyboards_nodup cycles.orderly.intact setting.order

theorem Paced.target (paced : clocked.Paced setting (press :: presses))
    (cycles : clocked.Cycles setting) {current : String}
    (active : clocked.manager.activeName = some current) :
    clocked.target setting press =
      clocked.manager.pick setting.order press.forward false := by
  obtain ⟨last, set, rapid⟩ | single := paced
  · have near : millisSince last press.now ≤ setting.threshold :=
      (List.isChain_cons_cons.mp rapid).1
    rw [ClockedManager.target, elapsed, set, decide_eq_false (Nat.not_lt.mpr near)]
  · exact (pick_single cycles.orderly.intact single active ..).trans
      (pick_single cycles.orderly.intact single active ..).symm

/-- A press which picks an entry of the list, when that is another engine or the only one. -/
theorem Cycles.step (cycles : clocked.Cycles setting)
    (paced : clocked.Paced setting (press :: presses)) {name : String}
    (picked : clocked.target setting press = some name)
    (alone : clocked.manager.activeName = some name → (clocked.ordered setting).length = 1) :
    (clocked.step setting press).manager.activeName = some name ∧
      (clocked.step setting press).manager.active .voice = clocked.manager.active .voice ∧
      (clocked.step setting press).Cycles setting ∧
      (clocked.step setting press).Paced setting presses := by
  have up := cycles.allUp name (cycles.orderly.intact.mem_keyboards_of_pick picked)
  obtain ⟨active, voice, clock, kept⟩ := step_done cycles.orderly picked up
  refine ⟨active, voice, ⟨step_orderly cycles.orderly, step_allUp kept cycles.allUp⟩, ?_⟩
  by_cases current : clocked.manager.activeName = some name
  · exact .inr ((congrArg List.length step_ordered).trans (alone current))
  · obtain ⟨last, -, rapid⟩ | single := paced
    · exact .inl ⟨press.now, clock current, (List.isChain_cons_cons.mp rapid).2⟩
    · exact .inr ((congrArg List.length step_ordered).trans single)

/-- A press of `next` in a rapid run. -/
theorem Cycles.step_next (cycles : clocked.Cycles setting) (nonempty : clocked.ordered setting ≠ [])
    (forward : press.forward = true) (paced : clocked.Paced setting (press :: presses))
    {current : String} (active : clocked.manager.activeName = some current) :
    ∃ name, (clocked.ordered setting)[turn (clocked.ordered setting) current %
        (clocked.ordered setting).length]? = some name ∧
      (clocked.step setting press).manager.activeName = some name ∧
      (clocked.step setting press).manager.active .voice = clocked.manager.active .voice ∧
      (clocked.step setting press).Cycles setting ∧
      (clocked.step setting press).Paced setting presses := by
  obtain ⟨name, here⟩ : ∃ name, (clocked.ordered setting)[turn (clocked.ordered setting) current %
      (clocked.ordered setting).length]? = some name :=
    ⟨_, List.getElem?_eq_getElem (Nat.mod_lt _ (List.length_pos_iff.mpr nonempty))⟩
  have picked := (paced.target cycles active).trans (forward ▸ pick_forward active)
  refine ⟨name, here, cycles.step paced (picked.trans here) fun same => ?_⟩
  -- The neighbour is the engine itself only in a list of one.
  obtain rfl : current = name := Option.some.inj (active.symm.trans same)
  have next := turn_of_getElem? cycles.nodup here
  have inside := (List.getElem?_eq_some_iff.mp here).1
  by_cases wraps : turn (clocked.ordered setting) current < (clocked.ordered setting).length
  · rw [Nat.mod_eq_of_lt wraps] at next
    omega
  · have last : turn (clocked.ordered setting) current = (clocked.ordered setting).length := by
      omega
    rw [last, Nat.mod_self] at next
    omega

/-- A press of `prev` in a rapid run. -/
theorem Cycles.step_prev (cycles : clocked.Cycles setting) (backward : press.forward = false)
    (paced : clocked.Paced setting (press :: presses)) {current : String} {position : Nat}
    (active : clocked.manager.activeName = some current)
    (here : (clocked.ordered setting)[position]? = some current) :
    (clocked.step setting press).manager.activeName =
      (clocked.ordered setting)[if position = 0 then (clocked.ordered setting).length - 1
        else position - 1]? := by
  have inside := (List.getElem?_eq_some_iff.mp here).1
  obtain ⟨name, there⟩ : ∃ name, (clocked.ordered setting)[if position = 0 then
      (clocked.ordered setting).length - 1 else position - 1]? = some name :=
    ⟨_, List.getElem?_eq_getElem (by split <;> omega)⟩
  have picked := paced.target cycles active
  rw [backward, pick_backward cycles.orderly.intact active here] at picked
  rw [there]
  refine (cycles.step paced (picked.trans there) fun same => ?_).1
  obtain rfl : current = name := Option.some.inj (active.symm.trans same)
  have again := (List.getElem?_inj inside cycles.nodup).mp (here.trans there.symm)
  split at again <;> omega

/-! ## A full cycle -/

/-- A run of rapid `next` calls visits the entries of the list one after the other. -/
theorem Cycles.visits_next (cycles : clocked.Cycles setting)
    (nonempty : clocked.ordered setting ≠ [])
    (forward : ∀ press ∈ presses, press.forward = true) (paced : clocked.Paced setting presses)
    {current : String} (active : clocked.manager.activeName = some current) {start : Nat}
    (at_start : start % (clocked.ordered setting).length =
      turn (clocked.ordered setting) current % (clocked.ordered setting).length) :
    clocked.visits setting presses =
      (List.range' start presses.length).map fun place =>
        (clocked.ordered setting)[place % (clocked.ordered setting).length]? := by
  induction presses generalizing clocked current start with
  | nil => rfl
  | cons press presses induction =>
      obtain ⟨name, here, active', -, cycles', paced'⟩ :=
        cycles.step_next nonempty (forward press List.mem_cons_self) paced active
      have next := turn_of_getElem? cycles.nodup here
      have follows : (start + 1) % ((clocked.step setting press).ordered setting).length =
          turn ((clocked.step setting press).ordered setting) name %
            ((clocked.step setting press).ordered setting).length := by
        rw [step_ordered, next, Nat.add_mod, at_start]
        simp
      have nonempty' : (clocked.step setting press).ordered setting ≠ [] :=
        ne_of_eq_of_ne step_ordered nonempty
      have later := induction cycles' nonempty'
        (fun press member => forward press (List.mem_cons_of_mem _ member)) paced' active' follows
      rw [visits, List.length_cons, List.range'_succ, List.map_cons, later, active', at_start, here,
        step_ordered]

theorem map_range'_eq_rotate {α : Type*} (items : List α) (start : Nat) :
    ((List.range' start items.length).map fun place => items[place % items.length]?) =
      (items.rotate start).map some := by
  refine List.ext_getElem (by simp) fun place left right => ?_
  have inside : place < items.length := by simpa using left
  simp only [List.getElem_map, List.getElem_range', List.getElem_rotate, Nat.one_mul]
  rw [Nat.add_comm start place]
  exact List.getElem?_eq_getElem _

theorem visits_getLast? (clocked : ClockedManager) (press : Press) (presses : List Press) :
    (clocked.visits setting (press :: presses)).getLast? =
      some (Machine.run (step setting) clocked (press :: presses)).manager.activeName := by
  induction presses generalizing clocked press with
  | nil => rfl
  | cons next presses induction =>
      rw [visits, visits, List.getLast?_cons_cons, ← visits, induction]
      rfl

/-- What one press keeps. -/
theorem Cycles.kept (cycles : clocked.Cycles setting) :
    (clocked.step setting press).Cycles setting ∧
      (clocked.step setting press).manager.active .voice = clocked.manager.active .voice := by
  cases picked : clocked.target setting press with
  | none =>
      have same : clocked.step setting press = clocked := by
        simp [ClockedManager.step, cycle, picked]
      rw [same]
      exact ⟨cycles, rfl⟩
  | some name =>
      have up := cycles.allUp name (cycles.orderly.intact.mem_keyboards_of_pick picked)
      obtain ⟨-, voice, -, kept⟩ := step_done cycles.orderly picked up
      exact ⟨⟨step_orderly cycles.orderly, step_allUp kept cycles.allUp⟩, voice⟩

theorem Cycles.full_cycle (cycles : clocked.Cycles setting)
    (forward : ∀ press ∈ presses, press.forward = true) (paced : clocked.Paced setting presses)
    {current : String} (active : clocked.manager.activeName = some current)
    (count : presses.length = (clocked.ordered setting).length) :
    (clocked.visits setting presses).Perm ((clocked.ordered setting).map some) ∧
      (current ∈ clocked.ordered setting →
        (Machine.run (ClockedManager.step setting) clocked presses).manager.activeName =
          some current) := by
  by_cases empty : clocked.ordered setting = []
  · obtain rfl : presses = [] := by simpa [empty] using count
    rw [empty]
    exact ⟨.refl _, nofun⟩
  have visited := cycles.visits_next empty forward paced active rfl
  rw [count, map_range'_eq_rotate] at visited
  refine ⟨visited ▸ (List.rotate_perm ..).map some, fun member => ?_⟩
  cases presses with
  | nil => exact active
  | cons press presses =>
      obtain ⟨position, here⟩ := List.mem_iff_getElem?.mp member
      have inside := (List.getElem?_eq_some_iff.mp here).1
      have final := @visits_getLast? setting clocked press presses
      rw [visited, turn_of_getElem? cycles.nodup here, List.getLast?_eq_getElem?, List.length_map,
        List.length_rotate, List.getElem?_map,
        List.getElem?_rotate (Nat.sub_lt (Nat.zero_lt_of_lt inside) Nat.one_pos)] at final
      have back : (clocked.ordered setting).length - 1 + (position + 1) =
          position + (clocked.ordered setting).length := by omega
      rw [back, Nat.add_mod_right, Nat.mod_eq_of_lt inside, here] at final
      exact (Option.some.inj final).symm

theorem Cycles.prev_next (cycles : clocked.Cycles setting) {first second : Press}
    (forward : first.forward = true) (backward : second.forward = false)
    (paced : clocked.Paced setting [first, second]) {current : String}
    (active : clocked.manager.activeName = some current)
    (member : current ∈ clocked.ordered setting) :
    (Machine.run (ClockedManager.step setting) clocked [first, second]).manager.activeName =
      some current := by
  obtain ⟨position, here⟩ := List.mem_iff_getElem?.mp member
  have inside := (List.getElem?_eq_some_iff.mp here).1
  obtain ⟨name, there, active', -, cycles', paced'⟩ :=
    cycles.step_next (List.ne_nil_of_mem member) forward paced active
  rw [turn_of_getElem? cycles.nodup here, ← @step_ordered setting clocked first] at there
  have back := cycles'.step_prev backward paced' active' there
  rw [step_ordered] at back
  change ((clocked.step setting first).step setting second).manager.activeName = _
  rw [back, ← here]
  congr 1
  by_cases last : position + 1 = (clocked.ordered setting).length
  · rw [last, Nat.mod_self, if_pos rfl]
    omega
  · rw [Nat.mod_eq_of_lt (by omega), if_neg (by omega)]
    omega

/-- Every registered keyboard activates, and each call of `next` or `prev` comes within the
threshold after the one before.  As many calls of `next` as there are keyboards visit each entry of
the ordered list once and end where they began, `prev` takes back `next`, and only keyboards are
picked while the voice slot stays as it is. -/
theorem rapid_cycling (setting : Setting) (recentPrimary recentSecondary : Option String)
    (operations : List RegistryOperation) (last : Nat) {current : String}
    (allUp : (Machine.run registryStep (new recentPrimary recentSecondary) operations).AllUp
      setting.engines)
    (active : (Machine.run registryStep (new recentPrimary recentSecondary) operations).activeName =
      some current) :
    let clocked : ClockedManager :=
      ⟨Machine.run registryStep (new recentPrimary recentSecondary) operations, some last⟩
    (∀ times, Rapid setting last times → times.length = (clocked.ordered setting).length →
      (clocked.visits setting (times.map (⟨true, ·⟩))).Perm ((clocked.ordered setting).map some) ∧
        (current ∈ clocked.ordered setting →
          (Machine.run (step setting) clocked (times.map (⟨true, ·⟩))).manager.activeName =
            some current)) ∧
      (∀ first second, Rapid setting last [first, second] → current ∈ clocked.ordered setting →
        (Machine.run (step setting) clocked [⟨true, first⟩, ⟨false, second⟩]).manager.activeName =
          some current) ∧
      ∀ presses,
        Machine.EachStep (step setting)
          (fun clocked press => ∀ name ∈ clocked.target setting press,
            name ∈ clocked.manager.keyboards) clocked presses ∧
        Machine.Always (step setting)
          (fun state => state.manager.active .voice = clocked.manager.active .voice) clocked
          presses := by
  intro clocked
  have cycles : clocked.Cycles setting :=
    ⟨(Machine.Always.of_preserved Orderly (fun _ operation orderly => orderly.registryStep operation)
      (new_orderly recentPrimary recentSecondary)).final, allUp⟩
  refine ⟨fun times rapid count => ?_, fun first second rapid member => ?_, fun presses => ⟨?_, ?_⟩⟩
  · refine cycles.full_cycle (by simp) (.inl ⟨last, rfl, ?_⟩) active (by simpa using count)
    rw [List.map_map]
    exact (List.map_id times).symm ▸ rapid
  · exact @Cycles.prev_next setting clocked cycles ⟨true, first⟩ ⟨false, second⟩ rfl rfl
      (.inl ⟨last, rfl, rapid⟩) current active member
  · have always : Machine.Always (step setting) (Cycles setting) clocked presses :=
      .of_preserved _ (fun _ _ cycles => cycles.kept.1) cycles
    exact .of_always (fun state press cycles name picked =>
      cycles.orderly.intact.mem_keyboards_of_pick picked) always
  · refine (Machine.Always.of_preserved (fun state => state.Cycles setting ∧
      state.manager.active .voice = clocked.manager.active .voice) (fun state press holds => ?_)
      ⟨cycles, rfl⟩).mono fun _ holds => holds.2
    exact ⟨holds.1.kept.1, holds.1.kept.2.trans holds.2⟩

/-- A keyboard of a plugin whose code answers every call. -/
def answering : Calls where
  made := some { unified := false, userData := true, keyboard := true, voice := false }
  init := .ok
  restored := .ok

theorem rapid_cycling_pair :
    let setting : Setting := ⟨1000, ["pinyin"], fun _ => answering⟩
    let clocked : ClockedManager :=
      ⟨Machine.run registryStep (new none none)
        [.operation (.register (some { name := "basic", type := .keyboard })),
          .operation (.register (some { name := "pinyin", type := .keyboard })),
          .operation (.setActive "basic" answering)], some 0⟩
    (clocked.visits setting ([5000000, 9000000].map (⟨true, ·⟩))).Perm
      [some "pinyin", some "basic"] := by
  intro setting clocked
  have named (name : String) (member : name ∈ clocked.manager.keyboards) :
      name = "basic" ∨ name = "pinyin" := by
    have keyboards : clocked.manager.keyboards = ["basic", "pinyin"] := by decide
    simpa [keyboards] using member
  have allUp : clocked.manager.AllUp setting.engines := by
    intro name member
    obtain rfl | rfl := named name member
    · exact ⟨_, List.mem_cons_self, rfl, _, rfl, .inl rfl, rfl, .inl rfl⟩
    · exact ⟨_, List.mem_cons_of_mem _ List.mem_cons_self, rfl, _, rfl, .inr rfl, rfl, .inr rfl⟩
  have rapid : Rapid setting 0 [5000000, 9000000] := by
    refine List.isChain_cons_cons.mpr ⟨by decide, List.isChain_cons_cons.mpr ⟨by decide, ?_⟩⟩
    exact .singleton _
  have active : clocked.manager.activeName = some "basic" := by decide
  exact ((rapid_cycling setting none none _ 0 allUp active).1 _ rapid (by decide)).1

end ClockedManager

end Core

end Typio
