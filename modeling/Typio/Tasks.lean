import Mathlib.Data.List.Perm.Basic
import Typio.Machine

/-!
# Interleaved tasks

Tasks run at the same time over a shared state.  A move takes one of them an atomic step further; a
call adds a task.  An invariant which does not depend on the order of the tasks holds in every
interleaving if a move of the first task and a call keep it.
-/

namespace Tasks

variable {Shared Task Call Answer : Type*}

structure Pool (Shared Task : Type*) where
  shared : Shared
  tasks : List Task

/-- What a call starts, and what an atomic step of a task does; the answer comes from outside. -/
structure Code (Shared Task Call Answer : Type*) where
  enter : Shared → Call → Shared × Task
  move : Shared → Task → Answer → Shared × Task

inductive Event (Call Answer : Type*) where
  | call (call : Call)
  | move (index : Nat) (answer : Answer)
  deriving DecidableEq, Repr

def step (code : Code Shared Task Call Answer) (pool : Pool Shared Task) :
    Event Call Answer → Pool Shared Task
  | .call call =>
      { shared := (code.enter pool.shared call).1
        tasks := pool.tasks ++ [(code.enter pool.shared call).2] }
  | .move index answer =>
      match pool.tasks[index]? with
      | none => pool
      | some task =>
          { shared := (code.move pool.shared task answer).1
            tasks := pool.tasks.set index (code.move pool.shared task answer).2 }

variable {code : Code Shared Task Call Answer} {pool : Pool Shared Task}

theorem step_move {index : Nat} {task : Task} (found : pool.tasks[index]? = some task)
    (answer : Answer) :
    step code pool (.move index answer) =
      { shared := (code.move pool.shared task answer).1
        tasks := pool.tasks.set index (code.move pool.shared task answer).2 } := by
  simp only [step, found]

theorem step_move_of_none {index : Nat} (found : pool.tasks[index]? = none) (answer : Answer) :
    step code pool (.move index answer) = pool := by
  simp only [step, found]

theorem shared_step_move {index : Nat} {task : Task} (found : pool.tasks[index]? = some task)
    (answer : Answer) :
    (step code pool (.move index answer)).shared = (code.move pool.shared task answer).1 := by
  rw [step_move found]

theorem getElem?_step_move {index : Nat} {task : Task} (found : pool.tasks[index]? = some task)
    (answer : Answer) :
    (step code pool (.move index answer)).tasks[index]? =
      some (code.move pool.shared task answer).2 := by
  rw [step_move found]
  exact List.getElem?_set_self (List.getElem?_eq_some_iff.mp found).choose

/-- The other tasks stay where they are. -/
theorem getElem?_step_move_ne {index other : Nat} (differs : index ≠ other) (answer : Answer) :
    (step code pool (.move index answer)).tasks[other]? = pool.tasks[other]? := by
  cases found : pool.tasks[index]? with
  | none => rw [step_move_of_none found]
  | some task =>
      rw [step_move found]
      exact List.getElem?_set_ne differs

/-- The task at an index, with the others around it. -/
theorem split_at {tasks : List Task} {index : Nat} {task : Task}
    (found : tasks[index]? = some task) :
    ∃ others, tasks.Perm (task :: others) ∧
      ∀ moved, (tasks.set index moved).Perm (moved :: others) := by
  obtain ⟨bounded, rfl⟩ := List.getElem?_eq_some_iff.mp found
  refine ⟨tasks.take index ++ tasks.drop (index + 1), ?_, ?_⟩
  · apply List.Perm.trans (List.Perm.of_eq _) List.perm_middle
    rw [← List.drop_eq_getElem_cons bounded, List.take_append_drop]
  · intro moved
    rw [List.set_eq_take_append_cons_drop, if_pos bounded]
    exact List.perm_middle

/-- An invariant of the shared state and of the tasks, whatever their order. -/
theorem step_keeps (invariant : Shared → List Task → Prop)
    (perm : ∀ {shared tasks others}, tasks.Perm others → invariant shared tasks →
      invariant shared others)
    (enters : ∀ shared tasks call, invariant shared tasks →
      invariant (code.enter shared call).1 ((code.enter shared call).2 :: tasks))
    (moves : ∀ shared task others answer, invariant shared (task :: others) →
      invariant (code.move shared task answer).1 ((code.move shared task answer).2 :: others))
    (event : Event Call Answer) (holds : invariant pool.shared pool.tasks) :
    invariant (step code pool event).shared (step code pool event).tasks := by
  cases event with
  | call call =>
      apply perm (List.perm_append_singleton _ _).symm
      exact enters _ _ call holds
  | move index answer =>
      cases found : pool.tasks[index]? with
      | none =>
          rw [step_move_of_none found]
          exact holds
      | some task =>
          obtain ⟨others, before, after⟩ := split_at found
          rw [step_move found]
          apply perm (after _).symm
          exact moves _ _ _ answer (perm before holds)

/-- What holds of a task when it is called, and stays when it moves, holds of the tasks which are
called once the shared state is as required, and stays so. -/
theorem later_tasks (shape : Shared → Prop) (good : Task → Prop)
    (enters : ∀ shared call, shape shared →
      shape (code.enter shared call).1 ∧ good (code.enter shared call).2)
    (stays : ∀ shared task answer, shape shared → shape (code.move shared task answer).1)
    (moves : ∀ shared task answer, shape shared → good task →
      good (code.move shared task answer).2)
    (shaped : shape pool.shared) (events : List (Event Call Answer)) :
    ∀ index task, pool.tasks.length ≤ index →
      (Machine.run (step code) pool events).tasks[index]? = some task → good task := by
  have always : Machine.Always (step code)
      (fun later => shape later.shared ∧ pool.tasks.length ≤ later.tasks.length ∧
        ∀ index task, pool.tasks.length ≤ index → later.tasks[index]? = some task → good task)
      pool events := by
    apply Machine.Always.of_preserved
    · rintro later event ⟨shaped, longer, each⟩
      cases event with
      | call call =>
          refine ⟨(enters _ call shaped).1, ?_, ?_⟩
          · simp only [step, List.length_append]
            omega
          · intro index task after found
            rcases Nat.lt_or_ge index later.tasks.length with old | new
            · rw [step, List.getElem?_append_left old] at found
              exact each index task after found
            · rw [step, List.getElem?_append_right new, List.getElem?_singleton] at found
              split at found
              · obtain rfl := Option.some.inj found
                exact (enters _ call shaped).2
              · cases found
      | move index answer =>
          cases found : later.tasks[index]? with
          | none =>
              rw [step_move_of_none found]
              exact ⟨shaped, longer, each⟩
          | some task =>
              rw [step_move found]
              refine ⟨stays _ _ answer shaped, ?_, ?_⟩
              · rw [List.length_set]
                exact longer
              · intro other moved after at_other
                rcases eq_or_ne index other with rfl | differs
                · rw [List.getElem?_set_self (List.getElem?_eq_some_iff.mp found).choose]
                    at at_other
                  obtain rfl := Option.some.inj at_other
                  exact moves _ _ answer shaped (each index task after found)
                · rw [List.getElem?_set_ne differs] at at_other
                  exact each other moved after at_other
    · refine ⟨shaped, Nat.le_refl _, ?_⟩
      intro index task after found
      have bounded := (List.getElem?_eq_some_iff.mp found).choose
      omega
  exact always.final.2.2

end Tasks
