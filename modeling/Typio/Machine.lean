import Mathlib.Data.List.Infix
import Mathlib.Logic.Basic

/-!
# Deterministic machines driven by events

A machine is a step function; a run folds it over an event list.  Invariants are properties of
every visited state, and a side condition on the steps is a property of every visited state
together with the event taken there.  The two rules at the end reduce a statement about runs to
one about single steps.
-/

namespace Machine

variable {State Event : Type*}

/-- The state reached from `start` after the events, first event first. -/
def run (step : State → Event → State) (start : State) (events : List Event) : State :=
  events.foldl step start

/-- The property holds in every state the run visits, its first and last state included. -/
def Always (step : State → Event → State) (property : State → Prop) (start : State)
    (events : List Event) : Prop :=
  ∀ front, front <+: events → property (run step start front)

/-- The property holds of every step of the run, read in the state in which the step is taken. -/
def EachStep (step : State → Event → State) (property : State → Event → Prop) (start : State)
    (events : List Event) : Prop :=
  ∀ front event, front ++ [event] <+: events → property (run step start front) event

section Run

variable (step : State → Event → State) (start : State)

@[simp] theorem run_nil : run step start [] = start := rfl

@[simp] theorem run_cons (event : Event) (events : List Event) :
    run step start (event :: events) = run step (step start event) events := rfl

theorem run_append (left right : List Event) :
    run step start (left ++ right) = run step (run step start left) right := by
  simp [run, List.foldl_append]

@[simp] theorem run_concat (events : List Event) (event : Event) :
    run step start (events ++ [event]) = step (run step start events) event := by
  simp [run_append]

@[simp] theorem always_nil (property : State → Prop) :
    Always step property start [] ↔ property start := by
  constructor
  · intro always
    exact always [] (List.prefix_refl _)
  · intro initial front front_prefix
    rw [List.prefix_nil.mp front_prefix]
    exact initial

@[simp] theorem always_cons (property : State → Prop) (event : Event) (events : List Event) :
    Always step property start (event :: events) ↔
      property start ∧ Always step property (step start event) events := by
  constructor
  · intro always
    refine ⟨always [] List.nil_prefix, ?_⟩
    intro front front_prefix
    exact always (event :: front) ((List.prefix_cons_inj event).mpr front_prefix)
  · rintro ⟨initial, later⟩ front front_prefix
    cases front with
    | nil => exact initial
    | cons head front =>
        obtain ⟨rfl, tail_prefix⟩ := List.cons_prefix_cons.mp front_prefix
        exact later front tail_prefix

@[simp] theorem eachStep_nil (property : State → Event → Prop) :
    EachStep step property start [] := by
  intro front event front_prefix
  simp at front_prefix

@[simp] theorem eachStep_cons (property : State → Event → Prop) (event : Event)
    (events : List Event) :
    EachStep step property start (event :: events) ↔
      property start event ∧ EachStep step property (step start event) events := by
  constructor
  · intro each
    refine ⟨each [] event ⟨events, rfl⟩, ?_⟩
    intro front next front_prefix
    exact each (event :: front) next ((List.prefix_cons_inj event).mpr front_prefix)
  · rintro ⟨first, later⟩ front next front_prefix
    cases front with
    | nil =>
        obtain ⟨rfl, -⟩ := List.cons_prefix_cons.mp front_prefix
        exact first
    | cons head front =>
        obtain ⟨rfl, tail_prefix⟩ := List.cons_prefix_cons.mp front_prefix
        exact later front next tail_prefix

theorem eachStep_concat (property : State → Event → Prop) (events : List Event) (event : Event) :
    EachStep step property start (events ++ [event]) ↔
      EachStep step property start events ∧ property (run step start events) event := by
  induction events generalizing start with
  | nil => simp
  | cons first events induction =>
      rw [List.cons_append, eachStep_cons, induction, eachStep_cons, run_cons, and_assoc]

/-- A decidable property of the states can be checked along a run. -/
instance decidableAlways (property : State → Prop) [DecidablePred property] :
    ∀ start events, Decidable (Always step property start events)
  | start, [] => decidable_of_iff (property start) (always_nil ..).symm
  | start, event :: events =>
      have := decidableAlways property (step start event) events
      decidable_of_iff (property start ∧ Always step property (step start event) events)
        (always_cons ..).symm

/-- A decidable property of the steps can be checked along a run. -/
instance decidableEachStep (property : State → Event → Prop)
    [∀ state event, Decidable (property state event)] :
    ∀ start events, Decidable (EachStep step property start events)
  | start, [] => .isTrue (eachStep_nil step start property)
  | start, event :: events =>
      have := decidableEachStep property (step start event) events
      decidable_of_iff (property start event ∧ EachStep step property (step start event) events)
        (eachStep_cons ..).symm

end Run

variable {step : State → Event → State} {start : State} {events : List Event}

/-- A property of every visited state holds at the end of the run. -/
theorem Always.final {property : State → Prop} (always : Always step property start events) :
    property (run step start events) :=
  always events (List.prefix_refl _)

theorem Always.mono {weaker stronger : State → Prop}
    (implies : ∀ state, stronger state → weaker state)
    (always : Always step stronger start events) : Always step weaker start events :=
  fun front front_prefix => implies _ (always front front_prefix)

/-- A property which every good step preserves holds throughout a run of good steps. -/
theorem Always.of_invariant (invariant : State → Prop) {good : State → Event → Prop}
    (preserved : ∀ state event, invariant state → good state event →
      invariant (step state event))
    (initial : invariant start) (each : EachStep step good start events) :
    Always step invariant start events := by
  induction events generalizing start with
  | nil => simpa using initial
  | cons event events induction =>
      obtain ⟨first, later⟩ := (eachStep_cons ..).mp each
      exact (always_cons ..).mpr ⟨initial, induction (preserved _ _ initial first) later⟩

/-- A property preserved by every step holds throughout every run. -/
theorem Always.of_preserved (invariant : State → Prop)
    (preserved : ∀ state event, invariant state → invariant (step state event))
    (initial : invariant start) : Always step invariant start events :=
  Always.of_invariant invariant (fun state event holds (_ : True) => preserved state event holds)
    initial (fun _ _ _ => trivial)

/-- A step property which follows from an invariant holds of every step of a run. -/
theorem EachStep.of_always {invariant : State → Prop} {property : State → Event → Prop}
    (implies : ∀ state event, invariant state → property state event)
    (always : Always step invariant start events) : EachStep step property start events := by
  intro front event front_prefix
  exact implies _ _ (always front ((List.prefix_append front [event]).trans front_prefix))

/-- If, under an invariant, an allowed step keeps the property exactly when it is good, then a run
of allowed steps keeps the property exactly when all its steps are good. -/
theorem always_iff_eachStep_of_allowed (invariant : State → Prop) {property : State → Prop}
    {allowed good : State → Event → Prop}
    (decided : ∀ state event, invariant state → property state → allowed state event →
      (property (step state event) ↔ good state event))
    (preserved : ∀ state event, invariant state → property state → allowed state event →
      good state event → invariant (step state event))
    (initial : invariant start) (holds : property start)
    (each : EachStep step allowed start events) :
    Always step property start events ↔ EachStep step good start events := by
  induction events generalizing start with
  | nil => simpa using holds
  | cons event events induction =>
      obtain ⟨allows, allows_later⟩ := (eachStep_cons ..).mp each
      rw [always_cons, eachStep_cons]
      constructor
      · rintro ⟨-, later⟩
        have next : property (step start event) := later [] List.nil_prefix
        have first : good start event := (decided _ _ initial holds allows).mp next
        have carried := preserved _ _ initial holds allows first
        exact ⟨first, (induction carried next allows_later).mp later⟩
      · rintro ⟨first, later⟩
        have next : property (step start event) := (decided _ _ initial holds allows).mpr first
        have carried := preserved _ _ initial holds allows first
        exact ⟨holds, (induction carried next allows_later).mpr later⟩

/-- If, under an invariant, a step keeps the property exactly when it is good, then a run keeps
the property exactly when all its steps are good. -/
theorem always_iff_eachStep (invariant : State → Prop) {property : State → Prop}
    {good : State → Event → Prop}
    (decided : ∀ state event, invariant state → property state →
      (property (step state event) ↔ good state event))
    (preserved : ∀ state event, invariant state → property state → good state event →
      invariant (step state event))
    (initial : invariant start) (holds : property start) :
    Always step property start events ↔ EachStep step good start events :=
  always_iff_eachStep_of_allowed invariant
    (fun state event carried kept (_ : True) => decided state event carried kept)
    (fun state event carried kept _ => preserved state event carried kept) initial holds
    (fun _ _ _ => trivial)

/-- Two step properties which agree under an invariant, which the steps with the first one keep,
agree along every run. -/
theorem eachStep_congr_of_left (invariant : State → Prop) {left right : State → Event → Prop}
    (agree : ∀ state event, invariant state → (left state event ↔ right state event))
    (preserved : ∀ state event, invariant state → left state event →
      invariant (step state event))
    (initial : invariant start) :
    EachStep step left start events ↔ EachStep step right start events := by
  induction events generalizing start with
  | nil => simp
  | cons event events induction =>
      rw [eachStep_cons, eachStep_cons, ← agree _ _ initial]
      exact and_congr_right fun first => induction (preserved _ _ initial first)

/-- Two step properties which agree under an invariant agree along every run. -/
theorem eachStep_congr (invariant : State → Prop) {left right : State → Event → Prop}
    (agree : ∀ state event, invariant state → (left state event ↔ right state event))
    (preserved : ∀ state event, invariant state → invariant (step state event))
    (initial : invariant start) :
    EachStep step left start events ↔ EachStep step right start events :=
  eachStep_congr_of_left invariant agree (fun state event holds _ => preserved state event holds)
    initial

end Machine
