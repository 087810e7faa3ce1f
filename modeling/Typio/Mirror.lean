import Mathlib.Data.List.Flatten
import Typio.Machine

/-!
# A mirror of a source

A source produces entries and takes views.  A mirror logs entries and shows a view; what it knows
of the source it learns in exchanges, and an exchange may pass it less than the source produced or
leave it with the view it had.  After any exchanges the log is complete exactly when none of them
lost an entry.
-/

namespace Mirror

variable {Entry View : Type*}

/-- What the source produced and the view it has, and what the mirror logged and shows. -/
structure Pair (Entry View : Type*) where
  produced : List Entry
  logged : List Entry
  source : View
  shown : View

/-- What the source produces in an exchange and what of it the mirror logs, the view of the source
after it, and the view the mirror takes. -/
structure Exchange (Entry View : Type*) where
  produced : List Entry
  logged : List Entry
  source : View
  shown : Option View

def exchange (pair : Pair Entry View) (taken : Exchange Entry View) : Pair Entry View where
  produced := pair.produced ++ taken.produced
  logged := pair.logged ++ taken.logged
  source := taken.source
  shown := taken.shown.getD pair.shown

/-- The view of the mirror after the exchanges. -/
def shownAfter (shown : View) (exchanges : List (Exchange Entry View)) : View :=
  exchanges.foldl (fun shown taken => taken.shown.getD shown) shown

/-- The view of the source after the exchanges. -/
def sourceAfter (source : View) (exchanges : List (Exchange Entry View)) : View :=
  exchanges.foldl (fun _ taken => taken.source) source

/-- The last exchange leaves the mirror with the view the source has. -/
def Current (shown : View) (exchanges : List (Exchange Entry View)) : Prop :=
  ∀ last ∈ exchanges.getLast?, shownAfter shown exchanges = last.source

/-- No entry of the exchange is lost. -/
def Exchange.Complete (taken : Exchange Entry View) : Prop := taken.logged = taken.produced

/-- The mirror logs no more than the source produces. -/
def Exchange.Sound (taken : Exchange Entry View) : Prop :=
  taken.logged.length ≤ taken.produced.length

variable (pair : Pair Entry View) (exchanges : List (Exchange Entry View))

theorem run_produced : (Machine.run exchange pair exchanges).produced =
    pair.produced ++ exchanges.flatMap Exchange.produced := by
  induction exchanges generalizing pair with
  | nil => simp
  | cons taken exchanges ih => simp [ih, exchange]

theorem run_logged : (Machine.run exchange pair exchanges).logged =
    pair.logged ++ exchanges.flatMap Exchange.logged := by
  induction exchanges generalizing pair with
  | nil => simp
  | cons taken exchanges ih => simp [ih, exchange]

theorem run_shown :
    (Machine.run exchange pair exchanges).shown = shownAfter pair.shown exchanges := by
  induction exchanges generalizing pair with
  | nil => rfl
  | cons taken exchanges ih => exact ih (exchange pair taken)

theorem run_source :
    (Machine.run exchange pair exchanges).source = sourceAfter pair.source exchanges := by
  induction exchanges generalizing pair with
  | nil => rfl
  | cons taken exchanges ih => exact ih (exchange pair taken)

variable {pair exchanges}

theorem flatMap_logged_length_le (sound : ∀ taken ∈ exchanges, taken.Sound) :
    (exchanges.flatMap Exchange.logged).length ≤
      (exchanges.flatMap Exchange.produced).length := by
  induction exchanges with
  | nil => exact Nat.le_refl _
  | cons taken exchanges ih =>
      obtain ⟨first, later⟩ := List.forall_mem_cons.mp sound
      simp only [List.flatMap_cons, List.length_append]
      exact Nat.add_le_add first (ih later)

/-- What sound exchanges log is what they produce only if each of them is complete. -/
theorem flatMap_logged_eq_iff (sound : ∀ taken ∈ exchanges, taken.Sound) :
    exchanges.flatMap Exchange.logged = exchanges.flatMap Exchange.produced ↔
      ∀ taken ∈ exchanges, taken.Complete := by
  induction exchanges with
  | nil => simp
  | cons taken exchanges ih =>
      obtain ⟨first, later⟩ := List.forall_mem_cons.mp sound
      rw [List.forall_mem_cons, ← ih later, List.flatMap_cons, List.flatMap_cons]
      constructor
      · intro same
        apply List.append_inj same
        have lengths := congrArg List.length same
        have bound := flatMap_logged_length_le later
        simp only [List.length_append] at lengths
        unfold Exchange.Sound at first
        omega
      · rintro ⟨complete, rest⟩
        rw [rest, show taken.logged = taken.produced from complete]

/-- A complete log stays complete through sound exchanges if and only if each of them is. -/
theorem run_complete_iff (complete : pair.logged = pair.produced)
    (sound : ∀ taken ∈ exchanges, taken.Sound) :
    (Machine.run exchange pair exchanges).logged =
        (Machine.run exchange pair exchanges).produced ↔
      ∀ taken ∈ exchanges, taken.Complete := by
  rw [run_logged, run_produced, complete, List.append_cancel_left_eq]
  exact flatMap_logged_eq_iff sound

/-- The view after the exchanges is that of the last one. -/
theorem sourceAfter_eq_iff {view source : View} (agrees : exchanges = [] → view = source) :
    view = sourceAfter source exchanges ↔ ∀ last ∈ exchanges.getLast?, view = last.source := by
  obtain rfl | ⟨front, last, rfl⟩ := exchanges.eq_nil_or_concat
  · simpa [sourceAfter] using agrees rfl
  · simp [sourceAfter]

/-- The views agree after exchanges if and only if they do after the last one. -/
theorem run_current_iff (agrees : exchanges = [] → pair.shown = pair.source) :
    (Machine.run exchange pair exchanges).shown = (Machine.run exchange pair exchanges).source ↔
      Current pair.shown exchanges := by
  rw [run_shown, run_source]
  refine sourceAfter_eq_iff fun empty => ?_
  rw [empty]
  exact agrees empty

end Mirror
