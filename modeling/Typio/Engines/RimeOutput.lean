import Typio.Engines.RimeSessions
import Typio.Machine

/-!
# The output of the Rime engine

A context that is given keys is to have received the text librime produced and to show what it
composes.  For a key which librime does not handle neither is fetched: a run keeps both exactly
when such keys produce nothing and leave what is shown, and when clearing the composition for
Escape leaves nothing composed.
-/

namespace Typio

namespace Engines

open Typio.Core

/-- What a session composes after a reply. -/
def RimeReply.composition (reply : RimeReply) : TypioComposition :=
  reply.context.elim .idle RimeContext.composition

namespace RimeContext

theorem composition_plain (context : RimeContext) (inactive : context.composition.active = false) :
    context.composition.cursorPos = 0 := by
  have bare : context.hasPreedit = false := by
    by_contra present
    simp [TypioComposition.active, composition, present] at inactive
  simp [composition, bare]

end RimeContext

namespace RimeHost

/-- A key, or a notification of librime between two keys. -/
inductive Event where
  | key (event : TypioKeyEvent) (conduct : RimeConduct)
  | notified (heard : RimeNotification)

def step (host : RimeHost) : Event → RimeHost
  | .key event conduct => (host.processKey event conduct).1
  | .notified heard => host.notification heard

/-- The engine in any state, and a context which it was not used in yet. -/
def start (state : RimeState) (lastMode : Option EngineMode) : RimeHost where
  state := state
  context := .new
  session := none
  lastMode := lastMode
  produced := []

/-- The text librime produced was committed, and a session librime has is shown. -/
structure InStep (host : RimeHost) : Prop where
  complete : host.context.committed = host.produced
  shown : ∀ session ∈ host.session, session.librime.found = true →
    host.context.composition.Same session.librime.composition

/-- Escape on a composition reaches a session whose composition the call clears. -/
def EscapeClears (host : RimeHost) (conduct : RimeConduct) : Prop :=
  host.context.composition.active = true → (host.getSession conduct false).2.isSome = true →
    conduct.cleared.composition.Same .idle

/-- A key which librime did not handle produced no text and left the composition which is shown. -/
def Idle (host : RimeHost) (reply : RimeKeyReply) : Prop :=
  reply.handled = false → reply.text = [] ∧ host.context.composition.Same reply.composition

/-- What the engine does not fetch is not needed. -/
def Lossless (host : RimeHost) : Event → Prop
  | .notified _ => True
  | .key event conduct =>
      if !event.isRelease && event.isEscape then host.EscapeClears conduct
      else (host.getSession conduct true).2.isSome = true → host.Idle (conduct.answer event)

/-! ## What one key does -/

variable {host : RimeHost}

theorem clearState_inStep (complete : host.context.committed = host.produced)
    (without : host.Without) : host.clearState.InStep :=
  ⟨complete, fun session held found => by
    rw [without session held] at found
    exact absurd found (by decide)⟩

/-- Only the session and the mode change when librime has seen the key. -/
theorem keySession_spec (session : RimeSession) (reply : RimeKeyReply) :
    let polled := host.keySession session reply
    polled.1.session = some polled.2 ∧ polled.1.context = host.context ∧
      polled.1.produced = host.produced ++ reply.text ∧
        polled.2.librime.commit = session.librime.commit ++ reply.text ∧
          polled.2.librime.composition = reply.composition ∧
            polled.2.librime.found = session.librime.found := by
  have heard := SameSession.hear host reply.notified
  unfold keySession
  dsimp only
  split
  · exact ⟨rfl, heard.context, rfl, rfl, rfl, rfl⟩
  · exact ⟨rfl, heard.context, rfl, rfl, rfl, rfl⟩

/-- After a handled key the text was committed and the composition is shown. -/
theorem flushCommit_syncContext_spec (host : RimeHost) (session : RimeSession) :
    let synced := ((host.flushCommit session).1.syncContext session).1
    synced.context.committed = host.context.committed ++ session.librime.commit ∧
      synced.produced = host.produced ∧
        synced.context.composition.Same session.librime.composition ∧
          synced.session =
            some { session with librime := { session.librime with commit := [] } } := by
  have flushed : (host.flushCommit session).1.context.committed =
        host.context.committed ++ session.librime.commit ∧
      (host.flushCommit session).1.produced = host.produced ∧
        (host.flushCommit session).1.session =
          some { session with librime := { session.librime with commit := [] } } := by
    unfold flushCommit
    dsimp only
    split
    · next empty => simp [List.isEmpty_iff.mp empty]
    · exact ⟨rfl, rfl, rfl⟩
  unfold syncContext
  cases composed : session.librime.context with
  | none =>
      refine ⟨flushed.1, flushed.2.1, ?_, flushed.2.2⟩
      simp only [LibrimeSession.composition, composed, Option.elim_none]
      exact InputContext.clear_same _
  | some context =>
      refine ⟨?_, flushed.2.1, ?_, flushed.2.2⟩
      · simpa using flushed.1
      · simp only [LibrimeSession.composition, composed, Option.elim_some]
        exact InputContext.sync_same _ context.composition_plain

/-- The session after a reset is the one before it, with the cleared context. -/
theorem reset_inStep_iff (conduct : RimeConduct) (kept : host.InStep) :
    (host.reset conduct).InStep ↔
      ((host.getSession conduct false).2.isSome = true →
        conduct.cleared.composition.Same .idle) := by
  have got := host.getSession_got conduct false
  unfold reset
  split
  next reached got_eq =>
    rw [got_eq] at got ⊢
    have complete : reached.context.committed = reached.produced := by
      rw [got.context, got.produced, kept.complete]
    exact iff_of_true (clearState_inStep complete (got.none rfl)) (by simp)
  next reached session got_eq =>
    rw [got_eq] at got ⊢
    obtain ⟨-, found⟩ := got.some session rfl
    have heard := SameSession.hear reached conduct.cleared.notified
    have complete : (reached.hear conduct.cleared.notified).clearState.context.committed =
        (reached.hear conduct.cleared.notified).clearState.produced := by
      change (reached.hear _).context.committed = (reached.hear _).produced
      rw [heard.context, heard.produced, got.context, got.produced, kept.complete]
    have cleared := InputContext.clear_same (reached.hear conduct.cleared.notified).context
    have final (asciiMode : Bool) :
        ((reached.hear conduct.cleared.notified).clearState.notifyMode
          (session.after conduct.cleared) asciiMode).InStep ↔
            ((some session).isSome = true → conduct.cleared.composition.Same .idle) := by
      constructor
      · rintro ⟨-, shown⟩ -
        exact (shown _ rfl found).symm.trans cleared
      · intro idle
        refine ⟨complete, ?_⟩
        rintro _ ⟨rfl⟩ -
        exact cleared.trans (idle rfl).symm
    dsimp only
    split
    · exact final _
    · exact final _

theorem reset_flushed (conduct : RimeConduct) (flushed : host.Flushed) :
    (host.reset conduct).Flushed := by
  have got := host.getSession_got conduct false
  unfold reset
  split
  next reached got_eq =>
    rw [got_eq] at got
    exact got.flushed flushed
  next reached session got_eq =>
    rw [got_eq] at got
    obtain ⟨held, -⟩ := got.some session rfl
    have empty := got.flushed flushed session held
    dsimp only
    split <;> rintro _ ⟨rfl⟩ <;> exact empty

/-- A key which librime handles leaves nothing to fetch. -/
theorem handled_inStep {reached : RimeHost} {session : RimeSession} (reply : RimeKeyReply)
    (complete : reached.context.committed = reached.produced)
    (flushed : session.librime.commit = []) :
    let polled := reached.keySession session reply
    ((polled.1.flushCommit polled.2).1.syncContext polled.2).1.InStep := by
  obtain ⟨-, context, produced, commit, -, -⟩ := reached.keySession_spec session reply
  obtain ⟨committed, same, shown, held⟩ := flushCommit_syncContext_spec
    (reached.keySession session reply).1 (reached.keySession session reply).2
  dsimp only
  refine ⟨?_, ?_⟩
  · rw [committed, same, context, produced, commit, flushed, complete, List.nil_append]
  · rw [held]
    rintro _ ⟨rfl⟩ -
    exact shown

/-- A key which librime does not handle leaves what the context shows, and the text it produced. -/
theorem unhandled_inStep_iff {reached : RimeHost} {session : RimeSession} (reply : RimeKeyReply)
    (complete : reached.context.committed = reached.produced)
    (found : session.librime.found = true) :
    (reached.keySession session reply).1.InStep ↔
      reply.text = [] ∧ reached.context.composition.Same reply.composition := by
  obtain ⟨held, context, produced, -, composition, stays⟩ := reached.keySession_spec session reply
  constructor
  · rintro ⟨whole, shown⟩
    rw [context, produced, complete] at whole
    refine ⟨by simpa using whole, ?_⟩
    rw [← composition, ← context]
    exact shown _ held (stays.trans found)
  · rintro ⟨silent, shows⟩
    refine ⟨?_, ?_⟩
    · rw [context, produced, silent, complete, List.append_nil]
    · rw [held]
      rintro _ ⟨rfl⟩ -
      rw [context, composition]
      exact shows

/-- A key keeps the context in step if and only if nothing is lost. -/
theorem processKey_inStep_iff (event : TypioKeyEvent) (conduct : RimeConduct)
    (kept : host.InStep) (flushed : host.Flushed) :
    (host.processKey event conduct).1.InStep ↔ host.Lossless (.key event conduct) := by
  unfold processKey Lossless
  dsimp only
  split
  · unfold EscapeClears
    split
    next active => simp [active, reset_inStep_iff conduct kept]
    next inactive => simp [inactive, kept]
  have got := host.getSession_got conduct true
  split
  next reached got_eq =>
    rw [got_eq] at got ⊢
    have complete : reached.context.committed = reached.produced := by
      rw [got.context, got.produced, kept.complete]
    have without := got.none rfl
    refine iff_of_true ?_ (by simp)
    split
    · refine ⟨complete, fun session held found => ?_⟩
      rw [without session held] at found
      exact absurd found (by decide)
    · refine ⟨complete, fun session held found => ?_⟩
      rw [without session held] at found
      exact absurd found (by decide)
  next reached session got_eq =>
    rw [got_eq] at got ⊢
    obtain ⟨held, found⟩ := got.some session rfl
    have complete : reached.context.committed = reached.produced := by
      rw [got.context, got.produced, kept.complete]
    have empty := got.flushed flushed session held
    have shown : host.context = reached.context := got.context.symm
    unfold Idle
    cases handled : (conduct.answer event).handled with
    | false =>
        simp only [Bool.not_false, if_true, Option.isSome_some, forall_const]
        rw [unhandled_inStep_iff _ complete found, shown]
    | true =>
        simp only [Bool.not_true, Bool.false_eq_true, if_false, Option.isSome_some, forall_const]
        exact iff_of_true (handled_inStep _ complete empty) (by simp)

/-- Text waits in a session only after a key which was not handled. -/
theorem processKey_flushed (event : TypioKeyEvent) (conduct : RimeConduct)
    (flushed : host.Flushed) (lossless : host.Lossless (.key event conduct)) :
    (host.processKey event conduct).1.Flushed := by
  unfold Lossless at lossless
  unfold processKey
  dsimp only at lossless ⊢
  split
  · split
    · exact reset_flushed conduct flushed
    · exact flushed
  next escapes =>
    rw [if_neg escapes] at lossless
    have got := host.getSession_got conduct true
    split
    next reached got_eq =>
      rw [got_eq] at got
      split
      · exact got.flushed flushed
      · exact got.flushed flushed
    next reached session got_eq =>
      rw [got_eq] at got lossless
      obtain ⟨held, -⟩ := got.some session rfl
      have empty := got.flushed flushed session held
      obtain ⟨polled, -, -, commit, -, -⟩ := reached.keySession_spec session (conduct.answer event)
      split
      next unhandled =>
        obtain ⟨silent, -⟩ := lossless rfl (by simpa using unhandled)
        rw [Flushed, polled]
        rintro _ ⟨rfl⟩
        rw [commit, empty, silent, List.nil_append]
      · obtain ⟨-, -, -, synced⟩ := flushCommit_syncContext_spec
          (reached.keySession session (conduct.answer event)).1
          (reached.keySession session (conduct.answer event)).2
        rw [Flushed, synced]
        rintro _ ⟨rfl⟩
        rfl

/-! ## Runs -/

theorem notification_inStep (heard : RimeNotification) (kept : host.InStep) :
    (host.notification heard).InStep := by
  have same := SameSession.notification host heard
  refine ⟨?_, ?_⟩
  · rw [same.context, same.produced, kept.complete]
  · rw [same.session, same.context]
    exact kept.shown

theorem notification_flushed (heard : RimeNotification) (flushed : host.Flushed) :
    (host.notification heard).Flushed := by
  rw [Flushed, (SameSession.notification host heard).session]
  exact flushed

/-- A run of keys keeps the context in step if and only if none of them loses anything. -/
theorem always_inStep_iff (state : RimeState) (lastMode : Option EngineMode)
    (events : List Event) :
    Machine.Always step InStep (start state lastMode) events ↔
      Machine.EachStep step Lossless (start state lastMode) events := by
  apply Machine.always_iff_eachStep Flushed
  · intro host event flushed kept
    cases event with
    | key event conduct => exact processKey_inStep_iff event conduct kept flushed
    | notified heard => exact iff_of_true (notification_inStep heard kept) trivial
  · intro host event flushed kept lossless
    cases event with
    | key event conduct => exact processKey_flushed event conduct flushed lossless
    | notified heard => exact notification_flushed heard flushed
  · simp [Flushed, start]
  · exact ⟨rfl, by simp [start]⟩

end RimeHost

end Engines

end Typio
