import Typio.Engines.Mozc
import Typio.Engines.RimeOutput
import Typio.Mirror

/-!
# The output of the engines

The context mirrors `mozc_server`: every call is an exchange in which the output of the server is
read or not.  An output is not read when it does not arrive, when it says that the key was not
consumed, or when it answers a reset.  A run of keys keeps a context in step with its engine's
backend exactly when nothing that is not read is needed.
-/

namespace Typio

namespace Engines

open Typio.Core

abbrev MozcExchange := Mirror.Exchange UInt8 TypioComposition

namespace MozcReply

/-- The exchange of a call whose output goes to `mozc_sync_output` if it is read. -/
def exchange (reply : MozcReply) (read : Bool) : MozcExchange where
  produced := reply.output.text
  logged := if read then reply.output.text else []
  source := reply.output.composition.view
  shown := if read then some reply.output.composition.view else none

/-- The exchange of a call after which the context is cleared. -/
def clearingExchange (reply : MozcReply) : MozcExchange where
  produced := reply.output.text
  logged := []
  source := reply.output.composition.view
  shown := some TypioComposition.idle.view

end MozcReply

namespace MozcHost

/-- A key. -/
structure Event where
  key : TypioKeyEvent
  conduct : MozcConduct

def step (host : MozcHost) (event : Event) : MozcHost :=
  (host.processKey event.key event.conduct).1

/-- A context which the engine was not used in yet. -/
def start (lastMode : Option EngineMode) : MozcHost where
  context := .new
  session := none
  lastMode := lastMode
  produced := []
  server := .idle

/-- The text the server produced was committed, and the composition of a session is shown. -/
structure InStep (host : MozcHost) : Prop where
  complete : host.context.committed = host.produced
  shown : host.session.isSome = true → host.context.composition.Same host.server

/-! ## The exchanges of a key -/

/-- The mode of the session a key meets, and the exchange which activates a new session. -/
def opening (host : MozcHost) (conduct : MozcConduct) : List MozcExchange × Option MozcSession :=
  match host.session with
  | some session => ([], some session)
  | none =>
      if conduct.created then
        ([conduct.activated.exchange conduct.activated.received],
          some (if conduct.activated.received then
            MozcSession.update { mode := .direct } conduct.activated.output
            else { mode := .direct }))
      else ([], none)

/-- The exchange which activates a session that is in an ASCII mode. -/
def reactivation (event : Event) (session : MozcSession) : List MozcExchange :=
  if reactivates event.key session then
    [event.conduct.reactivated.exchange event.conduct.reactivated.received]
  else []

/-- The exchange of the key itself; the output of a key which was not consumed is not read. -/
def sending (event : Event) : List MozcExchange :=
  match event.key.mozcKey with
  | none => []
  | some key =>
      let reply := event.conduct.key key
      [reply.exchange (reply.received && reply.output.consumed)]

/-- All the exchanges of a key. -/
def exchanges (host : MozcHost) (event : Event) : List MozcExchange :=
  if !event.key.isRelease && event.key.isEscape && host.context.composition.active then
    if host.session.isSome then [event.conduct.command.clearingExchange] else []
  else
    match (host.opening event.conduct).2 with
    | none => (host.opening event.conduct).1
    | some session =>
        (host.opening event.conduct).1 ++ reactivation event session ++ sending event

/-- Text is only in outputs which are read, and the last output shows what is shown if it is not
read. -/
structure Lossless (host : MozcHost) (event : Event) : Prop where
  texts : ∀ taken ∈ host.exchanges event, taken.Complete
  view : Mirror.Current host.context.composition.view (host.exchanges event)

/-! ## The context as a mirror -/

def pair (host : MozcHost) : Mirror.Pair UInt8 TypioComposition where
  produced := host.produced
  logged := host.context.committed
  source := host.server.view
  shown := host.context.composition.view

end MozcHost

namespace MozcOutput

theorem composition_plain (output : MozcOutput) (inactive : output.composition.active = false) :
    output.composition.cursorPos = 0 := by
  simp only [TypioComposition.active, composition, Bool.or_eq_false_iff,
    Bool.not_eq_false'] at inactive
  simp [composition, inactive.1]

end MozcOutput

namespace MozcHost

variable (host : MozcHost)

/-- Reading an output delivers its text and its composition. -/
theorem syncOutput_pair (reply : MozcReply) (session : MozcSession) :
    ((host.called reply).syncOutput reply.output session).1.pair =
      Mirror.exchange host.pair (reply.exchange true) := by
  have shown (context : InputContext) := (TypioComposition.same_iff_view ..).mp
    (InputContext.sync_same context reply.output.composition_plain)
  by_cases silent : reply.output.text = []
  · simp [syncOutput, called, pair, Mirror.exchange, MozcReply.exchange, silent, shown]
  · simp [syncOutput, called, pair, Mirror.exchange, MozcReply.exchange, silent, shown]

theorem called_pair (reply : MozcReply) :
    (host.called reply).pair = Mirror.exchange host.pair (reply.exchange false) := by
  simp [called, pair, Mirror.exchange, MozcReply.exchange]

theorem called_clearState_pair (reply : MozcReply) :
    (host.called reply).clearState.pair = Mirror.exchange host.pair reply.clearingExchange := by
  have cleared := (TypioComposition.same_iff_view ..).mp host.context.clear_same
  simp [clearState, called, pair, Mirror.exchange, MozcReply.clearingExchange, cleared]

theorem activateSession_pair (session : MozcSession) (reply : MozcReply) :
    (host.activateSession session reply).1.pair =
      Mirror.exchange host.pair (reply.exchange reply.received) := by
  unfold activateSession
  cases arrived : reply.received with
  | false => exact called_pair host reply
  | true => exact syncOutput_pair host reply _

theorem sendKey_pair (event : Event) (session : MozcSession) :
    (host.sendKey event.key session event.conduct).1.pair =
      Machine.run Mirror.exchange host.pair (sending event) := by
  unfold sendKey sending
  cases event.key.mozcKey with
  | none => rfl
  | some key =>
      cases arrived : (event.conduct.key key).received with
      | false => simpa [arrived] using called_pair host (event.conduct.key key)
      | true =>
          cases consumed : (event.conduct.key key).output.consumed with
          | false => simpa [arrived, consumed] using called_pair host (event.conduct.key key)
          | true =>
              simpa [arrived, consumed] using
                syncOutput_pair host (event.conduct.key key) session

/-- What `mozc_get_session` gives, and the exchange in which it activates a new session. -/
theorem getSession_pair (conduct : MozcConduct) :
    (host.getSession conduct true).2 = (host.opening conduct).2 ∧
      (host.getSession conduct true).1.pair =
        Machine.run Mirror.exchange host.pair (host.opening conduct).1 := by
  unfold getSession opening
  cases host.session with
  | some session => exact ⟨rfl, rfl⟩
  | none =>
      cases conduct.created with
      | false => exact ⟨rfl, rfl⟩
      | true =>
          refine ⟨?_, activateSession_pair _ _ conduct.activated⟩
          cases arrived : conduct.activated.received <;> simp [activateSession, arrived]

theorem activateSession_session (session : MozcSession) (reply : MozcReply)
    (held : host.session.isSome = true) :
    (host.activateSession session reply).1.session.isSome = true := by
  unfold activateSession
  dsimp only
  split
  · exact held
  · rfl

theorem sendKey_session (event : TypioKeyEvent) (session : MozcSession) (conduct : MozcConduct)
    (held : host.session.isSome = true) :
    (host.sendKey event session conduct).1.session.isSome = true := by
  unfold sendKey
  cases event.mozcKey with
  | none => exact held
  | some key =>
      dsimp only
      split
      · exact held
      split
      · exact held
      · rfl

theorem getSession_session (conduct : MozcConduct) :
    (host.getSession conduct true).1.session.isSome = (host.getSession conduct true).2.isSome := by
  unfold getSession
  cases held : host.session with
  | some session => simp [held]
  | none =>
      cases conduct.created with
      | false => simp [held]
      | true => simpa using activateSession_session _ _ conduct.activated rfl

/-- A key takes the context through its exchanges, unless there is no session to hand it to. -/
theorem step_pair (event : Event) (reached : (host.step event).session.isSome = true) :
    (host.step event).pair = Machine.run Mirror.exchange host.pair (host.exchanges event) := by
  unfold step processKey exchanges at *
  split
  next escape =>
    rw [if_pos escape] at reached
    unfold reset getSession at *
    cases held : host.session with
    | none => simp [held, clearState] at reached
    | some session => exact called_clearState_pair host event.conduct.command
  next handed =>
    rw [if_neg handed] at reached
    obtain ⟨same, opened⟩ := host.getSession_pair event.conduct
    cases got_eq : host.getSession event.conduct true with
    | mk after got =>
        rw [got_eq] at reached same opened
        dsimp only at reached same opened ⊢
        rw [← same]
        cases got with
        | none => exact opened
        | some session =>
            dsimp only
            rw [Machine.run_append, Machine.run_append, ← opened]
            unfold reactivation
            split
            · rw [sendKey_pair, activateSession_pair]
              rfl
            · exact sendKey_pair after event session

/-- Without a session in the end there was none before, and the server was not called. -/
theorem step_without (event : Event) (without : (host.step event).session = none) :
    host.session = none ∧ host.exchanges event = [] ∧
      (host.step event).context.committed = host.context.committed ∧
        (host.step event).produced = host.produced := by
  unfold step processKey exchanges at *
  split
  next escape =>
    rw [if_pos escape] at without
    unfold reset getSession at *
    cases held : host.session with
    | none => simp [clearState]
    | some session => simp [held, called, clearState] at without
  next handed =>
    rw [if_neg handed] at without
    obtain ⟨same, -⟩ := host.getSession_pair event.conduct
    have alive := host.getSession_session event.conduct
    cases got_eq : host.getSession event.conduct true with
    | mk after got =>
        rw [got_eq] at same alive
        simp only [got_eq] at without ⊢
        dsimp only at same alive
        rw [← same]
        cases got with
        | some session =>
            have kept : (host.step event).session.isSome = true := by
              unfold step processKey
              rw [if_neg handed, got_eq]
              dsimp only
              split
              · exact sendKey_session _ _ _ _ (activateSession_session _ _ _ alive)
              · exact sendKey_session _ _ _ _ alive
            unfold step processKey at kept
            rw [if_neg handed, got_eq] at kept
            simp [without] at kept
        | none =>
            unfold getSession at got_eq
            unfold opening at same ⊢
            cases held : host.session with
            | some session => simp [held] at got_eq
            | none =>
                cases created : event.conduct.created with
                | true => simp [held, created] at same
                | false =>
                    simp only [held, created] at got_eq
                    obtain ⟨rfl, -⟩ := got_eq
                    simp

variable {host}

theorem exchange_sound (reply : MozcReply) (read : Bool) : (reply.exchange read).Sound := by
  cases read <;> simp [Mirror.Exchange.Sound, MozcReply.exchange]

theorem opening_sound (conduct : MozcConduct) :
    ∀ taken ∈ (host.opening conduct).1, taken.Sound := by
  unfold opening
  split
  · simp
  · split
    · simpa using exchange_sound _ _
    · simp

theorem exchanges_sound (host : MozcHost) (event : Event) :
    ∀ taken ∈ host.exchanges event, taken.Sound := by
  have opened := host.opening_sound event.conduct
  unfold exchanges
  split
  · split
    · simp [Mirror.Exchange.Sound, MozcReply.clearingExchange]
    · simp
  split
  · exact opened
  next session _ =>
    intro taken member
    simp only [List.mem_append] at member
    obtain (first | again) | sent := member
    · exact opened taken first
    · unfold reactivation at again
      split at again
      · rw [List.mem_singleton.mp again]
        exact exchange_sound _ _
      · simp at again
    · unfold sending at sent
      split at sent
      · simp at sent
      · rw [List.mem_singleton.mp sent]
        exact exchange_sound _ _

/-- A new session is activated in an exchange. -/
theorem exchanges_ne_nil (event : Event) (fresh : host.session = none)
    (reached : (host.step event).session.isSome = true) : host.exchanges event ≠ [] := by
  unfold step processKey at reached
  unfold exchanges
  split
  next escape =>
    rw [if_pos escape] at reached
    simp [reset, getSession, fresh, clearState] at reached
  next handed =>
    rw [if_neg handed] at reached
    cases created : event.conduct.created with
    | false => simp [getSession, fresh, created] at reached
    | true => simp [opening, fresh, created]

/-- A key keeps the context in step if and only if nothing is lost. -/
theorem step_inStep_iff (event : Event) (kept : host.InStep) :
    (host.step event).InStep ↔ host.Lossless event := by
  cases reached : (host.step event).session.isSome with
  | false =>
      obtain ⟨-, silent, committed, produced⟩ :=
        host.step_without event (by simpa using reached)
      refine iff_of_true ⟨?_, by simp [reached]⟩ ⟨by simp [silent], by simp [silent, Mirror.Current]⟩
      rw [committed, produced, kept.complete]
  | true =>
      have pair := host.step_pair event reached
      have complete := Mirror.run_complete_iff (show host.pair.logged = host.pair.produced from
        kept.complete) (host.exchanges_sound event)
      have current := @Mirror.run_current_iff _ _ host.pair (host.exchanges event) fun silent => by
          cases held : host.session with
          | none => exact absurd silent (exchanges_ne_nil event held reached)
          | some session =>
              exact (TypioComposition.same_iff_view ..).mp (kept.shown (by simp [held]))
      rw [← pair] at complete current
      constructor
      · rintro ⟨whole, shown⟩
        exact ⟨complete.mp whole,
          current.mp ((TypioComposition.same_iff_view ..).mp (shown reached))⟩
      · rintro ⟨texts, view⟩
        exact ⟨complete.mpr texts,
          fun _ => (TypioComposition.same_iff_view ..).mpr (current.mpr view)⟩

theorem always_inStep_iff (lastMode : Option EngineMode) (events : List Event) :
    Machine.Always step InStep (start lastMode) events ↔
      Machine.EachStep step Lossless (start lastMode) events := by
  apply Machine.always_iff_eachStep (fun _ => True)
  · intro host event _ kept
    exact step_inStep_iff event kept
  · intros
    trivial
  · trivial
  · exact ⟨rfl, by simp [start]⟩

end MozcHost

/-! ## Both engines -/

/-- With either engine a context receives the text its backend produces and shows what it composes
if and only if nothing that the engine does not fetch is needed. -/
theorem inStep_iff_lossless (state : RimeState) (lastMode : Option EngineMode)
    (rimeEvents : List RimeHost.Event) (mozcEvents : List MozcHost.Event) :
    (Machine.Always RimeHost.step RimeHost.InStep (.start state lastMode) rimeEvents ↔
        Machine.EachStep RimeHost.step RimeHost.Lossless (.start state lastMode) rimeEvents) ∧
      (Machine.Always MozcHost.step MozcHost.InStep (.start lastMode) mozcEvents ↔
        Machine.EachStep MozcHost.step MozcHost.Lossless (.start lastMode) mozcEvents) :=
  ⟨RimeHost.always_inStep_iff state lastMode rimeEvents,
    MozcHost.always_inStep_iff lastMode mozcEvents⟩

namespace RimeHost

/-- The letter `n` is composed, and the release of Shift commits it without being handled. -/
def shiftCommits : List Event :=
  let composed : RimeContext :=
    { preedit := some [110]
      cursorPos := 1
      menu :=
        { candidates := [], highlightedCandidateIndex := 0, pageNo := 0, pageSize := 5,
          isLastPage := true, selectKeys := none }
      selectLabels := none }
  let quiet (context : Option RimeContext) : RimeReply :=
    { context, asciiMode := false, notified := [] }
  let conduct : RimeConduct :=
    { found := true, maintaining := false, stillMaintaining := false, built := true
      started := true, sync := false, created := some (quiet none)
      selected := (true, quiet none), reselected := (true, quiet none), cleared := quiet none
      key := fun keysym mask =>
        if keysym = 110 then { quiet (some composed) with handled := mask = 0, text := [] }
        else { quiet none with handled := false, text := [110] }
      optionSet := quiet none }
  [.key { isRelease := false, keysym := 110, modifiers := 0 } conduct,
    .key { isRelease := true, keysym := Keysym.shiftL, modifiers := 0 } conduct]

end RimeHost

namespace MozcHost

/-- The server commits a text with a key which it does not consume. -/
def unconsumedCommits : List Event :=
  let silent : MozcOutput :=
    { consumed := true, result := none, preedit := none, candidateWindow := none
      mode := some .hiragana, statusMode := none }
  let arrives (output : MozcOutput) : MozcReply := { output, received := true }
  let commits : MozcOutput :=
    { silent with consumed := false, result := some { string := true, value := [97] } }
  [{ key := { isRelease := false, keysym := 97, modifiers := 0 }
     conduct :=
      { created := true, activated := arrives silent, reactivated := arrives silent
        key := fun _ => arrives commits, command := arrives silent } }]

end MozcHost

/-- The text stays in librime, and the old preedit in the context; what `mozc_server` commits with
a key that it does not consume is dropped. -/
theorem unhandled_output_lost :
    ¬ Machine.Always RimeHost.step RimeHost.InStep
        (.start { schema := [], maintenanceDone := true, deployId := 0, deployments := 0 } none)
          RimeHost.shiftCommits ∧
      ¬ Machine.Always MozcHost.step MozcHost.InStep (.start none) MozcHost.unconsumedCommits := by
  constructor
  · intro always
    have complete := always.final.complete
    revert complete
    decide
  · intro always
    have complete := always.final.complete
    revert complete
    decide

end Engines

end Typio
