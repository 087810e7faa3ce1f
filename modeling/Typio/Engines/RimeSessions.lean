import Typio.Engines.Rime

/-!
# The sessions of the Rime engine

What `typio_rime_get_session` does to the context it is called for: it only replaces the session,
and it gives none exactly when the context is left without a session librime finds.
-/

namespace Typio

namespace Engines

open Typio.Core

namespace RimeHost

/-- The context and what librime produced for it are as before. -/
structure SameContext (before after : RimeHost) : Prop where
  context : after.context = before.context
  produced : after.produced = before.produced

/-- The context with its session is as before. -/
structure SameSession (before after : RimeHost) : Prop extends SameContext before after where
  session : after.session = before.session

namespace SameContext

variable {before middle after : RimeHost}

theorem refl (host : RimeHost) : SameContext host host := ⟨rfl, rfl⟩

theorem trans (first : SameContext before middle) (second : SameContext middle after) :
    SameContext before after :=
  ⟨second.context.trans first.context, second.produced.trans first.produced⟩

end SameContext

namespace SameSession

variable {before middle after : RimeHost}

theorem refl (host : RimeHost) : SameSession host host := ⟨.refl host, rfl⟩

theorem trans (first : SameSession before middle) (second : SameSession middle after) :
    SameSession before after :=
  ⟨first.toSameContext.trans second.toSameContext, second.session.trans first.session⟩

theorem notification (host : RimeHost) (heard : RimeNotification) :
    SameSession host (host.notification heard) := by
  cases heard with
  | deploy success => cases success <;> exact ⟨⟨rfl, rfl⟩, rfl⟩
  | asciiMode on => exact ⟨⟨rfl, rfl⟩, rfl⟩

theorem hear (host : RimeHost) (notified : List RimeNotification) :
    SameSession host (host.hear notified) := by
  induction notified generalizing host with
  | nil => exact .refl host
  | cons heard notified ih => exact (notification host heard).trans (ih _)

theorem withState (host : RimeHost) (state : RimeState) : SameSession host { host with state } :=
  ⟨⟨rfl, rfl⟩, rfl⟩

theorem selectSchema (host : RimeHost) (session : RimeSession) (answer : Bool × RimeReply) :
    SameSession host (host.selectSchema session answer).1 :=
  hear host answer.2.notified

theorem applySchema (host : RimeHost) (session : RimeSession) (conduct : RimeConduct) :
    SameSession host (host.applySchema session conduct).1 := by
  have asked := selectSchema host session conduct.selected
  unfold RimeHost.applySchema
  split
  · exact .refl host
  dsimp only
  split
  · have deployed := asked.trans (withState _
      ((host.selectSchema session conduct.selected).1.state.ensureDeployed conduct).1)
    split
    · exact deployed
    · exact deployed.trans (selectSchema _ _ _)
  · exact asked

end SameSession

/-! ## The session which a call gets -/

/-- Selecting a schema neither commits text nor loses the session. -/
theorem selectSchema_session (host : RimeHost) (session : RimeSession)
    (answer : Bool × RimeReply) :
    (host.selectSchema session answer).2.1.librime.commit = session.librime.commit ∧
      (host.selectSchema session answer).2.1.librime.found = session.librime.found := by
  unfold selectSchema
  dsimp only
  split <;> exact ⟨rfl, rfl⟩

theorem applySchema_session (host : RimeHost) (session : RimeSession) (conduct : RimeConduct) :
    (host.applySchema session conduct).2.1.librime.commit = session.librime.commit ∧
      (host.applySchema session conduct).2.1.librime.found = session.librime.found := by
  have asked := host.selectSchema_session session conduct.selected
  unfold applySchema
  split
  · exact ⟨rfl, rfl⟩
  dsimp only
  split
  · split
    · exact asked
    · have again := selectSchema_session
        { (host.selectSchema session conduct.selected).1 with
          state := ((host.selectSchema session conduct.selected).1.state.ensureDeployed conduct).1 }
        (host.selectSchema session conduct.selected).2.1 conduct.reselected
      exact ⟨again.1.trans asked.1, again.2.trans asked.2⟩
  · exact asked

/-- The context has no session which librime finds. -/
def Without (host : RimeHost) : Prop :=
  ∀ session ∈ host.session, session.librime.found = false

/-- No text waits in the session for the next `get_commit`. -/
def Flushed (host : RimeHost) : Prop :=
  ∀ session ∈ host.session, session.librime.commit = []

/-- What a call gets: nothing, and the context has no session, or the session of the context. -/
structure Got (before : RimeHost) (result : RimeHost × Option RimeSession) : Prop
    extends SameContext before result.1 where
  none : result.2 = none → result.1.Without
  some : ∀ session ∈ result.2, result.1.session = some session ∧ session.librime.found = true
  flushed : before.Flushed → result.1.Flushed

/-- The host once the deployment is ensured. -/
def deployed (host : RimeHost) (conduct : RimeConduct) : RimeHost :=
  { host with state := (host.state.ensureDeployed conduct).1 }

/-- A new session to which the schema was applied. -/
def made (host : RimeHost) (conduct : RimeConduct) (reply : RimeReply) :
    RimeHost × RimeSession × Bool :=
  ((host.deployed conduct).hear reply.notified).applySchema
    ((host.deployed conduct).newSession reply) conduct

/-- How the creation of a session ends: librime is still deploying or creates none, the schema is
refused, or the session is stored with its mode. -/
theorem createSession_cases (host : RimeHost) (conduct : RimeConduct) :
    ((host.state.ensureDeployed conduct).2 = false ∨ conduct.created = none) ∧
        host.createSession conduct = (host.deployed conduct, none) ∨
      (host.state.ensureDeployed conduct).2 = true ∧ ∃ reply ∈ conduct.created,
        (host.made conduct reply).2.2 = false ∧
            host.createSession conduct = ((host.made conduct reply).1, none) ∨
          (host.made conduct reply).2.2 = true ∧
            host.createSession conduct =
              ((host.made conduct reply).1.refreshMode (host.made conduct reply).2.1,
                some { (host.made conduct reply).2.1 with
                  asciiModeKnown := true
                  asciiMode := (host.made conduct reply).2.1.librime.asciiMode }) := by
  unfold createSession
  dsimp only
  cases ready : (host.state.ensureDeployed conduct).2 with
  | false => exact .inl ⟨.inl rfl, rfl⟩
  | true =>
      cases created : conduct.created with
      | none => exact .inl ⟨.inr rfl, rfl⟩
      | some reply =>
          refine .inr ⟨rfl, reply, rfl, ?_⟩
          cases ok : (host.made conduct reply).2.2 with
          | false =>
              refine .inl ⟨rfl, ?_⟩
              unfold made deployed at ok
              simp [ok, made, deployed]
          | true =>
              refine .inr ⟨rfl, ?_⟩
              unfold made deployed at ok
              simp [ok, made, deployed, refreshMode, notifyMode]

theorem made_sameSession (host : RimeHost) (conduct : RimeConduct) (reply : RimeReply) :
    SameSession host (host.made conduct reply).1 :=
  ((SameSession.withState host _).trans (.hear _ reply.notified)).trans (.applySchema _ _ conduct)

theorem createSession_got {host : RimeHost} (conduct : RimeConduct) (without : host.Without) :
    Got host (host.createSession conduct) := by
  have stays {after : RimeHost} (same : SameSession host after) : Got host (after, none) :=
    { same.toSameContext with
      none := fun _ session held => without session (same.session ▸ held)
      some := fun session held => absurd held (by simp)
      flushed := fun flushed session held => flushed session (same.session ▸ held) }
  obtain ⟨-, ends⟩ | ⟨-, reply, -, ⟨-, ends⟩ | ⟨-, ends⟩⟩ := host.createSession_cases conduct
  · rw [ends]
    exact stays (.withState host _)
  · rw [ends]
    exact stays (host.made_sameSession conduct reply)
  · have same := host.made_sameSession conduct reply
    have made := applySchema_session ((host.deployed conduct).hear reply.notified)
      ((host.deployed conduct).newSession reply) conduct
    rw [ends]
    refine ⟨⟨same.context, same.produced⟩, by simp, ?_, ?_⟩
    · rintro session ⟨rfl⟩
      exact ⟨rfl, made.2⟩
    · rintro - session ⟨rfl⟩
      exact made.1

/-- The first half of `typio_rime_get_session`: the session of the property, if it may be used. -/
def lookup (host : RimeHost) (conduct : RimeConduct) : RimeHost × Option RimeSession :=
  match host.session with
  | none => (host, none)
  | some session =>
      if conduct.found then
        if session.deployId = host.state.deployId then
          ({ host with session := some (findSession session true) },
            some (findSession session true))
        else ({ host with session := none }, none)
      else ({ host with session := some (findSession session false) }, none)

/-- A call gets the session of the property, or one that is created. -/
theorem getSession_eq (host : RimeHost) (conduct : RimeConduct) (create : Bool) :
    host.getSession conduct create =
      match (host.lookup conduct).2 with
      | some session => ((host.lookup conduct).1, some session)
      | none =>
          if create then (host.lookup conduct).1.createSession conduct
          else ((host.lookup conduct).1, none) := by
  unfold getSession lookup
  cases host.session with
  | none => rfl
  | some session =>
      cases found : conduct.found with
      | false => rfl
      | true =>
          by_cases current : session.deployId = host.state.deployId
          · simp [findSession, current]
          · simp [findSession, current]

theorem lookup_got (host : RimeHost) (conduct : RimeConduct) : Got host (host.lookup conduct) := by
  unfold lookup
  cases held : host.session with
  | none => exact ⟨.refl host, fun _ => by simp [Without, held], by simp, fun flushed => flushed⟩
  | some session =>
      have kept (found : Bool) : host.Flushed →
          Flushed { host with session := some (findSession session found) } := by
        rintro flushed _ ⟨rfl⟩
        exact flushed session held
      dsimp only
      split
      · split
        · refine ⟨⟨rfl, rfl⟩, by simp, ?_, kept true⟩
          rintro _ ⟨rfl⟩
          exact ⟨rfl, rfl⟩
        · exact ⟨⟨rfl, rfl⟩, by simp [Without], by simp, by simp [Flushed]⟩
      · refine ⟨⟨rfl, rfl⟩, ?_, by simp, kept false⟩
        rintro - _ ⟨rfl⟩
        rfl

theorem getSession_got (host : RimeHost) (conduct : RimeConduct) (create : Bool) :
    Got host (host.getSession conduct create) := by
  have looked := host.lookup_got conduct
  rw [getSession_eq]
  split
  next session got =>
    rw [← got]
    exact looked
  next absent =>
    split
    · have created := createSession_got conduct (looked.none absent)
      exact ⟨looked.toSameContext.trans created.toSameContext, created.none, created.some,
        fun flushed => created.flushed (looked.flushed flushed)⟩
    · rw [← absent]
      exact looked

end RimeHost

end Engines

end Typio
