import Mathlib.Logic.Relation
import Typio.Engines.RimeSessions

/-!
# The deployments and the schema of the Rime sessions

The engine counts its deployments in 32 bits and marks a session with the count at its creation.
Whatever the engine does, the count goes forward and a session which bears the present count has
selected the schema the engine has, unless that schema was changed behind it.
-/

namespace Typio

namespace Engines

open Typio.Core

namespace RimeState

/-- The mark of a number of deployments. -/
def mark (deployments : Nat) : UInt32 := UInt32.ofNat deployments

theorem mark_add_one (deployments : Nat) : mark deployments + 1 = mark (deployments + 1) := by
  simp [mark, UInt32.ofNat_add]

theorem mark_inj {left right : Nat} (left_lt : left < 2 ^ 32) (right_lt : right < 2 ^ 32)
    (same : mark left = mark right) : left = right := by
  have values := congrArg UInt32.toNat same
  simp only [mark, UInt32.toNat_ofNat'] at values
  omega

/-- The counter counts the deployments. -/
def Counted (state : RimeState) : Prop := state.deployId = mark state.deployments

/-- The state goes on: deployments are counted, and one that is done is undone by the next one
only. -/
structure Advances (before after : RimeState) : Prop where
  schema : after.schema = before.schema
  count : before.deployments ≤ after.deployments
  counted : before.Counted → after.Counted
  done : after.deployments = before.deployments → before.maintenanceDone = true →
    after.maintenanceDone = true

namespace Advances

variable {before middle after : RimeState}

theorem refl (state : RimeState) : Advances state state :=
  ⟨rfl, Nat.le_refl _, id, fun _ done => done⟩

theorem trans (first : Advances before middle) (second : Advances middle after) :
    Advances before after := by
  refine ⟨second.schema.trans first.schema, first.count.trans second.count,
    fun counted => second.counted (first.counted counted), fun same done => ?_⟩
  have low := first.count
  have high := second.count
  exact second.done (by omega) (first.done (by omega) done)

theorem runMaintenance (state : RimeState) (conduct : RimeConduct) :
    Advances state (state.runMaintenance conduct).1 := by
  have marked (counted : state.Counted) : state.deployId + 1 = mark (state.deployments + 1) := by
    rw [show state.deployId = mark state.deployments from counted, mark_add_one]
  unfold RimeState.runMaintenance
  dsimp only
  split
  · exact ⟨rfl, Nat.le_succ _, marked, fun same => absurd same (by simp)⟩
  · exact ⟨rfl, Nat.le_succ _, marked, fun same => absurd same (by simp)⟩

theorem ensureDeployed (state : RimeState) (conduct : RimeConduct) :
    Advances state (state.ensureDeployed conduct).1 := by
  unfold RimeState.ensureDeployed
  split
  · exact .refl state
  split
  · exact .refl state
  split
  · exact runMaintenance state conduct
  · exact ⟨rfl, Nat.le_refl _, id, fun _ _ => rfl⟩

end Advances

/-- A deployment that is ensured is done. -/
theorem ensureDeployed_done (state : RimeState) (conduct : RimeConduct)
    (ready : (state.ensureDeployed conduct).2 = true) :
    (state.ensureDeployed conduct).1.maintenanceDone = true := by
  unfold ensureDeployed at *
  split
  next done => exact done
  next pending =>
    rw [if_neg pending] at ready
    split
    next running => simp [running] at ready
    next idle =>
      rw [if_neg idle] at ready
      split
      next missing =>
        rw [if_pos missing] at ready
        simpa using (Bool.and_eq_true_iff.mp ready).2
      · rfl

end RimeState

namespace RimeSession

/-- A session that bears the mark of its deployment, which is done if it is the present one. -/
structure Marked (state : RimeState) (session : RimeSession) : Prop where
  mark : session.deployId = RimeState.mark session.librime.deployment
  count : session.librime.deployment ≤ state.deployments
  done : session.librime.deployment = state.deployments → state.maintenanceDone = true

/-- A session from the present deployment has selected the schema. -/
structure Tracks (state : RimeState) (session : RimeSession) : Prop extends Marked state session where
  schema : session.librime.deployment = state.deployments →
    session.librime.schema.getD [] = state.schema

/-- The marks do not depend on the schema of the engine. -/
theorem Marked.advance {before after : RimeState} {session : RimeSession}
    (marked : session.Marked before) (count : before.deployments ≤ after.deployments)
    (done : after.deployments = before.deployments → before.maintenanceDone = true →
      after.maintenanceDone = true) : session.Marked after := by
  have low := marked.count
  refine ⟨marked.mark, low.trans count, fun same => ?_⟩
  exact done (by omega) (marked.done (by omega))

theorem Tracks.advance {before after : RimeState} {session : RimeSession}
    (tracks : session.Tracks before) (advances : before.Advances after) : session.Tracks after := by
  have low := tracks.count
  have high := advances.count
  refine ⟨tracks.toMarked.advance high advances.done, fun same => ?_⟩
  rw [advances.schema]
  exact tracks.schema (by omega)

/-- A session from an earlier deployment need not have the schema. -/
theorem Marked.stale {state : RimeState} {session : RimeSession} (marked : session.Marked state)
    (earlier : session.librime.deployment ≠ state.deployments) : session.Tracks state :=
  ⟨marked, fun present => absurd present earlier⟩

/-- Two sessions with the same marks. -/
structure SameMarks (left right : RimeSession) : Prop where
  deployId : right.deployId = left.deployId
  deployment : right.librime.deployment = left.librime.deployment
  schema : right.librime.schema = left.librime.schema

theorem Tracks.of_sameMarks {state : RimeState} {left right : RimeSession}
    (tracks : left.Tracks state) (same : left.SameMarks right) : right.Tracks state := by
  obtain ⟨⟨mark, count, done⟩, schema⟩ := tracks
  rw [← same.deployment] at mark count done schema
  exact ⟨⟨same.deployId.trans mark, count, done⟩, fun present => same.schema ▸ schema present⟩

end RimeSession

namespace RimeHost

/-- The session of the context tracks the state. -/
def Tracked (host : RimeHost) : Prop := ∀ session ∈ host.session, session.Tracks host.state

/-- What any use of the engine does to its state and to the session. -/
structure Goes (before after : RimeHost) : Prop where
  advances : before.state.Advances after.state
  tracked : before.state.Counted → before.Tracked → after.Tracked

namespace Goes

variable {before middle after : RimeHost}

theorem refl (host : RimeHost) : Goes host host := ⟨.refl _, fun _ tracked => tracked⟩

theorem trans (first : Goes before middle) (second : Goes middle after) : Goes before after :=
  ⟨first.advances.trans second.advances, fun counted tracked =>
    second.tracked (first.advances.counted counted) (first.tracked counted tracked)⟩

/-- The session is dropped, or keeps its marks. -/
theorem of_sameMarks (advances : before.state.Advances after.state)
    (marks : ∀ session ∈ after.session, ∃ old ∈ before.session, old.SameMarks session) :
    Goes before after := by
  refine ⟨advances, fun _ tracked session held => ?_⟩
  obtain ⟨old, old_held, same⟩ := marks session held
  exact ((tracked old old_held).of_sameMarks same).advance advances

theorem of_state (state : RimeState) (advances : before.state.Advances state) :
    Goes before { before with state } :=
  of_sameMarks advances fun session held => ⟨session, held, rfl, rfl, rfl⟩

theorem notification (host : RimeHost) (heard : RimeNotification) :
    Goes host (host.notification heard) := by
  cases heard with
  | deploy success =>
      cases success with
      | false => exact .refl host
      | true => exact of_state _ ⟨rfl, Nat.le_refl _, id, fun _ _ => rfl⟩
  | asciiMode on =>
      exact of_sameMarks (.refl _) fun session held => ⟨session, held, rfl, rfl, rfl⟩

theorem hear (host : RimeHost) (notified : List RimeNotification) :
    Goes host (host.hear notified) := by
  induction notified generalizing host with
  | nil => exact .refl host
  | cons heard notified ih => exact (notification host heard).trans (ih _)

end Goes

/-! ## Selecting the schema -/

theorem selectSchema_advances (host : RimeHost) (session : RimeSession)
    (answer : Bool × RimeReply) :
    host.state.Advances (host.selectSchema session answer).1.state :=
  (Goes.hear host answer.2.notified).advances

theorem applySchema_advances (host : RimeHost) (session : RimeSession) (conduct : RimeConduct) :
    host.state.Advances (host.applySchema session conduct).1.state := by
  have asked := host.selectSchema_advances session conduct.selected
  unfold applySchema
  split
  · exact .refl _
  dsimp only
  split
  · have deployed := asked.trans (.ensureDeployed _ conduct)
    split
    · exact deployed
    · exact deployed.trans (selectSchema_advances
        { (host.selectSchema session conduct.selected).1 with
          state := ((host.selectSchema session conduct.selected).1.state.ensureDeployed conduct).1 }
        _ _)
  · exact asked

/-- Selecting a schema leaves the deployment of the session. -/
theorem applySchema_marks (host : RimeHost) (session : RimeSession) (conduct : RimeConduct) :
    (host.applySchema session conduct).2.1.deployId = session.deployId ∧
      (host.applySchema session conduct).2.1.librime.deployment = session.librime.deployment := by
  have asked (host : RimeHost) (session : RimeSession) (answer : Bool × RimeReply) :
      (host.selectSchema session answer).2.1.deployId = session.deployId ∧
        (host.selectSchema session answer).2.1.librime.deployment = session.librime.deployment := by
    unfold selectSchema
    dsimp only
    split <;> exact ⟨rfl, rfl⟩
  unfold applySchema
  split
  · exact ⟨rfl, rfl⟩
  dsimp only
  split
  · split
    · exact asked host session conduct.selected
    · obtain ⟨id, deployment⟩ := asked host session conduct.selected
      rw [← id, ← deployment]
      exact asked _ _ _
  · exact asked host session conduct.selected

theorem hear_deployments (host : RimeHost) (notified : List RimeNotification) :
    (host.hear notified).state.deployments = host.state.deployments := by
  induction notified generalizing host with
  | nil => rfl
  | cons heard notified ih =>
      refine (ih _).trans ?_
      cases heard with
      | deploy success => cases success <;> rfl
      | asciiMode on => rfl

/-- A deployment that is done stays so while librime tells of its options. -/
theorem hear_done (host : RimeHost) (notified : List RimeNotification)
    (done : host.state.maintenanceDone = true) :
    (host.hear notified).state.maintenanceDone = true :=
  (Goes.hear host notified).advances.done (hear_deployments host notified) done

/-- Once the deployment is done the schema is asked for once. -/
theorem applySchema_of_done (host : RimeHost) (session : RimeSession) (conduct : RimeConduct)
    (done : host.state.maintenanceDone = true) (named : host.state.schema ≠ []) :
    host.applySchema session conduct = host.selectSchema session conduct.selected := by
  have still : (host.selectSchema session conduct.selected).1.state.maintenanceDone = true :=
    hear_done host conduct.selected.2.notified done
  unfold applySchema
  simp [named, still]

/-- The session has the schema of the engine when it was applied. -/
theorem applySchema_spec (host : RimeHost) (session : RimeSession) (conduct : RimeConduct)
    (done : host.state.maintenanceDone = true)
    (fresh : host.state.schema = [] → session.librime.schema.getD [] = [])
    (ok : (host.applySchema session conduct).2.2 = true) :
    (host.applySchema session conduct).1.state.deployments = host.state.deployments ∧
      (host.applySchema session conduct).1.state.maintenanceDone = true ∧
        (host.applySchema session conduct).2.1.librime.schema.getD [] = host.state.schema := by
  by_cases unnamed : host.state.schema = []
  · have unchanged : host.applySchema session conduct = (host, session, true) := by
      simp [applySchema, unnamed]
    rw [unchanged, unnamed]
    exact ⟨rfl, done, fresh unnamed⟩
  · rw [host.applySchema_of_done session conduct done unnamed] at ok ⊢
    refine ⟨hear_deployments host _, hear_done host _ done, ?_⟩
    have accepted : conduct.selected.1 = true := ok
    simp [selectSchema, accepted]

/-! ## Sessions -/

/-- A session which the engine may hand a key to: librime has it, from the last deployment and with
the schema of the engine. -/
structure Handable (state : RimeState) (session : RimeSession) : Prop where
  found : session.librime.found = true
  deployment : session.librime.deployment = state.deployments
  schema : session.librime.schema.getD [] = state.schema

/-- The session is as before. -/
theorem Goes.of_session_eq {before after : RimeHost}
    (advances : before.state.Advances after.state) (same : after.session = before.session) :
    Goes before after :=
  .of_sameMarks advances fun session held => ⟨session, same ▸ held, rfl, rfl, rfl⟩

theorem deployed_goes (host : RimeHost) (conduct : RimeConduct) :
    Goes host (host.deployed conduct) :=
  .of_state _ (.ensureDeployed host.state conduct)

theorem made_advances (host : RimeHost) (conduct : RimeConduct) (reply : RimeReply) :
    host.state.Advances (host.made conduct reply).1.state :=
  ((host.deployed_goes conduct).trans (.hear _ reply.notified)).advances.trans
    (applySchema_advances _ _ conduct)

/-- The session which was just made, once the schema was applied to it. -/
theorem made_applied (host : RimeHost) (conduct : RimeConduct) (reply : RimeReply)
    (ready : (host.state.ensureDeployed conduct).2 = true) (counted : host.state.Counted)
    (ok : (host.made conduct reply).2.2 = true) :
    (host.made conduct reply).2.1.Tracks (host.made conduct reply).1.state ∧
      Handable (host.made conduct reply).1.state (host.made conduct reply).2.1 := by
  have done : (host.deployed conduct).state.maintenanceDone = true :=
    host.state.ensureDeployed_done conduct ready
  have same := (Goes.hear (host.deployed conduct) reply.notified).advances.schema
  obtain ⟨deployments, finished, schema⟩ := applySchema_spec
    ((host.deployed conduct).hear reply.notified) ((host.deployed conduct).newSession reply) conduct
    (hear_done _ _ done) (fun _ => rfl) ok
  obtain ⟨id, deployment⟩ := applySchema_marks ((host.deployed conduct).hear reply.notified)
    ((host.deployed conduct).newSession reply) conduct
  have kept := (applySchema_advances ((host.deployed conduct).hear reply.notified)
    ((host.deployed conduct).newSession reply) conduct).schema
  have found := (applySchema_session ((host.deployed conduct).hear reply.notified)
    ((host.deployed conduct).newSession reply) conduct).2
  have present : (host.made conduct reply).2.1.librime.deployment =
      (host.made conduct reply).1.state.deployments :=
    deployment.trans (deployments.trans (hear_deployments _ _)).symm
  refine ⟨⟨⟨?_, present.le, fun _ => finished⟩, fun _ => ?_⟩, found, present, ?_⟩
  · refine id.trans (Eq.trans ?_ (congrArg _ deployment.symm))
    exact (host.deployed_goes conduct).advances.counted counted
  · exact schema.trans kept.symm
  · exact schema.trans kept.symm

/-- A session is created in the present deployment, or the context is left as it is. -/
theorem createSession_spec (host : RimeHost) (conduct : RimeConduct) :
    Goes host (host.createSession conduct).1 ∧
      (host.state.Counted → ∀ session ∈ (host.createSession conduct).2,
        Handable (host.createSession conduct).1.state session) := by
  obtain ⟨-, ends⟩ | ⟨ready, reply, -, ⟨-, ends⟩ | ⟨ok, ends⟩⟩ := host.createSession_cases conduct
  · rw [ends]
    exact ⟨host.deployed_goes conduct, by simp⟩
  · rw [ends]
    exact ⟨.of_session_eq (host.made_advances conduct reply)
      (host.made_sameSession conduct reply).session, by simp⟩
  · have applied (counted : host.state.Counted) := host.made_applied conduct reply ready counted ok
    rw [ends]
    refine ⟨⟨host.made_advances conduct reply, ?_⟩, ?_⟩
    · rintro counted - session ⟨rfl⟩
      exact (applied counted).1.of_sameMarks ⟨rfl, rfl, rfl⟩
    · rintro counted session ⟨rfl⟩
      obtain ⟨found, deployment, schema⟩ := (applied counted).2
      exact ⟨found, deployment, schema⟩

theorem lookup_spec (host : RimeHost) (conduct : RimeConduct) :
    Goes host (host.lookup conduct).1 ∧
      (host.state.Counted → host.Tracked → host.state.deployments < 2 ^ 32 →
        ∀ session ∈ (host.lookup conduct).2, Handable host.state session) := by
  unfold lookup
  cases held : host.session with
  | none => exact ⟨.refl host, by simp⟩
  | some session =>
      have looked (found : Bool) :
          Goes host { host with session := some (findSession session found) } :=
        .of_sameMarks (.refl _) fun _ is => ⟨session, held, by
          obtain ⟨rfl⟩ := is
          exact ⟨rfl, rfl, rfl⟩⟩
      dsimp only
      split
      · split
        next marked =>
          refine ⟨looked true, ?_⟩
          rintro counted tracked bound _ ⟨rfl⟩
          obtain ⟨⟨mark, count, -⟩, schema⟩ := tracked session held
          have present : session.librime.deployment = host.state.deployments := by
            apply RimeState.mark_inj (by omega) bound
            rw [← mark, ← show host.state.deployId = _ from counted]
            exact marked
          exact ⟨rfl, present, schema present⟩
        · exact ⟨.of_sameMarks (.refl _) (by simp), by simp⟩
      · exact ⟨looked false, by simp⟩

theorem lookup_state (host : RimeHost) (conduct : RimeConduct) :
    (host.lookup conduct).1.state = host.state := by
  unfold lookup
  split
  · rfl
  split
  · split <;> rfl
  · rfl

/-- What a call gets is a session of the last deployment with the schema of the engine, while the
count of deployments fits its mark. -/
theorem getSession_spec (host : RimeHost) (conduct : RimeConduct) (create : Bool) :
    Goes host (host.getSession conduct create).1 ∧
      (host.state.Counted → host.Tracked → host.state.deployments < 2 ^ 32 →
        ∀ session ∈ (host.getSession conduct create).2,
          Handable (host.getSession conduct create).1.state session) := by
  obtain ⟨looked, handable⟩ := host.lookup_spec conduct
  have state := host.lookup_state conduct
  rw [getSession_eq]
  split
  next session got =>
    refine ⟨looked, ?_⟩
    rintro counted tracked bound _ ⟨rfl⟩
    dsimp only
    rw [state]
    exact handable counted tracked bound session got
  · split
    · obtain ⟨goes, fresh⟩ := (host.lookup conduct).1.createSession_spec conduct
      exact ⟨looked.trans goes, fun counted _ _ => fresh (looked.advances.counted counted)⟩
    · exact ⟨looked, by simp⟩

/-! ## Calls -/

/-- A call on the session it got, which keeps the marks of the session. -/
theorem Goes.of_got {before reached after : RimeHost} {session : RimeSession}
    {result : RimeHost × Option RimeSession} (goes : Goes before result.1)
    (got : Got before result) (is : result = (reached, some session))
    (advances : reached.state.Advances after.state)
    (marks : ∀ last ∈ after.session, session.SameMarks last) : Goes before after := by
  rw [is] at goes got
  exact goes.trans (.of_sameMarks advances fun last held =>
    ⟨session, (got.some session rfl).1, marks last held⟩)

/-- A call which leaves a copy of the session with the same marks. -/
theorem Goes.of_copy {before reached after : RimeHost} {session last : RimeSession}
    {result : RimeHost × Option RimeSession} (goes : Goes before result.1)
    (got : Got before result) (is : result = (reached, some session))
    (advances : reached.state.Advances after.state) (copy : after.session = some last)
    (same : session.SameMarks last) : Goes before after :=
  goes.of_got got is advances fun other held => by
    rw [copy] at held
    obtain ⟨rfl⟩ := held
    exact same

theorem reset_goes (host : RimeHost) (conduct : RimeConduct) : Goes host (host.reset conduct) := by
  have goes := (host.getSession_spec conduct false).1
  have got := host.getSession_got conduct false
  unfold reset
  split
  next reached is =>
    rw [is] at goes
    exact goes.trans (.of_session_eq (.refl _) rfl)
  next reached session is =>
    have heard := (Goes.hear reached conduct.cleared.notified).advances
    dsimp only
    split
    · exact goes.of_copy got is heard rfl ⟨rfl, rfl, rfl⟩
    · exact goes.of_copy got is heard rfl ⟨rfl, rfl, rfl⟩

theorem syncContext_session (host : RimeHost) (session : RimeSession) :
    (host.syncContext session).1.session = host.session ∧
      (host.syncContext session).1.state = host.state := by
  unfold syncContext
  cases session.librime.context <;> exact ⟨rfl, rfl⟩

theorem focusIn_goes (host : RimeHost) (conduct : RimeConduct) :
    Goes host (host.focusIn conduct) := by
  have goes := (host.getSession_spec conduct true).1
  have got := host.getSession_got conduct true
  unfold focusIn
  split
  next reached is =>
    rw [is] at goes
    exact goes
  next reached session is =>
    have held : reached.session = some session := by
      rw [is] at got
      exact (got.some session rfl).1
    dsimp only
    split
    · obtain ⟨synced, state⟩ := reached.syncContext_session session
      exact goes.of_copy got is (state ▸ .refl _) (synced.trans held) ⟨rfl, rfl, rfl⟩
    · obtain ⟨synced, state⟩ := (reached.refreshMode session).syncContext_session session
      exact goes.of_copy got is (state ▸ .refl _) synced ⟨rfl, rfl, rfl⟩

theorem setMode_goes (host : RimeHost) (modeId : String) (conduct : RimeConduct) :
    Goes host (host.setMode modeId conduct).1 := by
  have goes := (host.getSession_spec conduct true).1
  have got := host.getSession_got conduct true
  unfold setMode
  split
  · exact .refl host
  split
  next reached is =>
    rw [is] at goes
    exact goes
  next reached session is =>
    split
    · exact goes.of_copy got is (Goes.hear reached conduct.optionSet.notified).advances rfl
        ⟨rfl, rfl, rfl⟩
    · rw [is] at goes
      exact goes

theorem getMode_goes (host : RimeHost) (conduct : RimeConduct) :
    Goes host (host.getMode conduct).1 := by
  have goes := (host.getSession_spec conduct false).1
  unfold getMode
  split
  next reached is =>
    rw [is] at goes
    exact goes
  next reached session is =>
    rw [is] at goes
    exact goes

/-- What librime does with a key leaves the marks of the session. -/
theorem keySession_goes (host : RimeHost) (session : RimeSession) (reply : RimeKeyReply) :
    host.state.Advances (host.keySession session reply).1.state ∧
      (host.keySession session reply).1.session = some (host.keySession session reply).2 ∧
        session.SameMarks (host.keySession session reply).2 := by
  have heard := (Goes.hear host reply.notified).advances
  unfold keySession
  dsimp only
  split <;> exact ⟨heard, rfl, rfl, rfl, rfl⟩

theorem flushCommit_state (host : RimeHost) (session : RimeSession) :
    (host.flushCommit session).1.state = host.state ∧
      (host.flushCommit session).1.session =
        some { session with librime := { session.librime with commit := [] } } := by
  unfold flushCommit
  dsimp only
  split <;> exact ⟨rfl, rfl⟩

theorem processKey_goes (host : RimeHost) (event : TypioKeyEvent) (conduct : RimeConduct) :
    Goes host (host.processKey event conduct).1 := by
  have goes := (host.getSession_spec conduct true).1
  have got := host.getSession_got conduct true
  unfold processKey
  dsimp only
  split
  · split
    · exact host.reset_goes conduct
    · exact .refl host
  split
  next reached is =>
    rw [is] at goes
    split
    · exact goes.trans (.of_session_eq (.refl _) rfl)
    · exact goes
  next reached session is =>
    obtain ⟨advances, held, deployId, deployment, schema⟩ :=
      reached.keySession_goes session (conduct.answer event)
    split
    · exact goes.of_copy got is advances held ⟨deployId, deployment, schema⟩
    · obtain ⟨flushed, taken⟩ := flushCommit_state
        (reached.keySession session (conduct.answer event)).1
        (reached.keySession session (conduct.answer event)).2
      obtain ⟨synced, state⟩ := syncContext_session
        (flushCommit (reached.keySession session (conduct.answer event)).1
          (reached.keySession session (conduct.answer event)).2).1
        (reached.keySession session (conduct.answer event)).2
      refine goes.of_copy got is ?_ (synced.trans taken) ⟨deployId, deployment, schema⟩
      rw [state, flushed]
      exact advances

/-- A key is handed to a session from the last deployment with the schema of the engine. -/
theorem handed_spec (host : RimeHost) (event : TypioKeyEvent) (conduct : RimeConduct)
    (counted : host.state.Counted) (tracked : host.Tracked)
    (bound : host.state.deployments < 2 ^ 32) :
    ∀ handed ∈ host.handed event conduct, handed.1.found = true ∧ handed.1.deployment = handed.2 ∧
      handed.1.schema.getD [] = host.state.schema := by
  obtain ⟨goes, handable⟩ := host.getSession_spec conduct true
  unfold handed
  split
  · simp
  · intro handed member
    obtain ⟨session, got, rfl⟩ := Option.map_eq_some_iff.mp member
    obtain ⟨found, deployment, schema⟩ := handable counted tracked bound session got
    exact ⟨found, deployment, schema.trans goes.advances.schema⟩

/-! ## A new schema -/

/-- `create_session` and `select_schema` succeed. -/
structure Succeeds (conduct : RimeConduct) : Prop where
  created : conduct.created.isSome = true
  selected : conduct.selected.1 = true

/-- The session bears its mark; its schema may be another one. -/
def Marked (host : RimeHost) : Prop := ∀ session ∈ host.session, session.Marked host.state

theorem applySchema_of_selected (host : RimeHost) (session : RimeSession) (conduct : RimeConduct)
    (selected : conduct.selected.1 = true) (named : host.state.schema ≠ []) :
    host.applySchema session conduct = host.selectSchema session conduct.selected := by
  have ok : (host.selectSchema session conduct.selected).2.2 = true := selected
  unfold applySchema
  simp only [List.isEmpty_iff, named, if_false, ok, Bool.not_true, Bool.false_and,
    Bool.false_eq_true]
  rw [← ok]

/-- A session follows the engine once the schema is selected on it. -/
theorem applySchema_tracks (host : RimeHost) (session : RimeSession) (conduct : RimeConduct)
    (marked : session.Marked host.state) (selected : conduct.selected.1 = true)
    (unnamed : host.state.schema = [] → session.Tracks host.state) :
    (host.applySchema session conduct).2.1.Tracks (host.applySchema session conduct).1.state := by
  by_cases named : host.state.schema = []
  · have unchanged : host.applySchema session conduct = (host, session, true) := by
      simp [applySchema, named]
    rw [unchanged]
    exact unnamed named
  · rw [host.applySchema_of_selected session conduct selected named]
    have heard := (Goes.hear host conduct.selected.2.notified).advances
    obtain ⟨mark, count, done⟩ := marked.advance heard.count heard.done
    unfold selectSchema
    simp only [selected, if_true]
    exact ⟨⟨mark, count, done⟩, fun _ => heard.schema.symm⟩

theorem applySchema_ok (host : RimeHost) (session : RimeSession) (conduct : RimeConduct)
    (selected : conduct.selected.1 = true) : (host.applySchema session conduct).2.2 = true := by
  by_cases named : host.state.schema = []
  · simp [applySchema, named]
  · rw [host.applySchema_of_selected session conduct selected named]
    exact selected

/-- Only a session of an earlier deployment is left when none can be created. -/
theorem createSession_marked (host : RimeHost) (conduct : RimeConduct) (counted : host.state.Counted)
    (marked : host.Marked) (succeeds : Succeeds conduct) :
    ((host.createSession conduct).2 = none → (host.createSession conduct).1.Tracked) ∧
      ∀ session ∈ (host.createSession conduct).2,
        session.Marked (host.createSession conduct).1.state := by
  obtain ⟨waits, ends⟩ | ⟨ready, reply, -, ⟨refused, -⟩ | ⟨ok, ends⟩⟩ :=
    host.createSession_cases conduct
  · rw [ends]
    refine ⟨fun _ session held => ?_, by simp⟩
    have ensured := RimeState.Advances.ensureDeployed host.state conduct
    have old := marked session held
    have low := old.count
    have high := ensured.count
    have earlier : session.librime.deployment ≠ host.state.deployments := by
      intro present
      obtain waiting | none := waits
      · simp [RimeState.ensureDeployed, old.done present] at waiting
      · have created := succeeds.created
        simp [none] at created
    exact (old.advance high ensured.done).stale (by omega)
  · have ok : (host.made conduct reply).2.2 = true :=
      applySchema_ok _ _ conduct succeeds.selected
    simp [ok] at refused
  · obtain ⟨mark, count, done⟩ := (host.made_applied conduct reply ready counted ok).1.toMarked
    rw [ends]
    refine ⟨by simp, ?_⟩
    rintro session ⟨rfl⟩
    exact ⟨mark, count, done⟩

theorem lookup_marked (host : RimeHost) (conduct : RimeConduct) (marked : host.Marked) :
    (host.lookup conduct).1.Marked ∧
      ∀ session ∈ (host.lookup conduct).2, session.Marked host.state := by
  unfold lookup
  cases held : host.session with
  | none => exact ⟨marked, by simp⟩
  | some session =>
      have copy (found : Bool) : (findSession session found).Marked host.state := by
        obtain ⟨mark, count, done⟩ := marked session held
        exact ⟨mark, count, done⟩
      dsimp only
      split
      · split
        · constructor <;> rintro _ ⟨rfl⟩ <;> exact copy true
        · exact ⟨by simp [Marked], by simp⟩
      · refine ⟨?_, by simp⟩
        rintro _ ⟨rfl⟩
        exact copy false

theorem getSession_marked (host : RimeHost) (conduct : RimeConduct) (counted : host.state.Counted)
    (marked : host.Marked) (succeeds : Succeeds conduct) :
    ((host.getSession conduct true).2 = none → (host.getSession conduct true).1.Tracked) ∧
      ∀ session ∈ (host.getSession conduct true).2,
        session.Marked (host.getSession conduct true).1.state := by
  obtain ⟨looked, copy⟩ := host.lookup_marked conduct marked
  have state := host.lookup_state conduct
  rw [getSession_eq]
  split
  next session got =>
    refine ⟨by simp, ?_⟩
    rintro _ ⟨rfl⟩
    dsimp only
    rw [state]
    exact copy session got
  · rw [if_pos rfl]
    exact (host.lookup conduct).1.createSession_marked conduct (state ▸ counted) looked succeeds

/-- The session of the focused context takes the schema of the engine. -/
theorem applyRuntimeConfig_spec (host : RimeHost) (conduct : RimeConduct)
    (counted : host.state.Counted) (marked : host.Marked)
    (named : host.state.schema = [] → host.Tracked) (succeeds : Succeeds conduct) :
    host.state.Advances (host.applyRuntimeConfig conduct).state ∧
      (host.applyRuntimeConfig conduct).Tracked := by
  have goes := (host.getSession_spec conduct true).1
  have got := host.getSession_got conduct true
  obtain ⟨without, reached_marked⟩ := host.getSession_marked conduct counted marked succeeds
  unfold applyRuntimeConfig
  split
  next reached is =>
    rw [is] at goes without
    exact ⟨goes.advances, without rfl⟩
  next reached session is =>
    rw [is] at goes got reached_marked
    have heard := (Goes.hear reached conduct.cleared.notified).advances
    have applied := heard.trans (applySchema_advances _ (session.after conduct.cleared) conduct)
    have ok := applySchema_ok (reached.hear conduct.cleared.notified)
      (session.after conduct.cleared) conduct succeeds.selected
    have same : session.SameMarks (session.after conduct.cleared) := ⟨rfl, rfl, rfl⟩
    have marks := (reached_marked session rfl).advance heard.count heard.done
    have tracks := applySchema_tracks (reached.hear conduct.cleared.notified)
      (session.after conduct.cleared) conduct ⟨marks.mark, marks.count, marks.done⟩
      succeeds.selected fun unnamed => by
        rw [heard.schema, goes.advances.schema] at unnamed
        have tracked := goes.tracked counted (named unnamed) session (got.some session rfl).1
        exact (tracked.of_sameMarks same).advance heard
    dsimp only
    rw [if_neg (by simp [ok])]
    obtain ⟨synced, state⟩ := syncContext_session
      { ((reached.hear conduct.cleared.notified).applySchema (session.after conduct.cleared)
          conduct).1 with
        session := some ((reached.hear conduct.cleared.notified).applySchema
          (session.after conduct.cleared) conduct).2.1 }
      ((reached.hear conduct.cleared.notified).applySchema (session.after conduct.cleared)
        conduct).2.1
    refine ⟨?_, ?_⟩
    · rw [state]
      exact goes.advances.trans applied
    · unfold Tracked
      rw [synced, state]
      rintro _ ⟨rfl⟩
      exact tracks

end RimeHost

end Engines

end Typio
