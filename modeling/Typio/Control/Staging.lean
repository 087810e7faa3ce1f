import Typio.Control.ControlConfig

/-!
# Staged edits of the control panel

No edit is lost as long as no staged text equals the committed text the panel knows, and the panel
follows the daemon as long as the daemon commits what was submitted.
-/

namespace Typio

namespace Control

namespace TypioControl

variable (control : TypioControl) (text : String)

/-! ## Taking over a committed text -/

@[simp] theorem setConfigText_proxy : (control.setConfigText text).proxy = control.proxy := by
  simp only [setConfigText]
  split <;> rfl

@[simp] theorem setConfigText_configSeeded : (control.setConfigText text).configSeeded = true := by
  simp only [setConfigText]
  split <;> rfl

@[simp] theorem setConfigText_submittingConfig :
    (control.setConfigText text).submittingConfig = control.submittingConfig := by
  simp only [setConfigText]
  split <;> rfl

@[simp] theorem setConfigText_committedConfigText :
    (control.setConfigText text).committedConfigText = some text := by
  simp only [setConfigText]
  split <;> rfl

@[simp] theorem setConfigText_autosaveSource :
    (control.setConfigText text).autosaveSource = control.autosaveSource := by
  simp only [setConfigText]
  split <;> rfl

/-- The committed text replaces the staged one, unless local changes are pending. -/
theorem setConfigText_configBuffer :
    (control.setConfigText text).configBuffer = text ∨
      (control.hasPendingLocalChanges = true ∧
        (control.setConfigText text).configBuffer = control.configBuffer) := by
  simp only [setConfigText]
  split
  next replaced => exact .inl rfl
  next kept =>
    refine .inr ⟨?_, rfl⟩
    simp only [Bool.or_eq_true, Bool.not_eq_true', not_or, Bool.not_eq_false] at kept
    exact kept.1

/-- Pending local changes survive every committed text. -/
theorem setConfigText_pending (pending : control.hasPendingLocalChanges = true) :
    (control.setConfigText text).configBuffer = control.configBuffer := by
  simp only [setConfigText, pending, Bool.not_true, Bool.false_or, beq_iff_eq]
  split
  next same => exact same.symm
  next other => rfl

theorem stageDiffers_of_committed {control : TypioControl} {text : String}
    (committed : control.committedConfigText = some text) :
    control.stageDiffers = true ↔ control.configBuffer ≠ text := by
  simp [stageDiffers, committed]

/-- A panel which knows a committed text has a change pending if the staged text is another. -/
theorem hasPendingConfigChange_iff {control : TypioControl} {text : String}
    (seeded : control.configSeeded = true)
    (committed : control.committedConfigText = some text) :
    control.hasPendingConfigChange = true ↔ control.configBuffer ≠ text := by
  rw [hasPendingConfigChange, seeded, Bool.true_and]
  exact stageDiffers_of_committed committed

/-- A pending change of a staged text is a pending local change. -/
theorem hasPendingLocalChanges_of_pending {control : TypioControl}
    (staged : control.configBuffer ≠ "") (pending : control.hasPendingConfigChange = true) :
    control.hasPendingLocalChanges = true := by
  obtain ⟨-, differs⟩ := Bool.and_eq_true_iff.mp pending
  simp [hasPendingLocalChanges, staged, differs]

/-- After a committed text, a change is pending if the staged text was kept and is another. -/
theorem setConfigText_hasPendingConfigChange
    (pending : control.hasPendingLocalChanges = true) :
    (control.setConfigText text).hasPendingConfigChange = true ↔ control.configBuffer ≠ text := by
  rw [hasPendingConfigChange_iff (control.setConfigText_configSeeded text)
    (control.setConfigText_committedConfigText text), control.setConfigText_pending text pending]

/-! ## The other operations -/

/-- What the panel knows of the daemon, which its own timer and submissions leave alone. -/
structure SameLink (before after : TypioControl) : Prop where
  seeded : after.configSeeded = before.configSeeded
  committed : after.committedConfigText = before.committedConfigText
  proxy : after.proxy = before.proxy

theorem SameLink.hasPendingConfigChange {before after : TypioControl}
    (same : SameLink before after) (buffer : after.configBuffer = before.configBuffer) :
    after.hasPendingConfigChange = before.hasPendingConfigChange := by
  rw [TypioControl.hasPendingConfigChange, TypioControl.hasPendingConfigChange, stageDiffers,
    stageDiffers, buffer, same.seeded, same.committed]

theorem stageFormChange_sameLink (rendered : Rendered) :
    SameLink control (control.stageFormChange rendered) := by
  rw [stageFormChange]
  split <;> exact ⟨rfl, rfl, rfl⟩

theorem stageFormChange_submittingConfig (rendered : Rendered) :
    (control.stageFormChange rendered).submittingConfig = control.submittingConfig := by
  rw [stageFormChange]
  split <;> rfl

/-- The timer makes a call, starts anew, or finds the staged text committed. -/
theorem autosaveTimeout_cases :
    (control.autosaveTimeout.2 = none ∧
        control.autosaveTimeout.1.submittingConfig = control.submittingConfig ∧
        (control.autosaveTimeout.1.autosaveSource = true ∨
          control.committedConfigText = some control.configBuffer)) ∨
      (control.autosaveTimeout.2 = some control.configBuffer ∧
        control.submittingConfig = false ∧
        control.autosaveTimeout.1.submittingConfig = true) := by
  simp only [autosaveTimeout]
  split
  next absent => exact .inl ⟨rfl, rfl, .inl rfl⟩
  next present =>
    split
    next submitting => exact .inl ⟨rfl, rfl, .inl rfl⟩
    next idle =>
      split
      next committed => exact .inl ⟨rfl, rfl, .inr committed⟩
      next differs => exact .inr ⟨rfl, eq_false_of_ne_true idle, rfl⟩

theorem autosaveTimeout_kept :
    SameLink control control.autosaveTimeout.1 ∧
      control.autosaveTimeout.1.configBuffer = control.configBuffer := by
  simp only [autosaveTimeout]
  split
  next absent => exact ⟨⟨rfl, rfl, rfl⟩, rfl⟩
  next present =>
    split
    next submitting => exact ⟨⟨rfl, rfl, rfl⟩, rfl⟩
    next idle => split <;> exact ⟨⟨rfl, rfl, rfl⟩, rfl⟩

/-- The text known to be committed is the cached one, and the panel is seeded with it. -/
def Follows (control : TypioControl) : Prop :=
  ∀ text, control.proxy = some text →
    control.configSeeded = true ∧ control.committedConfigText = some text

theorem SameLink.follows {before after : TypioControl} (same : SameLink before after)
    (follows : before.Follows) : after.Follows := by
  intro text cached
  rw [same.seeded, same.committed]
  exact follows text (same.proxy ▸ cached)

/-- Reading the cached text once more changes nothing but a staged text that is empty. -/
theorem refreshFromProxy_cases {control : TypioControl} (follows : control.Follows) :
    control.refreshFromProxy = control ∨
      (control.configBuffer = "" ∧ ∃ text, control.proxy = some text ∧
        control.refreshFromProxy = control.replaceStagedConfigText text) := by
  cases cached : control.proxy with
  | none => exact .inl (by rw [refreshFromProxy, cached])
  | some text =>
      obtain ⟨seeded, committed⟩ := follows text cached
      have taken : ({ control with configSeeded := true }.setCommittedConfigText text) =
          control := by
        rw [setCommittedConfigText, ← seeded, ← committed]
      rw [refreshFromProxy, cached]
      simp only [setConfigText, taken]
      split
      next replaced =>
        by_cases empty : control.configBuffer = ""
        · exact .inr ⟨empty, text, rfl, rfl⟩
        · left
          have same : control.configBuffer = text := by
            simpa [hasPendingLocalChanges, empty, stageDiffers, committed] using replaced
          rw [replaceStagedConfigText, ← same]
      next kept => exact .inl rfl

/-- Reading the cached text once more leaves everything but the staged text alone. -/
theorem refreshFromProxy_kept {control : TypioControl} (follows : control.Follows) :
    SameLink control control.refreshFromProxy ∧
      control.refreshFromProxy.submittingConfig = control.submittingConfig ∧
      control.refreshFromProxy.autosaveSource = control.autosaveSource := by
  rcases refreshFromProxy_cases follows with same | ⟨-, text, -, replaced⟩
  · rw [same]
    exact ⟨⟨rfl, rfl, rfl⟩, rfl, rfl⟩
  · rw [replaced]
    exact ⟨⟨rfl, rfl, rfl⟩, rfl, rfl⟩

/-- A reply leaves what the panel knows alone, and ends the submission. -/
theorem setConfigTextFinished_kept {control : TypioControl} (follows : control.Follows)
    (succeeded : Bool) :
    SameLink control (control.setConfigTextFinished succeeded) ∧
      (control.setConfigTextFinished succeeded).submittingConfig = false := by
  have returned : SameLink control { control with submittingConfig := false } := ⟨rfl, rfl, rfl⟩
  cases succeeded with
  | false => exact ⟨⟨rfl, rfl, rfl⟩, rfl⟩
  | true =>
      obtain ⟨link, same, -⟩ := refreshFromProxy_kept (returned.follows follows)
      exact ⟨⟨link.seeded, link.committed, link.proxy⟩, same⟩

theorem refreshFromProxy_pending (pending : control.hasPendingLocalChanges = true) :
    control.refreshFromProxy.configBuffer = control.configBuffer := by
  rw [refreshFromProxy]
  split
  next absent => rfl
  next text cached => exact control.setConfigText_pending text pending

theorem proxyPropertiesChanged_pending (pending : control.hasPendingLocalChanges = true) :
    (control.proxyPropertiesChanged text).configBuffer = control.configBuffer :=
  setConfigText_pending { control with proxy := some text } text pending

theorem nameAppeared_pending (pending : control.hasPendingLocalChanges = true) :
    (control.nameAppeared text).configBuffer = control.configBuffer := by
  rw [nameAppeared]
  split <;> exact control.proxyPropertiesChanged_pending text pending

theorem setConfigTextFinished_pending (succeeded : Bool)
    (pending : control.hasPendingLocalChanges = true) :
    (control.setConfigTextFinished succeeded).configBuffer = control.configBuffer := by
  cases succeeded with
  | false => rfl
  | true => exact refreshFromProxy_pending { control with submittingConfig := false } pending

theorem setConfigText_follows {control : TypioControl} {text : String}
    (cached : control.proxy = some text) : (control.setConfigText text).Follows := by
  intro other known
  obtain rfl := Option.some.inj (cached.symm.trans ((control.setConfigText_proxy text) ▸ known))
  exact ⟨control.setConfigText_configSeeded text, control.setConfigText_committedConfigText text⟩

end TypioControl

namespace Session

open TypioControl

/-! ## What a session keeps -/

/-- The counted edits of a session, its call, and what the panel has heard of the daemon. -/
structure Sound (session : Session) : Prop where
  seeded : session.control.configSeeded = true → session.control.committedConfigText.isSome = true
  follows : session.control.Follows
  submitting : session.control.submittingConfig = session.call.isSome
  silent : session.control.proxy = none → session.updates = []
  heard : ∀ text, session.control.proxy = some text →
    session.updates.getLast?.getD text = session.daemon
  submitted : session.submitted ≤ session.edits
  confirmed : session.confirmed ≤ session.submitted
  carried : ∀ call ∈ session.call,
    session.confirmed ≤ call.edit ∧ call.edit ≤ session.submitted

theorem Sound.activate (daemon : String) : Sound (.activate daemon) where
  seeded := nofun
  follows := nofun
  submitting := rfl
  silent := fun _ => rfl
  heard := nofun
  submitted := Nat.le_refl _
  confirmed := Nat.le_refl _
  carried := nofun

variable {session : Session}

theorem Sound.withControl {control : TypioControl} (sound : session.Sound)
    (link : SameLink session.control control)
    (submitting : control.submittingConfig = session.control.submittingConfig) :
    Sound { session with control } where
  seeded := by
    rw [link.seeded, link.committed]
    exact sound.seeded
  follows := link.follows sound.follows
  submitting := submitting.trans sound.submitting
  silent := fun absent => sound.silent (link.proxy ▸ absent)
  heard := fun text cached => sound.heard text (link.proxy ▸ cached)
  submitted := sound.submitted
  confirmed := sound.confirmed
  carried := sound.carried

theorem Sound.stageFormChange (sound : session.Sound) (rendered : Rendered) :
    Sound (session.stageFormChange rendered) := by
  have staged := sound.withControl (session.control.stageFormChange_sameLink rendered)
    (session.control.stageFormChange_submittingConfig rendered)
  refine { staged with submitted := ?_ }
  rw [Session.stageFormChange]
  dsimp only
  split
  next seeded => exact Nat.le_succ_of_le sound.submitted
  next unseeded => exact sound.submitted

theorem Sound.autosaveTimeout (sound : session.Sound) : Sound session.autosaveTimeout := by
  obtain ⟨link, -⟩ := session.control.autosaveTimeout_kept
  simp only [Session.autosaveTimeout]
  split
  next armed =>
    rcases session.control.autosaveTimeout_cases with ⟨quiet, same, -⟩ | ⟨made, idle, flagged⟩
    · rw [quiet]
      exact sound.withControl link same
    · rw [made]
      exact
        { seeded := by
            rw [link.seeded, link.committed]
            exact sound.seeded
          follows := link.follows sound.follows
          submitting := flagged
          silent := fun absent => sound.silent (link.proxy ▸ absent)
          heard := fun text cached => sound.heard text (link.proxy ▸ cached)
          submitted := Nat.le_refl _
          confirmed := Nat.le_trans sound.confirmed sound.submitted
          carried := by
            rintro call ⟨⟩
            exact ⟨Nat.le_trans sound.confirmed sound.submitted, Nat.le_refl _⟩ }
  next unarmed => exact sound

theorem Sound.commit (sound : session.Sound) (text : String) : Sound (session.commit text) := by
  refine { sound with silent := ?_, heard := ?_ }
  · intro absent
    have mute : ¬ session.control.proxy.isSome := by
      simp only [Session.commit] at absent
      simp [absent]
    simp only [Session.commit, if_neg mute]
    exact sound.silent absent
  · intro cachedText cached
    have listening : session.control.proxy.isSome := by
      simp only [Session.commit] at cached
      simp [cached]
    simp [Session.commit, if_pos listening]

theorem Sound.setConfigText (sound : session.Sound) (result : Option String) :
    Sound (session.setConfigText result) := by
  rw [Session.setConfigText]
  split
  next text edit waiting =>
    obtain ⟨above, below⟩ := sound.carried _ waiting
    have submitting : session.control.submittingConfig = true := by
      rw [sound.submitting, waiting, Option.isSome_some]
    cases result with
    | none =>
        refine { sound with submitting := submitting, carried := ?_ }
        rintro call ⟨⟩
        exact ⟨above, below⟩
    | some committed =>
        have announced := sound.commit committed
        refine { announced with submitting := submitting, confirmed := below, carried := ?_ }
        rintro call ⟨⟩
        exact ⟨Nat.le_refl _, below⟩
  next other => exact sound

theorem Sound.setConfigTextFinished (sound : session.Sound) :
    Sound session.setConfigTextFinished := by
  rw [Session.setConfigTextFinished]
  split
  next text edit succeeded answered =>
    obtain ⟨link, idle⟩ := setConfigTextFinished_kept sound.follows succeeded
    exact
      { seeded := by
          rw [link.seeded, link.committed]
          exact sound.seeded
        follows := link.follows sound.follows
        submitting := idle
        silent := fun absent => sound.silent (link.proxy ▸ absent)
        heard := fun text cached => sound.heard text (link.proxy ▸ cached)
        submitted := sound.submitted
        confirmed := sound.confirmed
        carried := nofun }
  next other => exact sound

/-- A text taken over keeps a session sound if the updates still to come end in the daemon's. -/
theorem Sound.takeOver (sound : session.Sound) (configText : String) (updates : List String)
    (heard : updates.getLast?.getD configText = session.daemon) :
    Sound { session with
      control := session.control.proxyPropertiesChanged configText
      updates } where
  seeded := by
    intro _
    simp [TypioControl.proxyPropertiesChanged, refreshFromProxy]
  follows := setConfigText_follows rfl
  submitting := (setConfigText_submittingConfig _ _).trans sound.submitting
  silent := by
    intro absent
    simp [TypioControl.proxyPropertiesChanged, refreshFromProxy] at absent
  heard := by
    intro text cached
    obtain rfl : configText = text := by
      simpa [TypioControl.proxyPropertiesChanged, refreshFromProxy] using cached
    exact heard
  submitted := sound.submitted
  confirmed := sound.confirmed
  carried := sound.carried

theorem Sound.proxyPropertiesChanged (sound : session.Sound) :
    Sound session.proxyPropertiesChanged := by
  rw [Session.proxyPropertiesChanged]
  split
  next none_left => exact sound
  next configText updates pending =>
    refine sound.takeOver configText updates ?_
    cases cached : session.control.proxy with
    | none => simp [sound.silent cached] at pending
    | some text =>
        have heard := sound.heard text cached
        rwa [pending, List.getLast?_cons, Option.getD_some] at heard

theorem Sound.nameVanished (sound : session.Sound) : Sound session.nameVanished where
  seeded := sound.seeded
  follows := nofun
  submitting := by
    rw [Session.nameVanished, Option.isSome_map]
    exact sound.submitting
  silent := fun _ => rfl
  heard := nofun
  submitted := sound.submitted
  confirmed := sound.confirmed
  carried := by
    intro call member
    obtain ⟨earlier, known, rfl⟩ := Option.map_eq_some_iff.mp member
    obtain ⟨above, below⟩ := sound.carried earlier known
    rw [Submission.abandon]
    split <;> exact ⟨above, below⟩

theorem Sound.nameAppeared (sound : session.Sound) : Sound session.nameAppeared := by
  rw [Session.nameAppeared]
  split
  next absent =>
    have taken := sound.takeOver session.daemon session.updates (by simp [sound.silent absent])
    rw [TypioControl.nameAppeared]
    split
    next pending => exact taken.withControl ⟨rfl, rfl, rfl⟩ rfl
    next settled => exact taken
  next present => exact sound

theorem Sound.step (sound : session.Sound) (event : ControlEvent) :
    Sound (session.step event) := by
  cases event with
  | edit rendered => exact sound.stageFormChange rendered
  | autosaveTimeout => exact sound.autosaveTimeout
  | setConfigText result => exact sound.setConfigText result
  | setConfigTextFinished => exact sound.setConfigTextFinished
  | daemonCommits text => exact sound.commit text
  | proxyPropertiesChanged => exact sound.proxyPropertiesChanged
  | refreshFromProxy =>
      obtain ⟨link, same, -⟩ := refreshFromProxy_kept sound.follows
      exact sound.withControl link same
  | nameVanished => exact sound.nameVanished
  | nameAppeared => exact sound.nameAppeared

/-! ## Edits stay staged and pending -/

/-- An edit which no successful submission carried is pending. -/
def StaysPending (session : Session) : Prop :=
  session.confirmed < session.edits → session.control.hasPendingConfigChange = true

/-- A staged text which was not submitted is changed by another edit only. -/
def KeepsStage (session : Session) (event : ControlEvent) : Prop :=
  (∀ rendered, event ≠ .edit rendered) → session.submitted < session.edits →
    (session.step event).control.configBuffer = session.control.configBuffer

/-- An edit renders another text than the one the panel takes for committed, and while an edit is
unconfirmed, the text the panel hears of next is not the staged one. -/
def StagesAnew (session : Session) : ControlEvent → Prop
  | .edit rendered =>
      session.control.configSeeded = true →
        session.control.committedConfigText ≠ some rendered.val
  | .proxyPropertiesChanged =>
      session.confirmed < session.edits →
        session.updates.head? ≠ some session.control.configBuffer
  | .nameAppeared =>
      session.confirmed < session.edits → session.control.proxy = none →
        session.daemon ≠ session.control.configBuffer
  | _ => True

/-- An unconfirmed edit left its text in the buffer. -/
def Staged (session : Session) : Prop :=
  session.confirmed < session.edits → session.control.configBuffer ≠ ""

theorem pendingLocally (staged : session.Staged) (pending : session.StaysPending)
    (waiting : session.confirmed < session.edits) :
    session.control.hasPendingLocalChanges = true :=
  hasPendingLocalChanges_of_pending (staged waiting) (pending waiting)

/-- What has not been confirmed after an event other than an edit was not before it. -/
theorem Sound.waiting_before (sound : session.Sound) {event : ControlEvent}
    (other : ∀ rendered, event ≠ .edit rendered)
    (waiting : (session.step event).confirmed < (session.step event).edits) :
    session.confirmed < session.edits := by
  cases event with
  | edit rendered => exact absurd rfl (other rendered)
  | autosaveTimeout =>
      simp only [Session.step, Session.autosaveTimeout] at waiting
      split at waiting
      · split at waiting <;> exact waiting
      · exact waiting
  | setConfigText result =>
      simp only [Session.step, Session.setConfigText] at waiting
      split at waiting
      next text edit unanswered =>
        have above := (sound.carried _ unanswered).1
        cases result with
        | none => exact waiting
        | some committed => exact Nat.lt_of_le_of_lt above waiting
      next answered => exact waiting
  | setConfigTextFinished =>
      simp only [Session.step, Session.setConfigTextFinished] at waiting
      split at waiting <;> exact waiting
  | daemonCommits text => exact waiting
  | proxyPropertiesChanged =>
      simp only [Session.step, Session.proxyPropertiesChanged] at waiting
      split at waiting <;> exact waiting
  | refreshFromProxy => exact waiting
  | nameVanished => exact waiting
  | nameAppeared =>
      simp only [Session.step, Session.nameAppeared] at waiting
      split at waiting <;> exact waiting

/-- Pending local changes stay staged whatever happens but an edit. -/
theorem step_configBuffer {event : ControlEvent} (other : ∀ rendered, event ≠ .edit rendered)
    (pending : session.control.hasPendingLocalChanges = true) :
    (session.step event).control.configBuffer = session.control.configBuffer := by
  cases event with
  | edit rendered => exact absurd rfl (other rendered)
  | autosaveTimeout =>
      obtain ⟨-, kept⟩ := session.control.autosaveTimeout_kept
      simp only [Session.step, Session.autosaveTimeout]
      split
      · split <;> exact kept
      · rfl
  | setConfigText result =>
      simp only [Session.step, Session.setConfigText]
      split
      next text edit unanswered => cases result <;> rfl
      next answered => rfl
  | setConfigTextFinished =>
      simp only [Session.step, Session.setConfigTextFinished]
      split
      next text edit succeeded answered =>
        exact session.control.setConfigTextFinished_pending succeeded pending
      next unanswered => rfl
  | daemonCommits text => rfl
  | proxyPropertiesChanged =>
      simp only [Session.step, Session.proxyPropertiesChanged]
      split
      next none_left => rfl
      next configText updates announced =>
        exact session.control.proxyPropertiesChanged_pending configText pending
  | refreshFromProxy => exact session.control.refreshFromProxy_pending pending
  | nameVanished => rfl
  | nameAppeared =>
      simp only [Session.step, Session.nameAppeared]
      split
      next absent => exact session.control.nameAppeared_pending session.daemon pending
      next present => rfl

theorem KeepsStage.of_pending (sound : session.Sound) (staged : session.Staged)
    (pending : session.StaysPending) (event : ControlEvent) : session.KeepsStage event :=
  fun other waiting => step_configBuffer other
    (pendingLocally staged pending (Nat.lt_of_le_of_lt sound.confirmed waiting))

theorem Staged.step (sound : session.Sound) (staged : session.Staged)
    (pending : session.StaysPending) (event : ControlEvent) : (session.step event).Staged := by
  by_cases edited : ∃ rendered, event = .edit rendered
  · obtain ⟨rendered, rfl⟩ := edited
    simp only [Staged, Session.step, Session.stageFormChange, TypioControl.stageFormChange]
    split
    next seeded => exact fun _ => rendered.property
    next unseeded => exact staged
  · have other : ∀ rendered, event ≠ .edit rendered := not_exists.mp edited
    intro waiting
    have before := sound.waiting_before other waiting
    rw [step_configBuffer other (pendingLocally staged pending before)]
    exact staged before

/-- An edit is pending exactly when its text is not the one the panel takes for committed. -/
theorem staysPending_stageFormChange_iff (sound : session.Sound) (pending : session.StaysPending)
    (rendered : Rendered) :
    (session.stageFormChange rendered).StaysPending ↔ session.StagesAnew (.edit rendered) := by
  rw [StaysPending, StagesAnew, Session.stageFormChange, TypioControl.stageFormChange]
  cases seeded : session.control.configSeeded with
  | false =>
      simp only [Bool.false_eq_true, if_false, false_implies, iff_true]
      exact pending
  | true =>
      obtain ⟨text, committed⟩ := Option.isSome_iff_exists.mp (sound.seeded seeded)
      have waiting : session.confirmed < session.edits + 1 :=
        Nat.lt_succ_of_le (Nat.le_trans sound.confirmed sound.submitted)
      simp only [if_true, waiting, forall_const]
      have staged := @hasPendingConfigChange_iff
        (session.control.replaceStagedConfigText rendered).queueAutosave text seeded committed
      rw [staged, committed, Ne, Ne, Option.some.injEq, eq_comm]
      rfl

/-- While an edit is unconfirmed, it stays pending exactly when the text heard of is another. -/
theorem takeOver_pending_iff (staged : session.Staged) (pending : session.StaysPending)
    (waiting : session.confirmed < session.edits) (configText : String) :
    (session.control.proxyPropertiesChanged configText).hasPendingConfigChange = true ↔
      configText ≠ session.control.configBuffer := by
  have local_changes := pendingLocally staged pending waiting
  rw [ne_comm]
  exact setConfigText_hasPendingConfigChange
    { session.control with proxy := some configText } configText local_changes

theorem staysPending_step_iff (sound : session.Sound) (staged : session.Staged)
    (pending : session.StaysPending) (event : ControlEvent) :
    (session.step event).StaysPending ↔ session.StagesAnew event := by
  have kept (link : SameLink session.control (session.step event).control)
      (other : ∀ rendered, event ≠ .edit rendered) : (session.step event).StaysPending := by
    intro waiting
    have before := sound.waiting_before other waiting
    rw [link.hasPendingConfigChange
      (step_configBuffer other (pendingLocally staged pending before))]
    exact pending before
  cases event with
  | edit rendered => exact staysPending_stageFormChange_iff sound pending rendered
  | autosaveTimeout =>
      obtain ⟨link, -⟩ := session.control.autosaveTimeout_kept
      refine iff_of_true (kept ?_ nofun) trivial
      simp only [Session.step, Session.autosaveTimeout]
      split
      · split <;> exact link
      · exact ⟨rfl, rfl, rfl⟩
  | setConfigText result =>
      refine iff_of_true (kept ?_ nofun) trivial
      simp only [Session.step, Session.setConfigText]
      split
      next text edit unanswered => cases result <;> exact ⟨rfl, rfl, rfl⟩
      next answered => exact ⟨rfl, rfl, rfl⟩
  | setConfigTextFinished =>
      refine iff_of_true (kept ?_ nofun) trivial
      simp only [Session.step, Session.setConfigTextFinished]
      split
      next text edit succeeded answered =>
        exact (setConfigTextFinished_kept sound.follows succeeded).1
      next unanswered => exact ⟨rfl, rfl, rfl⟩
  | daemonCommits text => exact iff_of_true (kept ⟨rfl, rfl, rfl⟩ nofun) trivial
  | proxyPropertiesChanged =>
      simp only [Session.step, Session.proxyPropertiesChanged, StagesAnew]
      split
      next none_left => simpa [none_left] using pending
      next configText updates announced =>
        rw [announced, List.head?_cons, StaysPending]
        refine forall_congr' fun waiting => ?_
        rw [takeOver_pending_iff staged pending waiting, Ne, Ne, Option.some.injEq]
  | refreshFromProxy =>
      exact iff_of_true (kept (refreshFromProxy_kept sound.follows).1 nofun) trivial
  | nameVanished => exact iff_of_true pending trivial
  | nameAppeared =>
      simp only [Session.step, Session.nameAppeared, StagesAnew]
      split
      next absent =>
        refine forall_congr' fun waiting => ?_
        have taken := takeOver_pending_iff staged pending waiting session.daemon
        simp only [absent, forall_const]
        rw [TypioControl.nameAppeared]
        split
        next queued => exact taken
        next settled => exact taken
      next present => exact iff_of_true pending fun _ absent => absurd absent present

/-! ## The panel converges to the daemon -/

/-- Once nothing is outstanding, the staged text is the one the daemon has committed. -/
def Converged (session : Session) : Prop :=
  session.control.proxy.isSome = true → session.control.autosaveSource = false →
    session.call = none → session.updates = [] →
    session.control.configBuffer = session.daemon

/-- What the daemon commits for a submission is the submitted text. -/
def CommitsVerbatim (session : Session) : ControlEvent → Prop
  | .setConfigText (some committed) =>
      ∀ call ∈ session.call, call.reply = none → committed = call.text
  | _ => True

/-- The timer, the call or an announcement will deal with the staged text. -/
def Underway (session : Session) : Prop :=
  session.control.autosaveSource = true ∨
    (∃ call ∈ session.call, call.reply = some false ∨
      call.reply = none ∧ call.text = session.control.configBuffer) ∨
    session.control.configBuffer ∈ session.updates

/-- A staged text other than the cached one is under way. -/
def Tracked (session : Session) : Prop :=
  ∀ text, session.control.proxy = some text → session.control.configBuffer ≠ text →
    session.Underway

theorem Tracked.converged (tracked : session.Tracked) (sound : session.Sound) :
    session.Converged := by
  intro listening unarmed idle none_left
  obtain ⟨text, cached⟩ := Option.isSome_iff_exists.mp listening
  have heard := sound.heard text cached
  rw [none_left, List.getLast?_nil, Option.getD_none] at heard
  by_contra other
  rcases tracked text cached (heard ▸ other) with armed | ⟨call, member, -⟩ | announced
  · exact Bool.false_ne_true (unarmed.symm.trans armed)
  · simp [idle] at member
  · simp [none_left] at announced

theorem Tracked.stageFormChange (tracked : session.Tracked) (rendered : Rendered) :
    (session.stageFormChange rendered).Tracked := by
  intro text cached other
  rw [Session.stageFormChange, TypioControl.stageFormChange] at cached other ⊢
  cases seeded : session.control.configSeeded with
  | true => exact .inl rfl
  | false =>
      simp only [seeded, Bool.false_eq_true, if_false] at cached other ⊢
      exact tracked text cached other

theorem Tracked.autosaveTimeout (tracked : session.Tracked) (sound : session.Sound) :
    session.autosaveTimeout.Tracked := by
  obtain ⟨link, kept⟩ := session.control.autosaveTimeout_kept
  simp only [Session.autosaveTimeout]
  split
  next armed =>
    rcases session.control.autosaveTimeout_cases with ⟨quiet, -, again⟩ | ⟨made, -, -⟩
    · rw [quiet]
      intro text cached other
      rcases again with rearmed | same
      · exact .inl rearmed
      · have known := (sound.follows text (link.proxy ▸ cached)).2
        obtain rfl := Option.some.inj (same.symm.trans known)
        exact absurd kept other
    · rw [made]
      exact fun _ _ _ => .inr (.inl ⟨_, rfl, .inr ⟨rfl, kept.symm⟩⟩)
  next unarmed => exact tracked

theorem Tracked.commit (tracked : session.Tracked) (text : String) :
    (session.commit text).Tracked := by
  intro cachedText cached other
  rcases tracked cachedText cached other with armed | called | announced
  · exact .inl armed
  · exact .inr (.inl called)
  · refine .inr (.inr ?_)
    simp only [Session.commit]
    split
    next listening => exact List.mem_append_left _ announced
    next mute => exact announced

theorem Tracked.setConfigText (tracked : session.Tracked) {result : Option String}
    (verbatim : session.CommitsVerbatim (.setConfigText result)) :
    (session.setConfigText result).Tracked := by
  rw [Session.setConfigText]
  split
  next text edit unanswered =>
    cases result with
    | none => exact fun _ _ _ => .inr (.inl ⟨_, rfl, .inl rfl⟩)
    | some committed =>
        obtain rfl : committed = text := verbatim _ unanswered rfl
        intro cachedText cached other
        rcases tracked cachedText cached other with armed | ⟨call, member, open_call⟩ | announced
        · exact .inl armed
        · obtain rfl := Option.some.inj (unanswered.symm.trans member)
          obtain failed | ⟨-, same⟩ := open_call
          · cases failed
          · refine .inr (.inr ?_)
            have listening : session.control.proxy.isSome = true :=
              Option.isSome_iff_exists.mpr ⟨cachedText, cached⟩
            simp only [Session.commit, if_pos listening]
            exact List.mem_append_right _ (List.mem_singleton.mpr same.symm)
        · refine .inr (.inr ?_)
          simp only [Session.commit]
          split
          next listening => exact List.mem_append_left _ announced
          next mute => exact announced
  next answered => exact tracked

/-- Reading the cached text once more keeps the staged text tracked. -/
theorem Tracked.refreshFromProxy (tracked : session.Tracked) (follows : session.control.Follows) :
    Tracked { session with control := session.control.refreshFromProxy } := by
  rcases refreshFromProxy_cases follows with same | ⟨-, text, known, replaced⟩
  · rw [same]
    exact tracked
  · rw [replaced]
    intro cachedText cached other
    obtain rfl := Option.some.inj (known.symm.trans cached)
    exact absurd rfl other

theorem Tracked.setConfigTextFinished (tracked : session.Tracked) (sound : session.Sound) :
    session.setConfigTextFinished.Tracked := by
  rw [Session.setConfigTextFinished]
  split
  next text edit succeeded answered =>
    cases succeeded with
    | false => exact fun _ _ _ => .inl rfl
    | true =>
        have returned : Tracked { session with
            control := { session.control with submittingConfig := false }
            call := none } := by
          intro cachedText cached other
          rcases tracked cachedText cached other with armed | ⟨call, member, open_call⟩ | announced
          · exact .inl armed
          · obtain rfl := Option.some.inj (answered.symm.trans member)
            obtain failed | ⟨unanswered, -⟩ := open_call
            · exact absurd (Option.some.inj failed) Bool.false_ne_true.symm
            · cases unanswered
          · exact .inr (.inr announced)
        exact returned.refreshFromProxy sound.follows
  next unanswered => exact tracked

theorem Tracked.proxyPropertiesChanged (tracked : session.Tracked) (sound : session.Sound) :
    session.proxyPropertiesChanged.Tracked := by
  rw [Session.proxyPropertiesChanged]
  split
  next none_left => exact tracked
  next configText updates announced =>
    intro text cached other
    obtain rfl : configText = text := by
      simpa [TypioControl.proxyPropertiesChanged, TypioControl.refreshFromProxy] using cached
    obtain ⟨known, before⟩ : ∃ known, session.control.proxy = some known := by
      rw [← Option.isSome_iff_exists, Option.isSome_iff_ne_none]
      intro absent
      simp [sound.silent absent] at announced
    have committed := (sound.follows known before).2
    rcases setConfigText_configBuffer { session.control with proxy := some configText } configText
      with replaced | ⟨pending, kept⟩
    · exact absurd replaced other
    · have differs : session.control.configBuffer ≠ known :=
        (stageDiffers_of_committed committed).mp (Bool.and_eq_true_iff.mp pending).2
      have buffer : (session.control.proxyPropertiesChanged configText).configBuffer =
          session.control.configBuffer := kept
      rcases tracked known before differs with armed | ⟨call, member, open_call⟩ | waiting
      · exact .inl ((setConfigText_autosaveSource _ _).trans armed)
      · exact .inr (.inl ⟨call, member, open_call.imp_right fun ⟨unanswered, same⟩ =>
          ⟨unanswered, same.trans buffer.symm⟩⟩)
      · refine .inr (.inr ?_)
        rw [announced, List.mem_cons] at waiting
        rw [buffer]
        exact waiting.resolve_left (buffer ▸ other)

theorem Tracked.nameAppeared (tracked : session.Tracked) : session.nameAppeared.Tracked := by
  rw [Session.nameAppeared]
  split
  next absent =>
    intro text cached other
    rw [TypioControl.nameAppeared] at cached other ⊢
    split at cached
    next pending =>
      rw [if_pos pending]
      exact .inl rfl
    next settled =>
      rw [if_neg settled] at other
      obtain rfl : session.daemon = text := by
        simpa [TypioControl.proxyPropertiesChanged, TypioControl.refreshFromProxy] using cached
      refine absurd ((hasPendingConfigChange_iff ?_ ?_).mpr other) settled
      · exact setConfigText_configSeeded _ _
      · exact setConfigText_committedConfigText _ _
  next present => exact tracked

theorem Tracked.step (tracked : session.Tracked) (sound : session.Sound) {event : ControlEvent}
    (verbatim : session.CommitsVerbatim event) : (session.step event).Tracked := by
  cases event with
  | edit rendered => exact tracked.stageFormChange rendered
  | autosaveTimeout => exact tracked.autosaveTimeout sound
  | setConfigText result => exact tracked.setConfigText verbatim
  | setConfigTextFinished => exact tracked.setConfigTextFinished sound
  | daemonCommits text => exact tracked.commit text
  | proxyPropertiesChanged => exact tracked.proxyPropertiesChanged sound
  | refreshFromProxy => exact tracked.refreshFromProxy sound.follows
  | nameVanished => exact nofun
  | nameAppeared => exact tracked.nameAppeared

end Session

open Session

/-- No edit is overwritten or taken for committed before its time exactly in the runs which always
stage anew; and a run whose submissions are committed verbatim converges to the daemon. -/
theorem staging_iff_stagesAnew (daemon : String) (events : List ControlEvent) :
    ((Machine.EachStep Session.step KeepsStage (.activate daemon) events ∧
        Machine.Always Session.step StaysPending (.activate daemon) events) ↔
      Machine.EachStep Session.step StagesAnew (.activate daemon) events) ∧
    (Machine.EachStep Session.step CommitsVerbatim (.activate daemon) events →
      Machine.Always Session.step Converged (.activate daemon) events) := by
  have initially : (activate daemon).Staged := fun waiting => absurd waiting (Nat.lt_irrefl 0)
  have nothing : (activate daemon).StaysPending := fun waiting =>
    absurd waiting (Nat.lt_irrefl 0)
  have pending_iff : Machine.Always Session.step StaysPending (.activate daemon) events ↔
      Machine.EachStep Session.step StagesAnew (.activate daemon) events :=
    Machine.always_iff_eachStep (fun session => session.Sound ∧ session.Staged)
      (fun _ event carried pending => staysPending_step_iff carried.1 carried.2 pending event)
      (fun _ event carried pending _ =>
        ⟨carried.1.step event, carried.2.step carried.1 pending event⟩)
      ⟨.activate daemon, initially⟩ nothing
  refine ⟨⟨fun lossless => pending_iff.mp lossless.2, fun anew => ⟨?_, pending_iff.mpr anew⟩⟩, ?_⟩
  · refine Machine.EachStep.of_always
      (fun _ event carried => KeepsStage.of_pending carried.1 carried.2.1 carried.2.2 event)
      (Machine.Always.of_invariant
        (fun session => session.Sound ∧ session.Staged ∧ session.StaysPending)
        (fun session event carried anew => ?_)
        ⟨.activate daemon, initially, nothing⟩ anew)
    obtain ⟨sound, staged, pending⟩ := carried
    exact ⟨sound.step event, staged.step sound pending event,
      (staysPending_step_iff sound staged pending event).mpr anew⟩
  · intro verbatim
    have kept := Machine.Always.of_invariant (fun session => session.Sound ∧ session.Tracked)
      (fun _ event carried verbatim =>
        ⟨carried.1.step event, carried.2.step carried.1 verbatim⟩)
      ⟨.activate daemon, nofun⟩ verbatim
    exact kept.mono fun _ carried => carried.2.converged carried.1

/-! ## An edit that returns -/

def original : Rendered := ⟨"# Typio\npage = 5\n", by decide⟩

def changed : Rendered := ⟨"# Typio\npage = 9\n", by decide⟩

/-- The original text is staged again while the changed one is being submitted. -/
def returningEdit : List ControlEvent :=
  [.nameAppeared, .edit changed, .autosaveTimeout, .edit original,
    .setConfigText (some changed.val)]

/-- The announcement of the changed text overwrites the text staged last. -/
theorem returning_edit_overwritten :
    ¬ (Machine.EachStep Session.step KeepsStage (.activate original.val)
        (returningEdit ++ [.proxyPropertiesChanged]) ∧
      Machine.Always Session.step StaysPending (.activate original.val)
        (returningEdit ++ [.proxyPropertiesChanged]) ∧
      Machine.Always Session.step Converged (.activate original.val)
        (returningEdit ++ [.proxyPropertiesChanged])) := by
  rintro ⟨each, -, -⟩
  have kept := each returningEdit .proxyPropertiesChanged (List.prefix_refl _) nofun
    (by decide +kernel)
  revert kept
  decide +kernel

end Control

end Typio
