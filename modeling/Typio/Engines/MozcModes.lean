import Typio.Engines.Mozc

/-!
# The mode Mozc last told

The mode of a session follows the outputs that are read, and only `set_mode` tells of it.  The
mode last told stays that of the session as long as no output which is read reports another.
-/

namespace Typio

namespace Engines

open Typio.Core

namespace MozcMode

/-- The mode is the one last told. -/
def Told (last : Option EngineMode) (mode : MozcMode) : Prop :=
  last.any (·.equal mode.engineMode) = true

theorem told_notifyMode (last : Option EngineMode) (mode : MozcMode) :
    mode.Told (notifyMode last mode.engineMode) := by
  unfold Told notifyMode
  split
  · assumption
  · simp [EngineMode.equal]

end MozcMode

namespace MozcOutput

/-- The mode an output reports. -/
def reported (output : MozcOutput) : Option MozcMode := output.mode.or output.statusMode

/-- The output reports no mode but the one last told. -/
def KeepsTold (output : MozcOutput) (last : Option EngineMode) : Prop :=
  ∀ mode ∈ output.reported, mode.Told last

end MozcOutput

namespace MozcSession

variable {session : MozcSession} {output : MozcOutput}

theorem update_told {last : Option EngineMode} (told : session.mode.Told last)
    (keeps : output.KeepsTold last) : (session.update output).mode.Told last := by
  unfold MozcOutput.KeepsTold MozcOutput.reported at keeps
  unfold update
  cases reports : output.mode.or output.statusMode with
  | none => exact told
  | some mode => exact keeps mode reports

end MozcSession

namespace MozcConduct

/-- The mode of a session that is created, after the key `ON`. -/
def openedMode (conduct : MozcConduct) : MozcMode :=
  if conduct.activated.received then
    (MozcSession.update { mode := .direct } conduct.activated.output).mode
  else .direct

end MozcConduct

namespace MozcHost

/-- The last mode told is the mode of the context. -/
def ModeFresh (host : MozcHost) : Prop := host.lastMode.any (·.equal host.getMode) = true

/-- A session that is created is in the mode last told. -/
def OpensTold (host : MozcHost) (conduct : MozcConduct) : Prop :=
  host.session = none → conduct.created = true → conduct.openedMode.Told host.lastMode

/-- A context that gets the focus has a session in the mode last told, or gets one. -/
def EntersTold (host : MozcHost) (conduct : MozcConduct) : Prop :=
  (host.session.isSome = true ∨ conduct.created = false → host.ModeFresh) ∧
    host.OpensTold conduct ∧
      (∀ session ∈ (host.getSession conduct true).2, session.mode.isAscii = true →
        conduct.reactivated.received = true →
          conduct.reactivated.output.KeepsTold host.lastMode)

/-- The outputs that are read for a key report no mode but the one last told. -/
def KeyTold (host : MozcHost) (event : TypioKeyEvent) (conduct : MozcConduct) : Prop :=
  (!event.isRelease && event.isEscape && host.context.composition.active) = true ∨
    host.OpensTold conduct ∧
      (∀ session ∈ (host.getSession conduct true).2, reactivates event session = true →
        conduct.reactivated.received = true →
          conduct.reactivated.output.KeepsTold host.lastMode) ∧
        ∀ key ∈ event.mozcKey, (conduct.key key).received = true →
          (conduct.key key).output.consumed = true →
            (conduct.key key).output.KeepsTold host.lastMode

/-- The host has the session, in the mode last told. -/
structure HasTold (host : MozcHost) (session : MozcSession) (last : Option EngineMode) : Prop where
  held : host.session = some session
  told : session.mode.Told last
  last : host.lastMode = last

variable {host : MozcHost}

theorem HasTold.modeFresh {session : MozcSession} {last : Option EngineMode}
    (has : host.HasTold session last) : host.ModeFresh := by
  unfold ModeFresh getMode
  rw [has.held, has.last]
  exact has.told

theorem ModeFresh.told {session : MozcSession} (fresh : host.ModeFresh)
    (held : host.session = some session) : session.mode.Told host.lastMode := by
  unfold ModeFresh getMode at fresh
  rw [held] at fresh
  exact fresh

theorem syncOutput_hasTold {session : MozcSession} {output : MozcOutput}
    {last : Option EngineMode} (same : host.lastMode = last)
    (told : (session.update output).mode.Told last) :
    (host.syncOutput output session).1.HasTold (session.update output) last :=
  ⟨rfl, told, same⟩

/-- Activating a session whose mode was told, with an answer that reports no other. -/
theorem activateSession_hasTold {session : MozcSession} {reply : MozcReply}
    {last : Option EngineMode} (has : host.HasTold session last)
    (keeps : reply.received = true → reply.output.KeepsTold last) :
    (host.activateSession session reply).1.HasTold (host.activateSession session reply).2 last := by
  unfold activateSession
  dsimp only
  split
  · exact ⟨has.held, has.told, has.last⟩
  next received =>
    have told := MozcSession.update_told has.told (keeps (by simpa using received))
    refine syncOutput_hasTold has.last ?_
    rw [MozcSession.update_update]
    exact told

/-- The mode of a session that is activated at its creation. -/
theorem activateSession_opened (conduct : MozcConduct)
    (told : conduct.openedMode.Told host.lastMode) :
    let opened := activateSession { host with session := some { mode := .direct } }
      { mode := .direct } conduct.activated
    opened.1.HasTold opened.2 host.lastMode := by
  unfold MozcConduct.openedMode at told
  unfold activateSession
  dsimp only
  split
  next lost =>
    rw [if_neg (by simpa using lost)] at told
    exact ⟨rfl, told, rfl⟩
  next received =>
    rw [if_pos (by simpa using received)] at told
    refine syncOutput_hasTold rfl ?_
    rw [MozcSession.update_update]
    exact told

theorem getSession_hasTold (conduct : MozcConduct)
    (fresh : host.session.isSome = true ∨ conduct.created = false → host.ModeFresh)
    (opens : host.OpensTold conduct) :
    ((host.getSession conduct true).2 = none → (host.getSession conduct true).1.ModeFresh) ∧
      ∀ session ∈ (host.getSession conduct true).2,
        (host.getSession conduct true).1.HasTold session host.lastMode := by
  unfold getSession
  cases held : host.session with
  | some session =>
      refine ⟨by simp, ?_⟩
      rintro _ ⟨rfl⟩
      exact ⟨held, (fresh (.inl (by simp [held]))).told held, rfl⟩
  | none =>
      cases created : conduct.created with
      | false => exact ⟨fun _ => fresh (.inr created), by simp⟩
      | true =>
          refine ⟨by simp, ?_⟩
          rintro _ ⟨rfl⟩
          exact activateSession_opened conduct (opens held created)

theorem focusIn_modeFresh (conduct : MozcConduct) (told : host.EntersTold conduct) :
    (host.focusIn conduct).ModeFresh := by
  obtain ⟨fresh, opens, keeps⟩ := told
  obtain ⟨without, got⟩ := getSession_hasTold conduct fresh opens
  unfold focusIn
  split
  next is => simpa [is] using without
  next session is =>
    rw [is] at got keeps
    have has := got session rfl
    split
    next ascii => exact (activateSession_hasTold has (keeps session rfl ascii)).modeFresh
    · exact has.modeFresh

/-- A key that is sent for a session whose mode was told, with an answer that reports no other. -/
theorem sendKey_modeFresh {session : MozcSession} {last : Option EngineMode}
    {event : TypioKeyEvent} {conduct : MozcConduct} (has : host.HasTold session last)
    (keeps : ∀ key ∈ event.mozcKey, (conduct.key key).received = true →
      (conduct.key key).output.consumed = true → (conduct.key key).output.KeepsTold last) :
    (host.sendKey event session conduct).1.ModeFresh := by
  unfold sendKey
  split
  · exact has.modeFresh
  next key sent =>
    have called : (host.called (conduct.key key)).ModeFresh := has.modeFresh
    dsimp only
    split
    · exact called
    next received =>
      split
      · exact called
      next consumed =>
        have told := MozcSession.update_told has.told
          (keeps key sent (by simpa using received) (by simpa using consumed))
        exact (@syncOutput_hasTold (host.called (conduct.key key)) _ _ _ has.last told).modeFresh

/-- What clears the context leaves the session and the mode. -/
theorem reset_lastMode (conduct : MozcConduct) :
    (host.reset conduct).session = host.session ∧
      (host.reset conduct).lastMode = host.lastMode := by
  unfold reset getSession
  cases held : host.session <;> exact ⟨held, rfl⟩

theorem modeFresh_congr {before after : MozcHost} (session : after.session = before.session)
    (lastMode : after.lastMode = before.lastMode) : after.ModeFresh ↔ before.ModeFresh := by
  unfold ModeFresh getMode
  rw [session, lastMode]

theorem reset_modeFresh (conduct : MozcConduct) :
    (host.reset conduct).ModeFresh ↔ host.ModeFresh :=
  modeFresh_congr (reset_lastMode conduct).1 (reset_lastMode conduct).2

theorem processKey_modeFresh (event : TypioKeyEvent) (conduct : MozcConduct)
    (fresh : host.ModeFresh) (told : host.KeyTold event conduct) :
    (host.processKey event conduct).1.ModeFresh := by
  unfold processKey
  split
  · exact (reset_modeFresh conduct).mpr fresh
  next plain =>
    obtain ⟨opens, keeps, sends⟩ := told.resolve_left plain
    obtain ⟨without, got⟩ := getSession_hasTold conduct (fun _ => fresh) opens
    split
    next is => simpa [is] using without
    next session is =>
      rw [is] at got keeps
      have has := got session rfl
      split
      next ascii =>
        exact sendKey_modeFresh (activateSession_hasTold has (keeps session rfl ascii)) sends
      · exact sendKey_modeFresh has sends

/-- A mode that is set is told. -/
theorem setMode_modeFresh (modeId : String) (conduct : MozcConduct) (fresh : host.ModeFresh) :
    (host.setMode modeId conduct).1.ModeFresh := by
  unfold setMode
  split
  · exact fresh
  split
  · exact fresh
  split
  · exact fresh
  dsimp only
  split
  · exact fresh
  · unfold syncOutput ModeFresh getMode
    dsimp only
    exact MozcMode.told_notifyMode _ _

/-! ## The other contexts -/

theorem activateSession_lastMode (session : MozcSession) (reply : MozcReply) :
    (host.activateSession session reply).1.lastMode = host.lastMode := by
  unfold activateSession
  dsimp only
  split <;> rfl

theorem getSession_lastMode (conduct : MozcConduct) (create : Bool) :
    (host.getSession conduct create).1.lastMode = host.lastMode := by
  unfold getSession
  split
  · rfl
  split
  · rfl
  split
  · rfl
  · exact activateSession_lastMode _ _

theorem sendKey_lastMode (event : TypioKeyEvent) (session : MozcSession) (conduct : MozcConduct) :
    (host.sendKey event session conduct).1.lastMode = host.lastMode := by
  unfold sendKey
  split
  · rfl
  dsimp only
  split
  · rfl
  split <;> rfl

/-- A key tells of no mode. -/
theorem processKey_lastMode (event : TypioKeyEvent) (conduct : MozcConduct) :
    (host.processKey event conduct).1.lastMode = host.lastMode := by
  have reached := host.getSession_lastMode conduct true
  unfold processKey
  split
  · exact (reset_lastMode conduct).2
  split
  next is => simpa [is] using reached
  next session is =>
    rw [is] at reached
    split
    · exact (sendKey_lastMode ..).trans ((activateSession_lastMode ..).trans reached)
    · exact (sendKey_lastMode ..).trans reached

/-- The mode is none the engine has, or there is no session whose mode the server sets. -/
def Refuses (host : MozcHost) (modeId : String) (conduct : MozcConduct) : Prop :=
  MozcMode.ofId modeId = none ∨ host.session = none ∨ conduct.command.received = false

theorem setMode_lastMode {modeId : String} {conduct : MozcConduct}
    (refuses : host.Refuses modeId conduct) :
    (host.setMode modeId conduct).1.lastMode = host.lastMode := by
  unfold setMode
  split
  · rfl
  split
  · rfl
  next known =>
    split
    · rfl
    next held =>
      dsimp only
      split
      · rfl
      next received =>
        obtain unknown | without | lost := refuses
        · simp [known] at unknown
        · simp [held] at without
        · simp [lost] at received

end MozcHost

end Engines

end Typio
