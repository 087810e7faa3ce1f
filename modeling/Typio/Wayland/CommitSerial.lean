import Typio.Wayland.Edits

/-!
# The serial of a commit

A commit must carry the number of `done` events received on the current input-method object.  The
frontend counts the `done` events of all objects it ever had, modulo the width of the counter, so
after a reconnect the serial is right only if the earlier objects contributed nothing to it.
-/

namespace Typio

/-! ## Counting `done` events -/

/-- The `done` events received on the current input-method object. -/
def currentDones (trace : List Effect) : Nat :=
  (trace.takeWhile fun effect => decide (effect ≠ .imCreate)).count .imDone

/-- The `done` events received on earlier input-method objects. -/
def earlierDones (trace : List Effect) : Nat :=
  (trace.dropWhile fun effect => decide (effect ≠ .imCreate)).count .imDone

theorem count_done_eq (trace : List Effect) :
    trace.count .imDone = currentDones trace + earlierDones trace := by
  rw [currentDones, earlierDones, ← List.count_append, List.takeWhile_append_dropWhile]

/-- The serial an effect commits with. -/
def Effect.serial : Effect → Option Nat
  | commit serial => some serial
  | _ => none

/-- The property holds of every commit, as its serial and the effects recorded before it. -/
def EachCommit (property : Nat → List Effect → Prop) : List Effect → Prop
  | [] => True
  | effect :: earlier =>
      (∀ serial ∈ effect.serial, property serial earlier) ∧ EachCommit property earlier

instance decidableEachCommit (property : Nat → List Effect → Prop)
    [∀ serial earlier, Decidable (property serial earlier)] :
    DecidablePred (EachCommit property)
  | [] => .isTrue trivial
  | effect :: earlier =>
      have := decidableEachCommit property earlier
      inferInstanceAs (Decidable ((∀ serial ∈ effect.serial, property serial earlier) ∧
        EachCommit property earlier))

/-- Every commit carries the number of `done` events of the object it is sent on. -/
def CommitsCurrent : List Effect → Prop :=
  EachCommit fun serial earlier => serial = currentDones earlier

/-- Whenever a commit is sent, the `done` events of earlier objects leave the counter at zero, and
those of the current object fit in it. -/
def CommitsBased : List Effect → Prop :=
  EachCommit fun _ earlier => earlierDones earlier % 2 ^ 32 = 0 ∧ currentDones earlier < 2 ^ 32

/-- Two properties of commits which agree under a third one. -/
theorem eachCommit_congr {given left right : Nat → List Effect → Prop}
    (agree : ∀ serial earlier, given serial earlier → (left serial earlier ↔ right serial earlier))
    {trace : List Effect} (each : EachCommit given trace) :
    EachCommit left trace ↔ EachCommit right trace := by
  induction trace with
  | nil => exact Iff.rfl
  | cons effect trace induction =>
      obtain ⟨first, later⟩ := each
      refine and_congr (forall_congr' fun serial => ?_) (induction later)
      exact ⟨fun holds mem => (agree serial trace (first serial mem)).mp (holds mem),
        fun holds mem => (agree serial trace (first serial mem)).mpr (holds mem)⟩

/-! ## The counter -/

namespace Frontend

/-- The counter and every serial sent count the `done` events of all objects. -/
structure SerialCounts (frontend : Frontend) : Prop where
  counter : frontend.imSerial = frontend.trace.count .imDone % 2 ^ 32
  commits : EachCommit (fun serial earlier => serial = earlier.count .imDone % 2 ^ 32)
    frontend.trace

namespace SerialCounts

variable {before after : Frontend}

/-- Effects which are neither `done` events nor commits leave the count right. -/
theorem sent (counts : before.SerialCounts) (serial : after.imSerial = before.imSerial)
    (effects : List Effect) (trace : after.trace = effects ++ before.trace)
    (silent : ∀ effect ∈ effects, effect ≠ .imDone ∧ effect.serial = none) :
    after.SerialCounts := by
  obtain ⟨counter, commits⟩ := counts
  have uncounted : effects.count .imDone = 0 :=
    List.count_eq_zero.mpr fun mem => (silent _ mem).1 rfl
  refine ⟨by rw [serial, trace, List.count_append, uncounted, Nat.zero_add, counter], ?_⟩
  rw [trace]
  clear trace uncounted
  induction effects with
  | nil => exact commits
  | cons effect effects induction =>
      refine ⟨?_, induction fun other mem => silent other (List.mem_cons_of_mem _ mem)⟩
      rw [(silent effect List.mem_cons_self).2]
      simp

theorem of_eq (counts : before.SerialCounts) (serial : after.imSerial = before.imSerial)
    (trace : after.trace = before.trace) : after.SerialCounts :=
  counts.sent serial [] trace (by simp)

theorem log (counts : before.SerialCounts) (effect : Effect)
    (silent : effect ≠ .imDone ∧ effect.serial = none) : (before.log effect).SerialCounts :=
  counts.sent rfl [effect] rfl (by simpa using silent)

theorem updateSession (counts : before.SerialCounts) (update : Session → Session) :
    (before.updateSession update).SerialCounts :=
  counts.of_eq rfl rfl

theorem setPopupUpdatePending (counts : before.SerialCounts) (pending : Bool) :
    (before.setPopupUpdatePending pending).SerialCounts :=
  counts.of_eq rfl rfl

theorem setPhase (counts : before.SerialCounts) (phase : Phase) :
    (before.setPhase phase).SerialCounts := by
  have moved : { before with lifecyclePhase := phase }.SerialCounts := counts.of_eq rfl rfl
  exact moved.log (.phase before.lifecyclePhase phase) ⟨by simp, rfl⟩

theorem commit (counts : before.SerialCounts) : before.commit.SerialCounts := by
  unfold Frontend.commit
  split
  · exact counts
  · split
    · exact counts
    · refine ⟨?_, ?_, counts.commits⟩
      · rw [log_imSerial, log_trace, List.count_cons_of_ne (by simp), counts.counter]
      · simp [Effect.serial, counts.counter]

theorem setPreedit (counts : before.SerialCounts) (text : Text) (cursorBegin cursorEnd : Int) :
    (before.setPreedit text cursorBegin cursorEnd).SerialCounts := by
  unfold Frontend.setPreedit
  split
  · exact counts.log _ ⟨by simp, rfl⟩
  · exact counts

theorem commitString (counts : before.SerialCounts) (text : Text) :
    (before.commitString text).SerialCounts := by
  unfold Frontend.commitString
  split
  · exact counts.log _ ⟨by simp, rfl⟩
  · exact counts

theorem of_textEdit (counts : before.SerialCounts) (edit : TextEdit before after) :
    after.SerialCounts := by
  cases edit with
  | updateContext update focused => exact counts.of_eq rfl rfl
  | onComposition => exact counts.of_eq rfl rfl
  | countEngineCall => exact counts.of_eq rfl rfl
  | onCommit text =>
      unfold Frontend.onCommitCallback
      split
      · exact counts
      · have hidden := (counts.setPreedit [] (-1) (-1)).log (.popup .hide) ⟨by simp, rfl⟩
        exact (hidden.commitString text).commit.of_eq rfl rfl

theorem of_textEdits (counts : before.SerialCounts) (edits : TextEdits before after) :
    after.SerialCounts := by
  induction edits with
  | refl => exact counts
  | tail _ edit induction => exact induction.of_textEdit edit

theorem updateWaylandTextUi (counts : before.SerialCounts) :
    before.updateWaylandTextUi.SerialCounts := by
  unfold Frontend.updateWaylandTextUi
  split
  · exact counts
  · have shown := counts.log (.popup .update) ⟨by simp, rfl⟩
    dsimp only
    refine updateSession ?_ _
    have retried := shown.setPopupUpdatePending before.world.presentRetryPending
    split
    · unfold Frontend.syncPreedit
      split
      · exact (retried.setPreedit ..).commit
      · exact (retried.setPreedit ..).commit
    · exact retried

theorem of_routeEdit (counts : before.SerialCounts) (edit : RouteEdit before after) :
    after.SerialCounts := by
  cases edit with
  | text edit => exact counts.of_textEdit edit
  | @log effect routing =>
      refine counts.log effect ?_
      revert routing
      cases effect <;> simp [Effect.isRouting, Effect.serial]
  | key ready time key pressed => exact counts.log _ ⟨by simp, rfl⟩
  | upgrade =>
      rw [vkUpgrade_eq]
      exact counts.of_eq rfl rfl
  | track update generation => exact counts.of_eq rfl rfl
  | keyboard update kept => exact counts.of_eq rfl rfl
  | stop => exact counts.of_eq rfl rfl

theorem imHandleActivate (counts : before.SerialCounts) :
    before.imHandleActivate.SerialCounts := by
  have received := counts.log .imActivate ⟨by simp, rfl⟩
  have activated (frontend : Frontend) (counts : frontend.SerialCounts) :
      frontend.activateSession.SerialCounts := by
    unfold Frontend.activateSession
    dsimp only
    refine updateSession ((updateSession ?_ _).setPopupUpdatePending false) _
    have pending (pending : Bool) : (frontend.setPendingReactivation pending).SerialCounts :=
      counts.of_eq rfl rfl
    split
    · exact pending true
    · exact (pending false).setPhase .activating
  unfold Frontend.imHandleActivate
  dsimp only
  split
  · exact activated _ received
  · split
    · exact activated _ (received.of_eq rfl rfl)
    · exact received

theorem countDone (counts : before.SerialCounts) : before.countDone.SerialCounts where
  counter := by
    rw [Frontend.countDone, log_imSerial, log_trace, List.count_cons_self, counts.counter]
    simp
  commits := ⟨by simp [Effect.serial], counts.commits⟩

theorem of_keyboardEdit (counts : before.SerialCounts) (edit : KeyboardEdit before after) :
    after.SerialCounts := by
  cases edit with
  | core kept => exact counts.of_eq kept.imSerial kept.trace
  | @log effect quiet =>
      refine counts.log effect ?_
      revert quiet
      cases effect <;>
        first
        | exact fun quiet => absurd quiet Bool.false_ne_true
        | exact fun _ => ⟨nofun, rfl⟩
  | upgrade =>
      rw [vkUpgrade_eq]
      exact counts.of_eq rfl rfl
  | releaseForwarded =>
      obtain ⟨tracking, effects, released, -, keys⟩ := vkReleaseForwardedKeys_eq before
      rw [released]
      refine counts.sent rfl effects rfl fun effect mem => ?_
      obtain ⟨-, -, key, rfl, -⟩ := keys effect mem
      exact ⟨by simp, rfl⟩
  | keyboard update xkb => exact counts.of_eq rfl rfl
  | disown => exact counts.of_eq rfl rfl
  | forget => exact counts.of_eq rfl rfl
  | cancelWait gone =>
      rw [vkCancelKeymapWait_eq]
      exact counts.of_eq rfl rfl
  | newGeneration gone => exact counts.sent rfl [.keyGeneration _] rfl (by simp [Effect.serial])
  | grab gone createdAtEpoch repeatTimer =>
      rw [vkExpectKeymap_eq]
      exact counts.of_eq rfl rfl

theorem of_boundaryEdit (counts : before.SerialCounts) (edit : BoundaryEdit before after) :
    after.SerialCounts := by
  cases edit with
  | keyboard edit => exact counts.of_keyboardEdit edit
  | phase next => exact counts.setPhase next
  | reactivation pending => exact counts.of_eq rfl rfl
  | surroundings inst world => exact counts.of_eq rfl rfl

theorem of_calmEdit (counts : before.SerialCounts) (edit : CalmEdit before after) :
    after.SerialCounts := by
  cases edit with
  | keyboard edit => exact counts.of_keyboardEdit edit
  | surroundings inst world => exact counts.of_eq rfl rfl
  | text edit => exact counts.of_textEdit edit
  | route keyed edit => exact counts.of_routeEdit edit
  | keymap loaded =>
      unfold Frontend.onKeymap
      split
      · exact counts
      · rcases vkForwardKeymap_eq before with forwarded | forwarded
        · rw [forwarded]
          exact counts.of_eq rfl rfl
        · rw [forwarded]
          exact (counts.log .vkKeymap ⟨by simp, rfl⟩).of_eq rfl rfl
  | flush focused => exact counts.updateWaylandTextUi
  | pend update kept => exact counts.of_eq rfl rfl

theorem of_edit (counts : before.SerialCounts) (edit : Edit before after) :
    after.SerialCounts := by
  cases edit with
  | boundary edit => exact counts.of_boundaryEdit edit
  | calm edit => exact counts.of_calmEdit edit
  | activate => exact counts.imHandleActivate
  | deactivate => exact counts.of_eq rfl rfl
  | done => exact counts.countDone
  | focusIn active counted => exact counts.of_eq rfl rfl
  | leave inactive told =>
      have reset : before.resetTextUiTracking.SerialCounts := counts.of_eq rfl rfl
      exact (reset.of_textEdits told).of_eq rfl rfl

theorem of_linkEdit (edit : LinkEdit before after) (counts : before.SerialCounts) :
    after.SerialCounts := by
  cases edit with
  | edit edit => exact counts.of_edit edit
  | scrubPreedit => exact (counts.setPreedit ..).commit
  | unbind gone =>
      have unbound_vk : before.unbindVk.SerialCounts := by
        unfold Frontend.unbindVk
        split
        · have absent : (before.vkSetState .absent).SerialCounts := counts.of_eq rfl rfl
          exact (absent.log .vkDestroy ⟨by simp, rfl⟩).of_eq rfl rfl
        · exact counts
      have unbound : before.unbindVk.unbindInputMethod.SerialCounts := by
        unfold Frontend.unbindInputMethod
        split
        · have disconnected : (before.unbindVk.setConnected
              before.unbindVk.display false).SerialCounts := unbound_vk.of_eq rfl rfl
          exact disconnected.log .imDestroy ⟨by simp, rfl⟩
        · exact unbound_vk
      have destroyed : before.keyboardDestroy = before := by
        simp [Frontend.keyboardDestroy, gone]
      rw [Frontend.waylandUnbind, destroyed]
      exact unbound.of_eq rfl rfl
  | baseline gone =>
      exact counts.sent rfl [.keyGeneration _] rfl (by simp [Effect.serial])
  | bind gone vk =>
      have created : ((before.setConnected true true).log .imCreate).SerialCounts :=
        counts.sent rfl [.imCreate] rfl (by simp [Effect.serial])
      cases vk with
      | noManager => exact created.of_eq rfl rfl
      | failed => exact created.of_eq rfl rfl
      | created =>
          exact created.sent rfl [.vkCreate] rfl (by simp [Effect.serial])

theorem zeroed (inst : Instance) (shortcuts : ShortcutConfig) (world : World) :
    (Frontend.zeroed inst shortcuts world).SerialCounts where
  counter := rfl
  commits := trivial

/-- In every run the counter and all serials sent count the `done` events of all objects. -/
theorem run (engine : Engine) (inst : Instance) (shortcuts : ShortcutConfig) (world : World)
    (vk : VkOutcome) (events : List Event) :
    (Machine.run (Frontend.step engine) (start inst shortcuts world vk) events).SerialCounts := by
  have started : (start inst shortcuts world vk).SerialCounts :=
    of_linkEdit (.bind rfl vk) (zeroed inst shortcuts world)
  exact (always_of_linkEdit SerialCounts (fun _ _ => of_linkEdit) engine started events).final

end SerialCounts

end Frontend

/-! ## Serials after a reconnect -/

theorem serial_eq_currentDones_iff {serial : Nat} {earlier : List Effect}
    (counts : serial = earlier.count .imDone % 2 ^ 32) :
    serial = currentDones earlier ↔
      earlierDones earlier % 2 ^ 32 = 0 ∧ currentDones earlier < 2 ^ 32 := by
  rw [counts, count_done_eq]
  omega

/-- In every run all commits carry the number of `done` events of the object they are sent on if
and only if, at every commit, the `done` events of earlier objects are a multiple of the counter's
range and those of the current object fit in it. -/
theorem commitsCurrent_iff_based (engine : Engine) (inst : Instance) (shortcuts : ShortcutConfig)
    (world : World) (vk : VkOutcome) (events : List Event) :
    let trace := (Machine.run (Frontend.step engine) (Frontend.start inst shortcuts world vk)
      events).trace
    CommitsCurrent trace ↔ CommitsBased trace := by
  have counts := Frontend.SerialCounts.run engine inst shortcuts world vk events
  exact eachCommit_congr (fun _ _ => serial_eq_currentDones_iff) counts.commits

/-- After a reconnect the first commit on the new object carries two, not one. -/
theorem stale_serial_committed :
    ¬CommitsCurrent (Machine.run
      (Frontend.step fun _ => { handled := false, calls := [], active := none })
      (Frontend.start ⟨none, none, false, false⟩ ShortcutConfig.defaults (World.obliging 1000)
        .noManager)
      [.activate, .done, .disconnected [.bound .noManager], .activate, .done,
        .contextCalls [.commit [0x61]]]).trace := by
  unfold CommitsCurrent
  decide

end Typio
