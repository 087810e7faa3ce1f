import Typio.Wayland.Edits

/-!
# The keymap handshake

The virtual keyboard may forward keys only after it has been sent the compositor keymap of the
current grab generation.  A key is routed only while the keyboard has a keymap of its own, which
it receives in the same event that passes the keymap on; this is what the invariant records.
-/

namespace Typio

/-! ## The wire -/

/-- The virtual keyboard has been sent a keymap since the grab generation and the object are
current. -/
def keymapSent : List Effect → Bool
  | [] => false
  | .vkKeymap :: _ => true
  | .keyGeneration _ :: _ => false
  | .vkCreate :: _ => false
  | _ :: earlier => keymapSent earlier

/-- The effect is a key on the virtual keyboard. -/
def Effect.isVkKey : Effect → Bool
  | vkKey .. => true
  | _ => false

/-- Every key was sent after the keymap of its generation. -/
def KeysAfterKeymap : List Effect → Prop
  | [] => True
  | effect :: earlier =>
      (effect.isVkKey = true → keymapSent earlier = true) ∧ KeysAfterKeymap earlier

/-- The effect neither sends a key or a keymap nor starts a generation or an object. -/
def Effect.keepsKeymap : Effect → Bool
  | vkKey .. | vkKeymap | keyGeneration _ | vkCreate => false
  | _ => true

theorem Effect.isVkKey_of_keepsKeymap {effect : Effect} (kept : effect.keepsKeymap = true) :
    effect.isVkKey = false := by
  revert kept
  cases effect <;> simp [keepsKeymap, isVkKey]

theorem keymapSent_cons {effect : Effect}
    (kept : effect.keepsKeymap = true ∨ effect.isVkKey = true) (earlier : List Effect) :
    keymapSent (effect :: earlier) = keymapSent earlier := by
  revert kept
  cases effect <;> simp [keymapSent, Effect.keepsKeymap, Effect.isVkKey]

theorem keymapSent_append {effects : List Effect}
    (kept : ∀ effect ∈ effects, effect.keepsKeymap = true ∨ effect.isVkKey = true)
    (earlier : List Effect) : keymapSent (effects ++ earlier) = keymapSent earlier := by
  induction effects with
  | nil => rfl
  | cons effect effects induction =>
      rw [List.cons_append, keymapSent_cons (kept effect List.mem_cons_self)]
      exact induction fun other mem => kept other (List.mem_cons_of_mem _ mem)

/-- Keys may be sent while the keymap has been. -/
theorem KeysAfterKeymap.append {effects earlier : List Effect} (ordered : KeysAfterKeymap earlier)
    (kept : ∀ effect ∈ effects, effect.keepsKeymap = true ∨
      (effect.isVkKey = true ∧ keymapSent earlier = true)) :
    KeysAfterKeymap (effects ++ earlier) := by
  induction effects with
  | nil => exact ordered
  | cons effect effects induction =>
      have rest : ∀ other ∈ effects, other.keepsKeymap = true ∨
          (other.isVkKey = true ∧ keymapSent earlier = true) :=
        fun other mem => kept other (List.mem_cons_of_mem _ mem)
      have same : keymapSent (effects ++ earlier) = keymapSent earlier :=
        keymapSent_append (fun other mem => (rest other mem).imp_right And.left) earlier
      refine ⟨fun is_key => same.trans ?_, induction rest⟩
      rcases kept effect List.mem_cons_self with quiet | ⟨-, sent⟩
      · rw [Effect.isVkKey_of_keepsKeymap quiet] at is_key
        exact absurd is_key (by simp)
      · exact sent

theorem KeysAfterKeymap.cons {effect : Effect} {earlier : List Effect}
    (ordered : KeysAfterKeymap earlier) (not_key : effect.isVkKey = false) :
    KeysAfterKeymap (effect :: earlier) :=
  ⟨fun is_key => by rw [not_key] at is_key; exact absurd is_key (by simp), ordered⟩

namespace Frontend

/-! ## The invariant -/

/-- With a virtual keyboard and a grab: when ready, it has the keymap of the current generation;
while the keymap is awaited, a deadline is armed; and every key came after the keymap. -/
structure HandshakeKept (frontend : Frontend) : Prop where
  ready : frontend.keyboard.isSome = true → frontend.vk.present = true →
    frontend.vk.state = .ready →
    frontend.vk.keymapGeneration = frontend.tracking.activeKeyGeneration
  armed : frontend.keyboard.isSome = true → frontend.vk.present = true →
    frontend.vk.state = .needsKeymap → frontend.vk.keymapDeadlineMs ≠ 0
  keys : KeysAfterKeymap frontend.trace

/-- What makes the handshake inductive: without a keymap of its own the keyboard owes no key, and
with one the keymap is not awaited, and has been sent if the virtual keyboard is ready. -/
structure Handshake (frontend : Frontend) : Prop extends HandshakeKept frontend where
  attached : frontend.vk.state = .ready ∨ frontend.vk.state = .needsKeymap →
    frontend.vk.present = true
  idle : frontend.isKeyed = false → ∀ key, (frontend.tracking.states key).owed = false
  settled : frontend.isKeyed = true → frontend.vk.present = true →
    frontend.vk.state ≠ .needsKeymap
  sent : frontend.isKeyed = true → frontend.vk.state = .ready → keymapSent frontend.trace = true

namespace Handshake

variable {before after : Frontend}

/-- A change which leaves the virtual keyboard and the keyboard's keymap alone. -/
theorem calm (handshake : before.Handshake) (vk : after.vk = before.vk)
    (generation : after.tracking.activeKeyGeneration = before.tracking.activeKeyGeneration)
    (present : after.keyboard.isSome = before.keyboard.isSome)
    (keyed : after.isKeyed = before.isKeyed)
    (idle : after.isKeyed = false → ∀ key, (after.tracking.states key).owed = false)
    (effects : List Effect) (trace : after.trace = effects ++ before.trace)
    (kept : ∀ effect ∈ effects, effect.keepsKeymap = true ∨
      (effect.isVkKey = true ∧ keymapSent before.trace = true)) : after.Handshake where
  ready := by
    rw [present, vk, generation]
    exact handshake.ready
  armed := by
    rw [present, vk]
    exact handshake.armed
  keys := by
    rw [trace]
    exact handshake.keys.append kept
  attached := by
    rw [vk]
    exact handshake.attached
  idle := idle
  settled := by
    rw [keyed, vk]
    exact handshake.settled
  sent := by
    rw [keyed, vk, trace, keymapSent_append fun effect mem => (kept effect mem).imp_right And.left]
    exact handshake.sent

/-- A change which leaves the tracker alone as well. -/
theorem still (handshake : before.Handshake) (vk : after.vk = before.vk)
    (tracking : after.tracking = before.tracking)
    (present : after.keyboard.isSome = before.keyboard.isSome)
    (keyed : after.isKeyed = before.isKeyed) (effects : List Effect)
    (trace : after.trace = effects ++ before.trace)
    (kept : ∀ effect ∈ effects, effect.keepsKeymap = true) : after.Handshake := by
  refine handshake.calm vk (by rw [tracking]) present keyed ?_ effects trace
    fun effect mem => .inl (kept effect mem)
  rw [keyed, tracking]
  exact handshake.idle

theorem of_textFrame (handshake : before.Handshake) (text : TextFrame before after) :
    after.Handshake := by
  obtain ⟨effects, trace_eq, effects_text⟩ := text.sent
  have same : after.vk = before.vk ∧ after.tracking = before.tracking ∧
      after.keyboard = before.keyboard := by
    rw [text.frame]
    exact ⟨rfl, rfl, rfl⟩
  refine handshake.still same.1 same.2.1 (by rw [same.2.2]) (by simp [isKeyed, same.2.2]) effects
    trace_eq fun effect mem => ?_
  have effect_text := effects_text effect mem
  revert effect_text
  cases effect <;> simp [Effect.isTextUi, Effect.keepsKeymap]

theorem log (handshake : before.Handshake) (effect : Effect) (kept : effect.keepsKeymap = true) :
    (before.log effect).Handshake :=
  handshake.still rfl rfl rfl rfl [effect] rfl (by simpa using kept)

theorem updateKeyboard (handshake : before.Handshake) (update : Keyboard → Keyboard)
    (xkb : ∀ keyboard, (update keyboard).xkb = keyboard.xkb) :
    (before.updateKeyboard update).Handshake := by
  refine handshake.still rfl rfl (by simp) ?_ [] rfl (by simp)
  cases keyboard_eq : before.keyboard <;> simp [isKeyed, keyboard_eq, xkb]

theorem vkUpgrade (handshake : before.Handshake) : before.vkUpgrade.Handshake := by
  unfold Frontend.vkUpgrade
  split
  · rename_i upgrades
    obtain ⟨present, awaited, current⟩ := upgrades
    have current_eq : before.vk.keymapGeneration = before.tracking.activeKeyGeneration := by
      simpa [vkHasCurrentGenerationKeymap] using (Bool.and_eq_true_iff.mp current).2
    have not_keyed (keyed : before.isKeyed = true) : False :=
      handshake.settled keyed present awaited
    exact
      { ready := fun _ _ _ => current_eq
        armed := fun _ _ awaits => by simp [vkSetState] at awaits
        keys := handshake.keys
        attached := fun _ => present
        idle := handshake.idle
        settled := fun keyed => (not_keyed keyed).elim
        sent := fun keyed => (not_keyed keyed).elim }
  · exact handshake

theorem of_routeEdit (handshake : before.Handshake) (keyed : before.isKeyed = true)
    (edit : RouteEdit before after) : after.Handshake := by
  cases edit with
  | text edit => exact handshake.of_textFrame (TextFrame.of_edit edit)
  | @log effect routing =>
      refine handshake.log effect ?_
      revert routing
      cases effect <;> simp [Effect.isRouting, Effect.keepsKeymap]
  | key ready time key pressed =>
      refine handshake.calm rfl rfl rfl rfl handshake.idle [_] rfl ?_
      simp [Effect.isVkKey, handshake.sent keyed ready]
  | upgrade => exact handshake.vkUpgrade
  | track update generation =>
      refine handshake.calm rfl (generation _) rfl rfl (fun not_keyed => ?_) [] rfl (by simp)
      have still_keyed : before.isKeyed = false := not_keyed
      rw [keyed] at still_keyed
      exact absurd still_keyed (by simp)
  | keyboard update kept => exact handshake.updateKeyboard update fun keyboard => (kept keyboard).xkb
  | stop => exact handshake.still rfl rfl rfl rfl [] rfl (by simp)

theorem releaseForwarded (handshake : before.Handshake) :
    before.vkReleaseForwardedKeys.Handshake := by
  obtain ⟨tracking, effects, released, tracking_eq, keys⟩ := vkReleaseForwardedKeys_eq before
  rw [released]
  refine handshake.calm rfl ?_ rfl rfl (fun not_keyed key => ?_) effects rfl fun effect mem => ?_
  · rcases tracking_eq with rfl | rfl <;> rfl
  · have not_owed := handshake.idle not_keyed key
    rcases tracking_eq with rfl | rfl
    · exact not_owed
    · simp [KeyTracking.markReleasedPending, not_owed]
  · obtain ⟨present, usable, key, rfl, owed⟩ := keys effect mem
    have keyed : before.isKeyed = true := by
      by_contra not_keyed
      have not_owed := handshake.idle (Bool.eq_false_iff.mpr not_keyed) key
      rw [not_owed] at owed
      exact absurd owed (by simp)
    have ready : before.vk.state = .ready :=
      usable.resolve_right (handshake.settled keyed present)
    exact .inr ⟨rfl, handshake.sent keyed ready⟩

theorem onKeymap (handshake : before.Handshake) (loaded : Option Xkb) :
    (before.onKeymap loaded).Handshake := by
  unfold Frontend.onKeymap
  split
  · exact handshake
  · rename_i keyboard keyboard_eq
    have idle_kept {tracking : KeyTracking} (same : tracking = before.tracking)
        (not_keyed : (before.updateKeyboard fun keyboard =>
          { keyboard with xkb := loaded.or keyboard.xkb }).isKeyed = false) (key) :
        (tracking.states key).owed = false := by
      subst same
      refine handshake.idle ?_ key
      revert not_keyed
      cases xkb_eq : keyboard.xkb <;> simp [isKeyed, keyboard_eq, xkb_eq]
    unfold Frontend.vkForwardKeymap
    split
    · rename_i absent
      exact
        { ready := fun _ present => by simp [absent] at present
          armed := fun _ present => by simp [absent] at present
          keys := handshake.keys
          attached := handshake.attached
          idle := idle_kept rfl
          settled := fun _ present => by simp [absent] at present
          sent := fun _ ready => by
            have present := handshake.attached (.inl ready)
            simp [absent] at present }
    · split
      · exact
          { ready := fun _ _ ready => by simp [vkSetState] at ready
            armed := fun _ _ awaits => by simp [vkSetState] at awaits
            keys := handshake.keys
            attached := fun usable => by simp [vkSetState] at usable
            idle := idle_kept rfl
            settled := fun _ _ => by simp [vkSetState]
            sent := fun _ ready => by simp [vkSetState] at ready }
      · rename_i present _
        exact
          { ready := fun _ _ _ => rfl
            armed := fun _ _ awaits => by simp [vkSetState] at awaits
            keys := handshake.keys.cons rfl
            attached := fun _ => by simpa [vkSetState] using present
            idle := idle_kept rfl
            settled := fun _ _ => by simp [vkSetState]
            sent := fun _ _ => rfl }

theorem expectKeymap (handshake : before.Handshake) (gone : before.keyboard = none)
    (createdAtEpoch : Nat) (repeatTimer : Bool) :
    ((before.setKeyboard (some (Keyboard.fresh createdAtEpoch repeatTimer))).vkExpectKeymap)
      |>.Handshake := by
  have idle : ∀ key, (before.tracking.states key).owed = false :=
    handshake.idle (by simp [isKeyed, gone])
  unfold Frontend.vkExpectKeymap
  split
  · rename_i absent
    have not_attached : ¬(before.vk.state = .ready ∨ before.vk.state = .needsKeymap) := by
      intro usable
      have present := handshake.attached usable
      rw [setKeyboard_vk] at absent
      simp [absent] at present
    exact
      { ready := fun _ _ ready => (not_attached (.inl ready)).elim
        armed := fun _ _ awaits => (not_attached (.inr awaits)).elim
        keys := handshake.keys
        attached := handshake.attached
        idle := fun _ => idle
        settled := fun keyed => by simp [isKeyed, Keyboard.fresh] at keyed
        sent := fun keyed => by simp [isKeyed, Keyboard.fresh] at keyed }
  · rename_i present
    exact
      { ready := fun _ _ ready => by simp [vkSetState] at ready
        armed := fun _ _ _ => by simp [vkSetState, vkKeymapTimeoutMs]
        keys := handshake.keys
        attached := fun _ => by simpa [vkSetState] using present
        idle := fun _ => idle
        settled := fun keyed => by simp [isKeyed, vkSetState, Keyboard.fresh] at keyed
        sent := fun keyed => by simp [isKeyed, vkSetState, Keyboard.fresh] at keyed }

/-- Without a keyboard the handshake asks only that a usable virtual keyboard exists, that no key
is owed, and that the keys sent came after their keymaps. -/
theorem of_gone (gone : after.keyboard = none) (keys : KeysAfterKeymap after.trace)
    (attached : after.vk.state = .ready ∨ after.vk.state = .needsKeymap →
      after.vk.present = true)
    (idle : ∀ key, (after.tracking.states key).owed = false) : after.Handshake where
  ready present := by simp [gone] at present
  armed present := by simp [gone] at present
  keys := keys
  attached := attached
  idle _ := idle
  settled keyed := by simp [isKeyed, gone] at keyed
  sent keyed := by simp [isKeyed, gone] at keyed

theorem imHandleActivate (handshake : before.Handshake) : before.imHandleActivate.Handshake := by
  have reset {frontend : Frontend} (handshake : frontend.Handshake) :
      (frontend.sessionReset.setPendingActive true).Handshake :=
    handshake.still rfl rfl rfl rfl [] rfl (by simp)
  have deferred {frontend : Frontend} (handshake : frontend.Handshake) (reactivates : Bool) :
      (frontend.setPendingReactivation reactivates).Handshake :=
    handshake.still rfl rfl rfl rfl [] rfl (by simp)
  have phased {frontend : Frontend} (handshake : frontend.Handshake) (phase : Phase) :
      (frontend.setPhase phase).Handshake :=
    handshake.still rfl rfl rfl rfl [.phase _ _] rfl (by simp [Effect.keepsKeymap])
  have activated (frontend : Frontend) (handshake : frontend.Handshake) :
      frontend.activateSession.Handshake := by
    unfold Frontend.activateSession
    dsimp only
    split
    · exact reset (deferred handshake true)
    · exact reset (phased (deferred handshake false) .activating)
  have received := handshake.log .imActivate rfl
  unfold Frontend.imHandleActivate
  dsimp only
  split
  · exact activated _ received
  · split
    · exact activated _ (received.still rfl rfl rfl rfl [] rfl (by simp))
    · exact received

theorem of_keyboardEdit (handshake : before.Handshake) (edit : KeyboardEdit before after) :
    after.Handshake := by
  cases edit with
  | core kept =>
      exact handshake.still kept.vk kept.tracking (by rw [kept.keyboard])
        (by simp [isKeyed, kept.keyboard]) [] kept.trace (by simp)
  | @log effect quiet =>
      refine handshake.log effect ?_
      revert quiet
      cases effect <;>
        first
        | exact fun _ => rfl
        | exact fun quiet => absurd quiet Bool.false_ne_true
  | upgrade => exact handshake.vkUpgrade
  | releaseForwarded => exact handshake.releaseForwarded
  | keyboard update xkb => exact handshake.updateKeyboard update xkb
  | disown => exact handshake.calm rfl rfl rfl rfl handshake.idle [] rfl (by simp)
  | forget => exact of_gone rfl handshake.keys handshake.attached fun _ => rfl
  | cancelWait gone =>
      have gone_after : before.vkCancelKeymapWait.keyboard = none := by
        rw [vkCancelKeymapWait_eq]
        exact gone
      have idle := handshake.idle (by simp [isKeyed, gone])
      refine of_gone gone_after ?_ ?_ ?_
      · rw [vkCancelKeymapWait_eq]
        exact handshake.keys
      · unfold Frontend.vkCancelKeymapWait
        split
        · exact handshake.attached
        · rename_i awaited
          have present := handshake.attached (.inr (not_not.mp awaited))
          split <;> simp [vkSetState, present]
      · rw [vkCancelKeymapWait_eq]
        exact idle
  | newGeneration gone =>
      exact of_gone (by simp [bumpKeyGeneration, gone]) (handshake.keys.cons rfl)
        handshake.attached fun _ => rfl
  | grab gone createdAtEpoch repeatTimer =>
      exact handshake.expectKeymap gone createdAtEpoch repeatTimer

theorem of_boundaryEdit (handshake : before.Handshake) (edit : BoundaryEdit before after) :
    after.Handshake := by
  cases edit with
  | keyboard edit => exact handshake.of_keyboardEdit edit
  | phase next =>
      exact handshake.still rfl rfl rfl rfl [.phase _ _] rfl (by simp [Effect.keepsKeymap])
  | reactivation pending => exact handshake.still rfl rfl rfl rfl [] rfl (by simp)
  | surroundings inst world => exact handshake.still rfl rfl rfl rfl [] rfl (by simp)

theorem of_calmEdit (handshake : before.Handshake) (edit : CalmEdit before after) :
    after.Handshake := by
  cases edit with
  | keyboard edit => exact handshake.of_keyboardEdit edit
  | surroundings inst world => exact handshake.still rfl rfl rfl rfl [] rfl (by simp)
  | text edit => exact handshake.of_textFrame (TextFrame.of_edit edit)
  | route keyed edit => exact handshake.of_routeEdit keyed edit
  | keymap loaded => exact handshake.onKeymap loaded
  | flush focused => exact handshake.of_textFrame (TextFrame.updateWaylandTextUi before)
  | pend update kept => exact handshake.still rfl rfl rfl rfl [] rfl (by simp)

theorem of_edit (handshake : before.Handshake) (edit : Edit before after) : after.Handshake := by
  cases edit with
  | boundary edit => exact handshake.of_boundaryEdit edit
  | calm edit => exact handshake.of_calmEdit edit
  | activate => exact handshake.imHandleActivate
  | deactivate => exact handshake.still rfl rfl rfl rfl [] rfl (by simp)
  | done => exact handshake.still rfl rfl rfl rfl [.imDone] rfl (by simp [Effect.keepsKeymap])
  | focusIn active counted => exact handshake.still rfl rfl rfl rfl [] rfl (by simp)
  | leave inactive told =>
      have reset := handshake.of_textFrame (TextFrame.resetTextUiTracking before)
      exact (reset.of_textFrame (TextFrame.of_edits told)).still rfl rfl rfl rfl [] rfl (by simp)

theorem of_linkEdit (edit : LinkEdit before after) (handshake : before.Handshake) :
    after.Handshake := by
  have idle (gone : before.keyboard = none) := handshake.idle (by simp [isKeyed, gone])
  cases edit with
  | edit edit => exact handshake.of_edit edit
  | scrubPreedit =>
      exact handshake.of_textFrame
        ((TextFrame.setPreedit before [] (-1) (-1)).trans (TextFrame.commit _))
  | unbind gone =>
      have destroyed : before.keyboardDestroy = before := by
        simp [Frontend.keyboardDestroy, gone]
      have unbound : before.unbindVk.Handshake := by
        unfold Frontend.unbindVk
        split
        · exact of_gone gone (handshake.keys.cons rfl) (by simp [setVkPresent, vkSetState])
            (idle gone)
        · exact handshake
      rw [Frontend.waylandUnbind, destroyed]
      unfold Frontend.unbindInputMethod
      split
      · exact unbound.still rfl rfl rfl rfl [.imDestroy] rfl (by simp [Effect.keepsKeymap])
      · exact unbound.still rfl rfl rfl rfl [] rfl (by simp)
  | baseline gone =>
      exact of_gone (by simp [reconnectBaseline, bumpKeyGeneration, disownGeneration, gone])
        (handshake.keys.cons rfl) handshake.attached fun _ => rfl
  | bind gone vk =>
      have created : KeysAfterKeymap (.imCreate :: before.trace) := handshake.keys.cons rfl
      cases vk with
      | noManager => exact of_gone gone created (by simp [waylandBind, vkSetState]) (idle gone)
      | failed => exact of_gone gone created (by simp [waylandBind, vkSetState]) (idle gone)
      | created =>
          exact of_gone gone (created.cons rfl) (by simp [waylandBind, setVkPresent, vkSetState])
            (idle gone)

end Handshake

/-- In every state a run reaches the handshake is kept, whatever the generation counter does. -/
theorem handshakeKept_always (engine : Engine) (inst : Instance) (shortcuts : ShortcutConfig)
    (world : World) (vk : VkOutcome) (events : List Event) :
    Machine.Always (step engine) HandshakeKept (start inst shortcuts world vk) events := by
  have zero : (zeroed inst shortcuts world).Handshake :=
    Handshake.of_gone rfl trivial (by simp [zeroed]) fun _ => rfl
  have started : (start inst shortcuts world vk).Handshake :=
    Handshake.of_linkEdit (.bind rfl vk) zero
  exact (always_of_linkEdit Handshake (fun _ _ => Handshake.of_linkEdit) engine started
    events).mono fun _ handshake => handshake.toHandshakeKept

end Frontend

end Typio
