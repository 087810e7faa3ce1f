import Typio.Machine
import Typio.Wayland.EventLoop
import Typio.Wayland.RouteEdits

/-!
# Edits of the frontend

Every handler but those of a resume and of a lost connection is a sequence of edits, each small
enough that an invariant of the whole frontend can be checked on it.  The edits of the router are
among them; they take place while the keyboard has a keymap.
-/

namespace Typio

/-- Effects which no invariant of the wire reads. -/
def Effect.isQuiet : Effect → Bool
  | vkModifiers .. | grabKeyboard | releaseGrab | routed _ | engineKey .. | voiceStart | voiceStop
  | popup _ | nextEngine => true
  | _ => false

/-- The frontend changes neither its surroundings, nor its objects, keyboard, session, phase or
trace. -/
structure CoreKept (before after : Frontend) : Prop where
  inst : after.inst = before.inst
  world : after.world = before.world
  display : after.display = before.display
  inputMethod : after.inputMethod = before.inputMethod
  vk : after.vk = before.vk
  tracking : after.tracking = before.tracking
  keyboard : after.keyboard = before.keyboard
  session : after.session = before.session
  imSerial : after.imSerial = before.imSerial
  lifecyclePhase : after.lifecyclePhase = before.lifecyclePhase
  pendingReactivation : after.pendingReactivation = before.pendingReactivation
  trace : after.trace = before.trace

/-- What applying or replacing the pending state leaves alone. -/
structure Session.PendingKept (before after : Session) : Prop where
  focused : after.ctx.focused = before.ctx.focused
  active : after.pending.active = before.pending.active
  lastPreeditText : after.lastPreeditText = before.lastPreeditText
  lastPreeditCursor : after.lastPreeditCursor = before.lastPreeditCursor

namespace Frontend

/-- The keyboard has a keymap. -/
def isKeyed (frontend : Frontend) : Bool := frontend.keyboard.any (·.xkb.isSome)

/-- The session will be active after the next `done` event. -/
def pendingActive (frontend : Frontend) : Bool := frontend.session.any (·.pending.active)

end Frontend

theorem TextFrame.sessionIsFocused_eq {before after : Frontend} (text : TextFrame before after) :
    after.sessionIsFocused = before.sessionIsFocused := by
  have focused := text.focused
  unfold Frontend.sessionIsFocused
  cases after_eq : after.session <;> cases before_eq : before.session <;> simp_all

theorem TextFrame.pendingActive_eq {before after : Frontend} (text : TextFrame before after) :
    after.pendingActive = before.pendingActive := by
  have active := text.pendingActive
  unfold Frontend.pendingActive
  cases after_eq : after.session <;> cases before_eq : before.session <;> simp_all

/-- One edit of the keyboard, which leaves the session and the phase alone. -/
inductive KeyboardEdit (before : Frontend) : Frontend → Prop
  | core {after : Frontend} (kept : CoreKept before after) : KeyboardEdit before after
  | log {effect : Effect} (quiet : effect.isQuiet = true) :
      KeyboardEdit before (before.log effect)
  | upgrade : KeyboardEdit before before.vkUpgrade
  | releaseForwarded : KeyboardEdit before before.vkReleaseForwardedKeys
  | keyboard (update : Keyboard → Keyboard)
      (xkb : ∀ keyboard, (update keyboard).xkb = keyboard.xkb) :
      KeyboardEdit before (before.updateKeyboard update)
  | disown : KeyboardEdit before before.disownGeneration
  | forget : KeyboardEdit before (before.trackingReset.setKeyboard none)
  | cancelWait (gone : before.keyboard = none) : KeyboardEdit before before.vkCancelKeymapWait
  | newGeneration (gone : before.keyboard = none) :
      KeyboardEdit before (before.bumpKeyGeneration.updateTracking KeyTracking.reset)
  | grab (gone : before.keyboard = none) (createdAtEpoch : Nat) (repeatTimer : Bool) :
      KeyboardEdit before
        (before.setKeyboard (some (Keyboard.fresh createdAtEpoch repeatTimer))).vkExpectKeymap

abbrev KeyboardEdits : Frontend → Frontend → Prop := Relation.ReflTransGen KeyboardEdit

/-- One edit at a boundary, which leaves the session alone. -/
inductive BoundaryEdit (before : Frontend) : Frontend → Prop
  | keyboard {after : Frontend} (edit : KeyboardEdit before after) : BoundaryEdit before after
  | phase (next : Phase) : BoundaryEdit before (before.setPhase next)
  | reactivation (pending : Bool) : BoundaryEdit before (before.setPendingReactivation pending)
  | surroundings (inst : Instance) (world : World) : BoundaryEdit before { before with inst, world }

abbrev BoundaryEdits : Frontend → Frontend → Prop := Relation.ReflTransGen BoundaryEdit

/-- One edit which leaves the focus, the phase and the pending activation alone. -/
inductive CalmEdit (before : Frontend) : Frontend → Prop
  | keyboard {after : Frontend} (edit : KeyboardEdit before after) : CalmEdit before after
  | surroundings (inst : Instance) (world : World) : CalmEdit before { before with inst, world }
  | text {after : Frontend} (edit : TextEdit before after) : CalmEdit before after
  | route {after : Frontend} (keyed : before.isKeyed = true) (edit : RouteEdit before after) :
      CalmEdit before after
  | keymap (loaded : Option Xkb) : CalmEdit before (before.onKeymap loaded)
  | flush (focused : before.sessionIsFocused = true) : CalmEdit before before.updateWaylandTextUi
  | pend (update : Session → Session)
      (kept : ∀ session, Session.PendingKept session (update session)) :
      CalmEdit before (before.updateSession update)

abbrev CalmEdits : Frontend → Frontend → Prop := Relation.ReflTransGen CalmEdit

/-- One edit of the frontend. -/
inductive Edit (before : Frontend) : Frontend → Prop
  | boundary {after : Frontend} (edit : BoundaryEdit before after) : Edit before after
  | calm {after : Frontend} (edit : CalmEdit before after) : Edit before after
  | activate : Edit before before.imHandleActivate
  | deactivate : Edit before (before.setPendingActive false)
  | done : Edit before before.countDone
  | focusIn (active : before.pendingActive = true) (counted : .imDone ∈ before.trace) :
      Edit before (before.updateContext fun ctx => { ctx with focused := true })
  /-- The preedit tracker is reset, the engine is told, and the focus is lost. -/
  | leave {after : Frontend} (inactive : before.pendingActive = false)
      (told : TextEdits before.resetTextUiTracking after) :
      Edit before (after.updateContext fun ctx => { ctx with focused := false })

abbrev Edits : Frontend → Frontend → Prop := Relation.ReflTransGen Edit

namespace KeyboardEdits

/-! ## Edits of the keyboard -/

theorem stop (frontend : Frontend) : KeyboardEdits frontend frontend.stop :=
  .single (.core ⟨rfl, rfl, rfl, rfl, rfl, rfl, rfl, rfl, rfl, rfl, rfl, rfl⟩)

theorem setCarriedVkModifiers (frontend : Frontend) (carried : Bool) :
    KeyboardEdits frontend (frontend.setCarriedVkModifiers carried) :=
  .single (.core ⟨rfl, rfl, rfl, rfl, rfl, rfl, rfl, rfl, rfl, rfl, rfl, rfl⟩)

theorem guardReset (frontend : Frontend) : KeyboardEdits frontend frontend.guardReset :=
  .single (.core ⟨rfl, rfl, rfl, rfl, rfl, rfl, rfl, rfl, rfl, rfl, rfl, rfl⟩)

theorem releaseGrab (frontend : Frontend) : KeyboardEdits frontend frontend.releaseGrab := by
  unfold Frontend.releaseGrab
  split
  · exact .refl
  · split
    · exact .tail (.single (.log rfl)) (.keyboard _ fun _ => rfl)
    · exact .refl

theorem vkTriggerFailSafe (frontend : Frontend) :
    KeyboardEdits frontend frontend.vkTriggerFailSafe := by
  unfold Frontend.vkTriggerFailSafe
  split
  · exact (releaseGrab frontend).trans (stop _)
  · exact .refl

theorem whenVkReady {frontend : Frontend} {send : Frontend → Frontend}
    (sends : ∀ ready, KeyboardEdits ready (send ready)) :
    KeyboardEdits frontend (frontend.whenVkReady send) := by
  refine .head .upgrade ?_
  unfold Frontend.whenVkReady
  dsimp only
  split
  · exact sends _
  · split
    · exact vkTriggerFailSafe _
    · exact .refl

theorem vkForwardModifiers (frontend : Frontend) (depressed latched locked group : UInt32) :
    KeyboardEdits frontend (frontend.vkForwardModifiers depressed latched locked group) :=
  whenVkReady fun _ => .single (.log rfl)

theorem vkResetModifiers (frontend : Frontend) : KeyboardEdits frontend frontend.vkResetModifiers :=
  whenVkReady fun _ =>
    .head (.log rfl) ((setCarriedVkModifiers _ false).tail (.keyboard _ fun _ => rfl))

theorem settleOwnGeneration (frontend : Frontend) :
    KeyboardEdits frontend frontend.settleOwnGeneration := by
  refine .head .releaseForwarded ?_
  unfold Frontend.settleOwnGeneration
  dsimp only
  split
  · exact vkResetModifiers _
  · split
    · exact (vkForwardModifiers ..).trans (setCarriedVkModifiers ..)
    · exact vkResetModifiers _

theorem keyboardDestroy (frontend : Frontend) :
    KeyboardEdits frontend frontend.keyboardDestroy := by
  unfold Frontend.keyboardDestroy
  split
  · exact .refl
  · exact .head .releaseForwarded ((releaseGrab _).tail .forget)

theorem keyboardDestroy_gone (frontend : Frontend) : frontend.keyboardDestroy.keyboard = none := by
  unfold Frontend.keyboardDestroy
  split
  · assumption
  · rfl

theorem hardResetKeyboard (frontend : Frontend) :
    KeyboardEdits frontend frontend.hardResetKeyboard := by
  unfold Frontend.hardResetKeyboard
  dsimp only
  generalize carried_eq : (if shouldResetCarriedModifiers frontend.lifecyclePhase
    frontend.carriedVkModifiers = true then frontend.vkResetModifiers else frontend) = carried
  have reset : KeyboardEdits frontend carried := by
    rw [← carried_eq]
    split
    · exact vkResetModifiers frontend
    · exact .refl
  generalize settled_eq : (if frontend.tracking.activeGenerationOwnedKeys = true then
    carried.settleOwnGeneration else carried) = settled
  have settle : KeyboardEdits carried settled := by
    rw [← settled_eq]
    split
    · exact settleOwnGeneration carried
    · exact .refl
  exact (((reset.trans settle).trans (keyboardDestroy settled)).tail
    (.cancelWait (keyboardDestroy_gone settled))).tail .disown

theorem hardResetKeyboard_gone (frontend : Frontend) :
    frontend.hardResetKeyboard.keyboard = none := by
  have cancelled (frontend : Frontend) : frontend.vkCancelKeymapWait.keyboard = frontend.keyboard := by
    unfold Frontend.vkCancelKeymapWait
    repeat' split
    all_goals rfl
  exact (cancelled _).trans (keyboardDestroy_gone _)

theorem vkResetModifiers_gone (frontend : Frontend) (gone : frontend.keyboard = none) :
    frontend.vkResetModifiers.keyboard = none := by
  have upgraded : frontend.vkUpgrade.keyboard = none := by
    unfold Frontend.vkUpgrade
    split
    · exact gone
    · exact gone
  unfold Frontend.vkResetModifiers Frontend.whenVkReady
  dsimp only
  split
  · simp [upgraded]
  · split
    · unfold Frontend.vkTriggerFailSafe Frontend.releaseGrab
      rw [upgraded]
      dsimp only
      split
      · exact upgraded
      · exact upgraded
    · exact upgraded

theorem keyboardCreate {frontend : Frontend} (gone : frontend.keyboard = none) :
    KeyboardEdits frontend frontend.keyboardCreate.2 ∧ frontend.keyboardCreate.2.keyboard = none := by
  unfold Frontend.keyboardCreate
  split
  · exact ⟨.refl, gone⟩
  · dsimp only
    have renewed : KeyboardEdits frontend
        (frontend.bumpKeyGeneration.updateTracking KeyTracking.reset) :=
      .single (.newGeneration gone)
    have disowned := (renewed.tail .disown).trans (guardReset _)
    have kept : frontend.bumpKeyGeneration.disownGeneration.trackingReset.keyboard =
        frontend.keyboard := by
      simp [Frontend.bumpKeyGeneration, Frontend.disownGeneration, Frontend.trackingReset]
    split
    · exact ⟨disowned.tail (@KeyboardEdit.log _ .grabKeyboard rfl), kept.trans gone⟩
    · exact ⟨disowned, kept.trans gone⟩

theorem keyboardCreate_fresh {frontend : Frontend} {keyboard : Keyboard}
    (created : frontend.keyboardCreate.1 = some keyboard) :
    ∃ createdAtEpoch repeatTimer, keyboard = Keyboard.fresh createdAtEpoch repeatTimer := by
  unfold Frontend.keyboardCreate at created
  split at created
  · simp at created
  · dsimp only at created
    split at created
    · exact ⟨_, _, (Option.some.inj created).symm⟩
    · simp at created

theorem rebuildKeyboardGrab (frontend : Frontend) :
    KeyboardEdits frontend frontend.rebuildKeyboardGrab.2 := by
  have gone := hardResetKeyboard_gone frontend
  obtain ⟨create, still_gone⟩ := keyboardCreate gone
  refine (hardResetKeyboard frontend).trans ?_
  unfold Frontend.rebuildKeyboardGrab
  dsimp only
  cases created_eq : frontend.hardResetKeyboard.keyboardCreate with
  | mk created after =>
      rw [created_eq] at create still_gone
      cases created with
      | none => exact create.tail (.core
          ⟨rfl, rfl, rfl, rfl, rfl, rfl, still_gone.symm, rfl, rfl, rfl, rfl, rfl⟩)
      | some keyboard =>
          obtain ⟨createdAtEpoch, repeatTimer, rfl⟩ :=
            keyboardCreate_fresh (congrArg Prod.fst created_eq)
          have grabbed := create.tail (.grab still_gone createdAtEpoch repeatTimer)
          cases frontend.keyboard.isSome with
          | true => exact grabbed
          | false => exact grabbed.tail (.keyboard _ fun _ => rfl)

/-! ## Resume -/

theorem scrubKeyboard (frontend : Frontend) : KeyboardEdits frontend frontend.scrubKeyboard := by
  have gone : (frontend.hardResetKeyboard.vkResetModifiers.setCarriedVkModifiers
      false).keyboard = none := by
    rw [Frontend.setCarriedVkModifiers_keyboard]
    exact vkResetModifiers_gone _ (hardResetKeyboard_gone frontend)
  exact (((hardResetKeyboard frontend).trans (vkResetModifiers _)).trans
    (setCarriedVkModifiers _ false)).tail (.newGeneration gone)

/-! ## Events which leave the session alone -/

theorem updateArbiter (frontend : Frontend) (update : KeyArbiter → KeyArbiter) :
    KeyboardEdits frontend (frontend.updateArbiter update) :=
  .single (.keyboard _ fun _ => rfl)

theorem repeatStop (frontend : Frontend) : KeyboardEdits frontend frontend.repeatStop :=
  .single (.keyboard _ fun _ => rfl)

theorem repeatBeforeRelease (frontend : Frontend) (key : Nat) :
    KeyboardEdits frontend (frontend.repeatBeforeRelease key) := by
  unfold Frontend.repeatBeforeRelease
  split
  · exact repeatStop frontend
  · exact .refl

theorem guardNoteReject (frontend : Frontend) (pressed : Bool) :
    KeyboardEdits frontend (frontend.guardNoteReject pressed) := by
  have counted : KeyboardEdits frontend frontend.guardCountReject := by
    unfold Frontend.guardCountReject
    split
    · exact .single (.core ⟨rfl, rfl, rfl, rfl, rfl, rfl, rfl, rfl, rfl, rfl, rfl, rfl⟩)
    · exact .single (.core ⟨rfl, rfl, rfl, rfl, rfl, rfl, rfl, rfl, rfl, rfl, rfl, rfl⟩)
  unfold Frontend.guardNoteReject
  dsimp only
  split
  · exact .refl
  · split
    · exact (counted.trans (releaseGrab _)).trans (stop _)
    · exact counted

theorem onModifiers (frontend : Frontend) (depressed latched locked group : UInt32)
    (previous current : Modifiers) :
    KeyboardEdits frontend
      (frontend.onModifiers depressed latched locked group previous current) := by
  unfold Frontend.onModifiers
  split
  · exact .refl
  · dsimp only
    refine .trans ?_ (vkForwardModifiers ..)
    refine .tail (.single (.keyboard _ fun keyboard => ?_)) (.keyboard _ fun _ => rfl)
    split <;> rfl

theorem vkHealthCheck (frontend : Frontend) : KeyboardEdits frontend frontend.vkHealthCheck := by
  unfold Frontend.vkHealthCheck
  split
  · exact vkTriggerFailSafe frontend
  · exact .refl

end KeyboardEdits

namespace BoundaryEdits

variable {before after : Frontend}

theorem of_keyboard (edits : KeyboardEdits before after) : BoundaryEdits before after :=
  Relation.ReflTransGen.mono (fun _ _ edit => BoundaryEdit.keyboard edit) _ _ edits

theorem setPhase (frontend : Frontend) (phase : Phase) :
    BoundaryEdits frontend (frontend.setPhase phase) :=
  .single (.phase phase)

theorem setPendingReactivation (frontend : Frontend) (pending : Bool) :
    BoundaryEdits frontend (frontend.setPendingReactivation pending) :=
  .single (.reactivation pending)

/-! ## Boundaries of the keyboard -/

theorem regrab (frontend : Frontend) : BoundaryEdits frontend frontend.regrab := by
  have rebuilt := of_keyboard (KeyboardEdits.rebuildKeyboardGrab frontend)
  unfold Frontend.regrab
  dsimp only
  split
  · exact rebuilt.trans (setPhase ..)
  · exact rebuilt.trans (setPhase ..)

theorem scrubPhase (frontend : Frontend) : BoundaryEdits frontend frontend.scrubPhase := by
  unfold Frontend.scrubPhase
  dsimp only
  refine .trans ?_ (setPendingReactivation _ false)
  split
  · split
    · exact (setPhase ..).trans (setPhase ..)
    · exact setPhase ..
  · split
    · exact setPhase ..
    · exact .refl

theorem resumeRegrab (frontend : Frontend) : BoundaryEdits frontend frontend.resumeRegrab := by
  unfold Frontend.resumeRegrab
  split
  · exact .refl
  · exact (setPhase ..).trans (regrab _)

theorem handleReactivation (frontend : Frontend) :
    BoundaryEdits frontend frontend.handleReactivation := by
  unfold Frontend.handleReactivation
  dsimp only
  refine .trans ?_ (setPendingReactivation _ false)
  split
  · exact .refl
  · exact regrab _

theorem recoverStaleGrab (frontend : Frontend) (nowActive : Bool) :
    BoundaryEdits frontend (frontend.recoverStaleGrab nowActive) := by
  unfold Frontend.recoverStaleGrab
  repeat' split
  · exact (of_keyboard (KeyboardEdits.hardResetKeyboard frontend)).trans (setPhase ..)
  · exact .refl
  · exact .refl

end BoundaryEdits

/-- The effects of an edit of the keyboard. -/
def Effect.isKeyboard (effect : Effect) : Bool :=
  effect.isQuiet ||
    match effect with
    | vkKey .. | keyGeneration _ => true
    | _ => false

/-- An edit of the keyboard leaves the surroundings, the session, the phase and the link to the
compositor alone. -/
structure KeyboardFrame (before after : Frontend) : Prop where
  inst : after.inst = before.inst
  world : after.world = before.world
  display : after.display = before.display
  inputMethod : after.inputMethod = before.inputMethod
  session : after.session = before.session
  imSerial : after.imSerial = before.imSerial
  lifecyclePhase : after.lifecyclePhase = before.lifecyclePhase
  pendingReactivation : after.pendingReactivation = before.pendingReactivation
  sent : ∃ effects, after.trace = effects ++ before.trace ∧
    ∀ effect ∈ effects, effect.isKeyboard = true

namespace KeyboardFrame

theorem refl (frontend : Frontend) : KeyboardFrame frontend frontend :=
  ⟨rfl, rfl, rfl, rfl, rfl, rfl, rfl, rfl, [], rfl, by simp⟩

theorem trans {first second third : Frontend} (left : KeyboardFrame first second)
    (right : KeyboardFrame second third) : KeyboardFrame first third where
  inst := right.inst.trans left.inst
  world := right.world.trans left.world
  display := right.display.trans left.display
  inputMethod := right.inputMethod.trans left.inputMethod
  session := right.session.trans left.session
  imSerial := right.imSerial.trans left.imSerial
  lifecyclePhase := right.lifecyclePhase.trans left.lifecyclePhase
  pendingReactivation := right.pendingReactivation.trans left.pendingReactivation
  sent := by
    obtain ⟨earlier, earlier_trace, earlier_keyboard⟩ := left.sent
    obtain ⟨later, later_trace, later_keyboard⟩ := right.sent
    refine ⟨later ++ earlier, by rw [later_trace, earlier_trace, List.append_assoc], ?_⟩
    intro effect mem
    rcases List.mem_append.mp mem with mem | mem
    · exact later_keyboard effect mem
    · exact earlier_keyboard effect mem

theorem of_edit {before after : Frontend} (edit : KeyboardEdit before after) :
    KeyboardFrame before after := by
  cases edit with
  | core kept =>
      exact ⟨kept.inst, kept.world, kept.display, kept.inputMethod, kept.session, kept.imSerial,
        kept.lifecyclePhase, kept.pendingReactivation, [], kept.trace, by simp⟩
  | @log effect quiet =>
      exact ⟨rfl, rfl, rfl, rfl, rfl, rfl, rfl, rfl, [effect], rfl, by simp [Effect.isKeyboard, quiet]⟩
  | upgrade =>
      rw [Frontend.vkUpgrade_eq]
      exact ⟨rfl, rfl, rfl, rfl, rfl, rfl, rfl, rfl, [], rfl, by simp⟩
  | releaseForwarded =>
      obtain ⟨tracking, effects, released, -, keys⟩ := Frontend.vkReleaseForwardedKeys_eq before
      rw [released]
      refine ⟨rfl, rfl, rfl, rfl, rfl, rfl, rfl, rfl, effects, rfl, fun effect mem => ?_⟩
      obtain ⟨-, -, key, rfl, -⟩ := keys effect mem
      rfl
  | keyboard update xkb => exact ⟨rfl, rfl, rfl, rfl, rfl, rfl, rfl, rfl, [], rfl, by simp⟩
  | disown => exact ⟨rfl, rfl, rfl, rfl, rfl, rfl, rfl, rfl, [], rfl, by simp⟩
  | forget => exact ⟨rfl, rfl, rfl, rfl, rfl, rfl, rfl, rfl, [], rfl, by simp⟩
  | cancelWait gone =>
      rw [Frontend.vkCancelKeymapWait_eq]
      exact ⟨rfl, rfl, rfl, rfl, rfl, rfl, rfl, rfl, [], rfl, by simp⟩
  | newGeneration gone =>
      exact ⟨rfl, rfl, rfl, rfl, rfl, rfl, rfl, rfl, [.keyGeneration _], rfl, by
        simp [Effect.isKeyboard]⟩
  | grab gone createdAtEpoch repeatTimer =>
      rw [Frontend.vkExpectKeymap_eq]
      exact ⟨rfl, rfl, rfl, rfl, rfl, rfl, rfl, rfl, [], rfl, by simp⟩

theorem of_edits {before after : Frontend} (edits : KeyboardEdits before after) :
    KeyboardFrame before after := by
  induction edits with
  | refl => exact refl before
  | tail _ edit induction => exact induction.trans (of_edit edit)

end KeyboardFrame

/-- The effects of an edit at a boundary. -/
def Effect.isBoundary (effect : Effect) : Bool :=
  effect.isKeyboard ||
    match effect with
    | phase .. => true
    | _ => false

/-- A boundary leaves the session and the link to the compositor alone. -/
structure BoundaryFrame (before after : Frontend) : Prop where
  display : after.display = before.display
  inputMethod : after.inputMethod = before.inputMethod
  session : after.session = before.session
  imSerial : after.imSerial = before.imSerial
  sent : ∃ effects, after.trace = effects ++ before.trace ∧
    ∀ effect ∈ effects, effect.isBoundary = true

namespace BoundaryFrame

theorem refl (frontend : Frontend) : BoundaryFrame frontend frontend :=
  ⟨rfl, rfl, rfl, rfl, [], rfl, by simp⟩

theorem trans {first second third : Frontend} (left : BoundaryFrame first second)
    (right : BoundaryFrame second third) : BoundaryFrame first third where
  display := right.display.trans left.display
  inputMethod := right.inputMethod.trans left.inputMethod
  session := right.session.trans left.session
  imSerial := right.imSerial.trans left.imSerial
  sent := by
    obtain ⟨earlier, earlier_trace, earlier_boundary⟩ := left.sent
    obtain ⟨later, later_trace, later_boundary⟩ := right.sent
    refine ⟨later ++ earlier, by rw [later_trace, earlier_trace, List.append_assoc], ?_⟩
    intro effect mem
    rcases List.mem_append.mp mem with mem | mem
    · exact later_boundary effect mem
    · exact earlier_boundary effect mem

theorem of_edit {before after : Frontend} (edit : BoundaryEdit before after) :
    BoundaryFrame before after := by
  cases edit with
  | keyboard edit =>
      have frame := KeyboardFrame.of_edit edit
      obtain ⟨effects, trace_eq, effects_keyboard⟩ := frame.sent
      refine ⟨frame.display, frame.inputMethod, frame.session, frame.imSerial, effects, trace_eq, ?_⟩
      intro effect mem
      simp [Effect.isBoundary, effects_keyboard effect mem]
  | phase next => exact ⟨rfl, rfl, rfl, rfl, [.phase _ _], rfl, by simp [Effect.isBoundary]⟩
  | reactivation pending => exact ⟨rfl, rfl, rfl, rfl, [], rfl, by simp⟩
  | surroundings inst world => exact ⟨rfl, rfl, rfl, rfl, [], rfl, by simp⟩

theorem of_edits {before after : Frontend} (edits : BoundaryEdits before after) :
    BoundaryFrame before after := by
  induction edits with
  | refl => exact refl before
  | tail _ edit induction => exact induction.trans (of_edit edit)

end BoundaryFrame

/-- An edit takes nothing back. -/
theorem CalmEdit.trace_suffix {before after : Frontend} (edit : CalmEdit before after) :
    before.trace <:+ after.trace := by
  have of_text {before after : Frontend} (text : TextFrame before after) :
      before.trace <:+ after.trace := by
    obtain ⟨effects, trace_eq, -⟩ := text.sent
    exact ⟨effects, trace_eq.symm⟩
  cases edit with
  | keyboard edit =>
      obtain ⟨effects, trace_eq, -⟩ := (KeyboardFrame.of_edit edit).sent
      exact ⟨effects, trace_eq.symm⟩
  | surroundings inst world => exact List.suffix_refl _
  | text edit => exact of_text (TextFrame.of_edit edit)
  | route keyed edit =>
      obtain ⟨effects, trace_eq, -⟩ := (RouteFrame.of_edit edit).sent
      exact ⟨effects, trace_eq.symm⟩
  | keymap loaded =>
      unfold Frontend.onKeymap
      split
      · exact List.suffix_refl _
      · rcases Frontend.vkForwardKeymap_eq before with forwarded | forwarded
        · rw [forwarded]
          exact List.suffix_refl _
        · rw [forwarded]
          exact List.suffix_cons _ _
  | flush focused => exact of_text (TextFrame.updateWaylandTextUi before)
  | pend update kept => exact List.suffix_refl _

/-- An edit takes nothing back. -/
theorem Edit.trace_suffix {before after : Frontend} (edit : Edit before after) :
    before.trace <:+ after.trace := by
  cases edit with
  | boundary edit =>
      obtain ⟨effects, trace_eq, -⟩ := (BoundaryFrame.of_edit edit).sent
      exact ⟨effects, trace_eq.symm⟩
  | calm edit => exact edit.trace_suffix
  | activate =>
      have activated (frontend : Frontend) : frontend.trace <:+ frontend.activateSession.trace := by
        unfold Frontend.activateSession
        dsimp only
        split
        · exact List.suffix_refl _
        · exact List.suffix_cons _ _
      have received : before.trace <:+ (before.log .imActivate).trace := List.suffix_cons _ _
      unfold Frontend.imHandleActivate
      dsimp only
      split
      · exact received.trans (activated _)
      · split
        · have created := activated ((before.log .imActivate).setSession (some Session.new))
          exact received.trans created
        · exact received
  | deactivate => exact List.suffix_refl _
  | done => exact List.suffix_cons _ _
  | focusIn active counted => exact List.suffix_refl _
  | leave inactive told =>
      have reset := TextFrame.resetTextUiTracking before
      obtain ⟨effects, trace_eq, -⟩ := (reset.trans (TextFrame.of_edits told)).sent
      exact ⟨effects, trace_eq.symm⟩

namespace CalmEdits

variable {before after : Frontend}

theorem of_keyboard (edits : KeyboardEdits before after) : CalmEdits before after :=
  Relation.ReflTransGen.mono (fun _ _ edit => CalmEdit.keyboard edit) _ _ edits

theorem of_text (edits : TextEdits before after) : CalmEdits before after :=
  Relation.ReflTransGen.mono (fun _ _ edit => CalmEdit.text edit) _ _ edits

theorem setActiveEngine (frontend : Frontend) (active : Option String) :
    CalmEdits frontend (frontend.setActiveEngine active) :=
  .single (.surroundings { frontend.inst with activeEngine := active } frontend.world)

theorem isKeyed_of_frame (frame : RouteFrame before after) : after.isKeyed = before.isKeyed := by
  have xkb := frame.xkb
  unfold Frontend.isKeyed
  cases after_eq : after.keyboard <;> cases before_eq : before.keyboard <;> simp_all

theorem of_route (keyed : before.isKeyed = true) (edits : RouteEdits before after) :
    CalmEdits before after := by
  induction edits with
  | refl => exact .refl
  | tail edits edit induction =>
      have still_keyed := (isKeyed_of_frame (RouteFrame.of_edits edits)).trans keyed
      exact induction.tail (.route still_keyed edit)

section Engine

variable (engine : Engine)

theorem restoreIdentityEngine (frontend : Frontend) :
    CalmEdits frontend (frontend.restoreIdentityEngine engine) := by
  unfold Frontend.restoreIdentityEngine
  split
  · exact .refl
  · exact (setActiveEngine ..).trans
      (of_text (TextEdits.callEngine engine _))

theorem contextReset (frontend : Frontend) : CalmEdits frontend (frontend.contextReset engine) :=
  of_text ((TextEdits.contextCall frontend .clear).trans (TextEdits.callActiveEngine engine _))

/-! ## Key events -/

/-- A sequence of edits which leaves the keymap of the keyboard alone. -/
structure Keyed (before after : Frontend) : Prop where
  edits : CalmEdits before after
  keyed : after.isKeyed = before.isKeyed

theorem Keyed.trans {first second third : Frontend} (left : Keyed first second)
    (right : Keyed second third) : Keyed first third where
  edits := left.edits.trans right.edits
  keyed := right.keyed.trans left.keyed

theorem Keyed.updateKeyboard (frontend : Frontend) (update : Keyboard → Keyboard)
    (xkb : ∀ keyboard, (update keyboard).xkb = keyboard.xkb) :
    Keyed frontend (frontend.updateKeyboard update) where
  edits := of_keyboard (.single (.keyboard _ xkb))
  keyed := by cases keyboard_eq : frontend.keyboard <;> simp [Frontend.isKeyed, keyboard_eq, xkb]

theorem Keyed.processKeyEvent {frontend : Frontend} (keyed : frontend.isKeyed = true)
    (event : KeyEvent) : Keyed frontend (frontend.processKeyEvent engine event) := by
  have routed := RouteEdits.processKeyEvent engine frontend event
  have logged : (frontend.log (.routed event)).isKeyed = frontend.isKeyed := rfl
  exact ⟨.head (.keyboard (@KeyboardEdit.log _ (.routed event) rfl))
      (of_route (logged.trans keyed) routed),
    (isKeyed_of_frame (RouteFrame.of_edits routed)).trans logged⟩

theorem Keyed.processKeyEvents {frontend : Frontend} (keyed : frontend.isKeyed = true)
    (events : List KeyEvent) :
    Keyed frontend (events.foldl (Frontend.processKeyEvent engine) frontend) := by
  induction events generalizing frontend with
  | nil => exact ⟨.refl, rfl⟩
  | cons event events induction =>
      have first := Keyed.processKeyEvent engine keyed event
      exact first.trans (induction (first.keyed.trans keyed))

theorem Keyed.arbiterReplay {frontend : Frontend} (keyed : frontend.isKeyed = true)
    (buffer : List KeyEvent) : Keyed frontend (frontend.arbiterReplay engine buffer) :=
  (Keyed.processKeyEvents engine keyed buffer).trans (Keyed.updateKeyboard _ _ fun _ => rfl)

theorem arbiterConsume {frontend : Frontend} (keyed : frontend.isKeyed = true)
    (buffer : List KeyEvent) : CalmEdits frontend (frontend.arbiterConsume engine buffer) := by
  refine (of_route keyed (RouteEdits.arbiterReleaseOrphanedKeys frontend buffer)).trans ?_
  refine .trans ?_ (of_keyboard (KeyboardEdits.updateArbiter ..))
  exact .head (.keyboard (@KeyboardEdit.log _ .nextEngine rfl))
    ((of_text (TextEdits.callEngine engine _)).trans
      (setActiveEngine ..))

theorem dispatchKey {frontend : Frontend} (keyed : frontend.isKeyed = true) (event : KeyEvent) :
    CalmEdits frontend (frontend.dispatchKey engine event) := by
  obtain ⟨keyboard, keyboard_eq, -⟩ : ∃ keyboard, frontend.keyboard = some keyboard ∧
      keyboard.xkb.isSome = true := by
    simpa [Frontend.isKeyed, Option.any_eq_true] using keyed
  have noted : CalmEdits frontend (frontend.noteKey event) :=
    of_keyboard ((KeyboardEdits.guardReset frontend).tail (.keyboard _ fun _ => rfl))
  have noted_keyed : (frontend.noteKey event).isKeyed = true := by
    rw [← keyed]
    simp [Frontend.noteKey, Frontend.isKeyed, keyboard_eq]
  rw [Frontend.dispatchKey_eq engine keyboard_eq]
  refine noted.trans ?_
  cases frontend.outcome keyboard event with
  | pass => exact (Keyed.processKeyEvent engine noted_keyed event).edits
  | start => exact of_keyboard (KeyboardEdits.updateArbiter ..)
  | store => exact of_keyboard (KeyboardEdits.updateArbiter ..)
  | replay =>
      have replayed := Keyed.arbiterReplay engine noted_keyed keyboard.arbiter.buffer
      exact replayed.edits.trans
        (Keyed.processKeyEvent engine (replayed.keyed.trans noted_keyed) event).edits
  | consume =>
      have pushed := Keyed.updateKeyboard (frontend.noteKey event)
        (fun keyboard => { keyboard with arbiter := keyboard.arbiter.push event }) fun _ => rfl
      exact pushed.edits.trans (arbiterConsume engine (pushed.keyed.trans noted_keyed) _)

theorem onKey (frontend : Frontend) (time key : Nat) (pressed : Bool) (keysym : Keysym)
    (unicode : UInt32) (xkbModifiers : Modifiers) :
    CalmEdits frontend (frontend.onKey engine time key pressed keysym unicode xkbModifiers) := by
  unfold Frontend.onKey
  split
  · exact .refl
  · rename_i keyboard keyboard_eq
    dsimp only
    split
    · exact .refl
    · rename_i has_keymap
      have keyed : frontend.isKeyed = true := by
        simpa [Frontend.isKeyed, keyboard_eq, Option.isSome_iff_ne_none] using has_keymap
      split
      · exact of_keyboard ((KeyboardEdits.releaseGrab _).trans (KeyboardEdits.stop _))
      · split
        · split
          · exact of_keyboard (KeyboardEdits.guardNoteReject ..)
          · exact of_keyboard
              ((KeyboardEdits.guardNoteReject ..).trans (KeyboardEdits.repeatBeforeRelease ..))
        · exact dispatchKey engine keyed _

theorem dispatchRepeat (frontend : Frontend) (expired : Bool) (keysym : Keysym)
    (unicode : UInt32) (xkbModifiers : Modifiers) :
    CalmEdits frontend (frontend.dispatchRepeat engine expired keysym unicode xkbModifiers) := by
  by_cases keyed : frontend.isKeyed = true
  · exact of_route keyed (RouteEdits.dispatchRepeat engine frontend ..)
  · unfold Frontend.dispatchRepeat
    cases keyboard_eq : frontend.keyboard with
    | none => exact .refl
    | some keyboard =>
        have no_keymap : keyboard.xkb.isNone = true := by
          simpa [Frontend.isKeyed, keyboard_eq] using keyed
        simp only [no_keymap, true_or, if_true]
        repeat' split
        any_goals exact .refl
        all_goals exact of_keyboard (KeyboardEdits.repeatStop frontend)

theorem flushPendingPopup (frontend : Frontend) :
    CalmEdits frontend frontend.flushPendingPopup := by
  unfold Frontend.flushPendingPopup
  split
  · rename_i flushes
    refine .single (.flush ?_)
    exact (Bool.and_eq_true_iff.mp flushes).2
  · exact .refl

end Engine

end CalmEdits

/-- The event neither changes the focus or the phase, nor concerns the connection. -/
def Event.isCalm : Event → Bool
  | activate | deactivate | done | resume | reconcileTick | disconnected _ => false
  | _ => true

/-- Handling such an event is a sequence of edits. -/
theorem CalmEdits.handle (engine : Engine) (frontend : Frontend) {event : Event}
    (calm : event.isCalm = true) : CalmEdits frontend (frontend.handle engine event) := by
  have grabbed {handle : Frontend → Frontend} (handled : CalmEdits frontend (handle frontend)) :
      CalmEdits frontend (frontend.onGrab handle) := by
    unfold Frontend.onGrab
    split
    · exact handled
    · exact .refl
  cases event with
  | surroundingText text cursor anchor => exact .single (.pend _ fun _ => ⟨rfl, rfl, rfl, rfl⟩)
  | textChangeCause cause => exact .single (.pend _ fun _ => ⟨rfl, rfl, rfl, rfl⟩)
  | contentType hint purpose => exact .single (.pend _ fun _ => ⟨rfl, rfl, rfl, rfl⟩)
  | unavailable => exact of_keyboard (KeyboardEdits.stop frontend)
  | keymap loaded =>
      rw [Frontend.handle]
      refine grabbed ?_
      exact .single (.keymap loaded)
  | key time key pressed keysym unicode xkbModifiers =>
      rw [Frontend.handle]
      refine grabbed ?_
      exact onKey engine frontend ..
  | modifiers depressed latched locked group previous current =>
      rw [Frontend.handle]
      refine grabbed ?_
      exact of_keyboard (KeyboardEdits.onModifiers frontend ..)
  | repeatInfo rate =>
      rw [Frontend.handle]
      refine grabbed ?_
      exact of_keyboard (.single (.keyboard _ fun _ => rfl))
  | repeatTimer expired keysym unicode xkbModifiers => exact dispatchRepeat engine frontend ..
  | flushPopup => exact flushPendingPopup frontend
  | healthCheck => exact of_keyboard (KeyboardEdits.vkHealthCheck frontend)
  | dispatched =>
      exact of_keyboard (.single
        (.core ⟨rfl, rfl, rfl, rfl, rfl, rfl, rfl, rfl, rfl, rfl, rfl, rfl⟩))
  | contextCalls calls => exact of_text (TextEdits.contextCalls frontend calls)
  | reloadShortcuts shortcuts =>
      exact of_keyboard (.single
        (.core ⟨rfl, rfl, rfl, rfl, rfl, rfl, rfl, rfl, rfl, rfl, rfl, rfl⟩))
  | changeInstance inst => exact .single (.surroundings inst frontend.world)
  | changeWorld world => exact .single (.surroundings frontend.inst world)
  | _ => simp [Event.isCalm] at calm

theorem Session.applyPending_kept (session : Session) :
    Session.PendingKept session session.applyPending := by
  refine ⟨?_, rfl, rfl, rfl⟩
  unfold Session.applyPending
  cases session.pending.surroundingText <;> rfl

namespace Edits

variable {before after : Frontend}

theorem of_boundary (edits : BoundaryEdits before after) : Edits before after :=
  Relation.ReflTransGen.mono (fun _ _ edit => Edit.boundary edit) _ _ edits

theorem of_calm (edits : CalmEdits before after) : Edits before after :=
  Relation.ReflTransGen.mono (fun _ _ edit => Edit.calm edit) _ _ edits

section Engine

variable (engine : Engine)

theorem contextFocusIn {frontend : Frontend} (active : frontend.pendingActive = true)
    (counted : .imDone ∈ frontend.trace) : Edits frontend (frontend.contextFocusIn engine) := by
  unfold Frontend.contextFocusIn
  split
  · exact .refl
  · exact .head (.focusIn active counted)
      (of_calm (CalmEdits.of_text (TextEdits.callActiveEngine engine _)))

theorem transitionToActive {frontend : Frontend} (active : frontend.pendingActive = true)
    (counted : .imDone ∈ frontend.trace) :
    Edits frontend (frontend.transitionToActive engine) := by
  refine (contextFocusIn engine active counted).trans
    ((of_calm (CalmEdits.restoreIdentityEngine engine _)).trans ?_)
  unfold Frontend.transitionToActive
  dsimp only
  refine of_boundary (.trans ?_ (BoundaryEdits.setPendingReactivation _ false))
  split
  · exact BoundaryEdits.setPhase ..
  · exact BoundaryEdits.regrab _

theorem transitionToInactive {frontend : Frontend} (focused : frontend.sessionIsFocused = true)
    (inactive : frontend.pendingActive = false) :
    Edits frontend (frontend.transitionToInactive engine) := by
  have still_focused : frontend.resetTextUiTracking.sessionIsFocused = true := by
    rw [← focused]
    cases session_eq : frontend.session <;>
      simp [Frontend.resetTextUiTracking, Frontend.sessionIsFocused, Session.resetTracking,
        session_eq]
  have left : Edits frontend (frontend.resetTextUiTracking.contextFocusOut engine) := by
    rw [Frontend.contextFocusOut, if_pos still_focused]
    exact .single (.leave inactive (TextEdits.callActiveEngine engine _))
  have hidden (frontend : Frontend) : KeyboardEdits frontend (frontend.log (.popup .hide)) :=
    .single (.log rfl)
  exact (left.trans (of_calm (CalmEdits.contextReset engine _))).trans (of_boundary
    (((BoundaryEdits.of_keyboard ((hidden _).trans (KeyboardEdits.hardResetKeyboard _))).trans
      (BoundaryEdits.setPhase ..)).trans (BoundaryEdits.setPendingReactivation ..)))

theorem imHandleDone (frontend : Frontend) : Edits frontend (frontend.imHandleDone engine) := by
  refine .head .done ?_
  have counted : frontend.countDone.session = frontend.session := rfl
  unfold Frontend.imHandleDone
  dsimp only
  rw [counted]
  cases session_eq : frontend.session with
  | none => exact .refl
  | some session =>
      have applied : Edits frontend.countDone
          (frontend.countDone.updateSession Session.applyPending) :=
        .single (.calm (.pend _ Session.applyPending_kept))
      have kept := Session.applyPending_kept session
      have focused_eq : (frontend.countDone.updateSession Session.applyPending).sessionIsFocused =
          frontend.countDone.sessionIsFocused := by
        simp [Frontend.sessionIsFocused, counted, session_eq, kept.focused]
      have active_eq : (frontend.countDone.updateSession Session.applyPending).pendingActive =
          session.pending.active := by
        simp [Frontend.pendingActive, counted, session_eq, kept.active]
      refine applied.trans ?_
      dsimp only
      split
      · rename_i activates
        refine transitionToActive engine ?_ List.mem_cons_self
        rw [active_eq]
        exact (Bool.and_eq_true_iff.mp activates).1
      · split
        · exact of_boundary (BoundaryEdits.handleReactivation _)
        · split
          · rename_i cleanup
            obtain ⟨was, now⟩ := Bool.and_eq_true_iff.mp cleanup
            refine transitionToInactive engine (focused_eq.trans was) ?_
            rw [active_eq]
            simpa using now
          · exact of_boundary (BoundaryEdits.recoverStaleGrab ..)

theorem imHandleDeactivate (frontend : Frontend) : Edits frontend frontend.imHandleDeactivate :=
  (of_boundary ((BoundaryEdits.setPendingReactivation frontend false).trans
    (BoundaryEdits.setPhase ..))).tail .deactivate

end Engine

end Edits

/-- The event is neither a resume, nor a tick which may repair, nor the loss of the connection. -/
def Event.isEdit : Event → Bool
  | resume | reconcileTick | disconnected _ => false
  | _ => true

/-- Handling such an event is a sequence of edits. -/
theorem Edits.handle (engine : Engine) (frontend : Frontend) {event : Event}
    (edit : event.isEdit = true) : Edits frontend (frontend.handle engine event) := by
  cases calm : event.isCalm with
  | true => exact of_calm (CalmEdits.handle engine frontend calm)
  | false =>
      cases event with
      | activate => exact .single .activate
      | deactivate => exact imHandleDeactivate frontend
      | done => exact imHandleDone engine frontend
      | resume | reconcileTick | disconnected outcomes => simp [Event.isEdit] at edit
      | _ => simp [Event.isCalm] at calm

/-! ## Resume and reconnect -/

/-- An edit of the frontend, or of its link to the compositor. -/
inductive LinkEdit (before : Frontend) : Frontend → Prop
  | edit {after : Frontend} (edit : Edit before after) : LinkEdit before after
  /-- A resume clears the preedit on the wire. -/
  | scrubPreedit : LinkEdit before (before.setPreedit [] (-1) (-1)).commit
  | unbind (gone : before.keyboard = none) : LinkEdit before before.waylandUnbind
  | baseline (gone : before.keyboard = none) : LinkEdit before before.reconnectBaseline
  | bind (gone : before.keyboard = none) (vk : VkOutcome) :
      LinkEdit before (before.waylandBind vk)

abbrev LinkEdits : Frontend → Frontend → Prop := Relation.ReflTransGen LinkEdit

namespace LinkEdits

theorem of_edits {before after : Frontend} (edits : Edits before after) :
    LinkEdits before after :=
  Relation.ReflTransGen.mono (fun _ _ edit => LinkEdit.edit edit) _ _ edits

theorem of_boundary {before after : Frontend} (edits : BoundaryEdits before after) :
    LinkEdits before after :=
  of_edits (Edits.of_boundary edits)

theorem of_keyboard {before after : Frontend} (edits : KeyboardEdits before after) :
    LinkEdits before after :=
  of_boundary (BoundaryEdits.of_keyboard edits)

theorem handleResume (frontend : Frontend) : LinkEdits frontend frontend.handleResume := by
  have scrubbed : LinkEdits frontend frontend.onResume :=
    ((of_keyboard (KeyboardEdits.scrubKeyboard frontend)).tail .scrubPreedit).trans
      (of_boundary (BoundaryEdits.scrubPhase _))
  unfold Frontend.handleResume
  dsimp only
  split
  · exact scrubbed.trans (of_boundary (BoundaryEdits.resumeRegrab _))
  · exact scrubbed

theorem reconcileTick (frontend : Frontend) : LinkEdits frontend frontend.reconcileTick := by
  have noted : KeyboardEdits frontend (frontend.setDivergence frontend.reconcileDecision.2) :=
    .single (.core ⟨rfl, rfl, rfl, rfl, rfl, rfl, rfl, rfl, rfl, rfl, rfl, rfl⟩)
  refine (of_keyboard noted).trans ?_
  unfold Frontend.reconcileTick
  dsimp only
  split
  · exact handleResume _
  · exact .refl

theorem reconnectAttempts {frontend : Frontend} (gone : frontend.keyboard = none)
    (outcomes : List BindOutcome) :
    LinkEdits frontend (frontend.reconnectAttempts outcomes).2 := by
  induction outcomes with
  | nil => exact .refl
  | cons outcome outcomes induction =>
      unfold Frontend.reconnectAttempts
      split
      · exact .refl
      · cases outcome with
        | stopped => exact of_keyboard (KeyboardEdits.stop frontend)
        | failed => exact induction
        | bound vk =>
            exact .tail (.single (.bind gone vk))
              (.edit (.boundary (.keyboard
                (.core ⟨rfl, rfl, rfl, rfl, rfl, rfl, rfl, rfl, rfl, rfl, rfl, rfl⟩))))

theorem waylandUnbind_gone (frontend : Frontend) : frontend.waylandUnbind.keyboard = none := by
  have gone := KeyboardEdits.keyboardDestroy_gone frontend
  unfold Frontend.waylandUnbind Frontend.unbindInputMethod Frontend.unbindVk
  dsimp only
  split <;> split <;> simp [Frontend.setVkPresent, Frontend.vkSetState, gone]

theorem waylandUnbind (frontend : Frontend) : LinkEdits frontend frontend.waylandUnbind := by
  have gone := KeyboardEdits.keyboardDestroy_gone frontend
  have again : frontend.keyboardDestroy.waylandUnbind = frontend.waylandUnbind := by
    have unchanged : frontend.keyboardDestroy.keyboardDestroy = frontend.keyboardDestroy := by
      unfold Frontend.keyboardDestroy at gone ⊢
      split
      · rfl
      · rename_i some_eq
        rw [some_eq] at gone
        exact absurd gone (by simp)
    rw [Frontend.waylandUnbind, unchanged]
    rfl
  rw [← again]
  exact (of_keyboard (KeyboardEdits.keyboardDestroy frontend)).tail (.unbind gone)

theorem eventLoopRecover (frontend : Frontend) (outcomes : List BindOutcome) :
    LinkEdits frontend (frontend.eventLoopRecover outcomes) := by
  have gone := waylandUnbind_gone frontend
  have reset : LinkEdits frontend frontend.waylandUnbind.reconnectBaseline :=
    (waylandUnbind frontend).tail (.baseline gone)
  have still_gone : frontend.waylandUnbind.reconnectBaseline.keyboard = none := by
    simp [Frontend.reconnectBaseline, Frontend.bumpKeyGeneration, Frontend.disownGeneration, gone]
  have reconnected : LinkEdits frontend (frontend.reconnect outcomes).2 :=
    reset.trans (reconnectAttempts still_gone _)
  unfold Frontend.eventLoopRecover
  dsimp only
  split
  · exact reconnected
  · exact reconnected.trans (of_keyboard (KeyboardEdits.stop _))

/-- Whatever the frontend does is a sequence of edits. -/
theorem step (engine : Engine) (frontend : Frontend) (event : Event) :
    LinkEdits frontend (frontend.step engine event) := by
  unfold Frontend.step
  split
  · cases edit : event.isEdit with
    | true => exact of_edits (Edits.handle engine frontend edit)
    | false =>
        cases event with
        | resume => exact handleResume frontend
        | reconcileTick => exact reconcileTick frontend
        | disconnected outcomes => exact eventLoopRecover frontend outcomes
        | _ => simp [Event.isEdit] at edit
  · exact .refl

end LinkEdits

theorem LinkEdits.preserve {invariant : Frontend → Prop}
    (preserved : ∀ before after, LinkEdit before after → invariant before → invariant after)
    {before after : Frontend} (edits : LinkEdits before after) (holds : invariant before) :
    invariant after := by
  induction edits with
  | refl => exact holds
  | tail _ edit induction => exact preserved _ _ edit induction

/-- What every edit preserves holds throughout every run. -/
theorem always_of_linkEdit (invariant : Frontend → Prop)
    (preserved : ∀ before after, LinkEdit before after → invariant before → invariant after)
    (engine : Engine) {start : Frontend} (initial : invariant start) (events : List Event) :
    Machine.Always (Frontend.step engine) invariant start events :=
  Machine.Always.of_preserved invariant
    (fun state event => LinkEdits.preserve preserved (LinkEdits.step engine state event)) initial

end Typio
