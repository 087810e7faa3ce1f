import Typio.Wayland.KeyArbiter

/-!
# Edits of the router

Everything the router and the repeat timer do is a sequence of small edits.  An invariant of the
key path is shown once for each edit, and what no edit touches is a frame of the whole path.
-/

namespace Typio

/-- The effects of routing a key, other than what the application is sent. -/
def Effect.isRouting : Effect → Bool
  | engineKey .. | voiceStart | voiceStop | releaseGrab | popup _ => true
  | _ => false

/-- Routing leaves the arbiter, the physical modifiers and the keymap of a keyboard alone. -/
structure Keyboard.RouteKept (before after : Keyboard) : Prop where
  arbiter : after.arbiter = before.arbiter
  physicalModifiers : after.physicalModifiers = before.physicalModifiers
  xkb : after.xkb = before.xkb

/-- One edit of the router. -/
inductive RouteEdit (before : Frontend) : Frontend → Prop
  | text {after : Frontend} (edit : TextEdit before after) : RouteEdit before after
  | log {effect : Effect} (routing : effect.isRouting = true) : RouteEdit before (before.log effect)
  | key (ready : before.vk.state = .ready) (time key : Nat) (pressed : Bool) :
      RouteEdit before (before.log (.vkKey time key pressed))
  | upgrade : RouteEdit before before.vkUpgrade
  | track (update : KeyTracking → KeyTracking)
      (generation : ∀ tracking,
        (update tracking).activeKeyGeneration = tracking.activeKeyGeneration) :
      RouteEdit before (before.updateTracking update)
  | keyboard (update : Keyboard → Keyboard)
      (kept : ∀ keyboard, Keyboard.RouteKept keyboard (update keyboard)) :
      RouteEdit before (before.updateKeyboard update)
  | stop : RouteEdit before before.stop

abbrev RouteEdits : Frontend → Frontend → Prop := Relation.ReflTransGen RouteEdit

theorem Keyboard.endSuppression_kept (keyboard : Keyboard) :
    RouteKept keyboard keyboard.endSuppression := by
  unfold endSuppression
  split
  · exact ⟨rfl, rfl, rfl⟩
  · exact ⟨rfl, rfl, rfl⟩

namespace RouteEdits

variable {before middle after : Frontend}

/-! ## Routing a key -/

theorem of_text (edits : TextEdits before after) : RouteEdits before after :=
  Relation.ReflTransGen.mono (fun _ _ edit => RouteEdit.text edit) _ _ edits

theorem setKeyState (frontend : Frontend) (key : Nat) (state : KeyTrackState) :
    RouteEdits frontend (frontend.setKeyState key state) :=
  .single (.track (·.setState key state) fun tracking => by simp)

theorem clearKeyTracking (frontend : Frontend) (key : Nat) :
    RouteEdits frontend (frontend.clearKeyTracking key) :=
  .single (.track (·.clearTracking key) fun tracking => by simp)

theorem claim (frontend : Frontend) (key : Nat) :
    RouteEdits frontend (frontend.updateTracking (·.claimCurrentGeneration key)) :=
  .single (.track _ fun tracking => by simp)

theorem endSuppression (frontend : Frontend) :
    RouteEdits frontend (frontend.updateKeyboard Keyboard.endSuppression) :=
  .single (.keyboard _ Keyboard.endSuppression_kept)

theorem releaseGrab (frontend : Frontend) : RouteEdits frontend frontend.releaseGrab := by
  unfold Frontend.releaseGrab
  split
  · exact .refl
  · split
    · exact .tail (.single (.log rfl)) (.keyboard _ fun _ => ⟨rfl, rfl, rfl⟩)
    · exact .refl

theorem vkTriggerFailSafe (frontend : Frontend) :
    RouteEdits frontend frontend.vkTriggerFailSafe := by
  unfold Frontend.vkTriggerFailSafe
  split
  · exact .tail (releaseGrab frontend) .stop
  · exact .refl

theorem whenVkReady {frontend : Frontend} {send : Frontend → Frontend}
    (sends : ∀ ready, ready.vk.state = .ready → RouteEdits ready (send ready)) :
    RouteEdits frontend (frontend.whenVkReady send) := by
  refine .head .upgrade ?_
  unfold Frontend.whenVkReady
  dsimp only
  split
  · rename_i ready
    exact sends _ ready
  · split
    · exact vkTriggerFailSafe _
    · exact .refl

theorem vkForwardKey (frontend : Frontend) (time key : Nat) (pressed : Bool) :
    RouteEdits frontend (frontend.vkForwardKey time key pressed) :=
  whenVkReady fun _ ready => .single (.key ready time key pressed)

theorem forwardAs (frontend : Frontend) (event : KeyEvent) (state : KeyTrackState) :
    RouteEdits frontend
      ((frontend.vkForwardKey event.time event.key true).setKeyState event.key state) :=
  (vkForwardKey frontend ..).trans (setKeyState ..)

section Engine

variable (engine : Engine)

theorem processKey (frontend : Frontend) (event : KeyEvent) (isRepeat : Bool) :
    RouteEdits frontend (frontend.processKey engine event isRepeat).2 := by
  unfold Frontend.processKey
  split
  · exact .head (.log rfl) (of_text (TextEdits.callEngine engine _))
  · exact .refl

theorem offerPress (frontend : Frontend) (event : KeyEvent) :
    RouteEdits frontend (frontend.offerPress engine event) := by
  have asked := processKey engine frontend event false
  unfold Frontend.offerPress
  dsimp only
  split
  · exact asked
  · split
    · exact asked.trans (forwardAs _ event .forwarded)
    · exact asked

theorem classifyPress (frontend : Frontend) (event : KeyEvent) :
    RouteEdits frontend (frontend.classifyPress engine event) := by
  unfold Frontend.classifyPress
  split
  · exact .tail (releaseGrab frontend) .stop
  · split
    · exact .head (.log rfl) (setKeyState ..)
    · exact .tail (setKeyState ..) (.log rfl)
  · split
    · exact forwardAs frontend event .appShortcut
    · split
      · exact forwardAs frontend event .basicPassthrough
      · exact offerPress engine frontend event

theorem routePress (frontend : Frontend) (keyboard : Keyboard) (event : KeyEvent) :
    RouteEdits frontend (frontend.routePress engine keyboard event) := by
  refine (claim frontend event.key).trans ?_
  unfold Frontend.routePress
  dsimp only
  split
  · exact .tail (setKeyState ..) (.keyboard _ fun _ => ⟨rfl, rfl, rfl⟩)
  · exact (endSuppression _).trans (classifyPress engine _ event)

theorem processPress (frontend : Frontend) (event : KeyEvent) :
    RouteEdits frontend (frontend.processPress engine event) := by
  unfold Frontend.processPress
  split
  · exact .refl
  · split
    any_goals exact .refl
    any_goals exact routePress engine frontend _ event
    · split
      · exact vkForwardKey ..
      · exact .refl
    · exact vkForwardKey ..

theorem releaseIdle (frontend : Frontend) (keyboard : Keyboard) (event : KeyEvent) :
    RouteEdits frontend (frontend.releaseIdle engine keyboard event) := by
  unfold Frontend.releaseIdle
  split
  · split
    · exact (vkForwardKey ..).trans (clearKeyTracking ..)
    · exact clearKeyTracking ..
  · exact ((endSuppression _).trans (processKey engine _ event false)).trans (clearKeyTracking ..)

theorem releaseForwarded (frontend : Frontend) (event : KeyEvent) :
    RouteEdits frontend (frontend.releaseForwarded engine event) := by
  have asked := (clearKeyTracking frontend event.key).trans (processKey engine _ event false)
  unfold Frontend.releaseForwarded
  dsimp only
  split
  · exact asked.trans (clearKeyTracking ..)
  · exact asked.trans (vkForwardKey ..)

theorem processRelease (frontend : Frontend) (event : KeyEvent) :
    RouteEdits frontend (frontend.processRelease engine event) := by
  have cleared := clearKeyTracking frontend event.key
  unfold Frontend.processRelease
  split
  · exact .refl
  · split
    · exact cleared
    · refine (cleared.tail (.keyboard _ fun keyboard => ?_)).trans (vkForwardKey ..)
      have ended := Keyboard.endSuppression_kept
        { keyboard with startupSuppressedCount := keyboard.startupSuppressedCount - 1 }
      exact ⟨ended.arbiter, ended.physicalModifiers, ended.xkb⟩
    · exact cleared.trans (vkForwardKey ..)
    · exact cleared.trans (vkForwardKey ..)
    · exact .head (.log rfl) (clearKeyTracking ..)
    · exact .head (.log rfl) (clearKeyTracking ..)
    · exact releaseForwarded engine frontend event
    · exact releaseIdle engine frontend _ event

/-! ## The repeat timer -/

theorem repeatStop (frontend : Frontend) : RouteEdits frontend frontend.repeatStop :=
  .single (.keyboard _ fun _ => ⟨rfl, rfl, rfl⟩)

theorem repeatMaybeStart (frontend : Frontend) (key time : Nat) (modifiers : Modifiers) :
    RouteEdits frontend (frontend.repeatMaybeStart key time modifiers) := by
  refine .single (.keyboard _ fun keyboard => ?_)
  split
  · exact ⟨rfl, rfl, rfl⟩
  · exact ⟨rfl, rfl, rfl⟩

theorem repeatAfterPress (frontend : Frontend) (event : KeyEvent) :
    RouteEdits frontend (frontend.repeatAfterPress event) := by
  unfold Frontend.repeatAfterPress
  split
  · exact .refl
  · split
    · exact repeatMaybeStart ..
    · exact .refl

theorem repeatBeforeRelease (frontend : Frontend) (key : Nat) :
    RouteEdits frontend (frontend.repeatBeforeRelease key) := by
  unfold Frontend.repeatBeforeRelease
  split
  · exact repeatStop frontend
  · exact .refl

theorem offerRepeat (frontend : Frontend) (event : KeyEvent) :
    RouteEdits frontend (frontend.offerRepeat engine event) := by
  have asked := processKey engine frontend event true
  unfold Frontend.offerRepeat
  dsimp only
  split
  · exact asked
  · split
    · exact asked
    · exact asked.trans (forwardAs _ event .forwarded)

theorem deliverRepeat (frontend : Frontend) (keyboard : Keyboard) (event : KeyEvent) :
    RouteEdits frontend (frontend.deliverRepeat engine keyboard event) := by
  unfold Frontend.deliverRepeat
  split
  · split
    · exact vkForwardKey ..
    · exact repeatStop frontend
  · exact vkForwardKey ..
  · exact vkForwardKey ..
  · split
    · exact offerRepeat engine frontend event
    · exact repeatStop frontend

theorem dispatchRepeat (frontend : Frontend) (expired : Bool) (keysym : Keysym)
    (unicode : UInt32) (xkbModifiers : Modifiers) :
    RouteEdits frontend (frontend.dispatchRepeat engine expired keysym unicode xkbModifiers) := by
  unfold Frontend.dispatchRepeat
  repeat' split
  any_goals exact .refl
  any_goals exact repeatStop frontend
  exact deliverRepeat engine frontend _ _

/-! ## The arbiter -/

theorem processKeyEvent (frontend : Frontend) (event : KeyEvent) :
    RouteEdits (frontend.log (.routed event)) (frontend.processKeyEvent engine event) := by
  unfold Frontend.processKeyEvent
  split
  · exact (processPress engine _ event).trans (repeatAfterPress ..)
  · exact (repeatBeforeRelease ..).trans (processRelease engine _ event)

theorem arbiterReleaseOrphanedKeys (frontend : Frontend) (buffer : List KeyEvent) :
    RouteEdits frontend (frontend.arbiterReleaseOrphanedKeys buffer) := by
  induction buffer generalizing frontend with
  | nil => exact .refl
  | cons event buffer induction =>
      refine .trans ?_ (induction _)
      dsimp only
      split
      · exact .refl
      · exact (vkForwardKey ..).trans (clearKeyTracking ..)

end Engine

end RouteEdits

/-! ## What routing leaves alone -/

/-- What the router can send or call. -/
def Effect.isRoute : Effect → Bool
  | vkKey .. => true
  | effect => effect.isRouting || effect.isTextUi

/-- Routing changes at most the tracker, the virtual keyboard's state, the repeat and the startup
guard of the keyboard, and the text; it may stop the loop. -/
structure RouteFrame (before after : Frontend) : Prop where
  frame : after = { before with
    vk := after.vk, tracking := after.tracking, keyboard := after.keyboard,
    session := after.session, running := after.running,
    popupUpdatePending := after.popupUpdatePending, engineCalls := after.engineCalls,
    trace := after.trace }
  generation : after.tracking.activeKeyGeneration = before.tracking.activeKeyGeneration
  arbiter : after.keyboard.map (·.arbiter) = before.keyboard.map (·.arbiter)
  physicalModifiers :
    after.keyboard.map (·.physicalModifiers) = before.keyboard.map (·.physicalModifiers)
  xkb : after.keyboard.map (·.xkb) = before.keyboard.map (·.xkb)
  focused : after.session.map (·.ctx.focused) = before.session.map (·.ctx.focused)
  sent : ∃ effects, after.trace = effects ++ before.trace ∧
    ∀ effect ∈ effects, effect.isRoute = true

namespace RouteFrame

theorem refl (frontend : Frontend) : RouteFrame frontend frontend where
  frame := rfl
  generation := rfl
  arbiter := rfl
  physicalModifiers := rfl
  xkb := rfl
  focused := rfl
  sent := ⟨[], rfl, by simp⟩

theorem trans {first second third : Frontend} (left : RouteFrame first second)
    (right : RouteFrame second third) : RouteFrame first third where
  frame := by
    rw [right.frame, left.frame]
  generation := right.generation.trans left.generation
  arbiter := right.arbiter.trans left.arbiter
  physicalModifiers := right.physicalModifiers.trans left.physicalModifiers
  xkb := right.xkb.trans left.xkb
  focused := right.focused.trans left.focused
  sent := by
    obtain ⟨earlier, earlier_trace, earlier_route⟩ := left.sent
    obtain ⟨later, later_trace, later_route⟩ := right.sent
    refine ⟨later ++ earlier, by rw [later_trace, earlier_trace, List.append_assoc], ?_⟩
    intro effect mem
    rcases List.mem_append.mp mem with mem | mem
    · exact later_route effect mem
    · exact earlier_route effect mem

theorem log {frontend : Frontend} {effect : Effect} (route : effect.isRoute = true) :
    RouteFrame frontend (frontend.log effect) where
  frame := rfl
  generation := rfl
  arbiter := rfl
  physicalModifiers := rfl
  xkb := rfl
  focused := rfl
  sent := ⟨[effect], rfl, by simpa using route⟩

theorem vkUpgrade (frontend : Frontend) : RouteFrame frontend frontend.vkUpgrade := by
  unfold Frontend.vkUpgrade
  split
  · exact ⟨rfl, rfl, rfl, rfl, rfl, rfl, ⟨[], rfl, by simp⟩⟩
  · exact refl frontend

theorem of_edit {before after : Frontend} (edit : RouteEdit before after) :
    RouteFrame before after := by
  cases edit with
  | text edit =>
      have text := TextFrame.of_edit edit
      obtain ⟨effects, trace_eq, effects_text⟩ := text.sent
      refine ⟨?_, ?_, ?_, ?_, ?_, text.focused, ⟨effects, trace_eq, ?_⟩⟩
      any_goals rw [text.frame]
      intro effect mem
      have effect_text := effects_text effect mem
      cases effect <;> simp_all [Effect.isRoute, Effect.isTextUi]
  | @log effect routing =>
      refine log ?_
      cases effect <;> simp_all [Effect.isRoute, Effect.isRouting]
  | key ready time key pressed => exact log rfl
  | upgrade => exact vkUpgrade before
  | track update generation =>
      exact ⟨rfl, generation _, rfl, rfl, rfl, rfl, ⟨[], rfl, by simp⟩⟩
  | keyboard update kept =>
      refine ⟨rfl, rfl, ?_, ?_, ?_, rfl, ⟨[], rfl, by simp⟩⟩
      · simp [Function.comp_def, (kept _).arbiter]
      · simp [Function.comp_def, (kept _).physicalModifiers]
      · simp [Function.comp_def, (kept _).xkb]
  | stop => exact ⟨rfl, rfl, rfl, rfl, rfl, rfl, ⟨[], rfl, by simp⟩⟩

theorem of_edits {before after : Frontend} (edits : RouteEdits before after) :
    RouteFrame before after := by
  induction edits with
  | refl => exact refl before
  | tail _ edit induction => exact induction.trans (of_edit edit)

end RouteFrame

end Typio
