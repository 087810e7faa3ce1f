import Typio.Wayland.EventLoop
import Typio.Wayland.RouteEdits

/-!
# The character of a key

A key event carries the code point its key types.  On a press it is put together from the UTF-8
text of the key, on a repeat the keymap library is asked for it; the two agree on the ASCII
characters only.
-/

namespace Typio

/-! ## The keymap library and the frontend -/

/-- `xkb_state_key_get_utf32` on a key which types the given text; a key without text gives 0. -/
def keyGetUtf32 (text : Option Char) : UInt32 := text.elim 0 (·.val)

/-- The bytes `xkb_state_key_get_utf8` writes for a key which types the given text. -/
def keyGetUtf8 (text : Option Char) : List UInt8 := text.elim [] String.utf8EncodeChar

/-- `typio_wl_keyboard_unicode` on the bytes; a single byte is read as a signed `char`. -/
def keyboardUnicode : List UInt8 → UInt32
  | [byte] => byte.toInt8.toInt32.toUInt32
  | [first, second] => (first.toUInt32 <<< 8) ||| second.toUInt32
  | _ => 0

/-- The key types nothing, or an ASCII character. -/
def TypesAscii (text : Option Char) : Prop := ∀ char ∈ text, char.val < 0x80

theorem singleByte_ascii {byte : UInt8} (ascii : byte.toNat < 0x80) :
    byte.toInt8.toInt32.toUInt32 = byte.toUInt32 := by
  have every : ∀ value : Fin 0x80, (UInt8.ofNat value).toInt8.toInt32.toUInt32 =
      (UInt8.ofNat value).toUInt32 := by
    decide +kernel
  have same := every ⟨byte.toNat, ascii⟩
  rwa [UInt8.ofNat_toNat] at same

/-- The code point put together from two bytes is above every one which two bytes encode. -/
theorem keyboardUnicode_pair_ge {first second : UInt8} (lead : 0xc0 ≤ first.toNat) :
    0xc000 ≤ (keyboardUnicode [first, second]).toNat := by
  have shifted : (first.toUInt32 <<< 8).toNat = first.toNat * 256 := by
    have small := first.toNat_lt
    have distance : (8 : UInt32).toNat % 32 = 8 := by decide
    rw [UInt32.toNat_shiftLeft, UInt8.toNat_toUInt32, distance, Nat.shiftLeft_eq]
    omega
  calc 0xc000 ≤ first.toNat * 256 := by omega
    _ = (first.toUInt32 <<< 8).toNat := shifted.symm
    _ ≤ (keyboardUnicode [first, second]).toNat := by
      rw [keyboardUnicode, UInt32.toNat_or]
      exact Nat.left_le_or

/-- The two code points agree exactly on the ASCII characters. -/
theorem keyboardUnicode_eq_iff (text : Option Char) :
    keyboardUnicode (keyGetUtf8 text) = keyGetUtf32 text ↔ TypesAscii text := by
  cases text with
  | none => simp [keyboardUnicode, keyGetUtf8, keyGetUtf32, TypesAscii]
  | some char =>
      have ascii_iff : TypesAscii (some char) ↔ char.val.toNat < 0x80 := by
        simp [TypesAscii, UInt32.lt_iff_toNat_lt]
      rw [ascii_iff]
      simp only [keyGetUtf8, keyGetUtf32, Option.elim_some]
      simp only [String.utf8EncodeChar]
      split
      next one =>
        have byte : (UInt8.ofNat char.val.toNat).toNat = char.val.toNat := by
          rw [UInt8.toNat_ofNat']
          omega
        have ascii : (UInt8.ofNat char.val.toNat).toNat < 0x80 := by omega
        refine iff_of_true ?_ (by omega)
        rw [keyboardUnicode, singleByte_ascii ascii, ← UInt32.toNat_inj, UInt8.toNat_toUInt32,
          byte]
      next several =>
        refine iff_of_false ?_ (by omega)
        intro same
        split at same
        next two =>
          have above := @keyboardUnicode_pair_ge (UInt8.ofNat (char.val.toNat / 64 % 0x20 + 0xc0))
            (UInt8.ofNat (char.val.toNat % 0x40 + 0x80)) (by rw [UInt8.toNat_ofNat']; omega)
          rw [same] at above
          omega
        next more =>
          have zero : char.val = 0 := by
            rw [← same]
            split <;> rfl
          rw [zero] at more
          exact absurd more (by decide)

/-! ## What the engine is handed -/

def Effect.handed : Effect → Option KeyEvent
  | engineKey event _ => some event
  | _ => none

/-- The key events the engine is handed from one state to a later one. -/
def Frontend.handedSince (before after : Frontend) : List KeyEvent :=
  (before.sentSince after).filterMap Effect.handed

/-- From one state to a later one the engine is handed no other event than the given one. -/
def HandsOnly (event : KeyEvent) (before after : Frontend) : Prop :=
  ∃ effects, after.trace = effects ++ before.trace ∧
    ∀ given ∈ effects.filterMap Effect.handed, given = event

namespace HandsOnly

variable {event : KeyEvent} {before middle after : Frontend}

theorem of_trace_eq (same : after.trace = before.trace) : HandsOnly event before after :=
  ⟨[], same, by simp⟩

theorem trans (earlier : HandsOnly event before middle) (later : HandsOnly event middle after) :
    HandsOnly event before after := by
  obtain ⟨first, first_trace, first_only⟩ := earlier
  obtain ⟨second, second_trace, second_only⟩ := later
  refine ⟨second ++ first, by rw [second_trace, first_trace, List.append_assoc], ?_⟩
  intro given member
  rw [List.filterMap_append] at member
  rcases List.mem_append.mp member with newer | older
  · exact second_only given newer
  · exact first_only given older

theorem log {effect : Effect} (silent : effect.handed = none) :
    HandsOnly event before (before.log effect) :=
  ⟨[effect], rfl, by simp [silent]⟩

theorem of_text (text : TextFrame before after) : HandsOnly event before after := by
  obtain ⟨effects, trace_eq, effects_text⟩ := text.sent
  refine ⟨effects, trace_eq, fun given member => ?_⟩
  obtain ⟨effect, sent, handed⟩ := List.mem_filterMap.mp member
  have textual := effects_text effect sent
  cases effect with
  | engineKey event isRepeat => cases textual
  | _ => cases handed

theorem handedSince (only : HandsOnly event before after) :
    ∀ given ∈ before.handedSince after, given = event := by
  obtain ⟨effects, trace_eq, only⟩ := only
  rw [Frontend.handedSince, Frontend.sentSince_eq trace_eq]
  exact only

theorem releaseGrab (frontend : Frontend) : HandsOnly event frontend frontend.releaseGrab := by
  rw [Frontend.releaseGrab]
  split
  next keyboard_eq => exact of_trace_eq rfl
  next keyboard keyboard_eq =>
    split
    next grabbed => exact (log rfl).trans (of_trace_eq rfl)
    next released => exact of_trace_eq rfl

theorem vkForwardKey (frontend : Frontend) (time key : Nat) (pressed : Bool) :
    HandsOnly event frontend (frontend.vkForwardKey time key pressed) := by
  have upgraded : HandsOnly event frontend frontend.vkUpgrade := by
    rw [Frontend.vkUpgrade]
    split <;> exact of_trace_eq rfl
  rw [Frontend.vkForwardKey, Frontend.whenVkReady]
  split
  next ready => exact upgraded.trans (log rfl)
  next blocked =>
    split
    next broken =>
      refine upgraded.trans ?_
      rw [Frontend.vkTriggerFailSafe]
      split
      next grabbed => exact (releaseGrab _).trans (of_trace_eq rfl)
      next released => exact of_trace_eq rfl
    next waiting => exact upgraded

/-- A key is forwarded and latched. -/
theorem forwardAs (frontend : Frontend) (time key : Nat) (pressed : Bool)
    (state : KeyTrackState) :
    HandsOnly event frontend ((frontend.vkForwardKey time key pressed).setKeyState key state) :=
  (vkForwardKey ..).trans (of_trace_eq rfl)

section Engine

variable (engine : Engine)

theorem processKey (frontend : Frontend) (isRepeat : Bool) :
    HandsOnly event frontend (frontend.processKey engine event isRepeat).2 := by
  rw [Frontend.processKey]
  split
  next active =>
    have logged : HandsOnly event frontend (frontend.log (.engineKey event isRepeat)) :=
      ⟨[.engineKey event isRepeat], rfl, by simp [Effect.handed]⟩
    exact logged.trans (of_text (TextFrame.callEngine engine _))
  next none_active => exact of_trace_eq rfl

theorem offerPress (frontend : Frontend) :
    HandsOnly event frontend (frontend.offerPress engine event) := by
  have asked : HandsOnly event frontend (frontend.processKey engine event false).2 :=
    processKey engine frontend false
  simp only [Frontend.offerPress]
  split
  next reserved => exact asked
  next free =>
    split
    next declined => exact asked.trans (forwardAs ..)
    next handled => exact asked

theorem classifyPress (frontend : Frontend) :
    HandsOnly event frontend (frontend.classifyPress engine event) := by
  rw [Frontend.classifyPress]
  split
  next emergency => exact (releaseGrab frontend).trans (of_trace_eq rfl)
  next voice =>
    split
    next available => exact (log rfl).trans (of_trace_eq rfl)
    next unavailable => exact HandsOnly.trans (of_trace_eq rfl) (log rfl)
  next unreserved =>
    split
    next shortcut => exact forwardAs ..
    next plain =>
      split
      next basic => exact forwardAs ..
      next offered => exact offerPress engine frontend

theorem processPress (frontend : Frontend) :
    HandsOnly event frontend (frontend.processPress engine event) := by
  rw [Frontend.processPress]
  split
  next keyboard_eq => exact of_trace_eq rfl
  next keyboard keyboard_eq =>
    have routed : HandsOnly event frontend (frontend.routePress engine keyboard event) := by
      simp only [Frontend.routePress]
      split
      next suppressed => exact of_trace_eq rfl
      next open_route => exact HandsOnly.trans (of_trace_eq rfl) (classifyPress engine _)
    split
    case h_3 =>
      split
      next blocking => exact vkForwardKey ..
      next released => exact of_trace_eq rfl
    case h_4 => exact vkForwardKey ..
    all_goals first | exact of_trace_eq rfl | exact routed

theorem offerRepeat (frontend : Frontend) :
    HandsOnly event frontend (frontend.offerRepeat engine event) := by
  have asked : HandsOnly event frontend (frontend.processKey engine event true).2 :=
    processKey engine frontend true
  simp only [Frontend.offerRepeat]
  split
  next handled => exact asked
  next declined =>
    split
    next reserved => exact asked
    next free => exact asked.trans (forwardAs ..)

theorem deliverRepeat (frontend : Frontend) (keyboard : Keyboard) :
    HandsOnly event frontend (frontend.deliverRepeat engine keyboard event) := by
  rw [Frontend.deliverRepeat]
  split
  next shortcut =>
    split
    next blocking => exact vkForwardKey ..
    next released => exact of_trace_eq rfl
  next forwarded => exact vkForwardKey ..
  next basic => exact vkForwardKey ..
  next state other =>
    split
    next runs => exact offerRepeat engine frontend
    next stops => exact of_trace_eq rfl

end Engine

end HandsOnly

namespace Frontend

variable (engine : Engine)

/-- Every code point a repeat hands to the engine is the one the keymap library gave. -/
theorem handedSince_dispatchRepeat (frontend : Frontend) (expired : Bool) (keysym : Keysym)
    (unicode : UInt32) (xkbModifiers : Modifiers) :
    ∀ given ∈ frontend.handedSince
      (frontend.dispatchRepeat engine expired keysym unicode xkbModifiers),
      given.unicode = unicode := by
  suffices only : ∃ event : KeyEvent, event.unicode = unicode ∧ HandsOnly event frontend
      (frontend.dispatchRepeat engine expired keysym unicode xkbModifiers) by
    obtain ⟨event, same, only⟩ := only
    intro given member
    rw [only.handedSince given member, same]
  rw [dispatchRepeat]
  split
  next keyboard_eq => exact ⟨⟨true, 0, 0, 0, unicode, 0⟩, rfl, .of_trace_eq rfl⟩
  next keyboard keyboard_eq =>
    refine ⟨repeatEvent keyboard keysym unicode xkbModifiers, rfl, ?_⟩
    repeat' split
    all_goals first | exact HandsOnly.of_trace_eq rfl | exact HandsOnly.deliverRepeat engine ..

/-- An active engine is handed the event it is asked about. -/
theorem mem_handedSince_processKey {frontend after : Frontend} {event : KeyEvent}
    {isRepeat : Bool} (active : frontend.inst.activeEngine.isSome = true)
    (later : HandsOnly event (frontend.processKey engine event isRepeat).2 after) :
    event ∈ frontend.handedSince after := by
  obtain ⟨effects, trace_eq, -⟩ := later
  obtain ⟨textual, text_trace, -⟩ :=
    (TextFrame.callEngine engine (frontend.log (.engineKey event isRepeat))).sent
  rw [processKey, if_pos active, text_trace] at trace_eq
  have whole : after.trace = (effects ++ textual ++ [.engineKey event isRepeat]) ++
      frontend.trace := by
    rw [trace_eq, log]
    simp
  rw [handedSince, sentSince_eq whole]
  exact List.mem_filterMap.mpr ⟨.engineKey event isRepeat, by simp, rfl⟩

theorem mem_handedSince_offerPress {frontend : Frontend} {event : KeyEvent}
    (active : frontend.inst.activeEngine.isSome = true) :
    event ∈ frontend.handedSince (frontend.offerPress engine event) := by
  have asked := @mem_handedSince_processKey engine frontend
    (frontend.offerPress engine event) event false active
  refine asked ?_
  simp only [offerPress]
  split
  next reserved => exact HandsOnly.of_trace_eq rfl
  next free =>
    split
    next declined => exact HandsOnly.forwardAs ..
    next handled => exact HandsOnly.of_trace_eq rfl

theorem mem_handedSince_offerRepeat {frontend : Frontend} {event : KeyEvent}
    (active : frontend.inst.activeEngine.isSome = true) :
    event ∈ frontend.handedSince (frontend.offerRepeat engine event) := by
  have asked := @mem_handedSince_processKey engine frontend
    (frontend.offerRepeat engine event) event true active
  refine asked ?_
  simp only [offerRepeat]
  split
  next handled => exact HandsOnly.of_trace_eq rfl
  next declined =>
    split
    next reserved => exact HandsOnly.of_trace_eq rfl
    next free => exact HandsOnly.forwardAs ..

/-! ## Presses and repeats -/

/-- Whatever the engine is handed for a press and for a repeat of a key which types the text
carries the same code point, the one of the text. -/
def TypedAlike (text : Option Char) : Prop :=
  ∀ (pressed repeated : Frontend) (press : KeyEvent) (expired : Bool) (keysym : Keysym)
    (xkbModifiers : Modifiers), press.unicode = keyboardUnicode (keyGetUtf8 text) →
    ∀ first ∈ pressed.handedSince (pressed.processPress engine press),
      ∀ again ∈ repeated.handedSince
          (repeated.dispatchRepeat engine expired keysym (keyGetUtf32 text) xkbModifiers),
        first.unicode = again.unicode ∧ again.unicode = keyGetUtf32 text

/-- An engine is active, and the given key repeats. -/
def listening : Frontend :=
  (attended ⟨some "rime", none, false, false⟩ ShortcutConfig.defaults (World.obliging 1000))
    |>.updateKeyboard fun keyboard =>
      { keyboard with xkb := some ⟨fun _ => true⟩, repeatKey := 30, repeating := true }

/-- A press of the key on which no modifier is held. -/
def plainPress (unicode : UInt32) : KeyEvent where
  isPress := true
  key := 30
  keysym := 0x61
  modifiers := 0
  unicode := unicode
  time := 0

theorem plainPress_handed (unicode : UInt32) :
    plainPress unicode ∈ listening.handedSince
      (listening.processPress engine (plainPress unicode)) := by
  let claimed := (listening.updateTracking (·.claimCurrentGeneration 30)).updateKeyboard
    Keyboard.endSuppression
  have foreign : claimed.shouldForwardBasicText 0 unicode = false := by
    have other : (claimed.inst.activeEngine == some "basic") = false := by decide
    rw [shouldForwardBasicText, other, Bool.and_false, Bool.false_and, Bool.false_and]
  have offered : listening.processPress engine (plainPress unicode) =
      claimed.offerPress engine (plainPress unicode) := by
    have unreserved : reservedAction claimed.shortcuts 0x61 0 = .none := by decide
    have plain : isAppShortcut 0x61 0 = false := by decide
    have classified : claimed.classifyPress engine (plainPress unicode) =
        claimed.offerPress engine (plainPress unicode) := by
      simp only [classifyPress, plainPress, unreserved, plain, foreign, Bool.false_eq_true,
        if_false]
    rw [← classified]
    rfl
  rw [offered]
  have handed : plainPress unicode ∈
      claimed.handedSince (claimed.offerPress engine (plainPress unicode)) :=
    mem_handedSince_offerPress engine rfl
  exact handed

/-- A press and a repeat of the key show both code points to the engine. -/
theorem TypedAlike.unicode_eq {text : Option Char} (alike : TypedAlike engine text) :
    keyboardUnicode (keyGetUtf8 text) = keyGetUtf32 text := by
  have again : repeatEvent _ 0x61 (keyGetUtf32 text) 0 ∈ listening.handedSince
      (listening.dispatchRepeat engine true 0x61 (keyGetUtf32 text) 0) :=
    mem_handedSince_offerRepeat engine rfl
  have same := alike listening listening (plainPress (keyboardUnicode (keyGetUtf8 text))) true
    0x61 0 rfl _ (plainPress_handed engine _) _ again
  exact same.1.trans same.2

theorem TypedAlike.of_unicode_eq {text : Option Char}
    (same : keyboardUnicode (keyGetUtf8 text) = keyGetUtf32 text) : TypedAlike engine text := by
  intro pressed repeated press expired keysym xkbModifiers unicode first first_handed again
    again_handed
  have pressed_event := (HandsOnly.processPress engine pressed).handedSince first first_handed
  have repeated_unicode := handedSince_dispatchRepeat engine repeated _ _ _ _ again again_handed
  rw [pressed_event, unicode, same, repeated_unicode]
  exact ⟨rfl, rfl⟩

/-- What an engine is handed for a press and for a repeat is alike exactly for the keys which type
nothing or an ASCII character. -/
theorem typedAlike_iff (text : Option Char) : TypedAlike engine text ↔ TypesAscii text := by
  rw [← keyboardUnicode_eq_iff]
  exact ⟨TypedAlike.unicode_eq engine, TypedAlike.of_unicode_eq engine⟩

/-- The engine is handed another code point for a press of the key `é` than for its repeats. -/
theorem accent_not_typedAlike : ¬ TypedAlike (fun _ => ⟨true, [], none⟩) (some 'é') := by
  intro alike
  have ascii := (keyboardUnicode_eq_iff _).mp (alike.unicode_eq _)
  exact absurd (ascii 'é' rfl) (by decide)

end Frontend

end Typio
