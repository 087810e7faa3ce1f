import Mathlib.Data.List.DropRight
import Typio.Wayland.KeyPolicy

/-!
# Configured shortcuts

A shortcut is written as modifiers and at most one key, joined by plus signs.  Whatever the
configuration says, each binding has a modifier, and no modifiers but the four of the chords.
-/

namespace Typio

namespace ShortcutConfig

/-- `modifier_names`. -/
def modifierNames : List (String × Modifiers) :=
  [("ctrl", Modifiers.ctrl), ("control", Modifiers.ctrl), ("shift", Modifiers.shift),
    ("alt", Modifiers.alt), ("super", Modifiers.super)]

/-- `keysym_names`. -/
def keysymNames : List (String × Keysym) :=
  [("space", 0x20), ("return", Keysym.returnKey), ("enter", Keysym.returnKey), ("tab", 0xff09),
    ("escape", Keysym.escape), ("esc", Keysym.escape), ("backspace", 0xff08), ("delete", 0xffff),
    ("up", Keysym.up), ("down", Keysym.down), ("left", Keysym.left), ("right", Keysym.right),
    ("f1", 0xffbe), ("f2", 0xffbf), ("f3", 0xffc0), ("f4", 0xffc1), ("f5", 0xffc2),
    ("f6", 0xffc3), ("f7", 0xffc4), ("f8", 0xffc5), ("f9", 0xffc6), ("f10", 0xffc7),
    ("f11", 0xffc8), ("f12", 0xffc9)]

/-- `str_eq_nocase`. -/
def strEqNocase (left right : List Char) : Bool := left.map Char.toLower == right.map Char.toLower

/-- The first entry of a table with the name. -/
def lookup (names : List (String × UInt32)) (token : List Char) : Option UInt32 :=
  (names.find? fun entry => strEqNocase token entry.1.toList).map (·.2)

/-- `parse_modifier`. -/
def parseModifier (token : List Char) : Modifiers := (lookup modifierNames token).getD 0

/-- `parse_keysym`. -/
def parseKeysym (token : List Char) : Keysym :=
  match lookup keysymNames token with
  | some keysym => keysym
  | none =>
      match token with
      | [char] =>
          let char := char.toLower
          if 'a' ≤ char ∧ char ≤ 'z' ∨ '0' ≤ char ∧ char ≤ '9' then char.val else 0
      | _ => 0

/-- The tokens between the plus signs, without the blanks around them; empty ones are skipped. -/
def tokens (text : List Char) : List (List Char) :=
  ((text.splitOn '+').map fun token => (token.dropWhile (· == ' ')).rdropWhile (· == ' ')).filter
    (· ≠ [])

/-- A token is a modifier, or the only key. -/
def parseToken (binding : ShortcutBinding) (token : List Char) : Option ShortcutBinding :=
  let modifier := parseModifier token
  if modifier ≠ 0 then some { binding with modifiers := binding.modifiers ||| modifier }
  else
    let keysym := parseKeysym token
    if keysym = 0 ∨ binding.keysym ≠ 0 then none else some { binding with keysym := keysym }

/-- `typio_shortcut_parse`. -/
def parse (text : List Char) : Option ShortcutBinding :=
  if text = [] ∨ 128 < text.length then none
  else
    ((tokens text).foldlM parseToken ⟨0, 0⟩).filter fun binding => binding.modifiers ≠ 0

/-- `typio_shortcut_config_load`; a binding which is missing or does not parse has its default. -/
def load (switchEngine emergencyExit voicePtt : Option (List Char)) : ShortcutConfig where
  switchEngine := (switchEngine.bind parse).getD defaults.switchEngine
  emergencyExit := (emergencyExit.bind parse).getD defaults.emergencyExit
  voicePtt := (voicePtt.bind parse).getD defaults.voicePtt

/-! ## The modifiers of a binding -/

/-- All modifiers are ones of the chords. -/
def Chordable (modifiers : Modifiers) : Prop := modifiers &&& Modifiers.chordable = modifiers

theorem chordable_zero : Chordable 0 := UInt32.zero_and

theorem parseModifier_cases (token : List Char) :
    parseModifier token = 0 ∨ ∃ entry ∈ modifierNames, parseModifier token = entry.2 := by
  unfold parseModifier lookup
  cases found : modifierNames.find? fun entry => strEqNocase token entry.1.toList with
  | none => exact .inl rfl
  | some entry => exact .inr ⟨entry, List.mem_of_find?_eq_some found, rfl⟩

theorem parseModifier_chordable (token : List Char) : Chordable (parseModifier token) := by
  obtain zero | ⟨entry, member, same⟩ := parseModifier_cases token
  · rw [zero]
    exact chordable_zero
  · rw [same]
    have every : (modifierNames.all fun entry =>
        entry.2 &&& Modifiers.chordable == entry.2) = true := by decide
    exact eq_of_beq (List.all_eq_true.mp every entry member)

theorem Chordable.or {left right : Modifiers} (first : Chordable left) (second : Chordable right) :
    Chordable (left ||| right) := by
  unfold Chordable at first second ⊢
  have split : (left ||| right) &&& Modifiers.chordable =
      (left &&& Modifiers.chordable) ||| (right &&& Modifiers.chordable) := by
    rw [← UInt32.toNat_inj]
    simp only [UInt32.toNat_and, UInt32.toNat_or]
    exact Nat.and_or_distrib_right ..
  rw [split, first, second]

theorem parseToken_chordable {binding later : ShortcutBinding} {token : List Char}
    (chordable : Chordable binding.modifiers) (parsed : parseToken binding token = some later) :
    Chordable later.modifiers := by
  unfold parseToken at parsed
  dsimp only at parsed
  split at parsed
  · obtain rfl := Option.some.inj parsed
    exact chordable.or (parseModifier_chordable token)
  · split at parsed
    · cases parsed
    · obtain rfl := Option.some.inj parsed
      exact chordable

theorem foldlM_parseToken_chordable (tokens : List (List Char)) {binding later : ShortcutBinding}
    (chordable : Chordable binding.modifiers)
    (parsed : tokens.foldlM parseToken binding = some later) : Chordable later.modifiers := by
  induction tokens generalizing binding with
  | nil =>
      obtain rfl : binding = later := Option.some.inj parsed
      exact chordable
  | cons token tokens induction =>
      rw [List.foldlM_cons] at parsed
      obtain ⟨middle, first, rest⟩ := Option.bind_eq_some_iff.mp parsed
      exact induction (parseToken_chordable chordable first) rest

/-- A binding which parses has a modifier, and only modifiers of the chords. -/
theorem parse_modifiers {text : List Char} {binding : ShortcutBinding}
    (parsed : parse text = some binding) :
    binding.modifiers ≠ 0 ∧ Chordable binding.modifiers := by
  unfold parse at parsed
  split at parsed
  · cases parsed
  · obtain ⟨folded, nonzero⟩ := Option.filter_eq_some_iff.mp parsed
    exact ⟨of_decide_eq_true nonzero, foldlM_parseToken_chordable _ chordable_zero folded⟩

example : (parse "Ctrl + space".toList).map (fun binding => (binding.modifiers, binding.keysym)) =
    some (Modifiers.ctrl, 0x20) := by decide

end ShortcutConfig

end Typio
