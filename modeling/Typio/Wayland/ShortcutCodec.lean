import Mathlib.Logic.Relation
import Typio.StrSlice
import Typio.Wayland.ShortcutConfig

/-!
# Shortcut texts

Which texts are shortcuts, which of them are the same shortcut, and what a shortcut is written as.
Only the modifiers and the keys which the tokens name decide what a text means.
-/

namespace Typio

namespace ShortcutConfig

/-! ## Formatting -/

/-- The `order` of `typio_shortcut_format`. -/
def modifierOrder : List (Modifiers × String) :=
  [(Modifiers.ctrl, "Ctrl"), (Modifiers.alt, "Alt"), (Modifiers.super, "Super"),
    (Modifiers.shift, "Shift")]

/-- The first letter becomes a capital. -/
def capitalized : List Char → List Char
  | [] => []
  | char :: chars => char.toUpper :: chars

/-- How `typio_shortcut_format` writes a key; a key without a name is written in hexadecimal. -/
def keyText (keysym : Keysym) : List Char :=
  match keysymNames.find? (·.2 == keysym) with
  | some entry => capitalized entry.1.toList
  | none =>
      if 'a'.val ≤ keysym ∧ keysym ≤ 'z'.val ∨ '0'.val ≤ keysym ∧ keysym ≤ '9'.val then
        [Char.ofNat keysym.toNat]
      else '0' :: 'x' :: Nat.toDigits 16 keysym.toNat

/-- A plus sign goes before every word but the first. -/
def appendWord (text word : List Char) : List Char :=
  if text = [] then word else text ++ '+' :: word

/-- Modifiers in canonical order. -/
def modifierWords (modifiers : Modifiers) : List (List Char) :=
  (modifierOrder.filter fun entry => modifiers &&& entry.1 ≠ 0).map (·.2.toList)

/-- The words of a binding, modifiers first. -/
def words (binding : ShortcutBinding) : List (List Char) :=
  modifierWords binding.modifiers ++
    if binding.keysym = 0 then [] else [keyText binding.keysym]

/-- `typio_shortcut_format`. -/
def format (binding : ShortcutBinding) : List Char := (words binding).foldl appendWord []

/-! ## Names -/

/-- The token is the name of a modifier. -/
def isModifierName (token : List Char) : Bool :=
  modifierNames.any fun entry => strEqNocase token entry.1.toList

/-- The token is a letter or a digit. -/
def isKeyChar : List Char → Bool
  | [char] =>
      let char := char.toLower
      ('a' ≤ char && char ≤ 'z') || ('0' ≤ char && char ≤ '9')
  | _ => false

/-- The token is the name of a key. -/
def isKeyName (token : List Char) : Bool :=
  (keysymNames.any fun entry => strEqNocase token entry.1.toList) || isKeyChar token

theorem lookup_eq_none {names : List (String × UInt32)} {token : List Char} :
    lookup names token = none ↔
      (names.any fun entry => strEqNocase token entry.1.toList) = false := by
  simp [lookup]

theorem mem_of_lookup {names : List (String × UInt32)} {token : List Char} {value : UInt32}
    (found : lookup names token = some value) :
    ∃ entry ∈ names, strEqNocase token entry.1.toList = true ∧ entry.2 = value := by
  obtain ⟨entry, first, same⟩ := Option.map_eq_some_iff.mp found
  have matched := List.find?_some first
  exact ⟨entry, List.mem_of_find?_eq_some first, matched, same⟩

theorem parseModifier_ne_zero {token : List Char} :
    parseModifier token ≠ 0 ↔ isModifierName token = true := by
  unfold parseModifier isModifierName
  cases found : lookup modifierNames token with
  | none => simp [lookup_eq_none.mp found]
  | some modifier =>
      obtain ⟨entry, member, matched, rfl⟩ := mem_of_lookup found
      have every : (modifierNames.all fun entry => entry.2 != 0) = true := by decide
      have nonzero := List.all_eq_true.mp every entry member
      exact iff_of_true (by simpa using nonzero) (List.any_eq_true.mpr ⟨entry, member, matched⟩)

theorem parseKeysym_ne_zero {token : List Char} :
    parseKeysym token ≠ 0 ↔ isKeyName token = true := by
  unfold parseKeysym isKeyName
  cases found : lookup keysymNames token with
  | some keysym =>
      obtain ⟨entry, member, matched, rfl⟩ := mem_of_lookup found
      have every : (keysymNames.all fun entry => entry.2 != 0) = true := by decide
      have nonzero := List.all_eq_true.mp every entry member
      have named : (keysymNames.any fun entry => strEqNocase token entry.1.toList) = true :=
        List.any_eq_true.mpr ⟨entry, member, matched⟩
      rw [named]
      exact iff_of_true (by simpa using nonzero) rfl
  | none =>
      rw [lookup_eq_none.mp found, Bool.false_or]
      dsimp only
      split
      · next char =>
          simp only [isKeyChar, Bool.or_eq_true, Bool.and_eq_true, decide_eq_true_eq]
          split
          · next printable =>
              refine iff_of_true (fun zero => ?_) printable
              have below : char.toLower = '\x00' := Char.ext zero
              rw [below] at printable
              revert printable
              decide
          · next other => exact iff_of_false (fun nonzero => nonzero rfl) other
      · next several =>
          refine iff_of_false (fun nonzero => nonzero rfl) ?_
          unfold isKeyChar
          split
          · next char => exact absurd rfl (several char)
          · exact Bool.false_ne_true

/-! ## Letter case -/

/-- A text in lower case. -/
def lowered (text : List Char) : List Char := text.map Char.toLower

theorem toLower_of_upper {char : Char} (upper : 'A'.val ≤ char.val ∧ char.val ≤ 'Z'.val) :
    char.toLower.val.toNat = char.val.toNat + 32 := by
  have range : 65 ≤ char.val.toNat ∧ char.val.toNat ≤ 90 := upper
  delta Char.toLower
  rw [dif_pos upper]
  change (char.val + 32).toNat = _
  rw [UInt32.toNat_add]
  change (char.val.toNat + 32) % 4294967296 = _
  omega

theorem toLower_toLower (char : Char) : char.toLower.toLower = char.toLower := by
  by_cases upper : 'A'.val ≤ char.val ∧ char.val ≤ 'Z'.val
  · have range : 65 ≤ char.val.toNat ∧ char.val.toNat ≤ 90 := upper
    have lower := toLower_of_upper upper
    refine dif_neg fun still => ?_
    have below : char.toLower.val.toNat ≤ 90 := still.2
    omega
  · have kept : char.toLower = char := dif_neg upper
    rw [kept, kept]

theorem lowered_lowered (text : List Char) : lowered (lowered text) = lowered text := by
  rw [lowered, lowered, List.map_map]
  exact List.map_congr_left fun char _ => toLower_toLower char

theorem strEqNocase_iff {left right : List Char} :
    strEqNocase left right = true ↔ lowered left = lowered right := beq_iff_eq

theorem strEqNocase_lowered (left right : List Char) :
    strEqNocase (lowered left) right = strEqNocase left right := by
  rw [Bool.eq_iff_iff, strEqNocase_iff, strEqNocase_iff, lowered_lowered]

theorem lookup_lowered (names : List (String × UInt32)) (token : List Char) :
    lookup names (lowered token) = lookup names token := by
  simp only [lookup, strEqNocase_lowered]

@[simp] theorem parseModifier_lowered (token : List Char) :
    parseModifier (lowered token) = parseModifier token := by
  rw [parseModifier, lookup_lowered, parseModifier]

@[simp] theorem parseKeysym_lowered (token : List Char) :
    parseKeysym (lowered token) = parseKeysym token := by
  unfold parseKeysym
  rw [lookup_lowered]
  match token with
  | [] => rfl
  | [char] => simp only [lowered, List.map_cons, List.map_nil, toLower_toLower]
  | _ :: _ :: _ => rfl

/-- No modifier is called like a key. -/
theorem isKeyName_of_isModifierName {token : List Char} (modifier : isModifierName token = true) :
    isKeyName token = false := by
  obtain ⟨entry, member, matched⟩ := List.any_eq_true.mp modifier
  have every : (modifierNames.all fun entry =>
      parseKeysym (lowered entry.1.toList) == 0) = true := by
    decide +kernel
  have unnamed := eq_of_beq (List.all_eq_true.mp every entry member)
  rw [← strEqNocase_iff.mp matched, parseKeysym_lowered] at unnamed
  rw [← Bool.not_eq_true, ← parseKeysym_ne_zero]
  exact not_not.mpr unnamed

/-! ## What decides the outcome -/

/-- The modifiers which the tokens name. -/
def modifiersOf (tokens : List (List Char)) : Modifiers :=
  tokens.foldr (fun token modifiers => parseModifier token ||| modifiers) 0

/-- The keys of the tokens which are no modifiers; an unknown one is 0. -/
def keysOf (tokens : List (List Char)) : List Keysym :=
  (tokens.filter fun token => parseModifier token = 0).map parseKeysym

/-- The binding of the modifiers and the keys. -/
def bindingOf (modifiers : Modifiers) : List Keysym → Option ShortcutBinding
  | [] => some ⟨modifiers, 0⟩
  | [key] => if key = 0 then none else some ⟨modifiers, key⟩
  | _ => none

theorem modifiersOf_cons (token : List Char) (tokens : List (List Char)) :
    modifiersOf (token :: tokens) = parseModifier token ||| modifiersOf tokens := rfl

theorem keysOf_cons (token : List Char) (tokens : List (List Char)) :
    keysOf (token :: tokens) =
      if parseModifier token = 0 then parseKeysym token :: keysOf tokens else keysOf tokens := by
  simp only [keysOf, List.filter_cons, decide_eq_true_eq]
  split <;> rfl

theorem bindingOf_cons_zero (modifiers : Modifiers) (keys : List Keysym) :
    bindingOf modifiers (0 :: keys) = none := by
  cases keys <;> rfl

/-- Two keys are too many. -/
theorem bindingOf_cons_cons (modifiers : Modifiers) (first second : Keysym)
    (keys : List Keysym) : bindingOf modifiers (first :: second :: keys) = none := rfl

/-- The order of the keys does not matter. -/
theorem bindingOf_perm (modifiers : Modifiers) {left right : List Keysym}
    (reordered : left.Perm right) : bindingOf modifiers left = bindingOf modifiers right := by
  match left, right, reordered.length_eq with
  | [], [], _ => rfl
  | [first], [second], _ => rw [List.singleton_perm_singleton.mp reordered]
  | _ :: _ :: _, _ :: _ :: _, _ => rfl

/-- The tokens of a text decide its binding through the modifiers and the keys they name. -/
theorem foldlM_parseToken (tokens : List (List Char)) (modifiers : Modifiers) (key : Keysym) :
    tokens.foldlM parseToken ⟨modifiers, key⟩ =
      bindingOf (modifiers ||| modifiersOf tokens)
        (if key = 0 then keysOf tokens else key :: keysOf tokens) := by
  induction tokens generalizing modifiers key with
  | nil =>
      simp only [List.foldlM_nil, modifiersOf, keysOf, List.foldr_nil, UInt32.or_zero]
      split
      · next unset => rw [unset]; rfl
      · next set => exact (if_neg set).symm
  | cons token tokens induction =>
      rw [List.foldlM_cons, modifiersOf_cons, keysOf_cons, ← UInt32.or_assoc]
      by_cases named : parseModifier token = 0
      · rw [if_pos named]
        have parsed : parseToken ⟨modifiers, key⟩ token =
            if parseKeysym token = 0 ∨ key ≠ 0 then none
            else some ⟨modifiers, parseKeysym token⟩ := if_neg (not_not.mpr named)
        rw [parsed, named, UInt32.or_zero]
        by_cases unset : key = 0
        · rw [if_pos unset]
          by_cases unknown : parseKeysym token = 0
          · rw [if_pos (.inl unknown), unknown, bindingOf_cons_zero]
            rfl
          · rw [if_neg (by simp [unknown, unset])]
            refine (induction modifiers (parseKeysym token)).trans ?_
            rw [if_neg unknown]
        · rw [if_neg unset, if_pos (.inr unset), bindingOf_cons_cons]
          rfl
      · rw [if_neg named]
        have parsed : parseToken ⟨modifiers, key⟩ token =
            some ⟨modifiers ||| parseModifier token, key⟩ := if_pos named
        rw [parsed]
        exact induction (modifiers ||| parseModifier token) key

/-! ## Blanks -/

/-- A piece of a text without the blanks around it. -/
def trim (piece : List Char) : List Char :=
  (piece.dropWhile (· == ' ')).rdropWhile (· == ' ')

/-- The tokens of the pieces between the plus signs. -/
def tokensOf (pieces : List (List Char)) : List (List Char) := (pieces.map trim).filter (· ≠ [])

theorem tokens_eq (text : List Char) : tokens text = tokensOf (text.splitOn '+') := rfl

theorem tokensOf_cons (piece : List Char) (pieces : List (List Char)) :
    tokensOf (piece :: pieces) =
      if trim piece = [] then tokensOf pieces else trim piece :: tokensOf pieces := by
  simp only [tokensOf, List.map_cons, List.filter_cons, ne_eq, decide_not, Bool.not_eq_true',
    decide_eq_false_iff_not]
  split <;> simp_all

theorem dropWhile_blanks (count : Nat) (piece : List Char) :
    (List.replicate count ' ' ++ piece).dropWhile (· == ' ') = piece.dropWhile (· == ' ') :=
  List.dropWhile_append_of_pos fun char member => by
    rw [List.eq_of_mem_replicate member]
    rfl

theorem rdropWhile_blanks (count : Nat) (piece : List Char) :
    (piece ++ List.replicate count ' ').rdropWhile (· == ' ') = piece.rdropWhile (· == ' ') := by
  rw [List.rdropWhile, List.reverse_append, List.reverse_replicate, dropWhile_blanks,
    List.rdropWhile]

/-- Blanks around a piece make no difference. -/
theorem trim_padded (before after : Nat) (piece : List Char) :
    trim (List.replicate before ' ' ++ piece ++ List.replicate after ' ') = trim piece := by
  rw [trim, List.append_assoc, dropWhile_blanks, trim]
  by_cases blank : ∀ char ∈ piece, (char == ' ') = true
  · have none_left : piece.dropWhile (· == ' ') = [] := List.dropWhile_eq_nil_iff.mpr blank
    rw [List.dropWhile_append_of_pos blank, none_left, ← List.append_nil (List.replicate after ' '),
      dropWhile_blanks]
    rfl
  · have some_left : piece.dropWhile (· == ' ') ≠ [] := fun none_left =>
      blank (List.dropWhile_eq_nil_iff.mp none_left)
    rw [List.dropWhile_append, List.isEmpty_eq_false_iff.mpr some_left]
    exact rdropWhile_blanks after _

theorem toLower_eq_blank (char : Char) : (char.toLower == ' ') = (char == ' ') := by
  by_cases upper : 'A'.val ≤ char.val ∧ char.val ≤ 'Z'.val
  · have above : 65 ≤ char.val.toNat := upper.1
    have lower := toLower_of_upper upper
    have apart (other : Char) (high : 65 ≤ other.val.toNat) : (other == ' ') = false := by
      rw [beq_eq_false_iff_ne]
      rintro rfl
      revert high
      decide
    rw [apart _ above, apart _ (by omega)]
  · rw [show char.toLower = char from dif_neg upper]

theorem trim_lowered (piece : List Char) : trim (lowered piece) = lowered (trim piece) := by
  have blank : (fun char : Char => char == ' ') ∘ Char.toLower = (· == ' ') :=
    funext toLower_eq_blank
  rw [trim, lowered, List.dropWhile_map, List.rdropWhile, ← List.map_reverse, List.dropWhile_map,
    ← List.map_reverse, blank]
  rfl

theorem tokensOf_lowered (pieces : List (List Char)) :
    tokensOf (pieces.map lowered) = (tokensOf pieces).map lowered := by
  induction pieces with
  | nil => rfl
  | cons piece pieces induction =>
      rw [List.map_cons, tokensOf_cons, tokensOf_cons, induction, trim_lowered]
      by_cases empty : trim piece = []
      · rw [if_pos empty, empty]
        exact if_pos rfl
      · rw [if_neg empty, if_neg (by simpa [lowered] using empty)]
        rfl

/-! ## Texts which are the same shortcut -/

/-- One change to the pieces of a text which leaves the shortcut as it is. -/
inductive RespelledOnce : List (List Char) → List (List Char) → Prop
  | reorder {left right : List (List Char)} (reordered : left.Perm right) :
      RespelledOnce left right
  /-- Letters become capitals, or capitals become small letters. -/
  | recase {left right : List (List Char)} (same : left.map lowered = right.map lowered) :
      RespelledOnce left right
  | pad (before after : Nat) (piece : List Char) (pieces : List (List Char)) :
      RespelledOnce (piece :: pieces)
        ((List.replicate before ' ' ++ piece ++ List.replicate after ' ') :: pieces)
  /-- A modifier is named once more, by this name or by another one. -/
  | repeatModifier {piece other : List Char} {pieces : List (List Char)}
      (member : other ∈ pieces) (modifier : isModifierName (trim other) = true)
      (same : parseModifier (trim piece) = parseModifier (trim other)) :
      RespelledOnce pieces (piece :: pieces)
  | blank (count : Nat) (pieces : List (List Char)) :
      RespelledOnce pieces (List.replicate count ' ' :: pieces)

/-- The texts differ in the order of their tokens, in letter case, in blanks, in repeated
modifiers and in empty tokens. -/
def Respelled (left right : List Char) : Prop :=
  Relation.EqvGen RespelledOnce (left.splitOn '+') (right.splitOn '+')

/-- The binding which the pieces of a text mean. -/
def meaning (pieces : List (List Char)) : Option ShortcutBinding :=
  bindingOf (modifiersOf (tokensOf pieces)) (keysOf (tokensOf pieces))

theorem modifiersOf_perm {left right : List (List Char)} (reordered : left.Perm right) :
    modifiersOf left = modifiersOf right := by
  induction reordered with
  | nil => rfl
  | cons token _ induction => rw [modifiersOf_cons, modifiersOf_cons, induction]
  | swap first second tokens =>
      simp only [modifiersOf_cons]
      rw [← UInt32.or_assoc, UInt32.or_comm (parseModifier second), UInt32.or_assoc]
  | trans _ _ first second => exact first.trans second

/-- A modifier which is named already adds nothing. -/
theorem modifiersOf_absorb {token : List Char} {tokens : List (List Char)}
    (member : token ∈ tokens) :
    parseModifier token ||| modifiersOf tokens = modifiersOf tokens := by
  induction tokens with
  | nil => cases member
  | cons first tokens induction =>
      rw [modifiersOf_cons]
      obtain rfl | later := List.mem_cons.mp member
      · rw [← UInt32.or_assoc, UInt32.or_self]
      · rw [← UInt32.or_assoc, UInt32.or_comm (parseModifier token), UInt32.or_assoc,
          induction later]

theorem modifiersOf_lowered (tokens : List (List Char)) :
    modifiersOf (tokens.map lowered) = modifiersOf tokens := by
  induction tokens with
  | nil => rfl
  | cons token tokens induction =>
      rw [List.map_cons, modifiersOf_cons, induction, parseModifier_lowered, modifiersOf_cons]

theorem keysOf_lowered (tokens : List (List Char)) :
    keysOf (tokens.map lowered) = keysOf tokens := by
  induction tokens with
  | nil => rfl
  | cons token tokens induction =>
      rw [List.map_cons, keysOf_cons, induction, parseModifier_lowered, parseKeysym_lowered,
        keysOf_cons]

theorem meaning_lowered (pieces : List (List Char)) :
    meaning (pieces.map lowered) = meaning pieces := by
  rw [meaning, tokensOf_lowered, modifiersOf_lowered, keysOf_lowered, meaning]

theorem tokensOf_perm {left right : List (List Char)} (reordered : left.Perm right) :
    (tokensOf left).Perm (tokensOf right) :=
  (reordered.map trim).filter _

theorem trim_ne_nil_of_isModifierName {piece : List Char}
    (modifier : isModifierName (trim piece) = true) : trim piece ≠ [] := by
  intro empty
  rw [empty] at modifier
  revert modifier
  decide

theorem meaning_respelledOnce {left right : List (List Char)}
    (respelled : RespelledOnce left right) : meaning left = meaning right := by
  cases respelled with
  | reorder reordered =>
      have tokens := tokensOf_perm reordered
      rw [meaning, meaning, modifiersOf_perm tokens]
      exact bindingOf_perm _ ((tokens.filter _).map parseKeysym)
  | recase same => rw [← meaning_lowered left, same, meaning_lowered]
  | pad before after piece pieces =>
      rw [meaning, meaning, tokensOf_cons, tokensOf_cons, trim_padded]
  | repeatModifier member modifier same =>
      rename_i piece other
      have again : isModifierName (trim piece) = true := by
        rw [← parseModifier_ne_zero] at modifier ⊢
        rwa [same]
      have there : trim other ∈ tokensOf left :=
        List.mem_filter.mpr ⟨List.mem_map_of_mem member,
          decide_eq_true (trim_ne_nil_of_isModifierName modifier)⟩
      rw [meaning, meaning, tokensOf_cons, if_neg (trim_ne_nil_of_isModifierName again),
        modifiersOf_cons, keysOf_cons, if_neg (parseModifier_ne_zero.mpr again), same,
        modifiersOf_absorb there]
  | blank count =>
      have empty : trim (List.replicate count ' ') = [] := by
        have padded := trim_padded count 0 []
        rw [List.append_nil, List.replicate_zero, List.append_nil] at padded
        exact padded
      rw [meaning, meaning, tokensOf_cons, if_pos empty]

theorem meaning_respelled {left right : List (List Char)}
    (respelled : Relation.EqvGen RespelledOnce left right) : meaning left = meaning right := by
  induction respelled with
  | rel _ _ once => exact meaning_respelledOnce once
  | refl => rfl
  | symm _ _ _ induction => exact induction.symm
  | trans _ _ _ _ _ first second => exact first.trans second

/-! ## Texts which parse -/

/-- The text is not empty, and fits the buffer. -/
def Fits (text : List Char) : Prop := text ≠ [] ∧ text.length ≤ 128

theorem parse_of_fits {text : List Char} (fits : Fits text) :
    parse text = (meaning (text.splitOn '+')).filter fun binding => binding.modifiers ≠ 0 := by
  have accepted : ¬(text = [] ∨ 128 < text.length) := by
    rintro (empty | long)
    · exact fits.1 empty
    · exact Nat.not_lt.mpr fits.2 long
  rw [parse, if_neg accepted, tokens_eq, foldlM_parseToken, if_pos rfl, UInt32.zero_or, meaning]

theorem fits_of_parse {text : List Char} (parsed : (parse text).isSome = true) : Fits text := by
  unfold parse at parsed
  split at parsed
  · cases parsed
  · next accepted =>
      exact ⟨fun empty => accepted (.inl empty), Nat.not_lt.mp fun long => accepted (.inr long)⟩

/-- The tokens name modifiers and keys, at least one modifier and at most one key. -/
structure InGrammar (text : List Char) : Prop where
  fits : Fits text
  named : ∀ token ∈ tokens text, isModifierName token = true ∨ isKeyName token = true
  modified : ∃ token ∈ tokens text, isModifierName token = true
  oneKey : ((tokens text).filter fun token => isKeyName token).length ≤ 1

theorem modifiersOf_ne_zero {tokens : List (List Char)} :
    modifiersOf tokens ≠ 0 ↔ ∃ token ∈ tokens, isModifierName token = true := by
  induction tokens with
  | nil => simp [modifiersOf]
  | cons token tokens induction =>
      simp only [List.mem_cons, exists_eq_or_imp]
      rw [modifiersOf_cons, ne_eq, UInt32.or_eq_zero_iff, not_and_or, ← induction,
        ← parseModifier_ne_zero]

/-- The keys make a binding when all of them are known and there is at most one. -/
theorem bindingOf_isSome {modifiers : Modifiers} {keys : List Keysym} :
    (bindingOf modifiers keys).isSome = true ↔ (∀ key ∈ keys, key ≠ 0) ∧ keys.length ≤ 1 := by
  match keys with
  | [] => simp [bindingOf]
  | [key] =>
      rw [bindingOf]
      split <;> simp_all
  | first :: second :: keys => simp [bindingOf]

theorem bindingOf_modifiers {modifiers : Modifiers} {keys : List Keysym}
    {binding : ShortcutBinding} (bound : bindingOf modifiers keys = some binding) :
    binding.modifiers = modifiers := by
  match keys with
  | [] =>
      obtain rfl := Option.some.inj bound
      rfl
  | [key] =>
      rw [bindingOf] at bound
      split at bound
      · cases bound
      · obtain rfl := Option.some.inj bound
        rfl
  | _ :: _ :: _ => cases bound

theorem forall_keysOf {tokens : List (List Char)} :
    (∀ key ∈ keysOf tokens, key ≠ 0) ↔
      ∀ token ∈ tokens, isModifierName token = true ∨ isKeyName token = true := by
  induction tokens with
  | nil => simp [keysOf]
  | cons token tokens induction =>
      rw [keysOf_cons, List.forall_mem_cons, ← induction, ← parseModifier_ne_zero,
        ← parseKeysym_ne_zero]
      split
      · next other => rw [List.forall_mem_cons, ne_eq, ne_eq (parseModifier token), other]; simp
      · next modifier => simp [modifier]

/-- Of tokens which are all known, the keys are those which are no modifiers. -/
theorem length_keysOf {tokens : List (List Char)}
    (named : ∀ token ∈ tokens, isModifierName token = true ∨ isKeyName token = true) :
    (keysOf tokens).length = (tokens.filter fun token => isKeyName token).length := by
  rw [keysOf, List.length_map]
  refine congrArg List.length (List.filter_congr fun token member => ?_)
  rw [Bool.eq_iff_iff, decide_eq_true_eq, ← not_iff_not, ← ne_eq, parseModifier_ne_zero]
  constructor
  · intro modifier
    simp [isKeyName_of_isModifierName modifier]
  · exact (named token member).resolve_right

/-- Exactly the texts of the grammar parse. -/
theorem parse_isSome_iff {text : List Char} : (parse text).isSome = true ↔ InGrammar text := by
  have bound_iff : Fits text → ((parse text).isSome = true ↔
      (∀ key ∈ keysOf (tokens text), key ≠ 0) ∧ (keysOf (tokens text)).length ≤ 1 ∧
        modifiersOf (tokens text) ≠ 0) := by
    intro fits
    rw [parse_of_fits fits, meaning, ← tokens_eq, ← and_assoc, ← bindingOf_isSome]
    cases bound : bindingOf (modifiersOf (tokens text)) (keysOf (tokens text)) with
    | none => simp
    | some binding => simp [Option.filter_some, bindingOf_modifiers bound]
  constructor
  · intro parsed
    have fits := fits_of_parse parsed
    obtain ⟨known, one, modified⟩ := (bound_iff fits).mp parsed
    have named := forall_keysOf.mp known
    exact ⟨fits, named, modifiersOf_ne_zero.mp modified, length_keysOf named ▸ one⟩
  · intro grammar
    refine (bound_iff grammar.fits).mpr ⟨forall_keysOf.mpr grammar.named, ?_,
      modifiersOf_ne_zero.mpr grammar.modified⟩
    rw [length_keysOf grammar.named]
    exact grammar.oneKey

/-! ## Bytes -/

theorem mem_trim {piece : List Char} {char : Char} (member : char ∈ piece) :
    char = ' ' ∨ char ∈ trim piece := by
  have blank {char : Char} (white : (char == ' ') = true) : char = ' ' := eq_of_beq white
  rw [← List.takeWhile_append_dropWhile (p := (· == ' ')) (l := piece), List.mem_append] at member
  obtain leading | kept := member
  · exact .inl (blank (List.mem_takeWhile_imp (p := (· == ' ')) leading))
  · rw [← List.rdropWhile_append_rtakeWhile (p := (· == ' ')) (l := piece.dropWhile (· == ' ')),
      List.mem_append] at kept
    obtain inner | trailing := kept
    · exact .inr inner
    · exact .inl (blank (List.mem_rtakeWhile_imp (p := (· == ' ')) trailing))

theorem utf8Size_of_toLower {char : Char} (ascii : char.toLower.val.toNat ≤ 127) :
    char.utf8Size = 1 := by
  have small : char.val.toNat ≤ 127 := by
    by_cases upper : 'A'.val ≤ char.val ∧ char.val ≤ 'Z'.val
    · have lower := toLower_of_upper upper
      omega
    · rwa [show char.toLower = char from dif_neg upper] at ascii
  rw [Char.utf8Size, if_pos (UInt32.le_iff_toNat_le.mpr small)]

theorem utf8Size_of_matched {names : List (String × UInt32)} {token : List Char}
    (ascii : (names.all fun entry =>
      (lowered entry.1.toList).all fun char => char.val.toNat ≤ 127) = true)
    (matched : (names.any fun entry => strEqNocase token entry.1.toList) = true) :
    ∀ char ∈ token, char.utf8Size = 1 := by
  intro char member
  obtain ⟨entry, listed, same⟩ := List.any_eq_true.mp matched
  have small := List.all_eq_true.mp (List.all_eq_true.mp ascii entry listed) char.toLower
  rw [← strEqNocase_iff.mp same] at small
  exact utf8Size_of_toLower (of_decide_eq_true (small (List.mem_map_of_mem member)))

/-- The characters of a name are single bytes. -/
theorem utf8Size_of_named {token : List Char}
    (named : isModifierName token = true ∨ isKeyName token = true) :
    ∀ char ∈ token, char.utf8Size = 1 := by
  rw [isKeyName, Bool.or_eq_true] at named
  obtain modifier | key | letter := named
  · exact utf8Size_of_matched (by decide +kernel) modifier
  · exact utf8Size_of_matched (by decide +kernel) key
  · match token with
    | [char] =>
        refine List.forall_mem_singleton.mpr (utf8Size_of_toLower ?_)
        simp only [isKeyChar, Bool.or_eq_true, Bool.and_eq_true, decide_eq_true_eq] at letter
        obtain ⟨-, below⟩ | ⟨-, below⟩ := letter
        · exact (show _ ≤ 122 from below).trans (by decide)
        · exact (show _ ≤ 57 from below).trans (by decide)

/-- A text of the grammar has as many bytes as characters. -/
theorem InGrammar.utf8Size {text : List Char} (grammar : InGrammar text) :
    ∀ char ∈ text, char.utf8Size = 1 := by
  intro char member
  obtain rfl | ⟨piece, split, inside⟩ := @StrSlice.mem_splitOn '+' _ _ member
  · rfl
  · obtain rfl | kept := mem_trim inside
    · rfl
    · refine utf8Size_of_named (grammar.named (trim piece) ?_) char kept
      rw [tokens_eq]
      exact List.mem_filter.mpr
        ⟨List.mem_map_of_mem split, decide_eq_true (List.ne_nil_of_mem kept)⟩

/-! ## Reading what is written -/

/-- The text is read back as one token. -/
def isWord (word : List Char) : Bool :=
  word != [] && trim word == word && !word.contains '+' && word.length ≤ 9

/-- The key is read back from its name. -/
def isReadable (keysym : Keysym) : Bool :=
  isWord (keyText keysym) && parseModifier (keyText keysym) == 0 &&
    parseKeysym (keyText keysym) == keysym

/-- The modifiers are read back from their names. -/
def areReadable (modifiers : Modifiers) : Bool :=
  (modifierWords modifiers).all isWord && modifiersOf (modifierWords modifiers) == modifiers &&
    keysOf (modifierWords modifiers) == []

theorem areReadable_of_chordable {modifiers : Modifiers} (chordable : Chordable modifiers) :
    areReadable modifiers = true := by
  have every : ((List.range 16).all fun bits => areReadable (UInt32.ofNat bits)) = true := by
    decide +kernel
  have below : modifiers.toNat < 16 := by
    have masked := congrArg UInt32.toNat chordable
    rw [UInt32.toNat_and] at masked
    have bounded : modifiers.toNat &&& 15 ≤ 15 := Nat.and_le_right
    exact Nat.lt_succ_of_le (masked ▸ bounded)
  have read := List.all_eq_true.mp every modifiers.toNat (List.mem_range.mpr below)
  rwa [UInt32.ofNat_toNat] at read

/-- The characters of a range, as keys, are read back when each of them is. -/
theorem isReadable_of_range {first count : Nat}
    (every : ((List.range' first count).all fun code => isReadable (UInt32.ofNat code)) = true)
    {keysym : Keysym} (above : first ≤ keysym.toNat) (below : keysym.toNat < first + count) :
    isReadable keysym = true := by
  have read := List.all_eq_true.mp every keysym.toNat (List.mem_range'_1.mpr ⟨above, below⟩)
  rwa [UInt32.ofNat_toNat] at read

theorem isReadable_of_parseKeysym {token : List Char} (known : parseKeysym token ≠ 0) :
    isReadable (parseKeysym token) = true := by
  unfold parseKeysym at known ⊢
  cases found : lookup keysymNames token with
  | some keysym =>
      obtain ⟨entry, member, -, rfl⟩ := mem_of_lookup found
      have every : (keysymNames.all fun entry => isReadable entry.2) = true := by decide +kernel
      exact List.all_eq_true.mp every entry member
  | none =>
      rw [found] at known
      dsimp only at known ⊢
      split at known
      · next char =>
          split at known
          · next printable =>
              rw [if_pos printable]
              obtain ⟨above, below⟩ | ⟨above, below⟩ := printable
              · have letters : ((List.range' 97 26).all fun code =>
                    isReadable (UInt32.ofNat code)) = true := by decide +kernel
                exact isReadable_of_range letters above (Nat.lt_succ_of_le below)
              · have digits : ((List.range' 48 10).all fun code =>
                    isReadable (UInt32.ofNat code)) = true := by decide +kernel
                exact isReadable_of_range digits above (Nat.lt_succ_of_le below)
          · exact absurd rfl known
      · exact absurd rfl known

theorem foldl_appendWord {text : List Char} (started : text ≠ []) (words : List (List Char)) :
    words.foldl appendWord text = text ++ words.flatMap (['+'] ++ ·) := by
  induction words generalizing text with
  | nil => simp
  | cons word words induction =>
      rw [List.foldl_cons, appendWord, if_neg started, induction (by simp), List.flatMap_cons]
      simp

/-- The words are joined by plus signs. -/
theorem format_eq {binding : ShortcutBinding} (written : ∀ word ∈ words binding, word ≠ []) :
    format binding = ['+'].intercalate (words binding) := by
  rw [format]
  cases joined : words binding with
  | nil => rfl
  | cons word rest =>
      rw [joined] at written
      rw [List.foldl_cons, appendWord, if_pos rfl,
        foldl_appendWord (written word List.mem_cons_self), StrSlice.intercalate_cons_eq]

theorem isWord_iff {word : List Char} :
    isWord word = true ↔ ((word ≠ [] ∧ trim word = word) ∧ '+' ∉ word) ∧ word.length ≤ 9 := by
  simp [isWord]

/-- Words are tokens as they are. -/
theorem tokensOf_words {pieces : List (List Char)} (written : ∀ word ∈ pieces, isWord word = true) :
    tokensOf pieces = pieces := by
  have trimmed : pieces.map trim = pieces.map id :=
    List.map_congr_left fun word member => (isWord_iff.mp (written word member)).1.1.2
  rw [tokensOf, trimmed, List.map_id]
  exact List.filter_eq_self.mpr fun word member =>
    decide_eq_true (isWord_iff.mp (written word member)).1.1.1

theorem modifiersOf_append (left right : List (List Char)) :
    modifiersOf (left ++ right) = modifiersOf left ||| modifiersOf right := by
  induction left with
  | nil => exact UInt32.zero_or.symm
  | cons token left induction =>
      rw [List.cons_append, modifiersOf_cons, induction, modifiersOf_cons, UInt32.or_assoc]

theorem keysOf_append (left right : List (List Char)) :
    keysOf (left ++ right) = keysOf left ++ keysOf right := by
  simp [keysOf]

theorem length_words_le (binding : ShortcutBinding) : (words binding).length ≤ 5 := by
  have modifiers : (modifierWords binding.modifiers).length ≤ 4 := by
    rw [modifierWords, List.length_map]
    exact List.length_filter_le ..
  rw [words, List.length_append]
  split
  · exact Nat.le_succ_of_le modifiers
  · exact Nat.succ_le_succ modifiers

theorem length_flatMap_le {words : List (List Char)} (short : ∀ word ∈ words, word.length ≤ 9) :
    (words.flatMap (['+'] ++ ·)).length ≤ 10 * words.length := by
  induction words with
  | nil => simp
  | cons word words induction =>
      obtain ⟨first, rest⟩ := List.forall_mem_cons.mp short
      have bounded := induction rest
      rw [List.flatMap_cons, List.length_append, List.length_append, List.length_singleton,
        List.length_cons]
      omega

/-- A binding with modifiers of the chords and a readable key, or none. -/
structure Readable (binding : ShortcutBinding) : Prop where
  modified : binding.modifiers ≠ 0
  chordable : Chordable binding.modifiers
  key : binding.keysym ≠ 0 → isReadable binding.keysym = true

namespace Readable

variable {binding : ShortcutBinding}

theorem isWord (readable : Readable binding) : ∀ word ∈ words binding, isWord word = true := by
  have modifiers := areReadable_of_chordable readable.chordable
  simp only [areReadable, Bool.and_eq_true, List.all_eq_true] at modifiers
  intro word member
  rw [words, List.mem_append] at member
  obtain modifier | key := member
  · exact modifiers.1.1 word modifier
  · split at key
    · cases key
    · next set =>
        obtain rfl := List.mem_singleton.mp key
        have read := readable.key set
        simp only [isReadable, Bool.and_eq_true] at read
        exact read.1.1

theorem meaning (readable : Readable binding) : meaning (words binding) = some binding := by
  have modifiers := areReadable_of_chordable readable.chordable
  simp only [areReadable, Bool.and_eq_true, beq_iff_eq] at modifiers
  rw [ShortcutConfig.meaning, tokensOf_words readable.isWord, words, modifiersOf_append,
    keysOf_append, modifiers.1.2, modifiers.2, List.nil_append]
  split
  · next unset =>
      rw [modifiersOf, List.foldr_nil, UInt32.or_zero]
      exact congrArg (fun keysym => some (ShortcutBinding.mk binding.modifiers keysym)) unset.symm
  · next set =>
      have read := readable.key set
      simp only [isReadable, Bool.and_eq_true, beq_iff_eq] at read
      rw [modifiersOf_cons, keysOf_cons, if_pos read.1.2, read.1.2, read.2, UInt32.zero_or,
        modifiersOf, List.foldr_nil, UInt32.or_zero]
      exact if_neg set

theorem words_ne_nil (readable : Readable binding) : words binding ≠ [] := by
  intro none_written
  have bound := readable.meaning
  rw [none_written] at bound
  have modifiers := congrArg ShortcutBinding.modifiers (Option.some.inj bound)
  exact readable.modified modifiers.symm

/-- What is written is read back. -/
theorem parse_format (readable : Readable binding) : parse (format binding) = some binding := by
  have word {word : List Char} (member : word ∈ words binding) := isWord_iff.mp
    (readable.isWord word member)
  have joined := format_eq fun _ member => (word member).1.1.1
  have fits : Fits (format binding) := by
    obtain ⟨first, rest, written⟩ := List.exists_cons_of_ne_nil readable.words_ne_nil
    have count := length_words_le binding
    rw [written] at word count
    have started := word List.mem_cons_self
    have bounded := length_flatMap_le fun _ member =>
      (word (List.mem_cons_of_mem first member)).2
    rw [joined, written, StrSlice.intercalate_cons_eq]
    refine ⟨fun empty => started.1.1.1 (List.append_eq_nil_iff.mp empty).1, ?_⟩
    rw [List.length_append]
    rw [List.length_cons] at count
    exact (Nat.add_le_add started.2 bounded).trans (by omega)
  have pieces : (format binding).splitOn '+' = words binding := by
    rw [joined]
    exact List.splitOn_intercalate '+' (fun _ member => (word member).1.2) readable.words_ne_nil
  rw [parse_of_fits fits, pieces, readable.meaning, Option.filter_some,
    if_pos (decide_eq_true readable.modified)]

end Readable

/-- A binding which parses is readable. -/
theorem readable_of_parse {text : List Char} {binding : ShortcutBinding}
    (parsed : parse text = some binding) : Readable binding := by
  obtain ⟨modified, chordable⟩ := parse_modifiers parsed
  refine ⟨modified, chordable, fun set => ?_⟩
  rw [parse_of_fits (fits_of_parse (Option.isSome_of_eq_some parsed))] at parsed
  have bound := (Option.filter_eq_some_iff.mp parsed).1
  have known : ∀ key ∈ keysOf (tokensOf (text.splitOn '+')), ∃ token, parseKeysym token = key := by
    intro key member
    obtain ⟨token, -, same⟩ := List.mem_map.mp member
    exact ⟨token, same⟩
  unfold meaning bindingOf at bound
  split at bound
  · obtain rfl := Option.some.inj bound
    exact absurd rfl set
  · next key keys =>
      split at bound
      · cases bound
      · obtain rfl := Option.some.inj bound
        obtain ⟨token, same⟩ := known key (keys ▸ List.mem_singleton_self key)
        rw [← same] at set ⊢
        exact isReadable_of_parseKeysym set
  · cases bound

/-! ## The codec -/

/-- Exactly the texts of the grammar parse; texts which fit and differ in order, letter case,
blanks, repeated modifiers and empty tokens parse alike; and what a parsed shortcut is written as
parses as the same shortcut. -/
theorem shortcut_codec :
    (∀ text, (parse text).isSome = true ↔ InGrammar text) ∧
      (∀ left right, Fits left → Fits right → Respelled left right → parse left = parse right) ∧
      ∀ text binding, parse text = some binding → parse (format binding) = some binding := by
  refine ⟨fun _ => parse_isSome_iff, fun left right left_fits right_fits respelled => ?_,
    fun _ _ parsed => (readable_of_parse parsed).parse_format⟩
  rw [parse_of_fits left_fits, parse_of_fits right_fits, meaning_respelled respelled]

/-- A key alone is a text of known names with at most one key, and does not parse. -/
theorem bare_key_rejected :
    ¬∀ text : List Char, (parse text).isSome = true ↔
      (∀ token ∈ (text.splitOn '+').map trim, isModifierName token = true ∨ isKeyName token = true) ∧
        (((text.splitOn '+').map trim).filter fun token => isKeyName token).length ≤ 1 := by
  intro grammatical
  have parsed := (grammatical ['a']).mpr (by decide)
  revert parsed
  decide

example : (parse "ctrl++SHIFT+ a +".toList).map format = some "Ctrl+Shift+a".toList := by
  decide +kernel

end ShortcutConfig

end Typio
