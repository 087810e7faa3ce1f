import Mathlib.Data.Nat.Prime.Basic
import Typio.JsonMembers
import Typio.JsonPlacement
import Typio.Ipc.TipJsonStrings

/-!
# What the scanners take

An integer is read up to the first byte that is no digit.  An object is taken up to the brace which
balances its first one, but a quote right after a backslash is never taken to close a string, even
when that backslash is escaped itself.  Any other value is taken up to the first comma or closing
brace.
-/

namespace Typio

namespace TipJson

open JsonText

/-! ## Integers -/

def signed (negative : Bool) (size : Nat) : Int := if negative then -size else size

/-- The part of a number in front of the fraction and the exponent. -/
def wholeValue (literal : NumberText) : Int :=
  signed literal.negative (digitsValue literal.whole.digits)

/-- The range of a `long`. -/
def clamp (value : Int) : Int := max (-2 ^ 63) (min (2 ^ 63 - 1) value)

theorem isdigit_iff (byte : UInt8) : isdigit byte = true ↔ IsDigit byte := by
  simp [isdigit, IsDigit]

theorem Digit.byte_value (digit : Digit) : digit.byte.toNat - 48 = digit := by
  revert digit
  decide

theorem magnitude_renderDigits (digits : List Digit) {rest : CString}
    (ends : Avoids IsDigit rest) :
    magnitude (renderDigits digits ++ rest) = digitsValue digits := by
  have stops : rest.takeWhile isdigit = [] := by
    cases rest with
    | nil => rfl
    | cons byte rest =>
        rw [avoids_cons, ← isdigit_iff] at ends
        exact List.takeWhile_cons_of_neg ends
  have all : ∀ byte ∈ renderDigits digits, isdigit byte = true := by
    intro byte member
    obtain ⟨digit, -, rfl⟩ := List.mem_map.mp member
    exact (isdigit_iff _).mpr digit.byte_isDigit
  rw [magnitude, List.takeWhile_append_of_pos all, stops, List.append_nil, renderDigits,
    List.foldl_map, digitsValue]
  simp only [Digit.byte_value]

/-- The digits of a number end where the whole part does. -/
theorem afterWhole_ends (literal : NumberText) {rest : CString} (ends : Avoids IsDigit rest) :
    Avoids IsDigit (NumberText.renderFraction literal.fraction ++
      (NumberText.renderExponent literal.exponent ++ rest)) := by
  cases literal.fraction with
  | some fraction => exact (avoids_cons ..).mpr (by decide)
  | none =>
      cases literal.exponent with
      | none => exact ends
      | some exponent =>
          refine (avoids_cons ..).mpr ?_
          split <;> decide

theorem strtol_render (literal : NumberText) {rest : CString} (ends : Avoids IsDigit rest) :
    strtol (literal.render ++ rest) = clamp (wholeValue literal) := by
  have value := magnitude_renderDigits literal.whole.digits (afterWhole_ends literal ends)
  obtain ⟨negative, whole, fraction, exponent⟩ := literal
  dsimp only at value
  have split : (NumberText.render ⟨negative, whole, fraction, exponent⟩) ++ rest =
      (if negative then [45] else []) ++ (renderDigits whole.digits ++
        (NumberText.renderFraction fraction ++ (NumberText.renderExponent exponent ++ rest))) := by
    simp [NumberText.render]
  rw [split]
  cases negative with
  | true =>
      simp only [if_true, List.cons_append, List.nil_append, strtol, value, clamp, wholeValue,
        signed]
      omega
  | false =>
      obtain ⟨lead, later, digits⟩ : ∃ lead later, whole.digits = lead :: later := by
        cases whole <;> exact ⟨_, _, rfl⟩
      have plain : strtol (renderDigits whole.digits ++ (NumberText.renderFraction fraction ++
          (NumberText.renderExponent exponent ++ rest))) =
            min (2 ^ 63 - 1) (digitsValue whole.digits : Int) := by
        rw [← value, digits]
        have isDigit := lead.byte_isDigit
        unfold strtol
        split
        · next text same =>
            rw [List.head_eq_of_cons_eq same] at isDigit
            exact absurd isDigit (by decide)
        · next text same =>
            rw [List.head_eq_of_cons_eq same] at isDigit
            exact absurd isDigit (by decide)
        · rfl
      simp only [Bool.false_eq_true, if_false, List.nil_append, plain, clamp, wholeValue, signed]
      omega

/-- A number of JSON is that integer. -/
def IsInteger (json : Json) (n : Int) : Prop :=
  ∃ mantissa exponent, json = .number mantissa exponent ∧
    (0 ≤ exponent ∧ n = mantissa * 10 ^ exponent.toNat ∨
      exponent < 0 ∧ mantissa = n * 10 ^ (-exponent).toNat)

/-- The range of an `int`. -/
def FitsInt (n : Int) : Prop := -2 ^ 31 ≤ n ∧ n < 2 ^ 31

/-! ### Numbers with an exponent -/

/-- The digits in front of a fraction are no more than the integer, unless zeros follow it. -/
theorem le_or_shifted {whole fraction scale rest n : Nat} (small : rest < 10 ^ fraction)
    (same : whole * 10 ^ fraction + rest = n * 10 ^ scale) :
    whole ≤ n ∨ ∃ shift, whole = n * 10 ^ shift := by
  by_cases le : scale ≤ fraction
  · left
    have grows := Nat.mul_le_mul_left whole (Nat.pow_le_pow_right (by decide : 0 < 10) le)
    exact Nat.le_of_mul_le_mul_right (by omega) (Nat.pow_pos (by decide : 0 < 10) : 0 < 10 ^ scale)
  · right
    refine ⟨scale - fraction, ?_⟩
    rw [← Nat.sub_add_cancel (Nat.le_of_not_le le), Nat.pow_add, ← Nat.mul_assoc] at same
    generalize n * 10 ^ (scale - fraction) = shifted at same
    obtain less | same' | more := Nat.lt_trichotomy whole shifted
    · have step := Nat.mul_le_mul_right (10 ^ fraction) (Nat.succ_le_of_lt less)
      rw [Nat.succ_mul] at step
      omega
    · exact same'
    · have step := Nat.mul_le_mul_right (10 ^ fraction) (Nat.le_of_lt more)
      have positive : 0 < 10 ^ fraction := Nat.pow_pos (by decide)
      have strict := Nat.mul_lt_mul_of_pos_right more positive
      omega

theorem eq_zero_of_shift {n shift : Nat} (small : n < 2 ^ 32) (nonzero : shift ≠ 0)
    (divides : 2 ^ 32 ∣ n * 10 ^ shift - n) : n = 0 := by
  have factor : n * 10 ^ shift - n = n * (10 ^ shift - 1) := by rw [Nat.mul_sub_one]
  have odd : Odd (10 ^ shift - 1) := by
    obtain ⟨half, even⟩ : Even (10 ^ shift) := (by decide : Even 10).pow_of_ne_zero nonzero
    have positive : 0 < 10 ^ shift := Nat.pow_pos (by decide)
    exact ⟨half - 1, by omega⟩
  rw [factor] at divides
  have coprime : Nat.Coprime (2 ^ 32) (10 ^ shift - 1) :=
    Nat.Coprime.pow_left 32 (Nat.coprime_two_left.mpr odd)
  exact Nat.eq_zero_of_dvd_of_lt (coprime.dvd_of_dvd_mul_right divides) small

theorem signed_mul (negative : Bool) (size scale : Nat) :
    signed negative size * 10 ^ scale = signed negative (size * 10 ^ scale) := by
  cases negative <;> simp [signed]

/-- Narrowing cannot make up for an exponent. -/
theorem narrowed_scaled {negative : Bool} {whole n : Nat}
    (scaled : whole ≤ n ∨ ∃ shift, whole = n * 10 ^ shift)
    (same : (clamp (signed negative whole)).bmod (2 ^ 32) = signed negative n) :
    whole = n ∧ FitsInt (signed negative n) := by
  have low := Int.le_bmod (x := clamp (signed negative whole)) (m := 2 ^ 32) (by decide)
  have high := Int.bmod_lt (x := clamp (signed negative whole)) (m := 2 ^ 32) (by decide)
  have divides := Int.dvd_bmod_sub_self (x := clamp (signed negative whole)) (m := 2 ^ 32)
  rw [same] at low high divides
  refine ⟨?_, ⟨by omega, by omega⟩⟩
  obtain le | ⟨shift, rfl⟩ := scaled
  · cases negative <;> simp only [signed, clamp, if_true, Bool.false_eq_true, if_false] at * <;>
      omega
  · by_cases none : shift = 0
    · simp [none]
    have grows : n * 1 ≤ n * 10 ^ shift := Nat.mul_le_mul_left n (Nat.pow_pos (by decide))
    generalize shifted : n * 10 ^ shift = whole at *
    have zero : n = 0 := by
      by_cases inside : whole < 2 ^ 63
      · refine @eq_zero_of_shift _ shift ?_ none ?_
        · cases negative <;> simp only [signed, if_true, Bool.false_eq_true, if_false] at * <;> omega
        · rw [shifted]
          cases negative <;>
            simp only [signed, clamp, if_true, Bool.false_eq_true, if_false] at * <;> omega
      · cases negative <;>
          simp only [signed, clamp, if_true, Bool.false_eq_true, if_false] at * <;> omega
    simp [← shifted, zero]

/-- The digits of an integer are no more than the integer itself, unless a negative exponent takes
them away. -/
theorem IsInteger.scaled {literal : NumberText} {n : Int} (is : IsInteger literal.value n) :
    ∃ size : Nat, n = signed literal.negative size ∧
      (digitsValue literal.whole.digits ≤ size ∨
        ∃ shift, digitsValue literal.whole.digits = size * 10 ^ shift) := by
  obtain ⟨negative, whole, fraction, exponent⟩ := literal
  obtain ⟨mantissa, scale, same, scaled⟩ := is
  simp only [NumberText.value, Json.number.injEq, digitsValue_append_digits] at same
  obtain ⟨rfl, rfl⟩ := same
  generalize NumberText.fractionDigits fraction = digits at *
  have small := digitsValue_lt digits
  obtain ⟨up, rfl⟩ | ⟨down, same⟩ := scaled
  · refine ⟨(digitsValue whole.digits * 10 ^ digits.length + digitsValue digits) *
      10 ^ (NumberText.exponentValue exponent - digits.length).toNat, ?_, .inl ?_⟩
    · exact signed_mul ..
    · refine Nat.le_trans ?_ (Nat.le_mul_of_pos_right _ (Nat.pow_pos (by decide)))
      exact Nat.le_trans (Nat.le_mul_of_pos_right _ (Nat.pow_pos (by decide)))
        (Nat.le_add_right ..)
  · generalize (-(NumberText.exponentValue exponent - digits.length)).toNat = places at same
    generalize total : digitsValue whole.digits * 10 ^ digits.length + digitsValue digits = size
      at same
    have positive : (0 : Int) < 10 ^ places := Int.pow_pos (by decide)
    refine ⟨n.natAbs, ?_, @le_or_shifted _ _ places _ _ small (total.trans ?_)⟩
    · cases negative with
      | true =>
          have nonpos : n ≤ 0 := Int.not_lt.mp fun pos => by
            have product := Int.mul_pos pos positive
            simp only [if_true] at same
            omega
          simp only [signed, if_true]
          omega
      | false =>
          have nonneg : 0 ≤ n := Int.not_lt.mp fun neg => by
            have product := Int.mul_neg_of_neg_of_pos neg positive
            simp only [Bool.false_eq_true, if_false] at same
            omega
          simp only [signed, Bool.false_eq_true, if_false]
          omega
    · have sizes := congrArg Int.natAbs same
      rw [Int.natAbs_mul, Int.natAbs_pow] at sizes
      cases negative <;> simpa using sizes

/-- What is read of a number is the number exactly when it is written out and fits an `int`. -/
theorem narrowed_eq_iff {literal : NumberText} {n : Int} (is : IsInteger literal.value n) :
    (clamp (wholeValue literal)).bmod (2 ^ 32) = n ↔ wholeValue literal = n ∧ FitsInt n := by
  constructor
  · intro same
    obtain ⟨size, rfl, scaled⟩ := is.scaled
    obtain ⟨written, fits⟩ := narrowed_scaled scaled same
    exact ⟨by rw [wholeValue, written], fits⟩
  · rintro ⟨rfl, low, high⟩
    have same : clamp (wholeValue literal) = wholeValue literal := by
      unfold clamp
      omega
    rw [same]
    refine Int.bmod_eq_of_le ?_ ?_ <;> omega

/-! ## Objects -/

/-- The depth and, inside a string, the byte before the cursor. -/
abbrev Scan := Nat × Option UInt8

/-- One byte of an object; none where the braces are balanced. -/
def advance : Scan → UInt8 → Option Scan
  | (depth, some before), byte =>
      some (depth, if byte = quote ∧ before ≠ backslash then none else some byte)
  | (depth, none), byte =>
      if depth = 0 then none
      else if byte = quote then some (depth, some byte)
      else if byte = leftBrace then some (depth + 1, none)
      else if byte = rightBrace then some (depth - 1, none)
      else some (depth, none)

/-- The state of the object scanner after bytes, provided that it takes them all. -/
def scan (state : Scan) (text : CString) : Option Scan := text.foldlM advance state

/-- The braces are balanced at the end of the body, and not before. -/
def Balanced (body : CString) : Prop := scan (1, none) body = some (0, none)

theorem scan_cons (state : Scan) (byte : UInt8) (text : CString) :
    scan state (byte :: text) = (advance state byte).bind fun next => scan next text := rfl

theorem scan_append (state : Scan) (first second : CString) :
    scan state (first ++ second) = (scan state first).bind fun next => scan next second :=
  List.foldlM_append

theorem scanObject_prefix (depth : Nat) (last : Option UInt8) (text : CString) :
    scanObject depth last text <+: text := by
  induction text generalizing depth last with
  | nil => exact List.prefix_rfl
  | cons byte text ih =>
      have passed (depth : Nat) (last : Option UInt8) :
          byte :: scanObject depth last text <+: byte :: text :=
        (List.prefix_cons_inj byte).mpr (ih depth last)
      cases last with
      | some before => exact passed _ _
      | none =>
          rw [scanObject]
          split
          · exact List.nil_prefix
          split
          · exact passed _ _
          split
          · exact passed _ _
          split <;> exact passed _ _

theorem scanObject_cons (state : Scan) (byte : UInt8) (text : CString) :
    scanObject state.1 state.2 (byte :: text) =
      match advance state byte with
      | none => []
      | some next => byte :: scanObject next.1 next.2 text := by
  obtain ⟨depth, _ | before⟩ := state
  · by_cases closed : depth = 0
    · simp [scanObject, advance, closed]
    by_cases isQuote : byte = quote
    · simp [scanObject, advance, closed, isQuote]
    by_cases opens : byte = leftBrace
    · simp [scanObject, advance, closed, opens, show leftBrace ≠ quote by decide]
    by_cases closes : byte = rightBrace
    · simp [scanObject, advance, closed, closes, show rightBrace ≠ quote by decide,
        show rightBrace ≠ leftBrace by decide]
    · simp [scanObject, advance, closed, isQuote, opens, closes]
  · rfl

theorem scanObject_append {state next : Scan} {body : CString} (taken : scan state body = some next)
    (rest : CString) :
    scanObject state.1 state.2 (body ++ rest) = body ++ scanObject next.1 next.2 rest := by
  induction body generalizing state with
  | nil =>
      obtain rfl := Option.some.inj taken
      rfl
  | cons byte body ih =>
      rw [scan_cons, Option.bind_eq_some_iff] at taken
      obtain ⟨after, first, later⟩ := taken
      rw [List.cons_append, scanObject_cons, first]
      exact congrArg (byte :: ·) (ih later)

/-- The scanner stops before the end of the text only where the braces are balanced. -/
theorem scan_scanObject (state : Scan) (text : CString) :
    ∃ last, scan state (scanObject state.1 state.2 text) = some last ∧
      (scanObject state.1 state.2 text = text ∨ last = (0, none)) := by
  induction text generalizing state with
  | nil => exact ⟨state, by rw [scanObject]; rfl, .inl (by rw [scanObject])⟩
  | cons byte text ih =>
      rw [scanObject_cons]
      cases taken : advance state byte with
      | none =>
          refine ⟨state, rfl, .inr ?_⟩
          obtain ⟨depth, _ | before⟩ := state
          · simp only [advance] at taken
            split at taken
            · next closed => rw [closed]
            split at taken
            · simp at taken
            split at taken
            · simp at taken
            split at taken <;> simp at taken
          · simp [advance] at taken
      | some next =>
          obtain ⟨last, reached, ends⟩ := ih next
          refine ⟨last, ?_, ends.imp_left (congrArg (byte :: ·))⟩
          rw [scan_cons, taken]
          exact reached

/-- A byte which is no quote and no brace changes nothing. -/
theorem advance_ordinary {byte : UInt8} (notQuote : byte ≠ quote) (notOpen : byte ≠ leftBrace)
    (notClose : byte ≠ rightBrace) (depth : Nat) (last : Option UInt8) :
    advance (depth, last) byte =
      if last = none ∧ depth = 0 then none else some (depth, last.map fun _ => byte) := by
  cases last <;> simp [advance, notQuote, notOpen, notClose]

theorem advance_space (state : Scan) (white : Space) :
    advance state white.byte ≠ some (0, none) := by
  obtain ⟨depth, last⟩ := state
  rw [advance_ordinary (by cases white <;> decide) (by cases white <;> decide)
    (by cases white <;> decide)]
  split
  · simp
  · next inside =>
      cases last with
      | none => simpa using inside
      | some before => simp

/-- White space, and a byte which separates members or closes the object. -/
def Delimited (tail : CString) : Prop :=
  ∃ spaces byte rest, tail = renderSpaces spaces ++ byte :: rest ∧ (byte = comma ∨ byte = rightBrace)

theorem Delimited.ends {tail : CString} (delimited : Delimited tail) :
    Avoids ContinuesNumber tail := by
  obtain ⟨spaces, byte, rest, rfl, isComma | isBrace⟩ := delimited
  · exact JsonText.delimited spaces (.inl isComma)
  · exact JsonText.delimited spaces (.inr (.inr isBrace))

theorem Delimited.ne_spaces {tail : CString} (delimited : Delimited tail) (spaces : List Space) :
    renderSpaces spaces ≠ tail := by
  rintro rfl
  obtain ⟨before, byte, rest, same, delimits⟩ := delimited
  obtain ⟨white, -, rfl⟩ := List.mem_map.mp (show byte ∈ renderSpaces spaces by rw [same]; simp)
  cases white <;> revert delimits <;> decide

/-- The slice of an object denotes the object exactly when the braces are balanced at its end. -/
theorem denotes_scanObject_iff {tree : JsonText} {body tail : CString}
    (renders : tree.render = leftBrace :: body) (delimited : Delimited tail) :
    Denotes (scanValue (tree.render ++ tail)) tree.value ↔ Balanced body := by
  have taken : scanValue (tree.render ++ tail) =
      leftBrace :: scanObject 1 none (body ++ tail) := by
    rw [renders]
    rfl
  have isObject : tree.kind = .object := by
    obtain ⟨byte, rest, renders', starts⟩ := tree.render_starts
    rw [renders'] at renders
    rw [List.head_eq_of_cons_eq renders] at starts
    exact (Option.some.inj starts).symm
  rw [taken]
  constructor
  · rintro ⟨before, other, after, same, -⟩
    obtain ⟨rest, whole⟩ := scanObject_prefix 1 none (body ++ tail)
    obtain ⟨last, reached, ends⟩ := scan_scanObject (1, none) (body ++ tail)
    obtain rfl : before = [] := by
      cases before with
      | nil => rfl
      | cons white before =>
          have first := List.head_eq_of_cons_eq same
          cases white <;> exact absurd first (by decide)
    have texts : other.render ++ (renderSpaces after ++ rest) = tree.render ++ tail := by
      have parts := congrArg (· ++ rest) same
      simp only [renderSpaces_nil, List.nil_append, List.append_assoc, List.cons_append] at parts
      rw [← parts, whole, renders, List.cons_append]
    have sameKind := (kind_eq texts).trans isObject
    obtain ⟨rfl, -⟩ := render_inj (by simp [sameKind]) (by simp [isObject]) texts
    have slice : scanObject 1 none (body ++ tail) = body ++ renderSpaces after := by
      rw [renders, renderSpaces_nil, List.nil_append, List.cons_append] at same
      exact List.tail_eq_of_cons_eq same
    obtain all | rfl := ends
    · have same := List.append_cancel_left (slice.symm.trans all)
      exact absurd same (delimited.ne_spaces after)
    · change scan (1, none) (scanObject 1 none (body ++ tail)) = _ at reached
      rw [slice] at reached
      obtain rfl | ⟨spaces, white, rfl⟩ := List.eq_nil_or_concat' after
      · rwa [renderSpaces_nil, List.append_nil] at reached
      · rw [renderSpaces, List.map_append, ← List.append_assoc, scan_append] at reached
        obtain ⟨state, -, last⟩ := Option.bind_eq_some_iff.mp reached
        rw [List.map_singleton, scan_cons] at last
        obtain ⟨next, taken, stops⟩ := Option.bind_eq_some_iff.mp last
        obtain rfl : next = (0, none) := Option.some.inj stops
        exact absurd taken (advance_space state white)
  · intro balanced
    have slice := scanObject_append balanced tail
    have stops : scanObject 0 none tail = [] := by cases tail <;> rfl
    change scanObject 1 none (body ++ tail) = _ at slice
    rw [slice, stops, List.append_nil, ← renders]
    exact denotes_render tree

/-- The slice of any other value denotes it exactly when there is no comma and no closing brace
in it. -/
theorem denotes_takeValue_iff {tree : JsonText} {tail : CString} (notObject : tree.kind ≠ .object)
    (delimited : Delimited tail) :
    Denotes (scanValue (tree.render ++ tail)) tree.value ↔
      ∀ byte ∈ tree.render, byte ≠ comma ∧ byte ≠ rightBrace := by
  let inside (byte : UInt8) : Bool := byte ≠ comma && byte ≠ rightBrace
  have taken : scanValue (tree.render ++ tail) = (tree.render ++ tail).takeWhile inside := by
    obtain ⟨first, rest, renders, starts⟩ := tree.render_starts
    have notBrace : first ≠ leftBrace := by
      rintro rfl
      exact notObject (Option.some.inj starts).symm
    rw [renders, List.cons_append, scanValue, if_neg notBrace]
  rw [taken]
  constructor
  · intro denotes
    by_contra stops
    have short : (tree.render.takeWhile inside).length ≠ tree.render.length := fun same =>
      stops fun byte member => by
        rw [← (List.takeWhile_prefix inside).eq_of_length same] at member
        simpa [inside] using List.mem_takeWhile_imp member
    rw [List.takeWhile_append, if_neg short] at denotes
    obtain ⟨before, other, after, slice, -⟩ := denotes
    obtain ⟨delimiter, rest, ends⟩ : ∃ delimiter rest,
        tree.render.dropWhile inside = delimiter :: rest := by
      refine List.exists_cons_of_ne_nil fun empty => short ?_
      have whole := List.takeWhile_append_dropWhile (p := inside) (l := tree.render)
      rw [empty, List.append_nil] at whole
      rw [whole]
    have delimits : delimiter = comma ∨ delimiter = rightBrace := by
      have head := List.head?_dropWhile_not inside tree.render
      rw [ends] at head
      by_contra neither
      simp_all [inside]
    have texts : renderSpaces [] ++ (tree.render ++ []) =
        renderSpaces before ++ (other.render ++ (renderSpaces after ++ delimiter :: rest)) := by
      rw [renderSpaces_nil, List.nil_append, List.append_nil,
        ← List.takeWhile_append_dropWhile (p := inside) (l := tree.render), slice, ends]
      simp
    obtain ⟨-, texts⟩ := renderSpaces_inj (tree.render_solid _) (other.render_solid _) texts
    have closed : Delimited (renderSpaces after ++ delimiter :: rest) :=
      ⟨after, delimiter, rest, rfl, delimits⟩
    have none_left := (render_inj (fun _ => avoids_nil _) (fun _ => closed.ends) texts).2
    simp at none_left
  · intro all
    obtain ⟨spaces, delimiter, rest, rfl, delimits⟩ := delimited
    have whole : (tree.render ++ (renderSpaces spaces ++ delimiter :: rest)).takeWhile inside =
        tree.render ++ renderSpaces spaces := by
      rw [List.takeWhile_append_of_pos fun byte member => by simpa [inside] using all byte member,
        List.takeWhile_append_of_pos fun byte member => ?_, List.takeWhile_cons_of_neg ?_,
        List.append_nil]
      · obtain rfl | rfl := delimits <;> simp [inside]
      · obtain ⟨white, -, rfl⟩ := List.mem_map.mp member
        cases white <;> rfl
    rw [whole]
    exact ⟨[], tree, spaces, rfl, rfl⟩

/-! ## Objects whose strings do not end in a backslash -/

/-- The closing quote does not stand right after a backslash. -/
def Closes (pieces : List Piece) : Prop := pieces.getLast? ≠ some (.escape .backslash)

mutual

/-- No string of the value, names included, ends in a backslash. -/
def Tidy : JsonText → Prop
  | .null | .bool _ | .number _ | .emptyArray _ | .emptyObject _ => True
  | .string pieces => Closes pieces
  | .array elements => TidyElements elements
  | .object members => TidyMembers members

def TidyElements : ElementsText → Prop
  | .last _ value _ => Tidy value
  | .more _ value _ later => Tidy value ∧ TidyElements later

def TidyMembers : MembersText → Prop
  | .last _ key _ _ value _ => Closes key ∧ Tidy value
  | .more _ key _ _ value _ later => Closes key ∧ Tidy value ∧ TidyMembers later

end

theorem advance_inside {byte : UInt8} (notQuote : byte ≠ quote) (depth : Nat) (before : UInt8) :
    advance (depth, some before) byte = some (depth, some byte) := by
  simp [advance, notQuote]

theorem scan_piece (depth : Nat) (before : UInt8) (piece : Piece) :
    ∃ last, scan (depth, some before) piece.render = some (depth, some last) ∧
      (last = backslash → piece = .escape .backslash) := by
  cases piece with
  | plain byte isPlain =>
      obtain ⟨-, notQuote, notBackslash⟩ := isPlain
      refine ⟨byte, ?_, fun same => absurd same notBackslash⟩
      change scan (depth, some before) [byte] = _
      rw [scan_cons, advance_inside notQuote]
      rfl
  | escape code =>
      refine ⟨code.letter, ?_, ?_⟩
      · change scan (depth, some before) [backslash, code.letter] = _
        rw [scan_cons, advance_inside (by decide), Option.bind_some, scan_cons]
        simp [advance, scan]
      · cases code <;> decide
  | unicode unit =>
      have digit (digit : HexDigit) : digit.byte ≠ quote ∧ digit.byte ≠ backslash := by
        cases digit with
        | decimal value => revert value; decide
        | lower value => revert value; decide
        | upper value => revert value; decide
      refine ⟨unit.fourth.byte, ?_, fun same => absurd same (digit unit.fourth).2⟩
      simp only [Piece.render, CodeUnit.render, scan_cons,
        advance_inside (show backslash ≠ quote by decide),
        advance_inside (show (117 : UInt8) ≠ quote by decide), advance_inside (digit _).1,
        Option.bind_some]
      rfl

/-- Inside a string the scanner stays inside; it sees a backslash last if the string ends in one. -/
theorem scan_pieces (depth : Nat) (before : UInt8) (pieces : List Piece) :
    ∃ last, scan (depth, some before) (renderPieces pieces) = some (depth, some last) ∧
      (last = backslash → pieces = [] ∧ before = backslash ∨
        pieces.getLast? = some (.escape .backslash)) := by
  induction pieces generalizing before with
  | nil => exact ⟨before, rfl, fun same => .inl ⟨rfl, same⟩⟩
  | cons piece pieces ih =>
      obtain ⟨middle, first, hides⟩ := scan_piece depth before piece
      obtain ⟨last, later, hidden⟩ := ih middle
      refine ⟨last, by rw [renderPieces_cons, scan_append, first, Option.bind_some, later], ?_⟩
      intro same
      obtain ⟨rfl, isBackslash⟩ | ends := hidden same
      · exact .inr (by rw [hides isBackslash]; rfl)
      · refine .inr ?_
        cases pieces with
        | nil => simp at ends
        | cons next pieces => rw [List.getLast?_cons_cons, ends]

theorem scan_string {depth : Nat} (inside : depth ≠ 0) {pieces : List Piece}
    (closes : Closes pieces) : scan (depth, none) (renderString pieces) = some (depth, none) := by
  obtain ⟨last, reached, hidden⟩ := scan_pieces depth quote pieces
  have shown : last ≠ backslash := fun same => by
    obtain ⟨-, same⟩ | hides := hidden same
    · exact absurd same (by decide)
    · exact closes hides
  have opened : advance (depth, none) quote = some (depth, some quote) := by
    simp [advance, inside]
  have closed : advance (depth, some last) quote = some (depth, none) := by
    simp [advance, shown]
  rw [renderString, List.cons_append, scan_cons, opened, Option.bind_some, scan_append, reached,
    Option.bind_some, scan_cons, closed]
  rfl

theorem scan_ordinary {depth : Nat} (inside : depth ≠ 0) {text : CString}
    (ordinary : ∀ byte ∈ text, byte ≠ quote ∧ byte ≠ leftBrace ∧ byte ≠ rightBrace) :
    scan (depth, none) text = some (depth, none) := by
  induction text with
  | nil => rfl
  | cons byte text ih =>
      obtain ⟨notQuote, notOpen, notClose⟩ := ordinary byte (by simp)
      rw [scan_cons, advance_ordinary notQuote notOpen notClose, if_neg (by simp [inside])]
      exact ih fun other member => ordinary other (by simp [member])

theorem scan_spaces {depth : Nat} (inside : depth ≠ 0) (spaces : List Space) :
    scan (depth, none) (renderSpaces spaces) = some (depth, none) := by
  refine scan_ordinary inside fun byte member => ?_
  obtain ⟨white, -, rfl⟩ := List.mem_map.mp member
  cases white <;> decide

theorem continuesNumber_ordinary : ∀ byte, ContinuesNumber byte →
    byte ≠ quote ∧ byte ≠ leftBrace ∧ byte ≠ rightBrace := by
  rintro byte (⟨least, most⟩ | rfl | rfl | rfl | rfl | rfl)
  · refine ⟨?_, ?_, ?_⟩ <;> rintro rfl <;> revert least most <;> decide
  all_goals decide

theorem scan_byte {depth : Nat} (inside : depth ≠ 0) {byte : UInt8}
    (ordinary : byte ≠ quote ∧ byte ≠ leftBrace ∧ byte ≠ rightBrace) (rest : CString) :
    scan (depth, none) (byte :: rest) = scan (depth, none) rest := by
  rw [← List.singleton_append, scan_append, scan_ordinary inside (by simpa using ordinary),
    Option.bind_some]

theorem scan_comma {depth : Nat} (inside : depth ≠ 0) (rest : CString) :
    scan (depth, none) (comma :: rest) = scan (depth, none) rest :=
  scan_byte inside (by decide) rest

theorem scan_colon {depth : Nat} (inside : depth ≠ 0) (rest : CString) :
    scan (depth, none) (colon :: rest) = scan (depth, none) rest :=
  scan_byte inside (by decide) rest

theorem scan_brackets {depth : Nat} (inside : depth ≠ 0) {body : CString}
    (kept : scan (depth, none) body = some (depth, none)) :
    scan (depth, none) (leftBracket :: body ++ [rightBracket]) = some (depth, none) := by
  rw [List.cons_append, scan_byte inside (by decide), scan_append, kept, Option.bind_some,
    scan_byte inside (by decide)]
  rfl

theorem scan_braces {depth : Nat} (inside : depth ≠ 0) {body : CString}
    (kept : scan (depth + 1, none) body = some (depth + 1, none)) :
    scan (depth, none) (leftBrace :: body ++ [rightBrace]) = some (depth, none) := by
  have opened : advance (depth, none) leftBrace = some (depth + 1, none) := by
    simp [advance, inside, show leftBrace ≠ quote by decide]
  rw [List.cons_append, scan_cons, opened, Option.bind_some, scan_append, kept, Option.bind_some]
  rfl

mutual

theorem scan_render : ∀ {tree : JsonText} {depth : Nat}, depth ≠ 0 → Tidy tree →
    scan (depth, none) tree.render = some (depth, none)
  | .null, _, inside, _ | .bool true, _, inside, _ | .bool false, _, inside, _ =>
      scan_ordinary inside (by decide +kernel)
  | .number literal, _, inside, _ => scan_ordinary inside fun byte member =>
      continuesNumber_ordinary byte ((Place.continuesNumber_render literal).2 byte member)
  | .string pieces, _, inside, closes => scan_string inside closes
  | .emptyArray spaces, _, inside, _ => scan_brackets inside (scan_spaces inside spaces)
  | .array _, _, inside, tidy => scan_brackets inside (scan_elements inside tidy)
  | .emptyObject spaces, _, inside, _ =>
      scan_braces inside (scan_spaces (Nat.succ_ne_zero _) spaces)
  | .object _, _, inside, tidy => scan_braces inside (scan_members (Nat.succ_ne_zero _) tidy)

theorem scan_elements : ∀ {elements : ElementsText} {depth : Nat}, depth ≠ 0 →
    TidyElements elements → scan (depth, none) (renderElements elements) = some (depth, none)
  | .last before value after, _, inside, tidy => by
      rw [renderElements, scan_append, scan_append, scan_spaces inside, Option.bind_some,
        scan_render inside tidy, Option.bind_some, scan_spaces inside]
  | .more before value after later, _, inside, tidy => by
      rw [renderElements, scan_append, scan_append, scan_append, scan_spaces inside,
        Option.bind_some, scan_render inside tidy.1, Option.bind_some, scan_spaces inside,
        Option.bind_some, scan_comma inside, scan_elements inside tidy.2]

theorem scan_members : ∀ {members : MembersText} {depth : Nat}, depth ≠ 0 →
    TidyMembers members → scan (depth, none) (renderMembers members) = some (depth, none)
  | .last before key beforeColon afterColon value after, _, inside, tidy => by
      simp only [renderMembers, scan_append, scan_spaces inside, scan_string inside tidy.1,
        scan_colon inside, scan_render inside tidy.2, Option.bind_some]
  | .more before key beforeColon afterColon value after later, _, inside, tidy => by
      simp only [renderMembers, scan_append, scan_spaces inside, scan_string inside tidy.1,
        scan_colon inside, scan_render inside tidy.2.1, scan_comma inside, Option.bind_some,
        scan_members inside tidy.2.2]

end

end TipJson

end Typio
