import Typio.JsonPlacement
import Typio.Ipc.TipJsonStrings

/-!
# Where a quoted name occurs

In a compact text a word between quotes occurs inside the strings only: as a whole string, or at
the end of a string with a quote of its own in front.
-/

namespace Typio

namespace TipJson

open JsonText

/-! ## Texts with separators -/

/-- A pattern without the separating byte occurs on one side of it. -/
theorem isInfix_append_cons_iff {pattern before after : CString} {byte : UInt8}
    (absent : byte ∉ pattern) :
    pattern <:+: before ++ byte :: after ↔ pattern <:+: before ∨ pattern <:+: after := by
  constructor
  · rintro ⟨first, last, parts⟩
    obtain ⟨middle, same, -⟩ | ⟨middle, inner, rest⟩ := List.append_eq_append_iff.mp parts
    · exact .inl ⟨first, middle, same.symm⟩
    obtain ⟨start, rfl, rfl⟩ | ⟨start, rfl, rfl⟩ := List.append_eq_append_iff.mp inner
    · cases middle with
      | nil => exact .inl ⟨first, [], by simp⟩
      | cons head middle =>
          obtain ⟨rfl, -⟩ := List.cons.inj rest
          simp at absent
    · cases start with
      | nil =>
          cases pattern with
          | nil => exact .inl List.nil_infix
          | cons head pattern =>
              obtain ⟨rfl, -⟩ := List.cons.inj rest
              simp at absent
      | cons head start =>
          obtain ⟨rfl, rfl⟩ := List.cons.inj rest
          exact .inr ⟨start, last, rfl⟩
  · rintro (inside | inside)
    · exact inside.trans (List.prefix_append ..).isInfix
    · exact inside.trans ((List.suffix_cons ..).trans (List.suffix_append ..)).isInfix

theorem isInfix_intercalate_iff {pattern : CString} (nonempty : pattern ≠ [])
    (absent : comma ∉ pattern) (parts : List CString) :
    pattern <:+: [comma].intercalate parts ↔ ∃ part ∈ parts, pattern <:+: part := by
  induction parts with
  | nil => simp [nonempty]
  | cons part parts ih =>
      cases parts with
      | nil => simp
      | cons next parts =>
          rw [List.intercalate_cons_cons, List.append_assoc, List.singleton_append,
            isInfix_append_cons_iff absent, ih]
          simp

/-! ## Inside a string -/

/-- Letters in lower case. -/
def IsWord (name : CString) : Prop :=
  name ≠ [] ∧ ∀ byte ∈ name, 97 ≤ byte.toNat ∧ byte.toNat ≤ 122

instance (name : CString) : Decidable (IsWord name) :=
  @instDecidableAnd _ _ inferInstance (List.decidableBAll _ name)

/-- The string is the name, or ends with the name and a quote in front of it. -/
def Names (name text : CString) : Prop := text = name ∨ quote :: name <:+ text

theorem IsWord.plain {name : CString} (word : IsWord name) : ∀ byte ∈ name, IsPlain byte := by
  intro byte member
  obtain ⟨low, high⟩ := word.2 byte member
  refine ⟨by omega, ?_, ?_⟩ <;> rintro rfl <;> revert low high <;> decide

theorem scanned_plain {text : CString} (plain : ∀ byte ∈ text, IsPlain byte) :
    scanned false text = some false := by
  have literal := literal_escaped text
  rwa [escaped_of_plain plain] at literal

/-- After the letters of a word no quote is hidden. -/
theorem scanned_word {name : CString} (word : IsWord name) (hidden : Bool) :
    scanned hidden name = some false := by
  cases hidden with
  | false => exact scanned_plain word.plain
  | true =>
      cases name with
      | nil => exact absurd rfl word.1
      | cons byte name =>
          rw [scanned, Bool.not_true, Bool.and_false, Bool.and_false, if_neg Bool.false_ne_true]
          exact scanned_plain fun other member => word.plain other (by simp [member])

/-- A quote right after a word would close the string. -/
theorem escaped_ne_word_quote {name : CString} (word : IsWord name) (text before after : CString) :
    escaped text ≠ before ++ (name ++ quote :: after) := by
  intro same
  have literal := literal_escaped text
  rw [same, Literal, scanned_append] at literal
  obtain ⟨hidden, -, later⟩ := Option.bind_eq_some_iff.mp literal
  rw [scanned_append, scanned_word word] at later
  simp [scanned] at later

theorem quote_mem_escapeByte : ∀ byte, quote ∈ escapeByte byte → byte = quote := by
  refine byte_cases (by decide) (by decide) (by decide) fun byte plain written => ?_
  rw [escapeByte_of_plain byte plain, List.mem_singleton] at written
  exact written.symm

theorem eq_of_escaped_eq {text name : CString} (plain : ∀ byte ∈ name, IsPlain byte)
    (same : escaped text = name) : text = name := by
  rw [← same]
  refine (escaped_of_plain fun byte member => ?_).symm
  by_contra notPlain
  have hidden := escapeByte_of_not_plain byte notPlain
  have inside : backslash ∈ escaped text :=
    List.mem_flatMap.mpr ⟨byte, member, by rw [hidden]; simp⟩
  rw [same] at inside
  exact (plain backslash inside).2.2 rfl

theorem suffix_of_escaped {name : CString} (word : IsWord name) {text before : CString}
    (same : escaped text = before ++ quote :: name) : quote :: name <:+ text := by
  induction text generalizing before with
  | nil => simp at same
  | cons byte text ih =>
      rw [escaped_cons] at same
      obtain ⟨middle, rfl, rest⟩ | ⟨middle, first, rest⟩ := List.append_eq_append_iff.mp same
      · exact (ih rest).trans (List.suffix_cons ..)
      · cases middle with
        | nil => exact (@ih [] rest.symm).trans (List.suffix_cons ..)
        | cons head middle =>
            obtain ⟨rfl, tail⟩ := List.cons.inj rest
            obtain rfl := quote_mem_escapeByte byte (by rw [first]; simp)
            have empty : middle = [] := by
              change [backslash, quote] = before ++ quote :: middle at first
              rcases before with _ | ⟨_, _ | ⟨_, before⟩⟩
              · exact absurd (List.cons.inj first).1 (by decide)
              · exact (List.cons.inj (List.cons.inj first).2).2.symm
              · exact absurd (congrArg List.length first) (by simp)
            subst empty
            obtain rfl := eq_of_escaped_eq word.plain tail.symm
            exact List.suffix_rfl

theorem isInfix_appendString_iff {name : CString} (word : IsWord name) (text : CString) :
    quoted name <:+: appendString text ↔ Names name text := by
  rw [appendString_eq]
  constructor
  · rintro ⟨before, after, same⟩
    have splits : before ++ (quote :: name) ++ quote :: after =
        (quote :: escaped text) ++ [quote] := by
      simpa [quoted] using same
    obtain rfl | ⟨after, last, rfl⟩ := List.eq_nil_or_concat' after
    · have closed : before ++ quote :: name = quote :: escaped text :=
        List.append_cancel_right splits
      cases before with
      | nil => exact .inl (eq_of_escaped_eq word.plain (List.tail_eq_of_cons_eq closed).symm)
      | cons first before => exact .inr (suffix_of_escaped word (List.tail_eq_of_cons_eq closed).symm)
    · have inside : before ++ (quote :: name) ++ quote :: after = quote :: escaped text := by
        have parts : (before ++ (quote :: name) ++ quote :: after) ++ [last] =
            (quote :: escaped text) ++ [quote] := by simpa using splits
        exact (List.append_inj' parts rfl).1
      cases before with
      | nil =>
          refine absurd (List.tail_eq_of_cons_eq inside).symm ?_
          simpa using escaped_ne_word_quote word text [] after
      | cons first before =>
          refine absurd (List.tail_eq_of_cons_eq inside).symm ?_
          simpa using escaped_ne_word_quote word text (before ++ [quote]) after
  · rintro (rfl | ⟨before, rfl⟩)
    · rw [escaped_of_plain word.plain]
      exact List.infix_rfl
    · refine ⟨quote :: (escaped before ++ [backslash]), [], ?_⟩
      simp only [escaped, List.flatMap_append, List.flatMap_cons]
      rw [← escaped, ← escaped, escaped_of_plain word.plain]
      simp [quoted, show escapeByte quote = [backslash, quote] from rfl]

/-! ## Inside a value -/

mutual

/-- The strings of a value, the names of its members among them. -/
def stringsOf : Json → List CString
  | .string bytes => [bytes]
  | .array elements => stringsOfElements elements
  | .object members => stringsOfMembers members
  | .null | .bool _ | .number _ _ => []

def stringsOfElements : List Json → List CString
  | [] => []
  | element :: later => stringsOf element ++ stringsOfElements later

def stringsOfMembers : List (CString × Json) → List CString
  | [] => []
  | member :: later => stringsOfMember member ++ stringsOfMembers later

def stringsOfMember : CString × Json → List CString
  | (name, value) => name :: stringsOf value

end

theorem quoted_notInfix {name text : CString} (plain : quote ∉ text) : ¬ quoted name <:+: text :=
  fun inside => plain (inside.subset (by simp [quoted]))

theorem IsWord.absent {name : CString} (word : IsWord name) {byte : UInt8} (notQuote : byte ≠ quote)
    (structural : ¬ (97 ≤ byte.toNat ∧ byte.toNat ≤ 122)) : byte ∉ quoted name := by
  simp only [quoted, List.cons_append, List.mem_cons, List.mem_append, List.not_mem_nil, or_false]
  rintro (same | member | same)
  · exact notQuote same
  · exact structural (word.2 byte member)
  · exact notQuote same

mutual

/-- A quoted word occurs in a compact text exactly when a string of the value names it. -/
theorem isInfix_compact_iff {name : CString} (word : IsWord name) : ∀ json : Json,
    quoted name <:+: (compact json).render ↔ ∃ text ∈ stringsOf json, Names name text
  | .null | .bool true | .bool false => by
      rw [iff_false_intro (quoted_notInfix (by decide)), stringsOf]
      simp
  | .number mantissa exponent => by
      have plain : quote ∉ (compact (.number mantissa exponent)).render := fun member =>
        absurd ((Place.continuesNumber_render _).2 quote member) (by decide)
      rw [iff_false_intro (quoted_notInfix plain), stringsOf]
      simp
  | .string bytes => by
      rw [← appendString_eq_render, isInfix_appendString_iff word, stringsOf]
      simp
  | .array elements => by
      rw [render_compact_array, List.cons_append, ← List.nil_append (leftBracket :: _),
        isInfix_append_cons_iff (word.absent (by decide) (by decide)),
        isInfix_append_cons_iff (word.absent (by decide) (by decide)),
        isInfix_intercalate_iff (by simp [quoted]) (word.absent (by decide) (by decide)),
        stringsOf, ← isInfix_elements_iff word elements]
      simp [quoted]
  | .object members => by
      rw [render_compact_object, List.cons_append, ← List.nil_append (leftBrace :: _),
        isInfix_append_cons_iff (word.absent (by decide) (by decide)),
        isInfix_append_cons_iff (word.absent (by decide) (by decide)),
        isInfix_intercalate_iff (by simp [quoted]) (word.absent (by decide) (by decide)),
        stringsOf, ← isInfix_members_iff word members]
      simp [quoted]

theorem isInfix_elements_iff {name : CString} (word : IsWord name) : ∀ elements : List Json,
    (∃ element ∈ elements, quoted name <:+: (compact element).render) ↔
      ∃ text ∈ stringsOfElements elements, Names name text
  | [] => by simp [stringsOfElements]
  | element :: later => by
      simp only [List.exists_mem_cons_iff, stringsOfElements, List.mem_append, or_and_right, exists_or,
        isInfix_compact_iff word element, isInfix_elements_iff word later]

theorem isInfix_members_iff {name : CString} (word : IsWord name) :
    ∀ members : List (CString × Json),
      (∃ member ∈ members, quoted name <:+: compactMemberText member) ↔
        ∃ text ∈ stringsOfMembers members, Names name text
  | [] => by simp [stringsOfMembers]
  | member :: later => by
      simp only [List.exists_mem_cons_iff, stringsOfMembers, List.mem_append, or_and_right, exists_or,
        isInfix_member_iff word member, isInfix_members_iff word later]

theorem isInfix_member_iff {name : CString} (word : IsWord name) : ∀ member : CString × Json,
    quoted name <:+: compactMemberText member ↔ ∃ text ∈ stringsOfMember member, Names name text
  | (key, value) => by
      have inKey : quoted name <:+: renderString (piecesOf key) ↔ Names name key := by
        rw [← isInfix_appendString_iff word, appendString_eq_render]
        rfl
      rw [compactMemberText, isInfix_append_cons_iff (word.absent (by decide) (by decide)),
        isInfix_compact_iff word value, inKey, stringsOfMember, List.exists_mem_cons_iff]

end

end TipJson

end Typio
