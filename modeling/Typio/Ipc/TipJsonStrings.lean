import Mathlib.Data.List.TakeWhile
import Typio.JsonCompact
import Typio.Ipc.TipJson

/-!
# Strings written and read back

The scanner stops at the first quote which no backslash hides, and returns the bytes before it as
they stand.  It never undoes an escape, so that a member is read back as it was written only when
its text needed none, and only when the search finds the member at all.
-/

namespace Typio

namespace TipJson

open JsonText

/-! ## The scanner -/

/-- The state of the scanner after bytes none of which closes the string; none if one does. -/
def scanned (escaped : Bool) : CString → Option Bool
  | [] => some escaped
  | byte :: rest =>
      if byte = quote && !escaped then none
      else scanned (byte = backslash && !escaped) rest

/-- The raw text of a string literal: no quote closes it early and no backslash hides its end. -/
def Literal (raw : CString) : Prop := scanned false raw = some false

instance (raw : CString) : Decidable (Literal raw) := by
  unfold Literal
  infer_instance

theorem scanString_eq_some {content raw : CString} {escaped : Bool} :
    scanString escaped content = some raw ↔
      scanned escaped raw = some false ∧ ∃ rest, content = raw ++ quote :: rest := by
  induction content generalizing escaped raw with
  | nil => simp [scanString]
  | cons byte content ih =>
      rw [scanString]
      split
      · next closes =>
          simp only [Bool.and_eq_true, decide_eq_true_eq, Bool.not_eq_eq_eq_not, Bool.not_true]
            at closes
          obtain ⟨rfl, rfl⟩ := closes
          constructor
          · intro found
            obtain rfl := Option.some.inj found
            exact ⟨rfl, content, rfl⟩
          · rintro ⟨literal, rest, parts⟩
            cases raw with
            | nil => rfl
            | cons first raw =>
                obtain ⟨rfl, -⟩ := List.cons.inj parts
                simp [scanned] at literal
      · next continues =>
          rw [Option.map_eq_some_iff]
          constructor
          · rintro ⟨raw, found, rfl⟩
            obtain ⟨literal, rest, rfl⟩ := ih.mp found
            exact ⟨by rw [scanned, if_neg continues, literal], rest, rfl⟩
          · rintro ⟨literal, rest, parts⟩
            cases raw with
            | nil =>
                obtain ⟨rfl, -⟩ := List.cons.inj parts
                simp [scanned] at literal
                simp [literal] at continues
            | cons first raw =>
                obtain ⟨rfl, rfl⟩ := List.cons.inj parts
                rw [scanned, if_neg continues] at literal
                exact ⟨raw, ih.mpr ⟨literal, rest, rfl⟩, rfl⟩

theorem scanned_append (escaped : Bool) (first second : CString) :
    scanned escaped (first ++ second) =
      (scanned escaped first).bind fun state => scanned state second := by
  induction first generalizing escaped with
  | nil => rfl
  | cons byte first ih =>
      rw [List.cons_append, scanned, scanned]
      split
      · rfl
      · exact ih _

/-! ## White space -/

theorem skipWs_eq_self {text : CString} (solid : ∀ byte ∈ text.head?, isspace byte = false) :
    skipWs text = text := by
  cases text with
  | nil => rfl
  | cons byte text => exact List.dropWhile_cons_of_neg (by simpa using solid byte rfl)

theorem skipWs_append {spaces rest : CString} (white : ∀ byte ∈ spaces, isspace byte)
    (solid : ∀ byte ∈ rest.head?, isspace byte = false) : skipWs (spaces ++ rest) = rest := by
  rw [skipWs, List.dropWhile_append_of_pos white]
  exact skipWs_eq_self solid

theorem skipWs_eq_cons {text rest : CString} {byte : UInt8} :
    skipWs text = byte :: rest ↔
      ∃ spaces, text = spaces ++ byte :: rest ∧ (∀ white ∈ spaces, isspace white) ∧
        isspace byte = false := by
  constructor
  · intro skipped
    refine ⟨text.takeWhile isspace, ?_, fun white => List.mem_takeWhile_imp, ?_⟩
    · rw [← skipped]
      exact (List.takeWhile_append_dropWhile ..).symm
    · have head := List.head?_dropWhile_not isspace text
      rw [← skipWs, skipped] at head
      simpa using head
  · rintro ⟨spaces, rfl, white, solid⟩
    exact skipWs_append white (by simpa using solid)

/-! ## Members -/

/-- After a name: white space, a colon, white space and the literal. -/
def ReadsString (after raw : CString) : Prop :=
  ∃ spaces spaces' rest, after = spaces ++ colon :: (spaces' ++ quote :: (raw ++ quote :: rest)) ∧
    (∀ white ∈ spaces, isspace white) ∧ (∀ white ∈ spaces', isspace white) ∧ Literal raw

theorem memberValue_eq_some {json key value : CString} :
    memberValue json key = some value ↔
      ∃ before spaces after, FirstAt json (quoted key) before (quoted key ++
        (spaces ++ colon :: after)) ∧ (∀ white ∈ spaces, isspace white) ∧ value = skipWs after := by
  unfold memberValue
  cases found : strstr json (quoted key) with
  | none =>
      simp only [reduceCtorEq, false_iff]
      rintro ⟨before, spaces, after, first, -⟩
      rw [strstr_eq_some.mpr ⟨before, first⟩] at found
      simp at found
  | some text =>
      obtain ⟨before, first⟩ := strstr_eq_some.mp found
      obtain ⟨after, rfl⟩ := first.here
      simp only [List.drop_left]
      constructor
      · intro read
        cases skipped : skipWs after with
        | nil => simp [skipped] at read
        | cons byte rest =>
            obtain ⟨spaces, rfl, white, -⟩ := skipWs_eq_cons.mp skipped
            rw [skipped] at read
            dsimp only at read
            split at read
            · next isColon =>
                subst isColon
                exact ⟨before, spaces, rest, first, white, (Option.some.inj read).symm⟩
            · simp at read
      · rintro ⟨before', spaces, rest, first', white, rfl⟩
        obtain ⟨-, same⟩ := first.unique first'
        rw [List.append_cancel_left same,
          skipWs_eq_cons.mpr ⟨spaces, rfl, white, by decide⟩]
        simp

/-- The scanner finds what stands after the first quoted occurrence of the name. -/
theorem extractString_eq_some {json key raw : CString} :
    extractString json key = some raw ↔ key.length ≤ 100 ∧
      ∃ before after, FirstAt json (quoted key) before (quoted key ++ after) ∧
        ReadsString after raw := by
  unfold extractString
  split
  · next long => simp [Nat.not_le.mpr long]
  next short =>
    rw [and_iff_right (Nat.le_of_not_lt short)]
    constructor
    · intro read
      cases found : memberValue json key with
      | none => simp [found] at read
      | some value =>
          obtain ⟨before, spaces, after, first, white, rfl⟩ := memberValue_eq_some.mp found
          cases skipped : skipWs after with
          | nil => simp [found, skipped] at read
          | cons byte content =>
              obtain ⟨spaces', rfl, white', -⟩ := skipWs_eq_cons.mp skipped
              simp only [found, skipped] at read
              split at read
              · next isQuote =>
                  subst isQuote
                  obtain ⟨literal, rest, rfl⟩ := scanString_eq_some.mp read
                  exact ⟨before, _, first, spaces, spaces', rest, rfl, white, white', literal⟩
              · simp at read
    · rintro ⟨before, after, first, spaces, spaces', rest, rfl, white, white', literal⟩
      rw [memberValue_eq_some.mpr ⟨before, spaces, _, first, white, rfl⟩,
        skipWs_append white' (by simp; decide)]
      exact scanString_eq_some.mpr ⟨literal, rest, rfl⟩

/-! ## Escapes -/

/-- The content of a string as the builder writes it. -/
def escaped (text : CString) : CString := text.flatMap escapeByte

theorem appendString_eq (text : CString) : appendString text = quote :: (escaped text ++ [quote]) :=
  rfl

theorem appendString_append (text after : CString) :
    appendString text ++ after = quote :: (escaped text ++ quote :: after) := by
  simp [appendString_eq]

@[simp] theorem escaped_nil : escaped [] = [] := rfl

@[simp] theorem escaped_cons (byte : UInt8) (text : CString) :
    escaped (byte :: text) = escapeByte byte ++ escaped text := rfl

theorem escapeByte_of_plain (byte : UInt8) (plain : IsPlain byte) :
    escapeByte byte = [byte] := by
  obtain ⟨shown, notQuote, notBackslash⟩ := plain
  unfold escapeByte
  split
  · exact absurd rfl notQuote
  · exact absurd rfl notBackslash
  all_goals exact if_neg (Nat.not_lt.mpr shown)

theorem scanned_escapeByte : ∀ byte, scanned false (escapeByte byte) = some false := by
  refine byte_cases (by decide) (by decide) (by decide) fun byte plain => ?_
  rw [escapeByte_of_plain byte plain]
  simp [scanned, plain.2]

theorem escapeByte_length : ∀ byte, 1 ≤ (escapeByte byte).length ∧
    ((escapeByte byte).length = 1 → IsPlain byte) := by
  refine byte_cases (by decide) (by decide) (by decide) fun byte plain => ?_
  rw [escapeByte_of_plain byte plain]
  exact ⟨Nat.le_refl 1, fun _ => plain⟩

/-- A byte that does not stand for itself is written with a backslash in front. -/
theorem escapeByte_of_not_plain : ∀ byte, ¬ IsPlain byte →
    escapeByte byte = backslash :: (escapeByte byte).tail :=
  byte_cases (by decide) (by decide) (by decide) fun _ plain notPlain => absurd plain notPlain

theorem literal_escaped (text : CString) : Literal (escaped text) := by
  induction text with
  | nil => rfl
  | cons byte text ih =>
      rw [Literal, escaped_cons, scanned_append, scanned_escapeByte]
      exact ih

theorem escaped_of_plain {text : CString} (plain : ∀ byte ∈ text, IsPlain byte) :
    escaped text = text := by
  induction text with
  | nil => rfl
  | cons byte text ih =>
      rw [escaped_cons, escapeByte_of_plain byte (plain byte (by simp)),
        ih fun other member => plain other (by simp [member])]
      rfl

theorem escaped_length (text : CString) : text.length ≤ (escaped text).length ∧
    ((escaped text).length = text.length → ∀ byte ∈ text, IsPlain byte) := by
  induction text with
  | nil => simp
  | cons byte text ih =>
      obtain ⟨one, plain⟩ := escapeByte_length byte
      simp only [escaped_cons, List.length_append, List.length_cons, List.mem_cons,
        forall_eq_or_imp]
      exact ⟨by omega, fun same => ⟨plain (by omega), ih.2 (by omega)⟩⟩

/-- A text is written as it is exactly when each of its bytes stands for itself. -/
theorem escaped_eq_self_iff {text : CString} :
    escaped text = text ↔ ∀ byte ∈ text, IsPlain byte :=
  ⟨fun same => (escaped_length text).2 (by rw [same]), escaped_of_plain⟩

/-! ## The compact text -/

theorem escapeByte_eq_render : ∀ byte, escapeByte byte = (Piece.ofByte byte).render := by
  refine byte_cases (by decide) (by decide) (by decide) fun byte plain => ?_
  rw [escapeByte_of_plain byte plain, Piece.ofByte_of_plain plain]
  rfl

theorem appendString_eq_render (text : CString) :
    appendString text = (compact (.string text)).render := by
  have pieces : escaped text = renderPieces (piecesOf text) := by
    induction text with
    | nil => rfl
    | cons byte text ih => rw [escaped_cons, escapeByte_eq_render, ih]; rfl
  rw [appendString_eq, pieces]
  rfl

theorem appendKey_eq_render (key : CString) :
    appendKey key = renderString (piecesOf key) ++ [colon] := by
  rw [appendKey, appendString_eq_render]
  rfl

theorem appendInt_eq_render (value : Int) :
    appendInt value = (compact (.number value 0)).render := rfl

theorem appendBool_eq_render (value : Bool) :
    appendBool value = (compact (.bool value)).render := by
  cases value <;> rfl

/-! ## Names in their place -/

theorem ne_backslashes_escaped (key rest other : CString) (count : Nat) :
    key ++ quote :: rest ≠
      List.replicate (count + 1) backslash ++ (escaped key ++ quote :: other) := by
  induction key generalizing count with
  | nil => simp [List.replicate_succ, show quote ≠ backslash by decide]
  | cons byte key ih =>
      intro same
      rw [List.replicate_succ, List.cons_append, List.cons_append] at same
      obtain ⟨rfl, later⟩ := List.cons.inj same
      refine ih (count + 1) ?_
      rw [later, escaped_cons, show escapeByte backslash = [backslash, backslash] from rfl,
        show count + 1 + 1 = count + 2 from rfl, List.replicate_add]
      simp

/-- A name that is found where it was written needed no escape. -/
theorem plain_of_quoted {key rest other : CString}
    (same : key ++ quote :: rest = escaped key ++ quote :: other) :
    ∀ byte ∈ key, IsPlain byte := by
  induction key with
  | nil => simp
  | cons byte key ih =>
      by_cases plain : IsPlain byte
      · rw [escaped_cons, escapeByte_of_plain byte plain] at same
        simpa [plain] using ih (List.tail_eq_of_cons_eq same)
      · rw [escaped_cons, escapeByte_of_not_plain byte plain] at same
        obtain ⟨rfl, same⟩ := List.cons.inj same
        exact absurd same (ne_backslashes_escaped key rest other 0)

/-! ## The round trip of a member -/

theorem white_unique {spaces spaces' rest rest' : CString} {byte byte' : UInt8}
    (white : ∀ byte ∈ spaces, isspace byte) (white' : ∀ byte ∈ spaces', isspace byte)
    (solid : isspace byte = false) (solid' : isspace byte' = false)
    (same : spaces ++ byte :: rest = spaces' ++ byte' :: rest') :
    byte :: rest = byte' :: rest' := by
  have left := @skipWs_append spaces (byte :: rest) white (by simpa using solid)
  have right := @skipWs_append spaces' (byte' :: rest') white' (by simpa using solid')
  rw [← left, same, right]

/-- The scanner reads the escaped text of a member wherever the search finds the member. -/
theorem readsString_appendString {text after raw : CString} :
    ReadsString (colon :: (appendString text ++ after)) raw ↔ raw = escaped text := by
  constructor
  · rintro ⟨spaces, spaces', rest, same, white, white', literal⟩
    rw [appendString_append] at same
    have atColon := @white_unique [] _ _ _ _ _ (by simp) white (by decide) (by decide) same
    have atQuote := @white_unique [] _ _ _ _ _ (by simp) white' (by decide) (by decide)
      (List.tail_eq_of_cons_eq atColon)
    have content : escaped text ++ quote :: after = raw ++ quote :: rest :=
      List.tail_eq_of_cons_eq atQuote
    have first := scanString_eq_some.mpr ⟨literal, rest, rfl⟩
    have second := scanString_eq_some.mpr ⟨literal_escaped text, after, rfl⟩
    rw [content, first] at second
    exact Option.some.inj second
  · rintro rfl
    exact ⟨[], [], after, by simp [appendString_eq], by simp, by simp, literal_escaped text⟩

/-- The object around a member: what stands before its name and after its value. -/
def withMember (before key text after : CString) : CString :=
  before ++ (appendKey key ++ (appendString text ++ after))

/-- A member is read back exactly when the text needs no escape, provided the search finds it. -/
theorem extractString_member {before key text after : CString}
    (first : FirstAt (withMember before key text after) (quoted key) before
      (appendKey key ++ (appendString text ++ after))) :
    extractString (withMember before key text after) key = some text ↔
      key.length ≤ 100 ∧ ∀ byte ∈ text, IsPlain byte := by
  obtain ⟨tail, here⟩ := first.here
  have plain := @plain_of_quoted key tail (colon :: (appendString text ++ after)) (by
    simpa [quoted, appendKey, appendString_eq] using here)
  have key_eq : appendKey key = quoted key ++ [colon] := by
    rw [appendKey, appendString_eq, escaped_of_plain plain, quoted]
    rfl
  rw [extractString_eq_some, ← escaped_eq_self_iff]
  refine and_congr_right fun _ => ?_
  rw [key_eq, List.append_assoc, List.singleton_append] at first
  constructor
  · rintro ⟨before', after', first', reads⟩
    obtain ⟨-, same⟩ := first.unique first'
    rw [← List.append_cancel_left same, readsString_appendString] at reads
    exact reads.symm
  · intro same
    exact ⟨before, _, first, readsString_appendString.mpr same.symm⟩

end TipJson

end Typio
