import Typio.Ipc.IpcBus
import Typio.Ipc.TipJsonScanners
import Typio.State.StatusBus

/-!
# Strings through the extractor

A member written by the builder is read back when the search finds it and its text needed no
escape.  The same holds for a configuration text on its way from the command line: the client
escapes it, and nothing on the daemon's side undoes the escapes.
-/

namespace Typio

namespace Bus

open JsonText TipJson Status

/-! ## Members written by the builder -/

/-- The first quoted occurrence of the name is the member's own and its text needs no escape, or it
stands elsewhere and is followed by a literal which reads like the text. -/
def MemberReadable (before key text after : CString) : Prop :=
  key.length ≤ 100 ∧
    (FirstAt (withMember before key text after) (quoted key) before
        (appendKey key ++ (appendString text ++ after)) ∧ (∀ byte ∈ text, IsPlain byte) ∨
      ∃ elsewhere rest, elsewhere ≠ before ∧
        FirstAt (withMember before key text after) (quoted key) elsewhere (quoted key ++ rest) ∧
          ReadsString rest text)

theorem extractString_withMember_iff (before key text after : CString) :
    extractString (withMember before key text after) key = some text ↔
      MemberReadable before key text after := by
  constructor
  · intro read
    obtain ⟨short, start, rest, first, reads⟩ := extractString_eq_some.mp read
    refine ⟨short, ?_⟩
    by_cases here : start = before
    · subst here
      have same := List.append_cancel_left (first.splits.symm.trans (show
        withMember start key text after = start ++ (appendKey key ++ (appendString text ++ after))
          from rfl))
      rw [same] at first
      exact .inl ⟨first, ((extractString_member first).mp read).2⟩
    · exact .inr ⟨start, rest, here, first, reads⟩
  · rintro ⟨short, ⟨first, plain⟩ | ⟨elsewhere, rest, -, first, reads⟩⟩
    · exact (extractString_member first).mpr ⟨short, plain⟩
    · exact extractString_eq_some.mpr ⟨short, elsewhere, rest, first, reads⟩

/-! ## The client's request -/

/-- What `serde_json` writes: compact texts, with the members in the order of the map and the
escapes that the builder uses too. -/
structure SerdeJson where
  toVec : Json → CString
  toVec_string (text : CString) : toVec (.string text) = appendString text
  toVec_int (value : Int) : toVec (.number value 0) = appendInt value
  toVec_object (members : List (CString × Json)) : toVec (.object members) =
    leftBrace :: [comma].intercalate
      (members.map fun (key, value) => appendKey key ++ toVec value) ++ [rightBrace]

/-- The request of `call`; a map holds its members in the order of their keys. -/
def callRequest (serde : SerdeJson) (id : Int) (method : String) (params : Json) : CString :=
  serde.toVec (.object [(ascii "id", .number id 0), (ascii "jsonrpc", .string (ascii "2.0")),
    (ascii "method", .string (ascii method)), (ascii "params", params)])

/-- `config set TEXT`. -/
def configSet (serde : SerdeJson) (id : Int) (text : CString) : CString :=
  callRequest serde id "SetConfigText" (.object [(ascii "content", .string text)])

/-- The text reaches the configuration parser as it was sent, on every instance. -/
def ReachesParser (serde : SerdeJson) (id : Int) (text : CString) : Prop :=
  ∀ (σ : Type) (inst : Instance σ) (state : σ),
    (handleRequest inst (configSet serde id text) state).1 = (inst.setConfigText text state).1

theorem configSet_eq (serde : SerdeJson) (id : Int) (text : CString) :
    configSet serde id text = ascii "\x7b\"id\":" ++ (appendInt id ++
      (ascii ",\"jsonrpc\":\"2.0\",\"method\":\"SetConfigText\",\"params\":\x7b\"content\":\"" ++
        (escaped text ++ quote :: [rightBrace, rightBrace]))) := by
  simp only [configSet, callRequest, serde.toVec_object, serde.toVec_string, serde.toVec_int,
    List.map_cons, List.map_nil, List.intercalate, List.intersperse, List.flatten_cons,
    List.flatten_nil, List.append_nil, List.append_assoc, appendString_eq text,
    List.cons_append, List.nil_append]
  rfl

/-! ## The way of the text -/

/-- A search for a quoted name passes over bytes without quotes. -/
theorem strstr_append_of_no_quote {before rest : CString} (key : CString)
    (plain : quote ∉ before) :
    strstr (before ++ rest) (quoted key) = strstr rest (quoted key) := by
  induction before with
  | nil => rfl
  | cons byte before ih =>
      simp only [List.mem_cons, not_or] at plain
      rw [List.cons_append, strstr, if_neg, ih plain.2]
      rw [List.isPrefixOf_iff_prefix, quoted, List.cons_append, List.cons_prefix_cons]
      exact fun same => plain.1 same.1

theorem quote_notMem_appendInt (value : Int) : quote ∉ appendInt value := by
  have notQuote (digit : Digit) : digit.byte ≠ quote := by revert digit; decide
  simp only [appendInt, NumberText.ofInt, NumberText.render, NumberText.renderFraction,
    NumberText.renderExponent, renderDigits, List.append_nil, List.mem_append, List.mem_map, not_or]
  constructor
  · by_cases negative : value < 0 <;> simp [negative, show quote ≠ 45 by decide]
  · rintro ⟨digit, -, same⟩
    exact notQuote digit same

theorem method_configSet (serde : SerdeJson) (id : Int) (text : CString) :
    extractString (configSet serde id text) (ascii "method") = some (ascii "SetConfigText") := by
  have found : strstr (configSet serde id text) (quoted (ascii "method")) = some
      (ascii "\"method\":\"SetConfigText\",\"params\":\x7b\"content\":\"" ++
        (escaped text ++ quote :: [rightBrace, rightBrace])) := by
    rw [configSet_eq]
    change strstr (appendInt id ++ _) _ = _
    rw [strstr_append_of_no_quote _ (quote_notMem_appendInt id)]
    rfl
  rw [extractString, memberValue, found]
  rfl

theorem params_configSet (serde : SerdeJson) (id : Int) (text : CString) :
    requestParams (configSet serde id text) = some (leftBrace ::
      (quoted (ascii "content") ++ colon :: quote ::
        scanObject 1 (some quote) (escaped text ++ quote :: [rightBrace, rightBrace]))) := by
  have found : strstr (configSet serde id text) (quoted (ascii "params")) = some
      (ascii "\"params\":\x7b\"content\":\"" ++
        (escaped text ++ quote :: [rightBrace, rightBrace])) := by
    rw [configSet_eq]
    change strstr (appendInt id ++ _) _ = _
    rw [strstr_append_of_no_quote _ (quote_notMem_appendInt id)]
    rfl
  rw [requestParams, extractParams, memberValue, found]
  rfl

theorem scanObject_plain {text rest : CString} {last : UInt8} (plain : ∀ byte ∈ text, IsPlain byte)
    (visible : last ≠ backslash) (depth : Nat) :
    scanObject depth (some last) (text ++ quote :: rest) =
      text ++ quote :: scanObject depth none rest := by
  induction text generalizing last with
  | nil => simp [scanObject, visible]
  | cons byte text ih =>
      obtain ⟨-, notQuote, notBackslash⟩ := plain byte (by simp)
      rw [List.cons_append]
      simp only [scanObject, notQuote, false_and, ↓reduceIte]
      rw [ih (fun other member => plain other (by simp [member])) notBackslash, List.cons_append]

/-- What the extractor makes of the content the client sent. -/
theorem content_configSet (serde : SerdeJson) (id : Int) (text : CString) :
    param (requestParams (configSet serde id text)) "content" = some text ↔
      ∀ byte ∈ text, IsPlain byte := by
  rw [param, params_configSet, Option.bind_some, extractString_firstMember (by decide)]
  constructor
  · intro read
    obtain ⟨literal, rest, slice⟩ := scanString_eq_some.mp read
    obtain ⟨tail, whole⟩ := scanObject_prefix 1 (some quote)
      (escaped text ++ quote :: [rightBrace, rightBrace])
    rw [slice, List.append_assoc, List.cons_append] at whole
    have sent := scanString_eq_some.mpr ⟨literal_escaped text, [rightBrace, rightBrace], rfl⟩
    rw [← whole, scanString_eq_some.mpr ⟨literal, rest ++ tail, rfl⟩, Option.some.injEq] at sent
    exact escaped_eq_self_iff.mp sent.symm
  · intro plain
    rw [escaped_of_plain plain, scanObject_plain plain (by decide)]
    have literal := literal_escaped text
    rw [escaped_of_plain plain] at literal
    exact scanString_eq_some.mpr ⟨literal, _, rfl⟩

theorem handleRequest_configSet {σ : Type} (inst : Instance σ) (serde : SerdeJson) (id : Int)
    (text : CString) (state : σ) :
    (handleRequest inst (configSet serde id text) state).1 =
      (handleSetConfigText inst (requestParams (configSet serde id text))
        ((extractId (configSet serde id text)).getD 0) state).1 := by
  rw [handleRequest, method_configSet]
  rfl

theorem reachesParser_iff_plain (serde : SerdeJson) (id : Int) (text : CString) :
    ReachesParser serde id text ↔ ∀ byte ∈ text, IsPlain byte := by
  rw [← content_configSet serde id text]
  constructor
  · intro reaches
    have recorded := reaches _ recorder []
    rw [handleRequest_configSet, handleSetConfigText] at recorded
    split at recorded
    · simp [recorder] at recorded
    next sent found =>
      obtain rfl : sent = text := by simpa [reply, recorder] using recorded
      exact found
  · intro found σ inst state
    rw [handleRequest_configSet, handleSetConfigText, found]
    simp only [reply]
    split <;> rfl

end Bus

end Typio
