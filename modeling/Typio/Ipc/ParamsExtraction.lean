import Typio.Ipc.RequestTexts

/-!
# The slice of the parameters

The parameters of a request are handed on as a slice of its text.  Of an object the slice should
run from its opening brace to the matching one; the scanner takes a quote behind a backslash for a
part of the string even when the backslash is escaped itself, and then runs past the brace.
-/

namespace Typio

namespace Bus

open JsonText TipJson

/-- A request whose parameters are an object. -/
structure ParamsRequest extends RequestText where
  member : Member
  found : findMember (ascii "params") members = some member
  isObject : member.value.kind = .object

namespace ParamsRequest

variable (request : ParamsRequest)

/-- The object of the parameters, from its opening brace to the matching one. -/
def object : CString := request.member.value.render

/-- The parameters are found first and the scanner's braces balance at their end, or what is read
in their place is the same text. -/
def Readable : Prop :=
  (request.FirstIs (ascii "params") request.member ∧ Balanced request.object.tail) ∨
    request.ReadElsewhere (ascii "params") request.member fun value =>
      scanValue value = request.object

end ParamsRequest

/-- The slice of an object ends at the object's own brace exactly when the braces balance there. -/
theorem scanValue_object_iff {tree : JsonText} {tail : CString} (isObject : tree.kind = .object)
    (delimited : Delimited tail) :
    scanValue (tree.render ++ tail) = tree.render ↔ Balanced tree.render.tail := by
  obtain ⟨byte, body, renders, starts⟩ := tree.render_starts
  obtain rfl := leftBrace_of_kind byte (starts.trans (congrArg some isObject))
  have taken : scanValue (tree.render ++ tail) =
      leftBrace :: scanObject 1 none (body ++ tail) := by
    rw [renders]
    rfl
  rw [taken, renders, List.tail_cons]
  constructor
  · intro same
    have slice := List.tail_eq_of_cons_eq same
    obtain ⟨last, reached, ends⟩ := scan_scanObject (1, none) (body ++ tail)
    change scan (1, none) (scanObject 1 none (body ++ tail)) = _ at reached
    rw [slice] at reached
    rcases ends with all | rfl
    · have empty := List.append_cancel_left ((List.append_nil body).trans (slice.symm.trans all))
      exact absurd empty (delimited.ne_spaces [])
    · exact reached
  · intro balanced
    have stops : scanObject 0 none tail = [] := by cases tail <;> rfl
    have slice := scanObject_append balanced tail
    change scanObject 1 none (body ++ tail) = _ at slice
    rw [slice, stops, List.append_nil]

theorem extractParams_eq_found {text slice : CString} :
    extractParams text = .found slice ↔
      ∃ value, memberValue text (ascii "params") = some value ∧ scanValue value = slice := by
  rw [extractParams]
  cases searched : strstr text (quoted (ascii "params")) with
  | none => simp [memberValue, searched]
  | some found => cases memberValue text (ascii "params") <;> simp

/-- The slice of the parameters is the object they are exactly when it is found first and the
scanner's braces balance at its end, or the same text is read in its place. -/
theorem extractParams_iff_readable (request : ParamsRequest) :
    extractParams request.text = .found request.object ↔ request.Readable := by
  have delimited := RequestText.beyond_delimited request.found
  rw [extractParams_eq_found,
    RequestText.memberValue_cases request.found rfl fun value => scanValue value = request.object]
  refine or_congr (and_congr_right fun _ => ?_) Iff.rfl
  exact scanValue_object_iff request.isObject delimited

/-- The request `{"params":{"a":"\\"}}`. -/
def backslashRequest : ParamsRequest where
  before := []
  members := membersOf (ascii "params", objectOf [(ascii "a", .string [.escape .backslash])]) []
  after := []
  member :=
    { before := [], key := piecesOf (ascii "params"), beforeColon := [], afterColon := []
      value := objectOf [(ascii "a", .string [.escape .backslash])], after := [] }
  found := by rfl
  isObject := rfl

/-- The brace behind the parameters is taken as well. -/
theorem backslash_overrun :
    extractParams backslashRequest.text = .found (backslashRequest.object ++ [rightBrace]) ∧
      ¬extractParams backslashRequest.text = .found backslashRequest.object := by
  decide

end Bus

end Typio
