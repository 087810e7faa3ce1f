import Typio.Ipc.IpcBus
import Typio.Ipc.RequestTexts

/-!
# Requests and what the bus reads of them

A request is an object of JSON, given by its syntax tree.  The bus looks for the quoted names of its
members anywhere in the text, so that a member of the same name inside the parameters is taken when
it comes first.
-/

namespace Typio

namespace Bus

open JsonText TipJson

/-! ## Requests -/

/-- A well-formed request, with white space around it, in which no two members have one name. -/
structure Request where
  before : List Space
  members : MembersText
  after : List Space
  distinct : ((memberValues members).map Prod.fst).Nodup
  version : (Json.object (memberValues members)).get? (ascii "jsonrpc") =
    some (.string (ascii "2.0"))
  method : ∃ name, (Json.object (memberValues members)).get? (ascii "method") = some (.string name)

namespace Request

variable (request : Request)

def text : CString :=
  renderSpaces request.before ++
    ((JsonText.object request.members).render ++ renderSpaces request.after)

def json : Json := .object (memberValues request.members)

/-- What stands in front of a member's name. -/
def upTo (member : Member) : CString := renderSpaces request.before ++ leftBrace :: member.before

/-- What follows a member's value. -/
def beyond (member : Member) : CString :=
  member.after ++ rightBrace :: renderSpaces request.after

/-- The first quoted occurrence of the name is the member's own. -/
def FirstIs (name : CString) (member : Member) : Prop :=
  ∃ after, FirstAt request.text (quoted name) (request.upTo member) after

/-- The first quoted occurrence of the name stands elsewhere, and what follows it, a colon and
white space is read in that way. -/
def ReadElsewhere (name : CString) (member : Member) (reads : CString → Prop) : Prop :=
  ∃ elsewhere spaces after, elsewhere ≠ request.upTo member ∧
    FirstAt request.text (quoted name) elsewhere (quoted name ++ (spaces ++ colon :: after)) ∧
      (∀ white ∈ spaces, isspace white) ∧ reads (skipWs after)

/-- What follows the first quoted occurrence of the name, a colon and white space. -/
def Follows (name value : CString) : Prop :=
  ∃ before spaces after,
    FirstAt request.text (quoted name) before (quoted name ++ (spaces ++ colon :: after)) ∧
      (∀ white ∈ spaces, isspace white) ∧ value = skipWs after

end Request

/-! ## What is to be read -/

def IdAgrees (request : Request) : Prop :=
  match request.json.get? (ascii "id") with
  | none => extractId request.text = none
  | some id => ∃ n, IsInteger id n ∧ extractId request.text = some n

def MethodAgrees (request : Request) : Prop :=
  extractString request.text (ascii "method") =
    (request.json.get? (ascii "method")).bind Json.asString?

def ParamsAgree (request : Request) : Prop :=
  match request.json.get? (ascii "params") with
  | none => requestParams request.text = none
  | some params => ∃ slice, requestParams request.text = some slice ∧ Denotes slice params

/-- The bus reads the values of the members. -/
def Decodes (request : Request) : Prop :=
  IdAgrees request ∧ MethodAgrees request ∧ ParamsAgree request

/-! ## When it is read -/

/-- The number is written out, fits an `int`, and is found first. -/
def IdReadable (request : Request) : Prop :=
  match findMember (ascii "id") request.members with
  | none => ∀ value, ¬ request.Follows (ascii "id") value
  | some member => ∃ literal n, member.value = .number literal ∧ IsInteger literal.value n ∧
      ((request.FirstIs (ascii "id") member ∧ wholeValue literal = n ∧ FitsInt n) ∨
        request.ReadElsewhere (ascii "id") member fun value => (strtol value).bmod (2 ^ 32) = n)

/-- The name of the method needs no escape, and is found first. -/
def MethodReadable (request : Request) : Prop :=
  ∃ member pieces, findMember (ascii "method") request.members = some member ∧
    member.value = .string pieces ∧
      ((request.FirstIs (ascii "method") member ∧ renderPieces pieces = decodePieces pieces) ∨
        request.ReadElsewhere (ascii "method") member fun value => ∃ rest,
          value = quote :: (decodePieces pieces ++ quote :: rest) ∧ Literal (decodePieces pieces))

/-- The scanner stops at the end of the value. -/
def Enclosed (value : JsonText) : Prop :=
  if value.kind = .object then Balanced value.render.tail
  else ∀ byte ∈ value.render, byte ≠ comma ∧ byte ≠ rightBrace

def ParamsReadable (request : Request) : Prop :=
  match findMember (ascii "params") request.members with
  | none => ∀ value, request.Follows (ascii "params") value →
      value = [] ∨ value.head? = some comma ∨ value.head? = some rightBrace
  | some member =>
      (request.FirstIs (ascii "params") member ∧ Enclosed member.value) ∨
        request.ReadElsewhere (ascii "params") member fun value =>
          Denotes (scanValue value) member.value.value

/-! ## The place of a member -/

namespace Request

variable (request : Request)

/-- The request as a text of an object. -/
def toText : RequestText := ⟨request.before, request.members, request.after⟩

end Request

section Place

variable {request : Request} {name : CString} {member : Member}

theorem beyond_delimited (found : findMember name request.members = some member) :
    Delimited (request.beyond member) :=
  @RequestText.beyond_delimited request.toText name member found

/-- What is read of a member stands at its own place or elsewhere. -/
theorem memberValue_cases (found : findMember name request.members = some member)
    (literal : Literal name) (reads : CString → Prop) :
    (∃ value, memberValue request.text name = some value ∧ reads value) ↔
      (request.FirstIs name member ∧ reads (member.value.render ++ request.beyond member)) ∨
        request.ReadElsewhere name member reads :=
  @RequestText.memberValue_cases request.toText name member found literal reads

theorem get?_eq (name : CString) :
    request.json.get? name =
      (findMember name request.members).map fun found => found.value.value :=
  get?_eq_findMember request.distinct name

end Place

/-! ## The id -/

theorem extractId_eq_some {text : CString} {n : Int} :
    extractId text = some n ↔ ∃ value, memberValue text (ascii "id") = some value ∧
      (strtol value).bmod (2 ^ 32) = n := Option.map_eq_some_iff

theorem number_of_isInteger {tree : JsonText} {n : Int} (is : IsInteger tree.value n) :
    ∃ literal, tree = .number literal := by
  obtain ⟨mantissa, exponent, same, -⟩ := is
  cases tree <;> simp [value] at same
  exact ⟨_, rfl⟩

theorem idAgrees_iff (request : Request) : IdAgrees request ↔ IdReadable request := by
  rw [IdAgrees, IdReadable, get?_eq]
  cases found : findMember (ascii "id") request.members with
  | none =>
      simp only [Option.map_none, extractId, Option.map_eq_none_iff]
      rw [Option.eq_none_iff_forall_ne_some]
      exact forall_congr' fun value => not_congr memberValue_eq_some
  | some member =>
      simp only [Option.map_some, extractId_eq_some]
      constructor
      · rintro ⟨n, is, read⟩
        obtain ⟨literal, shape⟩ := number_of_isInteger is
        rw [shape] at is
        refine ⟨literal, n, shape, is, ?_⟩
        obtain ⟨first, narrowed⟩ | elsewhere := (memberValue_cases found rfl _).mp read
        · rw [shape, render, strtol_render literal (beyond_delimited found).ends.noDigit] at narrowed
          exact .inl ⟨first, (narrowed_eq_iff is).mp narrowed⟩
        · exact .inr elsewhere
      · rintro ⟨literal, n, shape, is, read⟩
        refine ⟨n, by rw [shape]; exact is, (memberValue_cases found rfl _).mpr ?_⟩
        obtain ⟨first, written⟩ | elsewhere := read
        · refine .inl ⟨first, ?_⟩
          rw [shape, render, strtol_render literal (beyond_delimited found).ends.noDigit]
          exact (narrowed_eq_iff is).mpr written
        · exact .inr elsewhere

/-! ## The method -/

theorem extractString_method {text raw : CString} :
    extractString text (ascii "method") = some raw ↔
      ∃ value, memberValue text (ascii "method") = some value ∧
        ∃ rest, value = quote :: (raw ++ quote :: rest) ∧ Literal raw := by
  rw [extractString, if_neg (by decide)]
  constructor
  · intro read
    cases found : memberValue text (ascii "method") with
    | none => simp [found] at read
    | some value =>
        cases value with
        | nil => simp [found] at read
        | cons byte content =>
            simp only [found] at read
            split at read
            · next isQuote =>
                obtain ⟨literal, rest, rfl⟩ := scanString_eq_some.mp read
                exact ⟨_, rfl, rest, by rw [isQuote], literal⟩
            · simp at read
  · rintro ⟨value, found, rest, rfl, literal⟩
    rw [found]
    exact scanString_eq_some.mpr ⟨literal, rest, rfl⟩

theorem string_of_value {tree : JsonText} {bytes : CString} (is : tree.value = .string bytes) :
    ∃ pieces, tree = .string pieces ∧ decodePieces pieces = bytes := by
  cases tree <;> simp [value, NumberText.value] at is
  exact ⟨_, rfl, is⟩

/-- A string at its own place is read as it is spelled. -/
theorem spelled_iff {pieces : List Piece} {raw tail : CString} :
    (∃ rest, (JsonText.string pieces).render ++ tail = quote :: (raw ++ quote :: rest) ∧
      Literal raw) ↔ renderPieces pieces = raw := by
  have spelled : (JsonText.string pieces).render ++ tail =
      quote :: (renderPieces pieces ++ quote :: tail) := by
    simp [render, renderString]
  rw [spelled]
  constructor
  · rintro ⟨rest, same, literal⟩
    exact literal_unique (literal_renderPieces pieces) literal (List.tail_eq_of_cons_eq same)
  · rintro rfl
    exact ⟨tail, rfl, literal_renderPieces pieces⟩

theorem methodAgrees_iff (request : Request) : MethodAgrees request ↔ MethodReadable request := by
  obtain ⟨name, named⟩ := request.method
  have named : request.json.get? (ascii "method") = some (.string name) := named
  obtain ⟨member, found, is⟩ := Option.map_eq_some_iff.mp ((get?_eq _).symm.trans named)
  obtain ⟨pieces, shape, rfl⟩ := string_of_value is
  have agrees : MethodAgrees request ↔
      extractString request.text (ascii "method") = some (decodePieces pieces) := by
    rw [MethodAgrees, named]
    rfl
  rw [agrees, extractString_method, memberValue_cases found rfl, shape, spelled_iff]
  constructor
  · exact fun read => ⟨member, pieces, found, shape, read⟩
  · rintro ⟨other, spelling, found', shape', read⟩
    obtain rfl := Option.some.inj (found.symm.trans found')
    obtain rfl := JsonText.string.inj (shape.symm.trans shape')
    exact read

/-! ## The parameters -/

theorem requestParams_eq_some {text slice : CString} :
    requestParams text = some slice ↔ ∃ value, memberValue text (ascii "params") = some value ∧
      scanValue value = slice ∧ slice ≠ [] := by
  rw [requestParams, extractParams]
  cases searched : strstr text (quoted (ascii "params")) with
  | none => simp [memberValue, searched]
  | some found =>
      cases memberValue text (ascii "params") with
      | none => simp
      | some value =>
          simp only [Option.isNone_some, Bool.false_eq_true, if_false]
          cases scanned : scanValue value with
          | nil => simp [scanned, eq_comm]
          | cons byte rest =>
              simp only [Option.some.injEq, exists_eq_left', scanned]
              constructor
              · rintro rfl
                exact ⟨rfl, by simp⟩
              · exact And.left

theorem denotes_nonempty {text : CString} {json : Json} (denotes : Denotes text json) :
    text ≠ [] := by
  obtain ⟨before, tree, after, rfl, -⟩ := denotes
  obtain ⟨byte, tail, renders, -⟩ := tree.render_starts
  simp [renders]

theorem scanValue_eq_nil {value : CString} :
    scanValue value = [] ↔
      value = [] ∨ value.head? = some comma ∨ value.head? = some rightBrace := by
  cases value with
  | nil => simp [scanValue]
  | cons byte rest =>
      rw [scanValue]
      split
      · next opens =>
          subst opens
          simp [show leftBrace ≠ comma by decide, show leftBrace ≠ rightBrace by decide]
      · simp [List.takeWhile_cons, or_iff_not_imp_left]

theorem denotes_enclosed_iff {tree : JsonText} {tail : CString} (delimited : Delimited tail) :
    Denotes (scanValue (tree.render ++ tail)) tree.value ↔ Enclosed tree := by
  rw [Enclosed]
  split
  · next isObject =>
      obtain ⟨byte, body, renders, starts⟩ := tree.render_starts
      obtain rfl := leftBrace_of_kind byte (starts.trans (congrArg some isObject))
      rw [renders, List.tail_cons, ← renders, denotes_scanObject_iff renders delimited]
  · next notObject => exact denotes_takeValue_iff notObject delimited

theorem paramsAgree_iff (request : Request) : ParamsAgree request ↔ ParamsReadable request := by
  rw [ParamsAgree, ParamsReadable, get?_eq]
  cases found : findMember (ascii "params") request.members with
  | none =>
      simp only [Option.map_none]
      rw [Option.eq_none_iff_forall_ne_some]
      simp only [ne_eq, requestParams_eq_some, ← scanValue_eq_nil]
      constructor
      · intro none value follows
        by_contra nonempty
        exact none _ ⟨value, memberValue_eq_some.mpr follows, rfl, nonempty⟩
      · rintro empty slice ⟨value, read, rfl, nonempty⟩
        exact nonempty (empty value (memberValue_eq_some.mp read))
  | some member =>
      simp only [Option.map_some]
      rw [← denotes_enclosed_iff (beyond_delimited found),
        ← memberValue_cases found rfl fun value => Denotes (scanValue value) member.value.value]
      constructor
      · rintro ⟨slice, read, denotes⟩
        obtain ⟨value, found, rfl, -⟩ := requestParams_eq_some.mp read
        exact ⟨value, found, denotes⟩
      · rintro ⟨value, read, denotes⟩
        exact ⟨_, requestParams_eq_some.mpr ⟨value, read, rfl, denotes_nonempty denotes⟩, denotes⟩

/-- The bus reads the members' values exactly when each is found first, or something which reads
like it, and is spelled as the scanners expect. -/
theorem decodes_iff_readable (request : Request) :
    Decodes request ↔ IdReadable request ∧ MethodReadable request ∧ ParamsReadable request :=
  and_congr (idAgrees_iff request) (and_congr (methodAgrees_iff request) (paramsAgree_iff request))

/-! ## A request which is read wrongly -/

/-- The members of `{"jsonrpc":"2.0","method":"Get","params":{"property":"Version","id":5},"id":7}`,
where the numbers are spelled out. -/
def nestedIdMembers : MembersText :=
  let number (digit : Digit) (nonzero : digit ≠ 0) : JsonText :=
    .number { negative := false, whole := .positive digit nonzero [], fraction := none
              exponent := none }
  let text (content : String) : JsonText := .string (piecesOf (ascii content))
  membersOf (ascii "jsonrpc", text "2.0") [(ascii "method", text "Get"),
    (ascii "params", objectOf [(ascii "property", text "Version"),
      (ascii "id", number 5 (by decide))]), (ascii "id", number 7 (by decide))]

def nestedId : Request where
  before := []
  members := nestedIdMembers
  after := []
  distinct := by decide
  version := rfl
  method := ⟨ascii "Get", rfl⟩

/-- The id inside the parameters is taken for the request's. -/
theorem nestedId_taken : ¬ Decodes nestedId ∧ extractId nestedId.text = some 5 ∧
    nestedId.json.get? (ascii "id") = some (.number 7 0) := by
  have taken : extractId nestedId.text = some 5 := by decide
  have asked : nestedId.json.get? (ascii "id") = some (.number 7 0) := rfl
  refine ⟨?_, taken, asked⟩
  rintro ⟨agrees, -⟩
  rw [IdAgrees, asked] at agrees
  obtain ⟨n, ⟨mantissa, exponent, same, scaled⟩, read⟩ := agrees
  rw [taken] at read
  obtain ⟨rfl, rfl⟩ := Json.number.inj same
  obtain rfl := Option.some.inj read
  simp at scaled

end Bus

end Typio
