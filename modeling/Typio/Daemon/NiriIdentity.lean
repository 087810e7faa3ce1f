import Typio.Ipc.QuotedMembers

/-!
# The focused window of niri

The compositor answers with one line of JSON, in which the daemon searches for the `app_id` and
undoes the escapes of its value by hand.
-/

namespace Typio

namespace Daemon

open JsonText TipJson

/-! ## The reply as the daemon reads it -/

/-- The byte which is kept of an escape. -/
def unescape : UInt8 → UInt8
  | 110 => 10
  | 114 => 13
  | 116 => 9
  | ch => ch

/-- The loop of `json_find_string_value` after the opening quote. -/
def readStringValue (escaped : Bool) : CString → Option CString
  | [] => none
  | ch :: rest =>
      if escaped then (readStringValue false rest).map (unescape ch :: ·)
      else if ch = backslash then readStringValue true rest
      else if ch = quote then some []
      else (readStringValue false rest).map (ch :: ·)

/-- `json_find_string_value`; the pattern is formatted into 128 bytes. -/
def jsonFindStringValue (json fieldName : CString) : Option CString :=
  if fieldName = [] then none
  else
    let pattern := (quote :: (fieldName ++ [quote, colon, quote])).take 127
    match strstr json pattern with
    | none => none
    | some cursor => readStringValue false (cursor.drop pattern.length)

/-- `TypioWlIdentity`. -/
structure WlIdentity where
  providerName : CString
  appId : CString
  stableKey : CString
  deriving DecidableEq

/-- The identity of an application under niri. -/
def WlIdentity.ofAppId (appId : CString) : WlIdentity where
  providerName := ascii "niri"
  appId := appId
  stableKey := ascii "niri:" ++ appId

/-- `typio_wl_identity_parse_niri_focused_window`. -/
def parseNiriFocusedWindow (response : CString) : Option WlIdentity :=
  match jsonFindStringValue response (ascii "app_id") with
  | none => none
  | some appId => if appId = [] then none else some (WlIdentity.ofAppId appId)

/-! ## Undoing the escapes -/

/-- What is kept of a piece of a string: of an escape the byte after the backslash, or the control
character it stands for if that is one of three. -/
def bare : List Piece → CString
  | [] => []
  | .plain byte _ :: pieces => byte :: bare pieces
  | .escape code :: pieces => unescape code.letter :: bare pieces
  | .unicode unit :: pieces => 117 :: (unit.render ++ bare pieces)

/-- The piece is read as it is meant. -/
def IsSimple : Piece → Prop
  | .plain _ _ => True
  | .escape code => code ≠ .backspace ∧ code ≠ .formFeed
  | .unicode _ => False

instance (piece : Piece) : Decidable (IsSimple piece) :=
  match piece with
  | .plain _ _ => inferInstanceAs (Decidable True)
  | .escape code => inferInstanceAs (Decidable (code ≠ .backspace ∧ code ≠ .formFeed))
  | .unicode _ => inferInstanceAs (Decidable False)

theorem readStringValue_plain {byte : UInt8} (isPlain : IsPlain byte) (rest : CString) :
    readStringValue false (byte :: rest) = (readStringValue false rest).map (byte :: ·) := by
  rw [readStringValue, if_neg Bool.false_ne_true, if_neg isPlain.2.2, if_neg isPlain.2.1]

theorem digit_plain (digit : HexDigit) : IsPlain digit.byte := by
  cases digit with
  | decimal value => revert value; decide
  | lower value => revert value; decide
  | upper value => revert value; decide

/-- The loop reads a string up to its closing quote. -/
theorem readStringValue_pieces (pieces : List Piece) (tail : CString) :
    readStringValue false (renderPieces pieces ++ quote :: tail) = some (bare pieces) := by
  induction pieces with
  | nil => rfl
  | cons piece pieces ih =>
      cases piece with
      | plain byte isPlain =>
          have text : renderPieces (.plain byte isPlain :: pieces) ++ quote :: tail =
              byte :: (renderPieces pieces ++ quote :: tail) := rfl
          rw [text, readStringValue_plain isPlain, ih]
          rfl
      | escape code =>
          have text : renderPieces (.escape code :: pieces) ++ quote :: tail =
              backslash :: code.letter :: (renderPieces pieces ++ quote :: tail) := rfl
          rw [text, readStringValue, if_neg Bool.false_ne_true, if_pos rfl, readStringValue,
            if_pos rfl, ih]
          rfl
      | unicode unit =>
          have text : renderPieces (.unicode unit :: pieces) ++ quote :: tail =
              backslash :: 117 :: unit.first.byte :: unit.second.byte :: unit.third.byte ::
                unit.fourth.byte :: (renderPieces pieces ++ quote :: tail) := rfl
          rw [text, readStringValue, if_neg Bool.false_ne_true, if_pos rfl, readStringValue,
            if_pos rfl, readStringValue_plain (digit_plain _),
            readStringValue_plain (digit_plain _), readStringValue_plain (digit_plain _),
            readStringValue_plain (digit_plain _), ih]
          rfl

theorem utf8_length (point : Nat) : (utf8 point).length ≤ 4 := by
  rw [utf8, String.length_utf8EncodeChar]
  exact Char.utf8Size_le_four _

/-- An escape of four digits leaves more bytes than the character has. -/
theorem decodePieces_length (pieces : List Piece) :
    (decodePieces pieces).length ≤ (bare pieces).length ∧
      ((bare pieces).length = (decodePieces pieces).length →
        ∀ unit, Piece.unicode unit ∉ pieces) := by
  induction pieces using decodePieces.induct with
  | case1 => simp [decodePieces, bare]
  | case2 byte isPlain pieces ih => simpa [decodePieces, bare] using ih
  | case3 code pieces ih => simpa [decodePieces, bare] using ih
  | case4 high low pieces surrogates ih =>
      have short := utf8_length (0x10000 + (high.value - 0xD800) * 0x400 + (low.value - 0xDC00))
      rw [decodePieces, if_pos surrogates]
      simp only [bare, List.length_append, List.length_cons, CodeUnit.render, List.length_nil]
      exact ⟨by omega, fun same => by omega⟩
  | case5 high low pieces alone ih =>
      have short := utf8_length high.value
      rw [decodePieces, if_neg alone]
      simp only [bare, List.length_append, List.length_cons, CodeUnit.render, List.length_nil]
        at ih ⊢
      exact ⟨by omega, fun same => by omega⟩
  | case6 unit pieces last ih =>
      have short := utf8_length unit.value
      rw [decodePieces.eq_5 _ _ last]
      simp only [bare, List.length_append, List.length_cons, CodeUnit.render, List.length_nil]
      exact ⟨by omega, fun same => by omega⟩

/-- A string is read as it is meant exactly when each of its pieces is. -/
theorem bare_eq_decodePieces_iff {pieces : List Piece} :
    bare pieces = decodePieces pieces ↔ ∀ piece ∈ pieces, IsSimple piece := by
  constructor
  · intro same
    have noUnicode := (decodePieces_length pieces).2 (congrArg List.length same)
    induction pieces with
    | nil => simp
    | cons piece pieces ih =>
        have later (unit : CodeUnit) : Piece.unicode unit ∉ pieces := fun member =>
          noUnicode unit (List.mem_cons_of_mem _ member)
        rw [List.forall_mem_cons]
        cases piece with
        | plain byte isPlain => exact ⟨trivial, ih (List.tail_eq_of_cons_eq same) later⟩
        | escape code =>
            obtain ⟨head, tail⟩ := List.cons.inj same
            refine ⟨?_, ih tail later⟩
            constructor <;> rintro rfl <;> exact absurd head (by decide)
        | unicode unit => exact absurd (List.mem_cons_self ..) (noUnicode unit)
  · intro simple
    induction pieces with
    | nil => rfl
    | cons piece pieces ih =>
        obtain ⟨head, tail⟩ := List.forall_mem_cons.mp simple
        cases piece with
        | plain byte isPlain => rw [bare, decodePieces, ih tail]
        | escape code =>
            have kept : unescape code.letter = code.byte := by
              obtain ⟨notBackspace, notFormFeed⟩ := head
              cases code <;> first | rfl | contradiction
            rw [bare, decodePieces, ih tail, kept]
        | unicode unit => exact absurd head (by simp [IsSimple])

theorem decodePieces_append_escape (first : List Piece) (code : Escape) (last : List Piece) :
    decodePieces (first ++ .escape code :: last) =
      decodePieces first ++ code.byte :: decodePieces last := by
  induction first using decodePieces.induct with
  | case1 => rfl
  | case2 byte isPlain pieces ih => simpa [decodePieces] using ih
  | case3 other pieces ih => simpa [decodePieces] using ih
  | case4 high low pieces surrogates ih =>
      rw [List.cons_append, List.cons_append, decodePieces, decodePieces, if_pos surrogates,
        if_pos surrogates, ih, List.append_assoc]
  | case5 high low pieces alone ih =>
      rw [List.cons_append] at ih
      rw [List.cons_append, List.cons_append, decodePieces, decodePieces, if_neg alone,
        if_neg alone, ih, List.append_assoc]
  | case6 unit pieces last' ih =>
      rw [List.cons_append, decodePieces.eq_5 _ _ last', decodePieces.eq_5, ih, List.append_assoc]
      cases pieces with
      | nil => simp
      | cons piece pieces =>
          rintro low rest same
          exact last' low pieces (by rw [(List.cons.inj same).1])

/-- A member which the search takes for the one with the name has the name, or one which ends with
a quote and the name. -/
theorem decodePieces_of_spells {name : CString} {key : List Piece} (spells : Spells name key) :
    decodePieces key = name ∨ quote :: name <:+ decodePieces key := by
  obtain rfl | ⟨first, rfl⟩ := spells
  · exact .inl (decodePieces_piecesOf name)
  · refine .inr ⟨decodePieces first, ?_⟩
    rw [decodePieces_append_escape, decodePieces_piecesOf]
    rfl

/-! ## The replies of the compositor -/

/-- The reply to a request for the focused window: a window with any members in any order, at any
depth and with any escapes, one of which is its `app_id`. -/
structure WindowReply where
  window : MembersText
  compact : IsUnspacedMembers window
  appId : CString
  member : (memberValues window).filter (fun member => member.1 = ascii "app_id") =
    [(ascii "app_id", .string appId)]
  newline : Bool

namespace WindowReply

def tree (reply : WindowReply) : JsonText :=
  .object (.last [] (piecesOf (ascii "Ok")) [] []
    (.object (.last [] (piecesOf (ascii "FocusedWindow")) [] [] (.object reply.window) [])) [])

def text (reply : WindowReply) : CString :=
  reply.tree.render ++ if reply.newline then [10] else []

/-- The first member, at any depth, which is spelled like the `app_id` and has a string for a
value. -/
def spelled (reply : WindowReply) : Option (List Piece × List Piece) :=
  (stringMembersOfMembers reply.window).find? fun member => Spells (ascii "app_id") member.1

/-- The `app_id` is not empty, and the first member spelled like it has its value, written without
the escapes of a backspace, of a form feed and of four digits; a value which is another one may
look like it when the backslashes are left out. -/
def IsReadable (reply : WindowReply) : Prop :=
  reply.appId ≠ [] ∧ ∃ member, reply.spelled = some member ∧
    if decodePieces member.2 = reply.appId then ∀ piece ∈ member.2, IsSimple piece
    else bare member.2 = reply.appId

theorem isField_appId : IsField (ascii "app_id") :=
  ⟨by decide, by decide +kernel, by decide +kernel⟩

/-- The loop as a reader of the content of a string. -/
def stringReader : Reader CString := ⟨readStringValue false, bare, readStringValue_pieces⟩

theorem jsonFindStringValue_eq (json : CString) :
    jsonFindStringValue json (ascii "app_id") = readFirst stringReader (ascii "app_id") json := by
  rw [jsonFindStringValue, if_neg (by decide)]
  change (match strstr json (memberPattern (ascii "app_id")) with
    | none => none
    | some cursor =>
        readStringValue false (cursor.drop (memberPattern (ascii "app_id")).length)) = _
  rw [readFirst]
  cases strstr json (memberPattern (ascii "app_id")) <;> rfl

/-- The daemon reads the first member which is spelled like the `app_id`. -/
theorem jsonFindStringValue_text (reply : WindowReply) :
    jsonFindStringValue reply.text (ascii "app_id") =
      reply.spelled.map fun member => bare member.2 := by
  have compact : IsUnspaced reply.tree :=
    ⟨rfl, rfl, rfl, ⟨rfl, rfl, rfl, reply.compact, rfl⟩, rfl⟩
  have ends : Ends (if reply.newline then [10] else []) := by
    cases reply.newline <;> decide
  have nothing : readFirst stringReader (ascii "app_id")
      (if reply.newline then [10] else []) = none := by
    cases reply.newline <;> rfl
  rw [jsonFindStringValue_eq, text, readFirst_render stringReader isField_appId _ compact ends,
    nothing]
  change readMembers stringReader (ascii "app_id") (stringMembersOfMembers reply.window) none = _
  rw [readMembers, spelled]
  cases (stringMembersOfMembers reply.window).find? fun member =>
    Spells (ascii "app_id") member.1 <;> rfl

/-- The daemon takes the window for the application it belongs to exactly when its `app_id` is
readable. -/
theorem parseNiriFocusedWindow_iff (reply : WindowReply) :
    parseNiriFocusedWindow reply.text = some (WlIdentity.ofAppId reply.appId) ↔
      reply.IsReadable := by
  have meaning (pieces : List Piece) : bare pieces = reply.appId ↔
      if decodePieces pieces = reply.appId then ∀ piece ∈ pieces, IsSimple piece
      else bare pieces = reply.appId := by
    split
    · next same => rw [← same, bare_eq_decodePieces_iff]
    · exact Iff.rfl
  rw [parseNiriFocusedWindow, jsonFindStringValue_text]
  cases found : reply.spelled with
  | none => simp [IsReadable, found]
  | some member =>
      have readable : reply.IsReadable ↔ reply.appId ≠ [] ∧ bare member.2 = reply.appId := by
        rw [meaning, IsReadable, found]
        simp
      rw [readable, Option.map_some]
      constructor
      · intro parsed
        by_cases empty : bare member.2 = []
        · simp [empty] at parsed
        · simp only [if_neg empty, Option.some.injEq, WlIdentity.ofAppId, WlIdentity.mk.injEq]
            at parsed
          exact ⟨by rwa [← parsed.2.1], parsed.2.1⟩
      · rintro ⟨nonempty, same⟩
        simp [same, nonempty]

/-- Two applications with readable names have one key only if they are the same. -/
theorem stableKey_eq_iff {first second : WindowReply} (readable : first.IsReadable)
    (readable' : second.IsReadable) :
    (parseNiriFocusedWindow first.text).map WlIdentity.stableKey =
      (parseNiriFocusedWindow second.text).map WlIdentity.stableKey ↔
        first.appId = second.appId := by
  rw [(parseNiriFocusedWindow_iff first).mpr readable,
    (parseNiriFocusedWindow_iff second).mpr readable']
  simp [WlIdentity.ofAppId]

/-- A window with a number, a title and an application. -/
def ofTitle (title appId : List Piece) (newline : Bool) : WindowReply where
  window :=
    .more [] (piecesOf (ascii "id")) [] [] (.number (NumberText.ofInt 12)) []
      (.more [] (piecesOf (ascii "title")) [] [] (.string title) []
        (.last [] (piecesOf (ascii "app_id")) [] [] (.string appId) []))
  compact := by simp [IsUnspacedMembers, IsUnspaced]
  appId := decodePieces appId
  member := by
    simp only [memberValues, decodePieces_piecesOf, value]
    rfl
  newline := newline

/-- No title makes a difference. -/
theorem parseNiriFocusedWindow_title (title appId : List Piece) (newline : Bool) :
    parseNiriFocusedWindow (ofTitle title appId newline).text =
      if bare appId = [] then none else some (WlIdentity.ofAppId (bare appId)) := by
  have spelled : (ofTitle title appId newline).spelled = some (piecesOf (ascii "app_id"), appId) :=
    rfl
  rw [parseNiriFocusedWindow, jsonFindStringValue_text, spelled]
  rfl

/-- An application whose name ends with a bell is taken for another one. -/
theorem bell_misread :
    let bell := ofTitle (piecesOf (ascii "top")) (piecesOf [97, 7]) true
    let other := ofTitle (piecesOf (ascii "top")) (piecesOf (ascii "au0007")) true
    bell.appId ≠ other.appId ∧
      parseNiriFocusedWindow bell.text = parseNiriFocusedWindow other.text ∧
      parseNiriFocusedWindow bell.text ≠ some (WlIdentity.ofAppId bell.appId) := by
  intro bell other
  have same : bare (piecesOf [97, 7]) = ascii "au0007" := by decide +kernel
  have written : bare (piecesOf (ascii "au0007")) = ascii "au0007" := by decide +kernel
  rw [parseNiriFocusedWindow_title, parseNiriFocusedWindow_title, same, written]
  have decoded : bell.appId = [97, 7] := decodePieces_piecesOf _
  have decoded' : other.appId = ascii "au0007" := decodePieces_piecesOf _
  rw [decoded, decoded']
  decide +kernel

end WindowReply

end Daemon

end Typio
