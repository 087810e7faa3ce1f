import Typio.JsonPlacement
import Typio.Ipc.TipJsonStrings

/-!
# Members found by their quoted name

The search is for a name between quotes, a colon and the quote which opens a string.  In a text
without white space it finds the members only whose value is a string and whose key is spelled
like the name, or ends with a quote and the name; they may stand at any depth.
-/

namespace Typio

namespace TipJson

open JsonText

def memberPattern (name : CString) : CString := quote :: (name ++ [quote, colon, quote])

/-- A name of bytes which stand for themselves, none of which may follow a string. -/
structure IsField (name : CString) : Prop where
  nonempty : name ≠ []
  plain : ∀ byte ∈ name, IsPlain byte
  inside : ∀ byte ∈ name, ¬ IsDelimiter byte ∧ byte ≠ colon

/-- The key is spelled as the name, or ends so behind an escaped quote. -/
def Spells (name : CString) (key : List Piece) : Prop :=
  key = piecesOf name ∨ .escape .quote :: piecesOf name <:+ key

instance (name : CString) (key : List Piece) : Decidable (Spells name key) := by
  unfold Spells
  infer_instance

/-- What may follow a value. -/
def Ends (rest : CString) : Prop := ∀ byte ∈ rest.head?, IsDelimiter byte

instance : ∀ rest : CString, Decidable (Ends rest)
  | [] => .isTrue nofun
  | byte :: rest => decidable_of_iff (IsDelimiter byte) (by simp [Ends])

/-! ## Texts without white space -/

mutual

def IsUnspaced : JsonText → Prop
  | .null | .bool _ | .number _ | .string _ => True
  | .emptyArray spaces => spaces = []
  | .array elements => IsUnspacedElements elements
  | .emptyObject spaces => spaces = []
  | .object members => IsUnspacedMembers members

def IsUnspacedElements : ElementsText → Prop
  | .last before value after => before = [] ∧ IsUnspaced value ∧ after = []
  | .more before value after later =>
      before = [] ∧ IsUnspaced value ∧ after = [] ∧ IsUnspacedElements later

def IsUnspacedMembers : MembersText → Prop
  | .last before _ beforeColon afterColon value after =>
      before = [] ∧ beforeColon = [] ∧ afterColon = [] ∧ IsUnspaced value ∧ after = []
  | .more before _ beforeColon afterColon value after later =>
      before = [] ∧ beforeColon = [] ∧ afterColon = [] ∧ IsUnspaced value ∧ after = [] ∧
        IsUnspacedMembers later

end

/-- The member itself, when its value is a string. -/
def ownString (key : List Piece) : JsonText → List (List Piece × List Piece)
  | .string pieces => [(key, pieces)]
  | _ => []

mutual

/-- The members with a string for a value, at any depth, in the order of the text. -/
def stringMembers : JsonText → List (List Piece × List Piece)
  | .array elements => stringMembersOfElements elements
  | .object members => stringMembersOfMembers members
  | .null | .bool _ | .number _ | .string _ | .emptyArray _ | .emptyObject _ => []

def stringMembersOfElements : ElementsText → List (List Piece × List Piece)
  | .last _ value _ => stringMembers value
  | .more _ value _ later => stringMembers value ++ stringMembersOfElements later

def stringMembersOfMembers : MembersText → List (List Piece × List Piece)
  | .last _ key _ _ value _ => ownString key value ++ stringMembers value
  | .more _ key _ _ value _ later =>
      ownString key value ++ stringMembers value ++ stringMembersOfMembers later

end

/-! ## Occurrences in a string -/

theorem renderPieces_piecesOf {name : CString} (plain : ∀ byte ∈ name, IsPlain byte) :
    renderPieces (piecesOf name) = name := by
  have strings : renderString (piecesOf name) = quote :: (escaped name ++ [quote]) :=
    (appendString_eq_render name).symm.trans (appendString_eq name)
  have content : renderPieces (piecesOf name) = escaped name :=
    List.append_cancel_right (List.tail_eq_of_cons_eq strings)
  rw [content, escaped_of_plain plain]

theorem eq_piecesOf {pieces : List Piece} {name : CString} (plain : ∀ byte ∈ name, IsPlain byte)
    (same : renderPieces pieces = name) : pieces = piecesOf name := by
  rw [← renderPieces_piecesOf plain] at same
  exact (renderPieces_inj (congrArg (· ++ [quote]) same)).1

theorem quote_notin_unit (unit : CodeUnit) : quote ∉ unit.render := by
  have digit (digit : HexDigit) : quote ≠ digit.byte := by
    cases digit with
    | decimal value => revert value; decide
    | lower value => revert value; decide
    | upper value => revert value; decide
  simp [CodeUnit.render, digit]

theorem quote_in_piece {piece : Piece} {before after : CString}
    (same : piece.render = before ++ quote :: after) :
    piece = .escape .quote ∧ before = [backslash] ∧ after = [] := by
  have member : quote ∈ piece.render := by simp [same]
  cases piece with
  | plain byte isPlain => exact absurd (List.mem_singleton.mp member).symm isPlain.2.1
  | unicode unit =>
      simp only [Piece.render, List.mem_cons] at member
      obtain first | second | inside := member
      · exact absurd first (by decide)
      · exact absurd second (by decide)
      · exact absurd inside (quote_notin_unit unit)
  | escape code =>
      rcases before with _ | ⟨first, _ | ⟨second, before⟩⟩
      · exact absurd (List.cons.inj same).1 (by decide)
      · obtain ⟨rfl, later⟩ := List.cons.inj same
        obtain ⟨letter, rest⟩ := List.cons.inj later
        have isQuote : code = .quote := Escape.letter_injective letter
        exact ⟨by rw [isQuote], rfl, rest.symm⟩
      · exact absurd (congrArg List.length same) (by simp [Piece.render])

/-- A quote inside a string is the second byte of an escape. -/
theorem quote_in_pieces {pieces : List Piece} {before after : CString}
    (same : renderPieces pieces = before ++ quote :: after) :
    ∃ first last, pieces = first ++ .escape .quote :: last ∧
      before = renderPieces first ++ [backslash] ∧ after = renderPieces last := by
  induction pieces generalizing before with
  | nil => simp at same
  | cons piece pieces ih =>
      rw [renderPieces_cons] at same
      obtain ⟨middle, rfl, rest⟩ | ⟨middle, inside, rest⟩ := List.append_eq_append_iff.mp same
      · obtain ⟨first, last, rfl, rfl, rfl⟩ := ih rest
        exact ⟨piece :: first, last, rfl, by simp, rfl⟩
      · cases middle with
        | nil =>
            obtain ⟨first, last, -, empty, -⟩ := @ih [] rest.symm
            simp at empty
        | cons head middle =>
            obtain ⟨rfl, tail⟩ := List.cons.inj rest
            obtain ⟨rfl, rfl, rfl⟩ := quote_in_piece inside
            exact ⟨[], pieces, rfl, rfl, tail⟩

theorem IsField.last_ne {name : CString} (field : IsField name) {before first : CString}
    (same : before ++ name = first ++ [backslash]) : False := by
  obtain rfl | ⟨start, last, rfl⟩ := List.eq_nil_or_concat' name
  · exact field.nonempty rfl
  · rw [← List.append_assoc] at same
    obtain rfl : last = backslash := by simpa using (List.append_inj' same rfl).2
    exact (field.plain backslash (by simp)).2.2 rfl

theorem IsField.quote_notin {name : CString} (field : IsField name) : quote ∉ name :=
  fun member => (field.plain quote member).2.1 rfl

/-- Inside the text of a string, after a quote, the name ends where the string does. -/
theorem IsField.closes {name : CString} (field : IsField name) {pieces : List Piece}
    {before middle rest tail : CString} (content : renderPieces pieces = before ++ middle)
    (same : name ++ quote :: colon :: quote :: tail = middle ++ quote :: rest) :
    middle = name ∧ rest = colon :: quote :: tail := by
  obtain ⟨later, rfl, parts⟩ | ⟨later, rfl, parts⟩ := List.append_eq_append_iff.mp same
  · cases later with
    | nil => exact ⟨by simp, (List.cons.inj parts).2.symm⟩
    | cons head later =>
        obtain ⟨rfl, -⟩ := List.cons.inj parts
        rw [← List.append_assoc] at content
        obtain ⟨first, last, -, ending, -⟩ := quote_in_pieces content
        exact (field.last_ne ending).elim
  · cases later with
    | nil => exact ⟨by simp, (List.cons.inj parts).2⟩
    | cons head later =>
        obtain ⟨rfl, -⟩ := List.cons.inj parts
        exact absurd (by simp) field.quote_notin

/-- An occurrence which begins inside a string ends it, and begins the next one. -/
theorem occurs_in_string {name : CString} (field : IsField name) {pieces : List Piece}
    {start later rest : CString} (splits : renderString pieces = start ++ later)
    (nonempty : later ≠ []) (follows : ∀ byte ∈ rest.head?, byte ∉ name)
    (here : memberPattern name <+: later ++ rest) :
    later = quote :: (name ++ [quote]) ∧ Spells name pieces ∧ [colon, quote] <+: rest := by
  obtain rfl | ⟨middle, last, rfl⟩ := List.eq_nil_or_concat' later
  · exact absurd rfl nonempty
  rw [← List.append_assoc] at splits
  obtain ⟨content, closing⟩ := List.append_inj' splits rfl
  obtain rfl : quote = last := by simpa using closing
  obtain ⟨tail, parts⟩ := here
  cases middle with
  | nil =>
      -- The closing quote would be followed by the name.
      have outside : name ++ quote :: colon :: quote :: tail = rest := by
        simpa [memberPattern] using parts
      cases name with
      | nil => exact absurd rfl field.nonempty
      | cons head name =>
          rw [← outside] at follows
          exact absurd (List.mem_cons_self ..) (follows head (by simp))
  | cons head middle =>
      obtain ⟨rfl, after⟩ : quote = head ∧
          name ++ quote :: colon :: quote :: tail = middle ++ quote :: rest := by
        simpa [memberPattern] using parts
      cases start with
      | nil =>
          have whole : renderPieces pieces = [] ++ middle := List.tail_eq_of_cons_eq content
          obtain ⟨rfl, rfl⟩ := field.closes whole after
          exact ⟨rfl, .inl (eq_piecesOf field.plain whole), tail, rfl⟩
      | cons opening start =>
          have part : renderPieces pieces = start ++ quote :: middle :=
            List.tail_eq_of_cons_eq content
          have longer : renderPieces pieces = (start ++ [quote]) ++ middle := by simp [part]
          obtain ⟨rfl, rfl⟩ := field.closes longer after
          obtain ⟨first, last, rfl, -, ending⟩ := quote_in_pieces part
          rw [eq_piecesOf field.plain ending.symm]
          exact ⟨rfl, .inr (List.suffix_append ..), tail, rfl⟩

/-! ## Searching a text -/

theorem strstr_append {pattern before after : CString}
    (nowhere : ∀ start later, before = start ++ later → later ≠ [] →
      ¬ pattern <+: later ++ after) : strstr (before ++ after) pattern = strstr after pattern := by
  induction before with
  | nil => rfl
  | cons byte before ih =>
      have elsewhere : ¬ pattern <+: byte :: (before ++ after) :=
        nowhere [] (byte :: before) rfl (by simp)
      rw [List.cons_append, strstr, if_neg (by rwa [List.isPrefixOf_iff_prefix])]
      exact ih fun start later parts => nowhere (byte :: start) later (by simp [parts])

theorem strstr_unquoted (name : CString) {before : CString} (unquoted : quote ∉ before)
    (after : CString) :
    strstr (before ++ after) (memberPattern name) = strstr after (memberPattern name) := by
  refine strstr_append fun start later parts nonempty here => ?_
  obtain ⟨tail, same⟩ := here
  cases later with
  | nil => exact nonempty rfl
  | cons head later =>
      obtain ⟨rfl, -⟩ := List.cons.inj same
      exact unquoted (by simp [parts])

theorem strstr_cons (name : CString) {byte : UInt8} (notQuote : byte ≠ quote) (after : CString) :
    strstr (byte :: after) (memberPattern name) = strstr after (memberPattern name) :=
  @strstr_unquoted name [byte] (by simpa using notQuote.symm) after

/-- A string is passed over unless it is the key of a member which the search looks for. -/
theorem strstr_string {name : CString} (field : IsField name) {pieces : List Piece}
    {rest : CString} (follows : ∀ byte ∈ rest.head?, byte ∉ name)
    (other : Spells name pieces → ¬ [colon, quote] <+: rest) :
    strstr (renderString pieces ++ rest) (memberPattern name) =
      strstr rest (memberPattern name) := by
  refine strstr_append fun start later splits nonempty here => ?_
  obtain ⟨-, spells, next⟩ := occurs_in_string field splits nonempty follows here
  exact other spells next

theorem Spells.ending {name : CString} (plain : ∀ byte ∈ name, IsPlain byte) {key : List Piece}
    (spells : Spells name key) :
    ∃ start, renderString key = start ++ quote :: (name ++ [quote]) := by
  obtain rfl | ⟨first, rfl⟩ := spells
  · exact ⟨[], by simp [renderString, renderPieces_piecesOf plain]⟩
  · refine ⟨quote :: (renderPieces first ++ [backslash]), ?_⟩
    simp [renderString, renderPieces_piecesOf plain, Piece.render, Escape.letter]

/-- The search stops at the key of such a member. -/
theorem strstr_member {name : CString} (field : IsField name) {key : List Piece}
    (spells : Spells name key) (rest : CString) :
    strstr (renderString key ++ colon :: quote :: rest) (memberPattern name) =
      some (memberPattern name ++ rest) := by
  have follows : ∀ byte ∈ (colon :: quote :: rest).head?, byte ∉ name := by
    rintro byte same member
    obtain rfl := Option.some.inj same
    exact (field.inside colon member).2 rfl
  obtain ⟨start, ending⟩ := spells.ending field.plain
  rw [strstr_eq_some]
  refine ⟨start, by simp [ending, memberPattern], List.prefix_append .., ?_⟩
  intro first later parts nonempty here
  have splits : renderString key = first ++ (later ++ quote :: (name ++ [quote])) := by
    rw [ending, parts, List.append_assoc]
  obtain ⟨same, -⟩ := occurs_in_string field splits (by simp) follows (by
    simpa [memberPattern] using here)
  exact nonempty (List.append_left_eq_self.mp same)

/-! ## What a reader makes of it -/

section Reading

/-- A reader of the content of a string, which begins after the opening quote. -/
structure Reader (β : Type*) where
  read : CString → Option β
  content : List Piece → β
  reads : ∀ pieces tail, read (renderPieces pieces ++ quote :: tail) = some (content pieces)

variable {β : Type*} (reader : Reader β) (name : CString)

/-- What is read after the first occurrence. -/
def readFirst (text : CString) : Option β :=
  (strstr text (memberPattern name)).bind fun found =>
    reader.read (found.drop (memberPattern name).length)

/-- What is read of the first of some members that is found, and otherwise of what comes later. -/
def readMembers (members : List (List Piece × List Piece)) (later : Option β) : Option β :=
  match members.find? fun member => Spells name member.1 with
  | some member => some (reader.content member.2)
  | none => later

variable {name}

@[simp] theorem readMembers_nil (later : Option β) :
    readMembers reader name [] later = later := rfl

theorem readMembers_append (first second : List (List Piece × List Piece)) (later : Option β) :
    readMembers reader name (first ++ second) later =
      readMembers reader name first (readMembers reader name second later) := by
  simp only [readMembers, List.find?_append]
  cases first.find? fun member => Spells name member.1 <;> rfl

theorem readFirst_cons {byte : UInt8} (notQuote : byte ≠ quote) (after : CString) :
    readFirst reader name (byte :: after) = readFirst reader name after := by
  rw [readFirst, strstr_cons name notQuote]
  rfl

theorem readFirst_unquoted {before : CString} (unquoted : quote ∉ before) (after : CString) :
    readFirst reader name (before ++ after) = readFirst reader name after := by
  rw [readFirst, strstr_unquoted name unquoted]
  rfl

theorem delimiter_ends {byte : UInt8} (delimits : IsDelimiter byte) (rest : CString) :
    Ends (byte :: rest) := by
  simpa [Ends] using delimits

variable (field : IsField name)
include field

theorem readFirst_string (pieces : List Piece) {rest : CString} (ends : Ends rest) :
    readFirst reader name (renderString pieces ++ rest) = readFirst reader name rest := by
  have follows : ∀ byte ∈ rest.head?, byte ∉ name := fun byte head member =>
    (field.inside byte member).1 (ends byte head)
  have noColon : ¬ [colon, quote] <+: rest := by
    rintro ⟨tail, rfl⟩
    exact absurd (ends colon rfl) (by decide)
  rw [readFirst, strstr_string field follows fun _ => noColon]
  rfl

theorem readFirst_key (key : List Piece) (value : JsonText) (rest : CString) :
    readFirst reader name (renderString key ++ colon :: (value.render ++ rest)) =
      readMembers reader name (ownString key value)
        (readFirst reader name (value.render ++ rest)) := by
  have follows : ∀ byte ∈ (colon :: (value.render ++ rest)).head?, byte ∉ name := by
    rintro byte same member
    obtain rfl := Option.some.inj same
    exact (field.inside colon member).2 rfl
  have passes (other : Spells name key → ¬ [colon, quote] <+: colon :: (value.render ++ rest)) :
      readFirst reader name (renderString key ++ colon :: (value.render ++ rest)) =
        readFirst reader name (value.render ++ rest) := by
    rw [readFirst, strstr_string field follows other, strstr_cons name (by decide)]
    rfl
  obtain ⟨byte, tail, renders, starts⟩ := value.render_starts
  cases value with
  | string pieces =>
      by_cases spells : Spells name key
      · have text : JsonText.render (.string pieces) ++ rest =
            quote :: (renderPieces pieces ++ quote :: rest) := by
          simp [JsonText.render, renderString]
        rw [text, readFirst, strstr_member field spells, Option.bind_some, List.drop_left,
          reader.reads]
        simp [readMembers, ownString, spells]
      · rw [passes fun spelled => absurd spelled spells]
        simp [readMembers, ownString, spells]
  | _ =>
      refine passes fun _ next => ?_
      rw [renders, List.cons_append, List.cons_prefix_cons, List.cons_prefix_cons] at next
      rw [← next.2.1] at starts
      exact absurd (Option.some.inj starts) (by simp [kind])

end Reading

mutual

/-- In a compact text the reader sees the first member which the search looks for. -/
theorem readFirst_render {β : Type*} (reader : Reader β) {name : CString} (field : IsField name) :
    ∀ (text : JsonText), IsUnspaced text → ∀ {rest : CString}, Ends rest →
    readFirst reader name (text.render ++ rest) =
      readMembers reader name (stringMembers text) (readFirst reader name rest)
  | .null, _, rest, _ => readFirst_unquoted reader (by decide) rest
  | .bool true, _, rest, _ => readFirst_unquoted reader (by decide) rest
  | .bool false, _, rest, _ => readFirst_unquoted reader (by decide) rest
  | .number literal, _, rest, _ => by
      refine readFirst_unquoted reader (fun member => ?_) rest
      rw [render] at member
      exact absurd ((Place.continuesNumber_render literal).2 quote member) (by decide)
  | .string pieces, _, rest, ends => by
      rw [render, readFirst_string reader field pieces ends]
      rfl
  | .emptyArray spaces, compact, rest, _ => by
      obtain rfl : spaces = [] := compact
      exact readFirst_unquoted reader (by decide) rest
  | .emptyObject spaces, compact, rest, _ => by
      obtain rfl : spaces = [] := compact
      exact readFirst_unquoted reader (by decide) rest
  | .array elements, compact, rest, _ => by
      rw [render, List.append_assoc, List.cons_append, List.singleton_append,
        readFirst_cons reader (by decide),
        readFirst_elements reader field elements compact (delimiter_ends (by decide) rest),
        readFirst_cons reader (by decide)]
      rfl
  | .object members, compact, rest, _ => by
      rw [render, List.append_assoc, List.cons_append, List.singleton_append,
        readFirst_cons reader (by decide),
        readFirst_members reader field members compact (delimiter_ends (by decide) rest),
        readFirst_cons reader (by decide)]
      rfl

theorem readFirst_elements {β : Type*} (reader : Reader β) {name : CString}
    (field : IsField name) : ∀ (elements : ElementsText), IsUnspacedElements elements →
    ∀ {rest : CString}, Ends rest → readFirst reader name (renderElements elements ++ rest) =
      readMembers reader name (stringMembersOfElements elements) (readFirst reader name rest)
  | .last before value after, compact, rest, ends => by
      obtain ⟨rfl, compact, rfl⟩ := compact
      simpa [renderElements, stringMembersOfElements] using
        readFirst_render reader field value compact ends
  | .more before value after later, compact, rest, ends => by
      obtain ⟨rfl, compact, rfl, compactLater⟩ := compact
      have text : renderElements (.more [] value [] later) ++ rest =
          value.render ++ comma :: (renderElements later ++ rest) := by
        simp [renderElements]
      rw [text, readFirst_render reader field value compact (delimiter_ends (by decide) _),
        readFirst_cons reader (by decide), readFirst_elements reader field later compactLater ends,
        stringMembersOfElements, readMembers_append]

theorem readFirst_members {β : Type*} (reader : Reader β) {name : CString}
    (field : IsField name) : ∀ (members : MembersText), IsUnspacedMembers members →
    ∀ {rest : CString}, Ends rest → readFirst reader name (renderMembers members ++ rest) =
      readMembers reader name (stringMembersOfMembers members) (readFirst reader name rest)
  | .last before key beforeColon afterColon value after, compact, rest, ends => by
      obtain ⟨rfl, rfl, rfl, compact, rfl⟩ := compact
      have text : renderMembers (.last [] key [] [] value []) ++ rest =
          renderString key ++ colon :: (value.render ++ rest) := by
        simp [renderMembers]
      rw [text, readFirst_key reader field, readFirst_render reader field value compact ends,
        stringMembersOfMembers, readMembers_append]
  | .more before key beforeColon afterColon value after later, compact, rest, ends => by
      obtain ⟨rfl, rfl, rfl, compact, rfl, compactLater⟩ := compact
      have text : renderMembers (.more [] key [] [] value [] later) ++ rest =
          renderString key ++ colon :: (value.render ++ comma :: (renderMembers later ++ rest)) := by
        simp [renderMembers]
      have separated :=
        delimiter_ends (show IsDelimiter comma by decide) (renderMembers later ++ rest)
      rw [text, readFirst_key reader field, readFirst_render reader field value compact separated,
        readFirst_cons reader (by decide), readFirst_members reader field later compactLater ends,
        stringMembersOfMembers, readMembers_append, readMembers_append]

end

end TipJson

end Typio
