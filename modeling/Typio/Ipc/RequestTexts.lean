import Typio.Ipc.QuotedNames
import Typio.Ipc.TipJsonScanners

/-!
# Members of a request and where they are read

A request is the text of an object.  A member is read behind the first quoted occurrence of its
name, which is its own or stands somewhere else in the text.
-/

namespace Typio

namespace Bus

open JsonText TipJson

/-- The text of an object, with white space around it. -/
structure RequestText where
  before : List Space
  members : MembersText
  after : List Space

namespace RequestText

variable (request : RequestText)

def text : CString :=
  renderSpaces request.before ++
    ((JsonText.object request.members).render ++ renderSpaces request.after)

/-- What stands in front of a member's name. -/
def upTo (member : Member) : CString := renderSpaces request.before ++ leftBrace :: member.before

/-- What follows a member's value. -/
def beyond (member : Member) : CString :=
  member.after ++ rightBrace :: renderSpaces request.after

/-- The first quoted occurrence of the name is the member's own. -/
def FirstIs (name : CString) (member : Member) : Prop :=
  ∃ after, FirstAt request.text (quoted name) (request.upTo member) after

/-- The first quoted occurrence of the name stands elsewhere, and what follows it, a colon and
white space is read in that way. -/
def ReadElsewhere (name : CString) (member : Member) (reads : CString → Prop) : Prop :=
  ∃ elsewhere spaces after, elsewhere ≠ request.upTo member ∧
    FirstAt request.text (quoted name) elsewhere (quoted name ++ (spaces ++ colon :: after)) ∧
      (∀ white ∈ spaces, isspace white) ∧ reads (skipWs after)

end RequestText

/-! ## The place of a member -/

theorem scanned_piece (piece : Piece) : scanned false piece.render = some false := by
  cases piece with
  | plain byte isPlain =>
      exact scanned_plain (by simpa [Piece.render] using isPlain)
  | escape code => cases code <;> rfl
  | unicode unit =>
      have plainDigit (digit : HexDigit) : IsPlain digit.byte := by
        cases digit with
        | decimal value => revert value; decide
        | lower value => revert value; decide
        | upper value => revert value; decide
      refine @scanned_plain unit.render ?_
      simp [CodeUnit.render, plainDigit]

theorem literal_renderPieces (pieces : List Piece) : Literal (renderPieces pieces) := by
  induction pieces with
  | nil => rfl
  | cons piece pieces ih =>
      rw [Literal, renderPieces_cons, scanned_append, scanned_piece]
      exact ih

/-- Two literals with a quote behind them are the same where one text has both. -/
theorem literal_unique {first second rest other : CString} (literal : Literal first)
    (literal' : Literal second) (same : first ++ quote :: rest = second ++ quote :: other) :
    first = second := by
  have found := scanString_eq_some.mpr ⟨literal, rest, rfl⟩
  rw [same, scanString_eq_some.mpr ⟨literal', other, rfl⟩, Option.some.injEq] at found
  exact found.symm

theorem kind_of_isspace (byte : UInt8) (space : isspace byte = true) :
    Kind.ofByte? byte = none := by
  have every : ∀ n : Fin 33, Kind.ofByte? (UInt8.ofNat n) = none := by decide
  have small : byte.toNat < 33 := by
    simp only [isspace, Bool.or_eq_true, Bool.and_eq_true, decide_eq_true_eq] at space
    obtain rfl | ⟨-, atMost⟩ := space
    · decide
    · omega
  simpa using every ⟨byte.toNat, small⟩

theorem leftBrace_of_kind (byte : UInt8) (object : Kind.ofByte? byte = some .object) :
    byte = leftBrace := by
  unfold Kind.ofByte? at object
  split at object
  case h_6 => rfl
  case h_7 => split at object <;> cases object
  all_goals cases object

theorem render_head_solid (tree : JsonText) (rest : CString) :
    ∀ byte ∈ (tree.render ++ rest).head?, isspace byte = false := by
  obtain ⟨byte, tail, renders, starts⟩ := tree.render_starts
  rw [renders]
  simp only [List.cons_append, List.head?_cons, Option.mem_some_iff, forall_eq']
  by_contra space
  rw [kind_of_isspace byte (by simpa using space)] at starts
  simp at starts

theorem isspace_renderSpaces (spaces : List Space) :
    ∀ byte ∈ renderSpaces spaces, isspace byte := by
  intro byte member
  obtain ⟨white, -, rfl⟩ := List.mem_map.mp member
  cases white <;> decide

namespace RequestText

variable {request : RequestText} {name : CString} {member : Member}

theorem text_eq (found : findMember name request.members = some member) :
    request.text = request.upTo member ++ (renderString member.key ++
      (renderSpaces member.beforeColon ++ colon :: (renderSpaces member.afterColon ++
        (member.value.render ++ request.beyond member)))) := by
  obtain ⟨members_eq, -, -, -⟩ := findMember_spec found
  simp [RequestText.text, render, members_eq, Member.render, Member.onward, RequestText.upTo,
    RequestText.beyond]

theorem beyond_delimited (found : findMember name request.members = some member) :
    Delimited (request.beyond member) := by
  obtain ⟨-, -, -, spaces, last | ⟨later, more⟩⟩ := findMember_spec found
  · exact ⟨spaces, rightBrace, _, by rw [RequestText.beyond, last], .inr rfl⟩
  · exact ⟨spaces, comma, _, by rw [RequestText.beyond, more, List.append_assoc]; rfl, .inl rfl⟩

/-- A member which is found first is read where its value begins. -/
theorem memberValue_of_firstIs (found : findMember name request.members = some member)
    (literal : Literal name) (first : request.FirstIs name member) :
    memberValue request.text name = some (member.value.render ++ request.beyond member) := by
  obtain ⟨after, first⟩ := first
  have after_eq := List.append_cancel_left (first.splits.symm.trans (text_eq found))
  obtain ⟨rest, here⟩ := first.here
  have spelled : name = renderPieces member.key := by
    rw [after_eq] at here
    rw [quoted, renderString] at here
    simp only [List.cons_append, List.append_assoc, List.nil_append] at here
    exact literal_unique literal (literal_renderPieces member.key) (List.tail_eq_of_cons_eq here)
  refine memberValue_eq_some.mpr ⟨request.upTo member, renderSpaces member.beforeColon,
    renderSpaces member.afterColon ++ (member.value.render ++ request.beyond member), ?_,
    isspace_renderSpaces _, ?_⟩
  · rwa [after_eq, renderString, ← spelled] at first
  · exact (skipWs_append (isspace_renderSpaces _) (render_head_solid _ _)).symm

/-- What is read of a member stands at its own place or elsewhere. -/
theorem memberValue_cases (found : findMember name request.members = some member)
    (literal : Literal name) (reads : CString → Prop) :
    (∃ value, memberValue request.text name = some value ∧ reads value) ↔
      (request.FirstIs name member ∧ reads (member.value.render ++ request.beyond member)) ∨
        request.ReadElsewhere name member reads := by
  constructor
  · rintro ⟨value, read, is⟩
    obtain ⟨before, spaces, after, first, white, rfl⟩ := memberValue_eq_some.mp read
    by_cases here : before = request.upTo member
    · subst here
      have own : request.FirstIs name member := ⟨_, first⟩
      rw [memberValue_of_firstIs found literal own, Option.some.injEq] at read
      rw [← read] at is
      exact .inl ⟨own, is⟩
    · exact .inr ⟨before, spaces, after, here, first, white, is⟩
  · rintro (⟨first, is⟩ | ⟨before, spaces, after, -, first, white, is⟩)
    · exact ⟨_, memberValue_of_firstIs found literal first, is⟩
    · exact ⟨_, memberValue_eq_some.mpr ⟨before, spaces, after, first, white, rfl⟩, is⟩

end RequestText

end Bus

end Typio
