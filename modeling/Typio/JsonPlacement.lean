import Typio.JsonCompact

/-!
# Where strings and commas may stand

A finite automaton reads a text and keeps track of no nesting: it only knows whether a value may
begin and whether one has ended.  Every well-formed text leads it to the accepting state, so that a
text which leads it astray is not well formed, however it continues.
-/

namespace JsonText

inductive Place where
  | ready
  | opened
  | inString
  | escaped
  | done
  | astray
  deriving DecidableEq, Repr

namespace Place

/-- The kinds of bytes the automaton tells apart outside strings. -/
def step : Place → UInt8 → Place
  | .inString, byte =>
      if byte = backslash then .escaped else if byte = quote then .done else .inString
  | .escaped, _ => .inString
  | .astray, _ => .astray
  | .done, byte =>
      if byte = comma ∨ byte = colon then .ready
      else if byte = quote ∨ byte = leftBrace ∨ byte = leftBracket then .astray
      else .done
  | place, byte =>
      if IsSpace byte then place
      else if byte = quote then .inString
      else if byte = leftBrace ∨ byte = leftBracket then .opened
      else if byte = comma ∨ byte = colon then .astray
      else if byte = rightBrace ∨ byte = rightBracket then
        if place = .opened then .done else .astray
      else .done

def run (place : Place) (text : List UInt8) : Place := text.foldl step place

@[simp] theorem run_nil (place : Place) : place.run [] = place := rfl

@[simp] theorem run_cons (place : Place) (byte : UInt8) (text : List UInt8) :
    place.run (byte :: text) = (place.step byte).run text := rfl

@[simp] theorem run_append (place : Place) (first second : List UInt8) :
    place.run (first ++ second) = (place.run first).run second := List.foldl_append

@[simp] theorem step_astray (byte : UInt8) : astray.step byte = astray := rfl

@[simp] theorem run_astray (text : List UInt8) : astray.run text = astray := by
  induction text with
  | nil => rfl
  | cons byte text ih => exact ih

/-- A value may begin. -/
def Awaits (place : Place) : Prop := place = ready ∨ place = opened

instance (place : Place) : Decidable place.Awaits := by
  unfold Awaits
  infer_instance

/-! ## Values -/

theorem step_space (place : Place) (outside : place.Awaits ∨ place = done) (white : Space) :
    place.step white.byte = place := by
  obtain (rfl | rfl) | rfl := outside <;> cases white <;> rfl

theorem run_spaces {place : Place} (outside : place.Awaits ∨ place = done) (spaces : List Space) :
    place.run (renderSpaces spaces) = place := by
  induction spaces with
  | nil => rfl
  | cons white spaces ih =>
      rw [renderSpaces, List.map_cons, run_cons, step_space place outside]
      exact ih

theorem run_piece (piece : Piece) : inString.run piece.render = inString := by
  cases piece with
  | plain byte isPlain =>
      obtain ⟨-, notQuote, notBackslash⟩ := isPlain
      simp [Piece.render, step, notQuote, notBackslash]
  | escape code => cases code <;> rfl
  | unicode unit =>
      have inside (digit : HexDigit) : inString.step digit.byte = inString := by
        cases digit with
        | decimal value => revert value; decide
        | lower value => revert value; decide
        | upper value => revert value; decide
      have entered : inString.run (Piece.unicode unit).render = inString.run unit.render := rfl
      rw [entered]
      simp [CodeUnit.render, inside]

theorem run_pieces (pieces : List Piece) : inString.run (renderPieces pieces) = inString := by
  induction pieces with
  | nil => rfl
  | cons piece pieces ih => rw [renderPieces_cons, run_append, run_piece, ih]

theorem run_string {place : Place} (awaits : place.Awaits) (pieces : List Piece) :
    place.run (renderString pieces) = done := by
  have entered : place.step quote = inString := by obtain rfl | rfl := awaits <;> rfl
  rw [renderString, List.cons_append, run_cons, entered, run_append, run_pieces]
  rfl

/-- A byte of a number or a literal: no delimiter, and no quote. -/
def IsOrdinary (byte : UInt8) : Prop :=
  ready.step byte = done ∧ opened.step byte = done ∧ done.step byte = done

instance (byte : UInt8) : Decidable (IsOrdinary byte) := by
  unfold IsOrdinary
  infer_instance

theorem isOrdinary_of_continuesNumber : ∀ byte, ContinuesNumber byte → IsOrdinary byte := by
  have digit : ∀ n : Fin 10, IsOrdinary (UInt8.ofNat (48 + n)) := by decide
  rintro byte (⟨least, most⟩ | rfl | rfl | rfl | rfl | rfl)
  · have listed := digit ⟨byte.toNat - 48, by omega⟩
    rwa [Nat.add_sub_of_le least, UInt8.ofNat_toNat] at listed
  all_goals decide

theorem run_done_ordinary {text : List UInt8} (ordinary : ∀ byte ∈ text, IsOrdinary byte) :
    done.run text = done := by
  induction text with
  | nil => rfl
  | cons byte text ih =>
      rw [run_cons, (ordinary byte (by simp)).2.2]
      exact ih fun other member => ordinary other (by simp [member])

theorem run_ordinary {place : Place} (awaits : place.Awaits) {text : List UInt8}
    (nonempty : text ≠ []) (ordinary : ∀ byte ∈ text, IsOrdinary byte) :
    place.run text = done := by
  cases text with
  | nil => exact absurd rfl nonempty
  | cons byte text =>
      obtain ⟨fromReady, fromOpened, -⟩ := ordinary byte (by simp)
      have entered : place.step byte = done := by obtain rfl | rfl := awaits <;> assumption
      rw [run_cons, entered]
      exact run_done_ordinary fun other member => ordinary other (by simp [member])

theorem continuesNumber_render (number : NumberText) :
    number.render ≠ [] ∧ ∀ byte ∈ number.render, ContinuesNumber byte := by
  have digits (digits : List Digit) : ∀ byte ∈ renderDigits digits, ContinuesNumber byte := by
    intro byte member
    obtain ⟨digit, -, rfl⟩ := List.mem_map.mp member
    exact .inl digit.byte_isDigit
  obtain ⟨negative, whole, fraction, exponent⟩ := number
  refine ⟨by cases whole <;> simp [NumberText.render, Whole.digits, renderDigits], ?_⟩
  simp only [NumberText.render, List.mem_append]
  rintro byte (((sign | member) | member) | member)
  · cases negative <;> simp at sign
    subst sign
    decide
  · exact digits _ byte member
  · cases fraction with
    | none => simp [NumberText.renderFraction] at member
    | some fraction =>
        obtain rfl | member := List.mem_cons.mp member
        · decide
        · exact digits _ byte member
  · cases exponent with
    | none => simp [NumberText.renderExponent] at member
    | some exponent =>
        obtain rfl | member := List.mem_cons.mp member
        · split <;> decide
        obtain sign | member := List.mem_append.mp member
        · obtain ⟨upper, written, lead, rest⟩ := exponent
          cases written with
          | none => simp [NumberText.renderSign] at sign
          | some negative =>
              obtain rfl : byte = if negative then 45 else 43 := by
                cases negative <;> simpa [NumberText.renderSign] using sign
              split <;> decide
        · exact digits _ byte member

theorem run_number {place : Place} (awaits : place.Awaits) (number : NumberText) :
    place.run number.render = done :=
  run_ordinary awaits (continuesNumber_render number).1 fun byte member =>
    isOrdinary_of_continuesNumber byte ((continuesNumber_render number).2 byte member)

theorem run_member {place : Place} (awaits : place.Awaits) (before : List Space)
    (key : List Piece) (beforeColon afterColon : List Space) (value : List UInt8) :
    place.run (renderSpaces before ++ renderString key ++ renderSpaces beforeColon ++
      colon :: renderSpaces afterColon ++ value) = ready.run value := by
  simp only [run_append, run_cons]
  rw [run_spaces (.inl awaits), run_string awaits, run_spaces (.inr rfl)]
  exact congrArg (·.run value) (run_spaces (.inl (.inl rfl)) afterColon)

mutual

/-- The text of a value leads from where a value may begin to where one has ended. -/
theorem run_render : ∀ (text : JsonText) {place : Place}, place.Awaits →
    place.run text.render = done
  | .null, _, awaits => run_ordinary awaits (by decide) (by decide +kernel)
  | .bool true, _, awaits => run_ordinary awaits (by decide) (by decide +kernel)
  | .bool false, _, awaits => run_ordinary awaits (by decide) (by decide +kernel)
  | .number literal, _, awaits => run_number awaits literal
  | .string pieces, _, awaits => run_string awaits pieces
  | .emptyArray spaces, place, awaits => by
      have entered : place.step leftBracket = opened := by obtain rfl | rfl := awaits <;> rfl
      rw [render, List.cons_append, run_cons, entered, run_append,
        run_spaces (.inl (.inr rfl))]
      rfl
  | .array elements, place, awaits => by
      have entered : place.step leftBracket = opened := by obtain rfl | rfl := awaits <;> rfl
      rw [render, List.cons_append, run_cons, entered, run_append,
        run_renderElements elements (.inr rfl)]
      rfl
  | .emptyObject spaces, place, awaits => by
      have entered : place.step leftBrace = opened := by obtain rfl | rfl := awaits <;> rfl
      rw [render, List.cons_append, run_cons, entered, run_append,
        run_spaces (.inl (.inr rfl))]
      rfl
  | .object members, place, awaits => by
      have entered : place.step leftBrace = opened := by obtain rfl | rfl := awaits <;> rfl
      rw [render, List.cons_append, run_cons, entered, run_append,
        run_renderMembers members (.inr rfl)]
      rfl

theorem run_renderElements : ∀ (elements : ElementsText) {place : Place}, place.Awaits →
    place.run (renderElements elements) = done
  | .last before value after, _, awaits => by
      rw [renderElements, run_append, run_append, run_spaces (.inl awaits),
        run_render value awaits, run_spaces (.inr rfl)]
  | .more before value after later, _, awaits => by
      rw [renderElements, run_append, run_append, run_append, run_spaces (.inl awaits),
        run_render value awaits, run_spaces (.inr rfl)]
      exact run_renderElements later (.inl rfl)

theorem run_renderMembers : ∀ (members : MembersText) {place : Place}, place.Awaits →
    place.run (renderMembers members) = done
  | .last before key beforeColon afterColon value after, _, awaits => by
      rw [renderMembers, run_append, run_member awaits, run_render value (.inl rfl),
        run_spaces (.inr rfl)]
  | .more before key beforeColon afterColon value after later, _, awaits => by
      rw [renderMembers, run_append, run_append, run_member awaits, run_render value (.inl rfl),
        run_spaces (.inr rfl)]
      exact run_renderMembers later (.inl rfl)

end

/-- A well-formed text leads to the accepting state. -/
theorem run_of_denotes {text : List UInt8} {json : Json} (denotes : Denotes text json) :
    ready.run text = done := by
  obtain ⟨before, tree, after, rfl, -⟩ := denotes
  rw [run_append, run_append, run_spaces (.inl (.inl rfl)), run_render tree (.inl rfl),
    run_spaces (.inr rfl)]

/-- A member without white space, whose value may be any text. -/
def memberText (member : List UInt8 × List UInt8) : List UInt8 :=
  renderString (piecesOf member.1) ++ colon :: member.2

theorem run_memberText {place : Place} (awaits : place.Awaits)
    (member : List UInt8 × List UInt8) : place.run (memberText member) = ready.run member.2 := by
  rw [memberText, run_append, run_string awaits]
  rfl

/-- One value which leads astray spoils all the members. -/
theorem run_members {place : Place} (awaits : place.Awaits)
    {members : List (List UInt8 × List UInt8)} (nonempty : members ≠ [])
    (decided : ∀ each ∈ members, ready.run each.2 = done ∨ ready.run each.2 = astray) :
    place.run ([comma].intercalate (members.map memberText)) =
      if ∀ each ∈ members, ready.run each.2 = done then done else astray := by
  induction members generalizing place with
  | nil => exact absurd rfl nonempty
  | cons member later ih =>
      have head := decided member (by simp)
      cases later with
      | nil =>
          rw [List.map_singleton, List.intercalate_singleton, run_memberText awaits]
          obtain isDone | isAstray := head <;> simp [*]
      | cons next later =>
          rw [List.map_cons, List.map_cons, List.intercalate_cons_cons, run_append, run_append,
            run_memberText awaits]
          obtain isDone | isAstray := head
          · have tail := ih (.inl rfl) (by simp) fun each listed =>
              decided each (List.mem_cons_of_mem _ listed)
            rw [List.map_cons] at tail
            rw [isDone, show done.run [comma] = ready from rfl, tail]
            simp only [List.forall_mem_cons, isDone, true_and]
          · simp [isAstray]

end Place

end JsonText
