import Typio.Machine
import Typio.Utf8Scan
import Typio.Wayland.EventLoop

/-!
# The cursor of the preedit

An engine counts the cursor of its composition in characters.  The compositor is told a number of
bytes.  The formatter hands the one on as the other, which is right exactly as long as the
characters before the cursor take one byte each.
-/

namespace Typio

open Utf8Scan

/-- The preedit of a `TypioComposition`: texts in UTF-8, and a cursor which counts characters. -/
structure Composition where
  segments : List (Option (List Char))
  cursorPos : Int
  deriving DecidableEq

namespace Composition

variable (composition : Composition)

def text : List Char := composition.segments.flatMap fun segment => segment.getD []

/-- The characters before the cursor; a negative cursor is at the end. -/
def beforeCursor : List Char :=
  if 0 ≤ composition.cursorPos then composition.text.take composition.cursorPos.toNat
  else composition.text

/-- The context holds the composition. -/
def Fills (ctx : InputContext) : Prop :=
  ctx.segments = composition.segments.map (·.map encode) ∧
    ctx.cursorPos = composition.cursorPos

/-- The request shows the text, with the cursor after the bytes of the characters before it.  In an
empty text no cursor is shown. -/
def ShownAs (text : Text) (cursorBegin cursorEnd : Int) : Prop :=
  text = encode composition.text ∧ cursorEnd = cursorBegin ∧
    (cursorBegin = (encode composition.beforeCursor).length ∨
      composition.text = [] ∧ cursorBegin = -1)

/-- The cursor is the same in characters and in bytes: it is within the text and the characters
before it take one byte each, or it is beyond the characters at the number of bytes.  A negative
cursor needs a text whose length fits in an `int`. -/
def CountsBytes : Prop :=
  composition.text = [] ∨
    (0 ≤ composition.cursorPos ∧ composition.cursorPos ≤ composition.text.length ∧
      ∀ char ∈ composition.text.take composition.cursorPos.toNat, char.utf8Size = 1) ∨
    (composition.text.length < composition.cursorPos ∧
      composition.cursorPos = (encode composition.text).length) ∨
    (composition.cursorPos < 0 ∧ (encode composition.text).length < 2 ^ 31)

instance (text : Text) (cursorBegin cursorEnd : Int) :
    Decidable (composition.ShownAs text cursorBegin cursorEnd) :=
  inferInstanceAs (Decidable (_ ∧ _))

instance (ctx : InputContext) : Decidable (composition.Fills ctx) :=
  inferInstanceAs (Decidable (_ ∧ _))

end Composition

/-! ## Bytes and characters -/

theorem length_encode_cons (char : Char) (text : List Char) :
    (encode (char :: text)).length = char.utf8Size + (encode text).length := by
  rw [encode_cons, List.length_append, String.length_utf8EncodeChar]

theorem length_le_encode (text : List Char) : text.length ≤ (encode text).length := by
  induction text with
  | nil => exact le_rfl
  | cons char text induction =>
      have positive := char.utf8Size_pos
      rw [length_encode_cons, List.length_cons]
      omega

/-- A text has as many bytes as characters if and only if each of them takes one. -/
theorem length_encode_eq_iff (text : List Char) :
    (encode text).length = text.length ↔ ∀ char ∈ text, char.utf8Size = 1 := by
  induction text with
  | nil => simp
  | cons char text induction =>
      have positive := char.utf8Size_pos
      have longer := length_le_encode text
      rw [length_encode_cons, List.length_cons, List.forall_mem_cons, ← induction]
      omega

theorem encode_eq_nil_iff (text : List Char) : encode text = [] ↔ text = [] := by
  constructor
  · intro empty
    have longer := length_le_encode text
    rw [empty, List.length_nil, Nat.le_zero, List.length_eq_zero_iff] at longer
    exact longer
  · rintro rfl
    rfl

/-! ## What is sent -/

/-- The arguments of `typio_wl_set_preedit`, whose two cursors are the same. -/
def sentPreedit (ctx : InputContext) : Text × Int :=
  match (buildPlainPreedit ctx).1 with
  | none => ([], -1)
  | some text => (text, (buildPlainPreedit ctx).2)

namespace Frontend

theorem commit_trace (frontend : Frontend) :
    frontend.commit.trace = frontend.trace ∨
      ∃ serial, frontend.commit.trace = .commit serial :: frontend.trace := by
  unfold commit
  split
  · exact .inl rfl
  · split
    · exact .inl rfl
    · exact .inr ⟨frontend.imSerial, rfl⟩

/-- A changed preedit is sent once. -/
theorem setPreedit_mem_iff {frontend : Frontend} {session : Session}
    (shows : frontend.session = some session) (bound : frontend.inputMethod = true)
    (changed : planUpdate session.lastPreeditText session.lastPreeditCursor
      (some ((buildPlainPreedit session.ctx).1.getD [])) (buildPlainPreedit session.ctx).2 =
        .syncPreeditAndPopup) (text : Text) (cursorBegin cursorEnd : Int) :
    .setPreedit text cursorBegin cursorEnd ∈ frontend.sentSince frontend.updateWaylandTextUi ↔
      (text, cursorBegin) = sentPreedit session.ctx ∧ cursorEnd = cursorBegin := by
  let ready := (frontend.log (.popup .update)).setPopupUpdatePending
    frontend.world.presentRetryPending
  have sent : ready.syncPreedit (buildPlainPreedit session.ctx).1
      (buildPlainPreedit session.ctx).2 = (ready.setPreedit (sentPreedit session.ctx).1
        (sentPreedit session.ctx).2 (sentPreedit session.ctx).2).commit := by
    unfold syncPreedit sentPreedit
    cases (buildPlainPreedit session.ctx).1 <;> rfl
  have updated : frontend.updateWaylandTextUi.trace = ((ready.setPreedit
      (sentPreedit session.ctx).1 (sentPreedit session.ctx).2
        (sentPreedit session.ctx).2).commit).trace := by
    rw [← sent]
    unfold updateWaylandTextUi
    rw [shows]
    simp only [changed, if_true]
    rfl
  have logged : (ready.setPreedit (sentPreedit session.ctx).1 (sentPreedit session.ctx).2
      (sentPreedit session.ctx).2).trace = .setPreedit (sentPreedit session.ctx).1
        (sentPreedit session.ctx).2 (sentPreedit session.ctx).2 :: .popup .update ::
          frontend.trace := by
    have still : ready.inputMethod = true := bound
    rw [setPreedit, if_pos still]
    rfl
  have asked : ∀ other, Effect.setPreedit text cursorBegin cursorEnd = .setPreedit other.1 other.2
      other.2 ↔ (text, cursorBegin) = other ∧ cursorEnd = cursorBegin := by
    rintro ⟨other, cursor⟩
    simp only [Effect.setPreedit.injEq, Prod.mk.injEq]
    constructor
    · rintro ⟨rfl, rfl, rfl⟩
      exact ⟨⟨rfl, rfl⟩, rfl⟩
    · rintro ⟨⟨rfl, rfl⟩, rfl⟩
      exact ⟨rfl, rfl, rfl⟩
  rw [← asked]
  obtain quiet | ⟨serial, committed⟩ := commit_trace (ready.setPreedit (sentPreedit session.ctx).1
    (sentPreedit session.ctx).2 (sentPreedit session.ctx).2)
  · have since : frontend.updateWaylandTextUi.trace = [.setPreedit (sentPreedit session.ctx).1
        (sentPreedit session.ctx).2 (sentPreedit session.ctx).2, .popup .update] ++
          frontend.trace := by
      rw [updated, quiet, logged]
      rfl
    rw [sentSince_eq since]
    simp
  · have since : frontend.updateWaylandTextUi.trace = [.commit serial,
        .setPreedit (sentPreedit session.ctx).1 (sentPreedit session.ctx).2
          (sentPreedit session.ctx).2, .popup .update] ++ frontend.trace := by
      rw [updated, committed, logged]
      rfl
    rw [sentSince_eq since]
    simp

end Frontend

namespace Composition

variable {composition : Composition} {ctx : InputContext}

theorem Fills.buffer (fills : composition.Fills ctx) :
    ctx.segments.flatMap (fun segment => segment.getD []) = encode composition.text := by
  rw [fills.1, text]
  induction composition.segments with
  | nil => rfl
  | cons segment segments induction =>
      rw [List.map_cons, List.flatMap_cons, List.flatMap_cons, encode_append, induction]
      cases segment <;> rfl

/-- An empty text is sent without a cursor. -/
theorem Fills.sent_of_nil (fills : composition.Fills ctx) (empty : composition.text = []) :
    sentPreedit ctx = ([], -1) := by
  have buffer := fills.buffer
  rw [empty, encode_nil] at buffer
  unfold sentPreedit buildPlainPreedit
  split
  · rfl
  · next text some_text =>
      split at some_text
      · cases some_text
      · dsimp only at some_text
        rw [if_pos buffer] at some_text
        cases some_text

theorem Fills.sent_of_ne_nil (fills : composition.Fills ctx) (shown : composition.text ≠ []) :
    sentPreedit ctx = (encode composition.text,
      if 0 ≤ composition.cursorPos then composition.cursorPos
      else ((encode composition.text).length : Int).bmod (2 ^ 32)) := by
  have buffer := fills.buffer
  have bytes : encode composition.text ≠ [] := (encode_eq_nil_iff _).not.mpr shown
  have segments : ctx.segments ≠ [] := by
    intro empty
    rw [empty] at buffer
    exact bytes buffer.symm
  unfold sentPreedit buildPlainPreedit
  rw [if_neg segments, buffer, fills.2]
  simp only [bytes, if_false]

/-- A length which fits in an `int` is kept. -/
theorem bmod_length_eq_iff (length : Nat) :
    (length : Int).bmod (2 ^ 32) = length ↔ length < 2 ^ 31 := by
  constructor
  · intro same
    have below := Int.bmod_lt (x := (length : Int)) (m := 2 ^ 32) (by decide)
    omega
  · intro small
    exact Int.bmod_eq_of_le (by omega) (by omega)

/-- What is sent shows the composition exactly if its cursor is the same in bytes. -/
theorem Fills.shown_iff (fills : composition.Fills ctx) :
    composition.ShownAs (sentPreedit ctx).1 (sentPreedit ctx).2 (sentPreedit ctx).2 ↔
      composition.CountsBytes := by
  by_cases empty : composition.text = []
  · rw [fills.sent_of_nil empty]
    exact iff_of_true ⟨by rw [empty]; rfl, rfl, .inr ⟨empty, rfl⟩⟩ (.inl empty)
  · rw [fills.sent_of_ne_nil empty]
    simp only [ShownAs, CountsBytes, empty, true_and, false_and, or_false, false_or]
    unfold beforeCursor
    split
    · next positive =>
        obtain beyond | inside := Int.lt_or_le composition.text.length composition.cursorPos
        · have taken : composition.text.take composition.cursorPos.toNat = composition.text :=
            List.take_of_length_le (by omega)
          rw [taken]
          omega
        · have taken : (composition.text.take composition.cursorPos.toNat).length =
              composition.cursorPos := by
            rw [List.length_take, Nat.min_eq_left (Int.toNat_le.mpr inside),
              Int.toNat_of_nonneg positive]
          rw [← length_encode_eq_iff]
          omega
    · next negative =>
        rw [bmod_length_eq_iff]
        omega

end Composition

namespace Frontend

/-- A changed preedit is sent as the concatenation of the segments, with the cursor after the
characters before it, exactly if its cursor is the same in bytes. -/
theorem preedit_shown_iff {frontend : Frontend} {session : Session} {composition : Composition}
    (shows : frontend.session = some session) (bound : frontend.inputMethod = true)
    (fills : composition.Fills session.ctx)
    (changed : planUpdate session.lastPreeditText session.lastPreeditCursor
      (some ((buildPlainPreedit session.ctx).1.getD [])) (buildPlainPreedit session.ctx).2 =
        .syncPreeditAndPopup) :
    (∀ text cursorBegin cursorEnd,
      .setPreedit text cursorBegin cursorEnd ∈ frontend.sentSince frontend.updateWaylandTextUi →
        composition.ShownAs text cursorBegin cursorEnd) ↔ composition.CountsBytes := by
  rw [← fills.shown_iff]
  constructor
  · intro each
    exact each _ _ _ ((setPreedit_mem_iff shows bound changed _ _ _).mpr ⟨rfl, rfl⟩)
  · intro shown text cursorBegin cursorEnd sent
    obtain ⟨same, rfl⟩ := (setPreedit_mem_iff shows bound changed _ _ _).mp sent
    rw [← same] at shown
    exact shown

/-- The preedit `né`, with the cursor behind its first character. -/
theorem preedit_shown_iff_first :
    let engine : Engine := fun _ => { handled := false, calls := [], active := some "mozc" }
    let composed := Machine.run (step engine)
      (start ⟨some "mozc", none, false, false⟩ ShortcutConfig.defaults (World.obliging 1000)
        .noManager)
      [.activate, .done, .contextCalls [.setComposition [some (encode ['n', 'é'])] 1 0]]
    ∀ text cursorBegin cursorEnd,
      .setPreedit text cursorBegin cursorEnd ∈ composed.sentSince composed.updateWaylandTextUi →
        Composition.ShownAs ⟨[some ['n', 'é']], 1⟩ text cursorBegin cursorEnd := by
  intro engine composed
  refine (preedit_shown_iff (Option.some_get (by decide +kernel)).symm (by decide +kernel)
    (by decide +kernel) (by decide +kernel)).mpr (.inr (.inl ⟨by decide, by decide, ?_⟩))
  exact List.forall_mem_singleton.mpr rfl

/-- The preedit `éa`, with the cursor behind its first character: the compositor is told one byte,
which is inside that character. -/
theorem cursor_inside_character :
    let engine : Engine := fun _ => { handled := false, calls := [], active := some "mozc" }
    let composed := Machine.run (step engine)
      (start ⟨some "mozc", none, false, false⟩ ShortcutConfig.defaults (World.obliging 1000)
        .noManager)
      [.activate, .done, .contextCalls [.setComposition [some (encode ['é', 'a'])] 1 0]]
    ¬ ∀ text cursorBegin cursorEnd,
      .setPreedit text cursorBegin cursorEnd ∈ composed.sentSince composed.updateWaylandTextUi →
        Composition.ShownAs ⟨[some ['é', 'a']], 1⟩ text cursorBegin cursorEnd := by
  intro engine composed shown
  exact absurd (shown (encode ['é', 'a']) 1 1 (by decide +kernel)) (by decide +kernel)

end Frontend

end Typio
