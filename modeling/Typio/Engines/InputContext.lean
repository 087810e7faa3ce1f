import Typio.Core.Instance
import Typio.Wayland.KeyPolicy

/-!
# Input contexts

What an engine shows in a context, the preedit and the candidates, is one composition, which it
replaces as a whole or clears.  Committed text goes to the application, and clears the composition
before it does.
-/

namespace Typio

namespace Engines

open Typio.Core

/-- A C string: its bytes, without the terminator. -/
abbrev CString := List UInt8

/-- The decimal digits of a number, as `snprintf` writes them. -/
def decimal (number : Nat) : CString :=
  (Nat.toDigits 10 number).map fun digit => digit.toNat.toUInt8

/-- The fields of `TypioKeyEvent` which the engines read. -/
structure TypioKeyEvent where
  isRelease : Bool
  keysym : Keysym
  modifiers : Modifiers
  deriving DecidableEq

namespace TypioKeyEvent

/-- `typio_key_event_is_escape`. -/
def isEscape (event : TypioKeyEvent) : Bool := event.keysym == Keysym.escape

/-- `typio_key_event_is_modifier_only`. -/
def isModifierOnly (event : TypioKeyEvent) : Bool := event.keysym.isModifierOnly

end TypioKeyEvent

inductive TypioKeyProcessResult where
  | notHandled
  | handled
  | composing
  | committed
  deriving DecidableEq, Repr

/-! ## Compositions -/

inductive TypioPreeditFormat where
  | plain
  | underline
  | highlight
  deriving DecidableEq, Repr

structure TypioPreeditSegment where
  text : CString
  format : TypioPreeditFormat
  deriving DecidableEq, Repr

/-- A string which is not there is null. -/
structure TypioCandidate where
  text : CString
  comment : Option CString
  label : CString
  deriving DecidableEq, Repr

structure TypioCandidateList where
  candidates : List TypioCandidate
  page : Int
  pageSize : Int
  total : Int
  selected : Int
  hasPrev : Bool
  hasNext : Bool
  deriving DecidableEq, Repr

structure TypioComposition where
  segments : List TypioPreeditSegment
  cursorPos : Int
  candidates : TypioCandidateList
  deriving DecidableEq, Repr

namespace TypioCandidateList

/-- `clear_candidates_silent` leaves the page size. -/
def cleared (list : TypioCandidateList) : TypioCandidateList :=
  { list with
    candidates := [], page := 0, total := 0, selected := -1, hasPrev := false, hasNext := false }

/-- A zeroed structure, with nothing selected. -/
def empty : TypioCandidateList where
  candidates := []
  page := 0
  pageSize := 0
  total := 0
  selected := -1
  hasPrev := false
  hasNext := false

end TypioCandidateList

namespace TypioComposition

/-- Nothing is composed. -/
def idle : TypioComposition where
  segments := []
  cursorPos := 0
  candidates := .empty

def cleared (composition : TypioComposition) : TypioComposition where
  segments := []
  cursorPos := 0
  candidates := composition.candidates.cleared

/-- There is a preedit or there are candidates. -/
def active (composition : TypioComposition) : Bool :=
  !composition.segments.isEmpty || !composition.candidates.candidates.isEmpty

/-- The preedits and the candidates are the same; without candidates there are no pages. -/
structure Same (left right : TypioComposition) : Prop where
  segments : left.segments = right.segments
  cursorPos : left.cursorPos = right.cursorPos
  items : left.candidates.candidates = right.candidates.candidates
  pages : right.candidates.candidates ≠ [] → left.candidates = right.candidates

/-- What is seen of a composition: its pages only if there are candidates. -/
def view (composition : TypioComposition) : TypioComposition :=
  if composition.candidates.candidates.isEmpty then { composition with candidates := .empty }
  else composition

theorem same_iff_view (left right : TypioComposition) :
    left.Same right ↔ left.view = right.view := by
  obtain ⟨leftSegments, leftCursor, leftList⟩ := left
  obtain ⟨rightSegments, rightCursor, rightList⟩ := right
  unfold view
  constructor
  · rintro ⟨segments, cursorPos, items, pages⟩
    dsimp only at segments cursorPos items pages
    subst segments cursorPos
    by_cases listed : rightList.candidates = []
    · simp [items, listed]
    · simp [pages listed]
  · intro same
    by_cases leftListed : leftList.candidates = [] <;>
      by_cases rightListed : rightList.candidates = [] <;>
        simp only [leftListed, rightListed, List.isEmpty_nil, List.isEmpty_iff, if_true,
          if_false, mk.injEq] at same
    · exact ⟨same.1, same.2.1, leftListed.trans rightListed.symm,
        fun listed => absurd rightListed listed⟩
    · exact absurd (congrArg TypioCandidateList.candidates same.2.2).symm rightListed
    · exact absurd (congrArg TypioCandidateList.candidates same.2.2) leftListed
    · obtain ⟨segments, cursorPos, list⟩ := same
      exact ⟨segments, cursorPos, congrArg TypioCandidateList.candidates list, fun _ => list⟩

namespace Same

variable {first second third : TypioComposition}

@[refl] theorem refl (composition : TypioComposition) : Same composition composition :=
  ⟨rfl, rfl, rfl, fun _ => rfl⟩

@[symm] theorem symm (same : Same first second) : Same second first :=
  (same_iff_view ..).mpr ((same_iff_view ..).mp same).symm

theorem trans (left : Same first second) (right : Same second third) : Same first third :=
  (same_iff_view ..).mpr (((same_iff_view ..).mp left).trans ((same_iff_view ..).mp right))

theorem cleared (composition : TypioComposition) : Same composition.cleared .idle :=
  ⟨rfl, rfl, rfl, fun listed => absurd rfl listed⟩

instance : Decidable (Same first second) := decidable_of_iff _ (same_iff_view ..).symm

end Same

end TypioComposition

/-! ## Contexts -/

/-- A context: its composition, and all the text which was passed to the commit callback. -/
structure InputContext where
  composition : TypioComposition
  committed : CString
  deriving DecidableEq, Repr

namespace InputContext

/-- `typio_input_context_new`. -/
def new : InputContext where
  composition := { TypioComposition.idle with
    candidates := { TypioCandidateList.empty with pageSize := 10 } }
  committed := []

/-- `typio_input_context_commit`. -/
def commit (context : InputContext) (text : CString) : InputContext where
  composition := context.composition.cleared
  committed := context.committed ++ text

/-- `typio_input_context_set_composition`. -/
def setComposition (context : InputContext) (composition : TypioComposition) : InputContext :=
  { context with composition }

/-- `typio_input_context_clear`. -/
def clear (context : InputContext) : InputContext :=
  { context with composition := context.composition.cleared }

/-- The end of both engines' synchronization: what they compose replaces the composition, or
clears it if there is nothing. -/
def sync (context : InputContext) (composition : TypioComposition) : InputContext :=
  if composition.active then context.setComposition composition else context.clear

@[simp] theorem commit_committed (context : InputContext) (text : CString) :
    (context.commit text).committed = context.committed ++ text := rfl

@[simp] theorem clear_committed (context : InputContext) :
    context.clear.committed = context.committed := rfl

@[simp] theorem setComposition_committed (context : InputContext)
    (composition : TypioComposition) :
    (context.setComposition composition).committed = context.committed := rfl

@[simp] theorem sync_committed (context : InputContext) (composition : TypioComposition) :
    (context.sync composition).committed = context.committed := by
  unfold sync
  split <;> rfl

/-- What is shown after a synchronization, if a composition without content has no cursor. -/
theorem sync_same (context : InputContext) {composition : TypioComposition}
    (plain : composition.active = false → composition.cursorPos = 0) :
    (context.sync composition).composition.Same composition := by
  unfold sync
  split
  · exact .refl composition
  · next inactive =>
      have parts : composition.active = false := by simpa using inactive
      have cursor := plain parts
      simp only [TypioComposition.active, Bool.or_eq_false_iff, Bool.not_eq_false',
        List.isEmpty_iff] at parts
      exact ⟨parts.1.symm, cursor.symm, parts.2.symm, fun listed => absurd parts.2 listed⟩

theorem clear_same (context : InputContext) : context.clear.composition.Same .idle :=
  .cleared context.composition

end InputContext

/-! ## The mode of the instance -/

/-- `typio_instance_notify_mode`, as far as the mode it stores is concerned. -/
def notifyMode (last : Option EngineMode) (mode : EngineMode) : Option EngineMode :=
  if last.any (·.equal mode) then last else some mode

end Engines

end Typio
