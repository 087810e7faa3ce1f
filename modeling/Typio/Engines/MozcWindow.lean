import Mathlib.Algebra.Group.Int.Defs
import Typio.Engines.Mozc

/-!
# The candidate window of the Mozc server

The fields of the server's candidate window are unsigned and may be absent or contradict each
other.  The engine converts them to signed integers, numbers the candidates and derives the page
and the selection.  A remainder by zero and an overflow have no defined result.
-/

namespace Typio

namespace Engines

/-- A step of the conversion without a defined result. -/
inductive Undefined where
  | remainderByZero
  | overflow
  deriving DecidableEq, Repr

namespace Undefined

/-- `static_cast<int>`. -/
def toInt (value : UInt32) : Int :=
  if value.toNat < 2 ^ 31 then value.toNat else value.toNat - 2 ^ 32

/-- A result of type `int`. -/
def checked (value : Int) : Except Undefined Int :=
  if -2 ^ 31 ≤ value ∧ value < 2 ^ 31 then .ok value else .error .overflow

/-- The remainder of a number which is not negative. -/
def remainder (left : Nat) (right : Int) : Except Undefined Int :=
  if right = 0 then .error .remainderByZero else .ok ((left : Int).tmod right)

end Undefined

open Undefined

/-- `CandidateWindow::Candidate`, with the two fields of its annotation. -/
structure WireCandidate where
  value : CString
  index : Option UInt32
  description : Option CString
  shortcut : Option CString
  deriving DecidableEq, Repr

/-- `CandidateWindow`; the number of candidates is an `int`. -/
structure WireWindow where
  candidates : List WireCandidate
  pageSize : Option UInt32
  size : Option UInt32
  focusedIndex : Option UInt32
  fits : candidates.length < 2 ^ 31

namespace WireWindow

variable (window : WireWindow)

def shownPageSize : Int := window.pageSize.elim MozcCandidateWindow.defaultPageSize toInt

def total : Int := window.size.elim window.candidates.length toInt

def focused : Int := window.focusedIndex.elim (-1) toInt

def firstIndex : Int := (window.candidates.head?.bind WireCandidate.index).elim 0 toInt

/-- The shortcut of a candidate, or its number. -/
def label (index : Nat) (candidate : WireCandidate) : Except Undefined CString :=
  match candidate.shortcut with
  | some shortcut => .ok shortcut
  | none => do
      let position ← remainder index window.shownPageSize
      -- a position on the page is below the number of candidates, which is an `int`
      return decimal (position + 1).toNat

/-- The loop over the candidates, from an index on. -/
def items (index : Nat) : List WireCandidate → Except Undefined (List TypioCandidate)
  | [] => .ok []
  | candidate :: candidates => do
      let label ← window.label index candidate
      let later ← items (index + 1) candidates
      return { text := candidate.value, comment := candidate.description, label } :: later

/-- The focused candidate, counted from the first one of the window. -/
def convertFocused : Except Undefined Int :=
  if 0 ≤ window.focused then checked (window.focused - window.firstIndex) else .ok (-1)

/-- The candidate part of `mozc_sync_output`. -/
def convert : Except Undefined TypioCandidateList :=
  if window.candidates.isEmpty then .ok .empty
  else do
    let candidates ← window.items 0 window.candidates
    let selected ← window.convertFocused
    let beyond ← checked (window.firstIndex + window.candidates.length)
    return {
      candidates
      page := if 0 < window.shownPageSize then window.firstIndex.tdiv window.shownPageSize else 0
      pageSize := window.shownPageSize
      total := window.total
      selected
      hasPrev := 0 < window.firstIndex
      hasNext := beyond < window.total }

/-! ## The property and the condition -/

/-- The numbers in the message, with their defaults. -/
def pageLength : Nat := window.pageSize.elim 9 UInt32.toNat

def number : Nat := window.size.elim window.candidates.length UInt32.toNat

def first : Nat := (window.candidates.head?.bind WireCandidate.index).elim 0 UInt32.toNat

/-- The list shows the window: its selection is one of the candidates, a candidate without a
shortcut has its position on the page, and there are pages before and after it as in the message. -/
structure Shows (list : TypioCandidateList) : Prop where
  selected : list.selected = -1 ∨ 0 ≤ list.selected ∧ list.selected < window.candidates.length
  labels : ∀ index candidate, window.candidates[index]? = some candidate →
    candidate.shortcut = none →
      list.candidates[index]?.map TypioCandidate.label =
        some (decimal (index % window.pageLength + 1))
  hasPrev : list.hasPrev = true ↔ window.candidates ≠ [] ∧ 0 < window.first
  hasNext : list.hasNext = true ↔
    window.candidates ≠ [] ∧ window.first + window.candidates.length < window.number

/-- Every candidate without a shortcut can be numbered. -/
def Numbered : Prop :=
  ∀ index candidate, window.candidates[index]? = some candidate → candidate.shortcut = none →
    window.pageLength ≠ 0 ∧
      (window.pageLength < 2 ^ 31 ∨ index + window.pageLength < 2 ^ 32)

/-- The focused candidate is in the window, or the last one before it, or there is none. -/
def FocusInside : Prop :=
  ∀ focused, window.focusedIndex = some focused →
    2 ^ 31 ≤ focused.toNat ∨ focused.toNat + 1 = window.first ∨
      (window.first ≤ focused.toNat ∧ focused.toNat < window.first + window.candidates.length)

/-- The numbers of a window with candidates fit in an `int` and do not contradict each other. -/
def Consistent : Prop :=
  window.candidates ≠ [] → window.Numbered ∧ window.FocusInside ∧
    window.first + window.candidates.length < 2 ^ 31 ∧ window.number < 2 ^ 31

/-- The candidate with its number converted. -/
def word (candidate : WireCandidate) : MozcCandidateWord :=
  { value := candidate.value, index := candidate.index.map toInt,
    description := candidate.description, shortcut := candidate.shortcut }

/-- The window with its numbers converted. -/
def toMozc : MozcCandidateWindow where
  candidates := window.candidates.map word
  pageSize := window.pageSize.map toInt
  size := window.size.map toInt
  focusedIndex := window.focusedIndex.map toInt

/-- Each step of the conversion has a defined result. -/
structure Defined : Prop where
  numbered : ∀ candidate ∈ window.candidates, candidate.shortcut = none → window.shownPageSize ≠ 0
  selected : 0 ≤ window.focused → window.focused - window.firstIndex < 2 ^ 31
  beyond : window.firstIndex + window.candidates.length < 2 ^ 31

/-! ## The numbers -/

theorem toInt_of_lt {value : UInt32} (small : value.toNat < 2 ^ 31) : toInt value = value.toNat :=
  if_pos small

theorem toInt_of_le {value : UInt32} (large : 2 ^ 31 ≤ value.toNat) :
    toInt value = value.toNat - 2 ^ 32 :=
  if_neg (Nat.not_lt.mpr large)

theorem toInt_range (value : UInt32) : -2 ^ 31 ≤ toInt value ∧ toInt value < 2 ^ 31 := by
  have below := value.toNat_lt
  unfold toInt
  split <;> omega

theorem digits_of_decimal (number : Nat) :
    (decimal number).map (fun byte => Char.ofNat byte.toNat) = Nat.toDigits 10 number := by
  rw [decimal, List.map_map]
  refine (List.map_congr_left fun digit member => ?_).trans (List.map_id _)
  have isDigit := Nat.isDigit_of_mem_toDigits (by decide) (by decide) member
  have small : digit.toNat < 256 := by
    simp only [Char.isDigit, Bool.and_eq_true, decide_eq_true_eq] at isDigit
    have below : digit.val.toNat ≤ 57 := isDigit.2
    change digit.val.toNat < 256
    omega
  change Char.ofNat (UInt8.ofNat digit.toNat).toNat = digit
  rw [UInt8.toNat_ofNat_of_lt' small, Char.ofNat_toNat]

/-- Numbers in decimal are the same only if the numbers are. -/
theorem decimal_injective {left right : Nat} (same : decimal left = decimal right) :
    left = right := by
  rw [← @Nat.ofDigitChars_ten_toDigits left, ← digits_of_decimal, same, digits_of_decimal,
    Nat.ofDigitChars_ten_toDigits]

theorem elim_range {number : Option UInt32} {absent : Int}
    (fits : -2 ^ 31 ≤ absent ∧ absent < 2 ^ 31) :
    -2 ^ 31 ≤ number.elim absent toInt ∧ number.elim absent toInt < 2 ^ 31 := by
  cases number with
  | none =>
      rw [Option.elim_none]
      exact fits
  | some value =>
      rw [Option.elim_some]
      exact toInt_range value

theorem firstIndex_range : -2 ^ 31 ≤ window.firstIndex ∧ window.firstIndex < 2 ^ 31 :=
  elim_range (by omega)

/-! ## The conversion -/

theorem ok_bind {α β : Type} (value : α) (next : α → Except Undefined β) :
    (Except.ok value >>= next) = next value := rfl

theorem error_bind {α β : Type} (fault : Undefined) (next : α → Except Undefined β) :
    (Except.error fault >>= next) = .error fault := rfl

theorem toMozc_shownPageSize : window.toMozc.shownPageSize = window.shownPageSize := by
  unfold MozcCandidateWindow.shownPageSize shownPageSize toMozc
  cases window.pageSize with
  | none => simp
  | some pageSize => simp

theorem toMozc_firstIndex : window.toMozc.firstIndex = window.firstIndex := by
  unfold MozcCandidateWindow.firstIndex firstIndex toMozc
  cases window.candidates with
  | nil => rfl
  | cons candidate candidates => cases index_eq : candidate.index <;> simp [word, index_eq]

theorem toMozc_total : window.toMozc.total = window.total := by
  unfold MozcCandidateWindow.total total toMozc
  cases window.size with
  | none => simp
  | some size => simp

/-- The candidate which is shown, if there is one. -/
def shown (index : Nat) (candidate : WireCandidate) : TypioCandidate where
  text := candidate.value
  comment := candidate.description
  label := candidate.shortcut.getD (decimal ((index : Int).tmod window.shownPageSize + 1).toNat)

theorem items_eq (index : Nat) {candidates : List WireCandidate}
    (numbered : ∀ candidate ∈ candidates, candidate.shortcut = none → window.shownPageSize ≠ 0) :
    window.items index candidates =
      .ok (candidates.mapIdx fun offset => window.shown (index + offset)) := by
  induction candidates generalizing index with
  | nil => rfl
  | cons candidate candidates induction =>
      obtain ⟨here, later⟩ := List.forall_mem_cons.mp numbered
      have labelled : window.label index candidate = .ok (window.shown index candidate).label := by
        unfold label shown
        cases named : candidate.shortcut with
        | some shortcut => rfl
        | none =>
            simp only [remainder, if_neg (here named)]
            rfl
      rw [items, labelled, ok_bind, induction (index + 1) later, ok_bind, List.mapIdx_cons]
      simp only [Nat.add_right_comm, Nat.add_assoc]
      rfl

theorem items_error (index : Nat) {candidates : List WireCandidate} {candidate : WireCandidate}
    (member : candidate ∈ candidates) (unnamed : candidate.shortcut = none)
    (zero : window.shownPageSize = 0) :
    window.items index candidates = .error .remainderByZero := by
  induction candidates generalizing index with
  | nil => cases member
  | cons head candidates induction =>
      cases named : head.shortcut with
      | none => simp only [items, label, named, remainder, if_pos zero, error_bind]
      | some shortcut =>
          have later : candidate ∈ candidates := by
            obtain rfl | later := List.mem_cons.mp member
            · rw [unnamed] at named
              cases named
            · exact later
          simp only [items, label, named, ok_bind, induction (index + 1) later, error_bind]

/-- The selection, where it is defined. -/
def selection : Int := if 0 ≤ window.focused then window.focused - window.firstIndex else -1

/-- The list of a window with candidates, where it is defined. -/
def shownList : TypioCandidateList where
  candidates := window.candidates.mapIdx window.shown
  page := if 0 < window.shownPageSize then window.firstIndex.tdiv window.shownPageSize else 0
  pageSize := window.shownPageSize
  total := window.total
  selected := window.selection
  hasPrev := 0 < window.firstIndex
  hasNext := window.firstIndex + window.candidates.length < window.total

theorem toMozc_label (index : Nat) (candidate : WireCandidate) :
    window.toMozc.label index (word candidate) = (window.shown index candidate).label := by
  unfold MozcCandidateWindow.label shown word
  rw [toMozc_shownPageSize]
  cases candidate.shortcut <;> rfl

theorem toMozc_list (filled : window.candidates ≠ []) : window.toMozc.list = window.shownList := by
  have still : ¬ window.toMozc.candidates.isEmpty := by simpa [toMozc] using filled
  have items : window.toMozc.candidates.mapIdx (fun index word =>
      ({ text := word.value, comment := word.description,
         label := window.toMozc.label index word } : TypioCandidate)) =
        window.candidates.mapIdx window.shown := by
    have mapped : window.toMozc.candidates = window.candidates.map word := rfl
    refine List.ext_getElem? fun index => ?_
    rw [List.getElem?_mapIdx, List.getElem?_mapIdx, mapped, List.getElem?_map, Option.map_map]
    refine congrArg (Option.map · _) (funext fun candidate => ?_)
    rw [Function.comp_apply, toMozc_label]
    rfl
  have focus : window.toMozc.focusedIndex = window.focusedIndex.map toInt := rfl
  have count : window.toMozc.candidates.length = window.candidates.length := by simp [toMozc]
  unfold MozcCandidateWindow.list shownList selection focused
  rw [if_neg still, items, toMozc_shownPageSize, toMozc_firstIndex, toMozc_total, count, focus]
  cases window.focusedIndex <;> rfl

theorem convertFocused_eq : window.convertFocused =
    if 0 ≤ window.focused → window.focused - window.firstIndex < 2 ^ 31 then .ok window.selection
    else .error .overflow := by
  have below := window.firstIndex_range.2
  unfold convertFocused selection checked
  by_cases focuses : 0 ≤ window.focused
  · have above : -2 ^ 31 ≤ window.focused - window.firstIndex := by omega
    simp only [focuses, above, true_and, forall_const, if_true]
  · simp only [focuses, if_false, false_implies, if_true]

theorem beyond_eq : checked (window.firstIndex + window.candidates.length) =
    if window.firstIndex + window.candidates.length < 2 ^ 31 then
      .ok (window.firstIndex + window.candidates.length) else .error .overflow := by
  have above := window.firstIndex_range.1
  have still : -2 ^ 31 ≤ window.firstIndex + window.candidates.length := by omega
  simp only [checked, still, true_and]

/-- The conversion is that of the converted numbers if and only if each step is defined. -/
theorem convert_eq_ok_iff {list : TypioCandidateList} :
    window.convert = .ok list ↔
      (window.candidates ≠ [] → window.Defined) ∧ list = window.toMozc.list := by
  by_cases empty : window.candidates = []
  · simp [convert, empty, MozcCandidateWindow.list, toMozc, eq_comm]
  have filled : ¬ window.candidates.isEmpty := by simpa using empty
  rw [window.toMozc_list empty, convert, if_neg filled, convertFocused_eq, beyond_eq]
  simp only [ne_eq, empty, not_false_eq_true, forall_const]
  by_cases numbered : ∀ candidate ∈ window.candidates, candidate.shortcut = none →
      window.shownPageSize ≠ 0
  · rw [window.items_eq 0 numbered, ok_bind]
    by_cases selected : 0 ≤ window.focused → window.focused - window.firstIndex < 2 ^ 31
    · by_cases beyond : window.firstIndex + window.candidates.length < 2 ^ 31
      · rw [if_pos selected, if_pos beyond, and_iff_right ⟨numbered, selected, beyond⟩]
        simp only [Nat.zero_add]
        change Except.ok window.shownList = .ok list ↔ list = window.shownList
        rw [Except.ok.injEq, eq_comm]
      · rw [if_pos selected, if_neg beyond]
        exact iff_of_false nofun fun ⟨defined, _⟩ => beyond defined.beyond
    · rw [if_neg selected]
      exact iff_of_false nofun fun ⟨defined, _⟩ => selected defined.selected
  · obtain ⟨candidate, member, unnamed, zero⟩ : ∃ candidate ∈ window.candidates,
        candidate.shortcut = none ∧ window.shownPageSize = 0 := by simpa using numbered
    rw [window.items_error 0 member unnamed zero]
    exact iff_of_false nofun fun ⟨defined, _⟩ => numbered defined.numbered

/-! ## What is shown -/

/-- A number of the message and the signed number made of it are the same unless it is too large. -/
theorem elim_cases (number : Option UInt32) (absent : Nat) (fits : absent < 2 ^ 31) :
    (number.elim (absent : Int) toInt = number.elim absent UInt32.toNat ∧
        number.elim absent UInt32.toNat < 2 ^ 31) ∨
      (number.elim (absent : Int) toInt = number.elim absent UInt32.toNat - 2 ^ 32 ∧
        2 ^ 31 ≤ number.elim absent UInt32.toNat ∧ number.elim absent UInt32.toNat < 2 ^ 32) := by
  cases number with
  | none => exact .inl ⟨rfl, fits⟩
  | some value =>
      rw [Option.elim_some, Option.elim_some]
      obtain small | large := Nat.lt_or_ge value.toNat (2 ^ 31)
      · exact .inl ⟨toInt_of_lt small, small⟩
      · exact .inr ⟨toInt_of_le large, large, value.toNat_lt⟩

theorem firstIndex_cases : (window.firstIndex = window.first ∧ window.first < 2 ^ 31) ∨
    (window.firstIndex = window.first - 2 ^ 32 ∧ 2 ^ 31 ≤ window.first ∧
      window.first < 2 ^ 32) :=
  elim_cases _ 0 (by omega)

theorem total_cases : (window.total = window.number ∧ window.number < 2 ^ 31) ∨
    (window.total = window.number - 2 ^ 32 ∧ 2 ^ 31 ≤ window.number ∧ window.number < 2 ^ 32) :=
  elim_cases _ _ window.fits

theorem shownPageSize_cases : (window.shownPageSize = window.pageLength ∧
      window.pageLength < 2 ^ 31) ∨
    (window.shownPageSize = window.pageLength - 2 ^ 32 ∧ 2 ^ 31 ≤ window.pageLength ∧
      window.pageLength < 2 ^ 32) :=
  elim_cases _ 9 (by omega)

/-- A candidate is numbered by its position on the page if and only if the page has a length, and
this is no too large a number. -/
theorem position_iff {index : Nat} (fits : index < 2 ^ 31) :
    (window.shownPageSize ≠ 0 ∧
      ((index : Int).tmod window.shownPageSize + 1).toNat = index % window.pageLength + 1) ↔
    window.pageLength ≠ 0 ∧ (window.pageLength < 2 ^ 31 ∨ index + window.pageLength < 2 ^ 32) := by
  obtain ⟨same, small⟩ | ⟨wrapped, large, below⟩ := window.shownPageSize_cases
  · have remainder : (index : Int).tmod window.pageLength = (index % window.pageLength : Nat) := by
      rw [Int.ofNat_tmod]
    rw [same, remainder]
    omega
  · obtain ⟨rest, rest_eq⟩ : ∃ rest : Nat, rest = 2 ^ 32 - window.pageLength := ⟨_, rfl⟩
    have negated : window.shownPageSize = -(rest : Int) := by omega
    have remainder : (index : Int).tmod (-(rest : Int)) = (index % rest : Nat) := by
      rw [Int.tmod_neg, Int.ofNat_tmod]
    have whole : index % window.pageLength = index := Nat.mod_eq_of_lt (by omega)
    have rest_iff : index % rest = index ↔ index < rest := by
      rw [Nat.mod_eq_iff_lt (by omega)]
    rw [negated, remainder, whole]
    omega

theorem hasPrev_iff : (0 < window.firstIndex ↔ 0 < window.first) ↔ window.first < 2 ^ 31 := by
  obtain ⟨same, small⟩ | ⟨wrapped, large, below⟩ := window.firstIndex_cases <;> omega

theorem hasNext_iff (same : window.firstIndex = window.first)
    (fits : window.first + window.candidates.length < 2 ^ 31) :
    (window.firstIndex + window.candidates.length < window.total ↔
      window.first + window.candidates.length < window.number) ↔ window.number < 2 ^ 31 := by
  obtain ⟨same', small⟩ | ⟨wrapped, large, below⟩ := window.total_cases <;> omega

theorem focusInside_iff (same : window.firstIndex = window.first) :
    (window.selection = -1 ∨
      0 ≤ window.selection ∧ window.selection < window.candidates.length) ↔
      window.FocusInside := by
  unfold FocusInside selection
  cases given : window.focusedIndex with
  | none =>
      have absent : window.focused = -1 := by rw [focused, given, Option.elim_none]
      rw [absent]
      exact iff_of_true (.inl rfl) nofun
  | some value =>
      have present : window.focused = toInt value := by rw [focused, given, Option.elim_some]
      simp only [Option.some.injEq, forall_eq']
      obtain small | large := Nat.lt_or_ge value.toNat (2 ^ 31)
      · rw [present, toInt_of_lt small, if_pos (by omega)]
        omega
      · have below := value.toNat_lt
        rw [present, toInt_of_le large, if_neg (by omega)]
        omega

theorem Defined.of_focus (numbered : ∀ candidate ∈ window.candidates, candidate.shortcut = none →
    window.shownPageSize ≠ 0) (same : window.firstIndex = window.first)
    (focus : window.selection = -1 ∨
      0 ≤ window.selection ∧ window.selection < window.candidates.length)
    (beyond : window.first + window.candidates.length < 2 ^ 31) : window.Defined where
  numbered := numbered
  selected := by
    intro focuses
    have fits := window.fits
    rw [selection, if_pos focuses] at focus
    omega
  beyond := by omega

theorem numbered_iff : ((∀ candidate ∈ window.candidates, candidate.shortcut = none →
      window.shownPageSize ≠ 0) ∧
    ∀ index candidate, window.candidates[index]? = some candidate → candidate.shortcut = none →
      window.shownList.candidates[index]?.map TypioCandidate.label =
        some (decimal (index % window.pageLength + 1))) ↔ window.Numbered := by
  have labelled : ∀ {index candidate}, window.candidates[index]? = some candidate →
      candidate.shortcut = none →
        (window.shownList.candidates[index]?.map TypioCandidate.label =
          some (decimal (index % window.pageLength + 1)) ↔
        ((index : Int).tmod window.shownPageSize + 1).toNat = index % window.pageLength + 1) := by
    intro index candidate found unnamed
    rw [shownList, List.getElem?_mapIdx, found, Option.map_some, Option.map_some, shown, unnamed,
      Option.getD_none, Option.some.injEq]
    exact ⟨decimal_injective, congrArg decimal⟩
  have position : ∀ {index candidate}, window.candidates[index]? = some candidate →
      index < 2 ^ 31 := by
    intro index candidate found
    have below : index < window.candidates.length := (List.getElem?_eq_some_iff.mp found).choose
    exact below.trans window.fits
  constructor
  · rintro ⟨divides, labels⟩ index candidate found unnamed
    exact (window.position_iff (position found)).mp
      ⟨divides candidate (List.mem_of_getElem? found) unnamed,
        (labelled found unnamed).mp (labels index candidate found unnamed)⟩
  · intro numbered
    constructor
    · intro candidate member unnamed
      obtain ⟨index, found⟩ := List.mem_iff_getElem?.mp member
      exact ((window.position_iff (position found)).mpr
        (numbered index candidate found unnamed)).1
    · intro index candidate found unnamed
      exact (labelled found unnamed).mpr
        ((window.position_iff (position found)).mpr (numbered index candidate found unnamed)).2

theorem shows_of_empty (empty : window.candidates = []) {list : TypioCandidateList}
    (selected : list.selected = -1) (hasPrev : list.hasPrev = false)
    (hasNext : list.hasNext = false) : window.Shows list where
  selected := .inl selected
  labels := by simp [empty]
  hasPrev := by simp [hasPrev, empty]
  hasNext := by simp [hasNext, empty]

theorem shows_iff (filled : window.candidates ≠ []) :
    window.Defined ∧ window.Shows window.shownList ↔ window.Consistent := by
  have before : window.shownList.hasPrev = true ↔ 0 < window.firstIndex := decide_eq_true_iff
  have after : window.shownList.hasNext = true ↔
      window.firstIndex + window.candidates.length < window.total := decide_eq_true_iff
  constructor
  · rintro ⟨defined, shows⟩ -
    have small : window.first < 2 ^ 31 := by
      rw [← hasPrev_iff, ← before, shows.hasPrev, and_iff_right filled]
    have same : window.firstIndex = window.first := by
      obtain ⟨same, -⟩ | ⟨-, large, -⟩ := window.firstIndex_cases <;> omega
    have fits : window.first + window.candidates.length < 2 ^ 31 := by
      have beyond := defined.beyond
      omega
    refine ⟨window.numbered_iff.mp ⟨defined.numbered, shows.labels⟩,
      (window.focusInside_iff same).mp shows.selected, fits, ?_⟩
    rw [← window.hasNext_iff same fits, ← after, shows.hasNext, and_iff_right filled]
  · intro consistent
    obtain ⟨numbered, inside, fits, number⟩ := consistent filled
    have same : window.firstIndex = window.first := by
      obtain ⟨same, -⟩ | ⟨-, large, -⟩ := window.firstIndex_cases <;> omega
    obtain ⟨divides, labels⟩ := window.numbered_iff.mpr numbered
    have focus := (window.focusInside_iff same).mpr inside
    refine ⟨.of_focus window divides same focus fits, focus, labels, ?_, ?_⟩
    · rw [before, and_iff_right filled, window.hasPrev_iff]
      omega
    · rw [after, and_iff_right filled, window.hasNext_iff same fits]
      exact number

end WireWindow

/-! ## Messages -/

/-- An output of the server whose candidate window is as it is on the wire. -/
structure WireOutput where
  output : MozcOutput
  window : Option WireWindow

namespace WireOutput

variable (message : WireOutput)

/-- The output with the numbers of its candidate window converted. -/
def toMozc : MozcOutput :=
  { message.output with candidateWindow := message.window.map WireWindow.toMozc }

/-- The composition `mozc_sync_output` builds. -/
def composition : Except Undefined TypioComposition := do
  let candidates ← message.window.elim (.ok .empty) WireWindow.convert
  return { message.toMozc.composition with candidates }

/-- The composition shows the candidate window, if there is one. -/
def Shows (composition : TypioComposition) : Prop :=
  ∀ window ∈ message.window, window.Shows composition.candidates

def Consistent : Prop := ∀ window ∈ message.window, window.Consistent

/-- Each step of the conversion has a defined result. -/
def Defined : Prop := ∀ window ∈ message.window, window.candidates ≠ [] → window.Defined

theorem composition_eq_ok_iff {composition : TypioComposition} :
    message.composition = .ok composition ↔
      message.Defined ∧ composition = message.toMozc.composition := by
  unfold WireOutput.composition Defined
  cases given : message.window with
  | none =>
      have absent : { message.toMozc.composition with candidates := .empty } =
          message.toMozc.composition := by
        simp [MozcOutput.composition, toMozc, given]
      change Except.ok { message.toMozc.composition with candidates := .empty } =
        Except.ok composition ↔ _
      rw [absent, Except.ok.injEq, eq_comm]
      simp
  | some window =>
      have present : { message.toMozc.composition with candidates := window.toMozc.list } =
          message.toMozc.composition := by
        simp [MozcOutput.composition, toMozc, given]
      simp only [Option.mem_def, Option.some.injEq, forall_eq']
      rw [Option.elim_some, ← present]
      cases converted : window.convert with
      | error fault =>
          refine iff_of_false nofun fun ⟨defined, _⟩ => ?_
          rw [window.convert_eq_ok_iff.mpr ⟨defined, rfl⟩] at converted
          cases converted
      | ok list =>
          obtain ⟨defined, rfl⟩ := window.convert_eq_ok_iff.mp converted
          rw [and_iff_right defined]
          change Except.ok _ = Except.ok composition ↔ _
          rw [Except.ok.injEq, eq_comm]

end WireOutput

namespace MozcHost

variable (host : MozcHost)

/-- `mozc_sync_output`, where the numbers of the candidate window are as they are on the wire. -/
def syncWire (message : WireOutput) (session : MozcSession) : Except Undefined (MozcHost × Bool) :=
  let output := message.toMozc
  let context := if output.text.isEmpty then host.context else host.context.commit output.text
  do
    let composition ← message.composition
    return ({ host with
        context := context.sync composition
        session := some (session.update output) }, composition.active)

/-- Where each step is defined, it is the synchronization of the converted numbers. -/
theorem syncWire_eq_ok_iff {message : WireOutput} {synced : MozcHost × Bool}
    (session : MozcSession) : host.syncWire message session = .ok synced ↔
      message.Defined ∧ synced = host.syncOutput message.toMozc session := by
  unfold syncWire
  cases built : message.composition with
  | error fault =>
      refine iff_of_false nofun fun ⟨defined, _⟩ => ?_
      rw [message.composition_eq_ok_iff.mpr ⟨defined, rfl⟩] at built
      cases built
  | ok composition =>
      obtain ⟨defined, rfl⟩ := message.composition_eq_ok_iff.mp built
      rw [and_iff_right defined]
      change Except.ok (host.syncOutput message.toMozc session) = Except.ok synced ↔ _
      rw [Except.ok.injEq, eq_comm]

/-- The composition of the context after a synchronization. -/
theorem syncOutput_candidates (output : MozcOutput) (session : MozcSession) :
    (host.syncOutput output session).1.context.composition.candidates =
        output.composition.candidates ∨
      output.composition.candidates.candidates = [] ∧ ∃ list : TypioCandidateList,
        (host.syncOutput output session).1.context.composition.candidates = list.cleared := by
  unfold syncOutput InputContext.sync
  dsimp only
  split
  · exact .inl rfl
  · next idle =>
      refine .inr ⟨?_, _, rfl⟩
      rw [TypioComposition.active, Bool.or_eq_true, not_or] at idle
      simpa using idle.2

/-- No step of the synchronization is undefined and the context shows the candidate window as it
is in the message, if and only if the numbers of the message are consistent. -/
theorem syncWire_shows_iff (message : WireOutput) (session : MozcSession) :
    (∃ synced, host.syncWire message session = .ok synced ∧
      message.Shows synced.1.context.composition) ↔ message.Consistent := by
  have shown : (∃ synced, host.syncWire message session = .ok synced ∧
      message.Shows synced.1.context.composition) ↔ message.Defined ∧
        message.Shows (host.syncOutput message.toMozc session).1.context.composition := by
    simp only [syncWire_eq_ok_iff]
    constructor
    · rintro ⟨_, ⟨defined, rfl⟩, shows⟩
      exact ⟨defined, shows⟩
    · rintro ⟨defined, shows⟩
      exact ⟨_, ⟨defined, rfl⟩, shows⟩
  rw [shown]
  unfold WireOutput.Defined WireOutput.Shows WireOutput.Consistent
  cases given : message.window with
  | none => simp
  | some window =>
      simp only [Option.mem_def, Option.some.injEq, forall_eq']
      have list : message.toMozc.composition.candidates = window.toMozc.list := by
        simp [MozcOutput.composition, WireOutput.toMozc, given]
      have context := host.syncOutput_candidates message.toMozc session
      rw [list] at context
      by_cases empty : window.candidates = []
      · refine iff_of_true ⟨fun filled => absurd empty filled, ?_⟩ fun filled =>
          absurd empty filled
        have none : window.toMozc.list = .empty := by
          simp [MozcCandidateWindow.list, WireWindow.toMozc, empty]
        obtain same | ⟨-, old, cleared⟩ := context
        · rw [same, none]
          exact window.shows_of_empty empty rfl rfl rfl
        · rw [cleared]
          exact window.shows_of_empty empty rfl rfl rfl
      · have filled : window.shownList.candidates ≠ [] := by
          simpa [WireWindow.shownList] using empty
        rw [window.toMozc_list empty] at context
        obtain same | ⟨none, -⟩ := context
        · rw [same, ← window.shows_iff empty]
          simp only [ne_eq, empty, not_false_eq_true, forall_const]
        · exact absurd none filled

/-- A window with one candidate, which has no shortcut, and the page size zero: the remainder for
its number has no result. -/
theorem zero_page_size_undefined :
    let host : MozcHost := ⟨.new, some ⟨.hiragana⟩, none, [], .idle⟩
    let window : WireWindow := ⟨[⟨[0x61], some 0, none, none⟩], some 0, some 1, none, by decide⟩
    let message : WireOutput := ⟨⟨true, none, none, none, none, none⟩, some window⟩
    ¬ ∃ synced, host.syncWire message ⟨.hiragana⟩ = .ok synced ∧
      message.Shows synced.1.context.composition := by
  intro host window message
  rintro ⟨synced, defined, -⟩
  have trapped : host.syncWire message ⟨.hiragana⟩ = .error .remainderByZero := rfl
  rw [trapped] at defined
  cases defined

end MozcHost

end Engines

end Typio
