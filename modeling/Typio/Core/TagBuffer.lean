import Typio.Core.VoiceTags
import Typio.Utf8Lossy

/-!
# The tag filter in its buffer

The filter of a transcription works in the buffer it is handed: the bytes are decoded, filtered,
encoded and written back.  Decoding puts a replacement character of three bytes for each malformed
sequence, which may be one byte long, so what is written back fits exactly when the removed tags
free as many bytes as the replacement characters and the separating spaces add.
-/

namespace Typio

namespace Core

open StrSlice Utf8Lossy

/-- What `typio_voice_filter_tags_inplace` writes over a string, terminator included. -/
def filterTagsInplace (string : List UInt8) : List UInt8 :=
  (filterTags (decodeLossy string)).flatMap String.utf8EncodeChar ++ [0]

theorem length_filterTagsInplace (string : List UInt8) :
    (filterTagsInplace string).length = byteLength (filterTags (decodeLossy string)) + 1 := by
  rw [filterTagsInplace, List.length_append, List.length_flatMap, byteLength]
  simp [String.length_utf8EncodeChar]

/-! ## The ledger of a string -/

/-- The bytes the pieces were read from. -/
def readFrom (pieces : List Piece) : Nat := (pieces.map Piece.size).sum

/-- The pieces behind the first `]`. -/
def closePieces : List Piece → Option (List Piece)
  | [] => none
  | piece :: pieces => if piece.toChar = ']' then some pieces else closePieces pieces

def skipSpacePieces (pieces : List Piece) : List Piece := pieces.dropWhile (·.toChar == ' ')

/-- The bytes a replacement character adds to its malformed sequence. -/
def growth (piece : Piece) : Nat := piece.toChar.utf8Size - piece.size

structure Ledger where
  added : Nat
  freed : Nat
  deriving DecidableEq, Repr

def Ledger.charge (ledger : Ledger) (added freed : Nat) : Ledger :=
  ⟨ledger.added + added, ledger.freed + freed⟩

theorem length_of_closePieces {pieces rest : List Piece} (closed : closePieces pieces = some rest) :
    rest.length < pieces.length := by
  induction pieces with
  | nil => cases closed
  | cons piece pieces induction =>
      rw [closePieces] at closed
      split at closed
      · obtain rfl := Option.some.inj closed
        exact Nat.lt_succ_self _
      · exact (induction closed).trans (Nat.lt_succ_self _)

/-- The bytes that the replacement characters outside the tags and the separating spaces add, and
those of the tags with their spaces and of the text behind a bracket which is never closed.
`separable` says that the kept text ends with a character other than a space. -/
def ledger (separable : Bool) : List Piece → Ledger
  | [] => ⟨0, 0⟩
  | piece :: pieces =>
      if piece.toChar = '[' then
        match _closed : closePieces pieces with
        | some rest =>
            (ledger (separable && (skipSpacePieces rest).isEmpty) (skipSpacePieces rest)).charge
              (separable && !(skipSpacePieces rest).isEmpty).toNat
              (readFrom (piece :: pieces) - readFrom (skipSpacePieces rest))
        | none => ⟨growth piece, readFrom pieces⟩
      else (ledger (piece.toChar != ' ') pieces).charge (growth piece) 0
termination_by pieces => pieces.length
decreasing_by
  · have shorter := length_of_closePieces _closed
    have skipped : (skipSpacePieces rest).length ≤ rest.length := List.length_dropWhile_le ..
    simp only [List.length_cons]
    omega
  · simp

/-- The bytes added are no more than the bytes freed. -/
def Balanced (string : List UInt8) : Prop :=
  (ledger false (pieces string)).added ≤ (ledger false (pieces string)).freed

/-! ## The filter on pieces -/

section Letters

@[simp] theorem readFrom_cons (piece : Piece) (pieces : List Piece) :
    readFrom (piece :: pieces) = piece.size + readFrom pieces := by simp [readFrom]

theorem readFrom_le_of_suffix {few many : List Piece} (suffix : few <:+ many) :
    readFrom few ≤ readFrom many := by
  obtain ⟨front, rfl⟩ := suffix
  simp [readFrom]

theorem closeTag_map (pieces : List Piece) :
    closeTag (pieces.map Piece.toChar) =
      (closePieces pieces).map (List.map Piece.toChar) := by
  induction pieces with
  | nil => rfl
  | cons piece pieces induction =>
      rw [List.map_cons, closeTag, closePieces]
      split
      · rfl
      · exact induction

theorem skipSpaces_map (pieces : List Piece) :
    skipSpaces (pieces.map Piece.toChar) = (skipSpacePieces pieces).map Piece.toChar :=
  List.dropWhile_map ..

theorem suffix_of_closePieces {pieces rest : List Piece} (closed : closePieces pieces = some rest) :
    rest <:+ pieces := by
  induction pieces with
  | nil => cases closed
  | cons piece pieces induction =>
      rw [closePieces] at closed
      split at closed
      · obtain rfl := Option.some.inj closed
        exact List.suffix_cons ..
      · exact (induction closed).trans (List.suffix_cons ..)

theorem suffix_of_skipped {pieces rest : List Piece} (closed : closePieces pieces = some rest) :
    skipSpacePieces rest <:+ pieces :=
  (List.dropWhile_suffix _).trans (suffix_of_closePieces closed)

end Letters

/-- The kept text ends with a character other than a space. -/
def Separable (result : Str) : Prop := result ≠ [] ∧ ¬ endsWith result ' '

theorem separable_concat (result : Str) (char : Char) :
    Separable (result ++ [char]) ↔ char ≠ ' ' := by
  simp [Separable, endsWith]

/-- A step over a character accounts for its bytes. -/
theorem byteLength_concat {piece : Piece} (sized : piece.size ≤ piece.toChar.utf8Size)
    (result : Str) :
    byteLength (result ++ [piece.toChar]) = byteLength result + piece.size + growth piece := by
  rw [byteLength_append, byteLength_cons, byteLength_nil, growth]
  omega

theorem separate_separable {separable : Bool} {result chars : Str}
    (same : separable = true ↔ Separable result) :
    ((separable && chars.isEmpty) = true ↔ Separable (separate result chars)) ∧
      byteLength (separate result chars) =
        byteLength result + (separable && !chars.isEmpty).toNat := by
  unfold separate
  by_cases empty : chars = []
  · subst empty
    simp [same]
  · have filled : chars.isEmpty = false := by simpa using empty
    have stops : ¬ Separable (result ++ [' ']) := by simp [separable_concat]
    split
    next separated =>
      have holds : separable = true := same.mpr ⟨separated.1, separated.2.2⟩
      simp [filled, holds, stops, Char.utf8Size]
    next kept =>
      have fails : ¬ Separable result := fun holds => kept ⟨holds.1, empty, holds.2⟩
      have holds : separable = false := by simpa using same.not.mpr fails
      simp [holds, fails]

/-- What the filter writes and what it frees are what it read and what it adds. -/
theorem byteLength_filterLoop {separable : Bool} {result : Str} {pieces : List Piece}
    (sized : ∀ piece ∈ pieces, piece.size ≤ piece.toChar.utf8Size)
    (same : separable = true ↔ Separable result) :
    byteLength (filterLoop result (pieces.map Piece.toChar)) + (ledger separable pieces).freed =
      byteLength result + readFrom pieces + (ledger separable pieces).added := by
  fun_induction ledger separable pieces generalizing result with
  | case1 separable => simp [filterLoop, readFrom]
  | case2 separable piece pieces opens rest closed induction =>
      have suffix := suffix_of_skipped closed
      have fewer := readFrom_le_of_suffix suffix
      have letters : closeTag (pieces.map Piece.toChar) = some (rest.map Piece.toChar) := by
        rw [closeTag_map, closed, Option.map_some]
      have separated :=
        @separate_separable separable result ((skipSpacePieces rest).map Piece.toChar) same
      have later := @induction (separate result ((skipSpacePieces rest).map Piece.toChar))
        (fun piece member => sized piece (List.mem_cons_of_mem _ (suffix.mem member)))
        (by simpa using separated.1)
      rw [separated.2, List.isEmpty_map] at later
      rw [List.map_cons, opens, filterLoop_tag letters, skipSpaces_map]
      simp only [Ledger.charge]
      rw [readFrom_cons]
      omega
  | case3 separable piece pieces opens open_only =>
      have letters : closeTag (pieces.map Piece.toChar) = none := by
        rw [closeTag_map, open_only, Option.map_none]
      have whole := byteLength_concat (sized piece List.mem_cons_self) result
      rw [opens] at whole
      rw [List.map_cons, opens, filterLoop_open letters, whole, readFrom_cons]
      dsimp only
      omega
  | case4 separable piece pieces other induction =>
      have rest := @induction (result ++ [piece.toChar])
        (fun piece member => sized piece (List.mem_cons_of_mem _ member))
        (by rw [separable_concat]; simp)
      rw [byteLength_concat (sized piece List.mem_cons_self)] at rest
      rw [List.map_cons, filterLoop_kept other, readFrom_cons]
      simp only [Ledger.charge]
      omega

/-- For every string, what is written back is at most as long as what was there exactly when the
removed tags free the bytes that replacement characters and separating spaces add. -/
theorem filterTagsInplace_fits_iff (string : List UInt8) :
    (filterTagsInplace string).length ≤ string.length + 1 ↔ Balanced string := by
  have sized : ∀ piece ∈ pieces string, piece.size ≤ piece.toChar.utf8Size :=
    size_le_of_mem_piecesFrom 0 string
  have start : false = true ↔ Separable [] := by simp [Separable]
  have account := byteLength_filterLoop sized start
  have whole : readFrom (pieces string) = string.length := pieces_size string
  rw [whole, byteLength_nil] at account
  rw [length_filterTagsInplace, filterTags, decodeLossy, Balanced]
  omega

/-- One malformed byte grows to three. -/
theorem malformed_byte_overruns :
    ¬ (filterTagsInplace [0xFF]).length ≤ [(0xFF : UInt8)].length + 1 := by
  have decoded : decodeLossy [0xFF] = ['\uFFFD'] := by decide
  rw [length_filterTagsInplace, decoded, filterTags, filterLoop_kept (by decide), filterLoop]
  decide

/-! ## Well-formed strings -/

end Core

end Typio
