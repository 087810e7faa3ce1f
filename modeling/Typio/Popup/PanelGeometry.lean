import Typio.Boxes
import Typio.Popup.LayoutOwnership

/-!
# Positions in the candidate panel

The sizes of the texts are measured for each candidate, for the preedit and for the mode label; the
vertical and the horizontal layout place rows, texts and labels from them.  The arithmetic on
`float` is exact for halves of integers, and is taken as that of the rationals.
-/

namespace Typio

namespace Popup

open Boxes

/-! ## Constants -/

/-- `POPUP_MIN_WIDTH`. -/
def minWidth : Int := 220

/-- `POPUP_PAD_X`. -/
def padX : Int := 10

/-- `POPUP_PAD_Y`. -/
def padY : Int := 6

/-- `POPUP_ROW_PAD_X`. -/
def rowPadX : Int := 6

/-- `POPUP_ROW_PAD_Y`. -/
def rowPadY : Int := 3

/-- `POPUP_ROW_GAP`. -/
def rowGap : Int := 0

/-- `POPUP_COL_GAP`. -/
def colGap : Int := 2

/-- `POPUP_SECTION_GAP`. -/
def sectionGap : Int := 6

/-- `POPUP_LABEL_GAP`. -/
def labelGap : Int := 5

/-! ## Sizes -/

/-- A text engine which also tells the baseline of a text.  No text has a negative size. -/
structure MeasuringEngine extends TextEngine where
  baseline : Text → FontDesc → Rat
  nonneg : ∀ text font, 0 ≤ (metrics text font).1 ∧ 0 ≤ (metrics text font).2

/-- What `popup_geometry_compute` measures for a candidate. -/
structure RowSize where
  labelW : Int
  labelH : Int
  textW : Int
  textH : Int
  labelInkYOffset : Rat
  textInkYOffset : Rat
  deriving DecidableEq, Repr

/-- The room for the higher of the two texts. -/
def RowSize.contentH (size : RowSize) : Int := max size.labelH size.textH

/-- `w` of a row, before it is placed. -/
def RowSize.w (size : RowSize) : Int := size.labelW + labelGap + size.textW + rowPadX * 2

/-- `h` of a row. -/
def RowSize.h (size : RowSize) : Int := size.contentH + rowPadY * 2

/-- The preedit and the mode label.  A size is zero where there is no layout. -/
structure Zones where
  /-- `pre_h_used`. -/
  preUsed : Bool
  preW : Int
  preH : Int
  /-- `mode_layout` is not null. -/
  modeShown : Bool
  modeW : Int
  modeH : Int
  deriving DecidableEq, Repr

/-- The mode label has a place of its own. -/
def Zones.modePlaced (zones : Zones) : Bool := zones.modeShown && decide (0 < zones.modeH)

/-- `logical_float`. -/
def logicalFloat (physical scale : Rat) : Rat := physical / effectiveScale scale

section Engine

variable (engine : MeasuringEngine)

/-- The logical size of a text; a font which cannot be had gives nothing. -/
def textSize (text : Text) (font : FontDesc) (scale : Rat) : Int × Int :=
  if engine.creates font = true then
    (logicalPx (engine.metrics text font).1 scale, logicalPx (engine.metrics text font).2 scale)
  else (logicalPx 0 scale, logicalPx 0 scale)

/-- The logical baseline of a text. -/
def textBaseline (text : Text) (font : FontDesc) (scale : Rat) : Rat :=
  logicalFloat (if engine.creates font = true then engine.baseline text font else 0) scale

/-- The sizes in the unselected cache entry of a candidate.  An entry holds the metrics of its own
label and text, whenever it was made. -/
def rowSize (cfg : PopupConfig) (scale : Rat) (candidate : Candidate) (index : Nat) : RowSize :=
  let (label, text) := formatCandidateParts candidate index
  let labelFontDesc := scaledFontDesc cfg.labelFontDesc scale
  let fontDesc := scaledFontDesc cfg.fontDesc scale
  { labelW := (textSize engine label labelFontDesc scale).1
    labelH := (textSize engine label labelFontDesc scale).2
    textW := (textSize engine text fontDesc scale).1
    textH := (textSize engine text fontDesc scale).2
    labelInkYOffset := textBaseline engine label labelFontDesc scale
    textInkYOffset := textBaseline engine text fontDesc scale }

/-- The sizes of the candidates, from the one at the index. -/
def rowSizes (cfg : PopupConfig) (scale : Rat) : List Candidate → (index : Nat) → List RowSize
  | [], _ => []
  | candidate :: candidates, index =>
      rowSize engine cfg scale candidate index :: rowSizes cfg scale candidates (index + 1)

end Engine

/-! ## Positions -/

/-- `PopupRow`, its sizes and its positions. -/
structure PlacedRow where
  size : RowSize
  x : Int
  y : Int
  w : Int
  labelX : Rat
  labelY : Rat
  textX : Rat
  textY : Rat
  deriving DecidableEq, Repr

/-- The positions in `PopupGeometry`. -/
structure Placement where
  rows : List PlacedRow
  preX : Rat
  preY : Rat
  modeX : Rat
  modeY : Rat
  modeDividerY : Int
  popupW : Int
  popupH : Int
  deriving DecidableEq, Repr

/-- `text_top`: the text is centred in its row. -/
def textTop (size : RowSize) (y : Int) : Rat :=
  ((y + rowPadY : Int) : Rat) + (((size.h - rowPadY * 2 : Int) : Rat) - (size.textH : Rat)) * (1 / 2)

/-- `label_top`: the label stands on the baseline of the text. -/
def labelTop (size : RowSize) (y : Int) : Rat :=
  textTop size y + size.textInkYOffset - size.labelInkYOffset

/-! ### Vertical -/

/-- The widest label. -/
def maxLabelW (rows : List RowSize) : Int := rows.foldl (fun widest row => max widest row.labelW) 0

/-- `rw` of a row: its text stands behind the widest label. -/
def alignedW (maxLabel : Int) (row : RowSize) : Int :=
  maxLabel + labelGap + row.textW + rowPadX * 2

/-- The heights of the rows, with the gaps between them. -/
def stackedH : List RowSize → Int
  | [] => 0
  | row :: rows => row.h + (if rows = [] then 0 else rowGap) + stackedH rows

/-- `content_w` of the vertical layout. -/
def verticalContentW (zones : Zones) (rows : List RowSize) : Int :=
  let contentW := rows.foldl (fun widest row => max widest (alignedW (maxLabelW rows) row)) zones.preW
  if zones.modePlaced then max contentW zones.modeW else contentW

/-- `content_h` of the vertical layout. -/
def verticalContentH (zones : Zones) (rows : List RowSize) : Int :=
  (if zones.preUsed then zones.preH else 0) + stackedH rows +
    (if zones.preUsed = true ∧ rows ≠ [] then sectionGap else 0) +
    (if zones.modePlaced then sectionGap + zones.modeH else 0)

/-- A row of the vertical layout whose top is at `y`. -/
def verticalRow (popupW maxLabel hOffset : Int) (size : RowSize) (y : Int) : PlacedRow where
  size
  x := padX
  y
  w := popupW - padX * 2
  labelX := ((padX + rowPadX + hOffset : Int) : Rat)
  labelY := labelTop size y
  textX := ((padX + rowPadX + maxLabel + labelGap + hOffset : Int) : Rat)
  textY := textTop size y

/-- The loop which places the rows from the top. -/
def placeRowsVertical (popupW maxLabel hOffset : Int) : (y : Int) → List RowSize → List PlacedRow
  | _, [] => []
  | y, size :: sizes =>
      verticalRow popupW maxLabel hOffset size y ::
        placeRowsVertical popupW maxLabel hOffset
          (y + size.h + (if sizes = [] then 0 else rowGap)) sizes

/-- Where the rows begin. -/
def Zones.rowsY (zones : Zones) : Int :=
  padY + if zones.preUsed then zones.preH + sectionGap else 0

/-- `compute_positions_vertical`. -/
def computePositionsVertical (zones : Zones) (rows : List RowSize) : Placement :=
  let contentW := verticalContentW zones rows
  let popupW := max (contentW + padX * 2) minWidth
  let popupH := verticalContentH zones rows + padY * 2
  let hOffset := max 0 ((popupW - padX * 2 - (contentW - rowPadX * 2)).tdiv 2)
  { rows := placeRowsVertical popupW (maxLabelW rows) hOffset zones.rowsY rows
    preX := (padX : Rat)
    preY := (padY : Rat)
    -- a mode label without a height keeps the zeros of `calloc`
    modeX := if zones.modePlaced then ((popupW - padX - zones.modeW : Int) : Rat) else 0
    modeY := if zones.modePlaced then ((popupH - padY - zones.modeH : Int) : Rat) else 0
    modeDividerY := if zones.modePlaced then popupH - padY - zones.modeH - rowPadY else -1
    popupW
    popupH }

/-! ### Horizontal -/

/-- `row_w`: the columns and the gaps between them, added to what is there. -/
def columnsW : (rowW : Int) → List RowSize → Int
  | rowW, [] => rowW
  | rowW, row :: rows => columnsW ((if 0 < rowW then rowW + colGap else rowW) + row.w) rows

/-- The highest row. -/
def maxRowH (rows : List RowSize) : Int := rows.foldl (fun highest row => max highest row.h) 0

/-- `content_w` of the horizontal layout. -/
def horizontalContentW (zones : Zones) (rows : List RowSize) : Int :=
  let totalRow := columnsW 0 rows +
    if zones.modeShown = true ∧ 0 < zones.modeW then colGap + zones.modeW else 0
  max totalRow zones.preW

/-- `content_h` of the horizontal layout. -/
def horizontalContentH (zones : Zones) (rows : List RowSize) : Int :=
  (if zones.preUsed then zones.preH else 0) + maxRowH rows +
    if zones.preUsed = true ∧ rows ≠ [] then sectionGap else 0

/-- A row of the horizontal layout whose corner is at `x` and `y`. -/
def horizontalRow (y : Int) (size : RowSize) (x : Int) : PlacedRow where
  size
  x
  y
  w := size.w
  labelX := ((x + rowPadX : Int) : Rat)
  labelY := labelTop size y
  textX := ((x + rowPadX + size.labelW + labelGap : Int) : Rat)
  textY := textTop size y

/-- The loop which places the rows from the left. -/
def placeRowsHorizontal (y : Int) : (x : Int) → List RowSize → List PlacedRow
  | _, [] => []
  | x, size :: sizes =>
      horizontalRow y size x :: placeRowsHorizontal y (x + (size.w + colGap)) sizes

/-- `compute_positions_horizontal`. -/
def computePositionsHorizontal (zones : Zones) (rows : List RowSize) : Placement :=
  let popupW := max (horizontalContentW zones rows + padX * 2) minWidth
  let popupH := horizontalContentH zones rows + padY * 2
  { rows := placeRowsHorizontal zones.rowsY padX rows
    preX := (padX : Rat)
    preY := (padY : Rat)
    modeX := if zones.modePlaced then ((popupW - padX - zones.modeW : Int) : Rat) else 0
    modeY := if zones.modePlaced then ((zones.rowsY + rowPadY : Int) : Rat) else 0
    modeDividerY := -1
    popupW
    popupH }

/-- `compute_positions`. -/
def computePositions (layoutMode : LayoutMode) (zones : Zones) (rows : List RowSize) : Placement :=
  match layoutMode with
  | .vertical => computePositionsVertical zones rows
  | .horizontal => computePositionsHorizontal zones rows

/-! ## The geometry with its positions -/

/-- `PopupGeometry` with its positions. -/
structure PlacedGeometry where
  geom : PopupGeometry
  placement : Placement

/-- What `compute_positions` reads of the geometry besides the rows. -/
def PopupGeometry.zones (geom : PopupGeometry) (preUsed : Bool) : Zones where
  preUsed
  preW := geom.preW
  preH := geom.preH
  modeShown := geom.modeLayout.isSome
  modeW := geom.modeW
  modeH := geom.modeH

namespace CandidatePanel

/-- `popup_geometry_compute`, with the positions. -/
def placedCompute (popup : CandidatePanel) (engine : MeasuringEngine) (cands : CandidateList)
    (preeditText modeLabel : Option Text) (cfg : PopupConfig) (palette : Palette) (scale : Rat) :
    CandidatePanel × Option PlacedGeometry :=
  let (popup, geom) :=
    popup.geometryCompute engine.toTextEngine cands preeditText modeLabel cfg palette scale
  (popup, geom.map fun geom =>
    { geom
      placement := computePositions geom.config.layoutMode
        (geom.zones (cText preeditText ≠ []))
        (rowSizes engine geom.config geom.scale geom.candidates 0) })

/-- `popup_geometry_update_aux`, which copies the positions. -/
def placedUpdateAux (popup : CandidatePanel) (engine : MeasuringEngine) (base : PlacedGeometry)
    (preeditText modeLabel : Option Text) : CandidatePanel × Option PlacedGeometry :=
  let (popup, geom) :=
    popup.geometryUpdateAux engine.toTextEngine base.geom preeditText modeLabel
  (popup, geom.map fun geom => { geom, placement := base.placement })

end CandidatePanel

end Popup

end Typio
