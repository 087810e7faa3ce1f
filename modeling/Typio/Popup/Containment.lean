import Mathlib.Data.Int.ConditionallyCompleteOrder
import Typio.Popup.PanelGeometry

/-!
# What the panel contains

The rows of a computed geometry are apart and inside the popup, and so are the preedit and the
texts of a row.  A label which stands too high or too low on the baseline of its text leaves its
row, and a mode label beside the rows which is higher than they are leaves the popup.
-/

namespace Typio

namespace Popup

open Boxes

/-! ## Boxes -/

namespace PlacedRow

variable (row : PlacedRow)

/-- The row. -/
def box : Box Rat := ⟨row.x, row.y, row.w, row.size.h⟩

def labelBox : Box Rat := ⟨row.labelX, row.labelY, row.size.labelW, row.size.labelH⟩

def textBox : Box Rat := ⟨row.textX, row.textY, row.size.textW, row.size.textH⟩

/-- The label and the text lie inside the row, without overlapping. -/
structure HoldsTexts : Prop where
  label : row.labelBox.Inside row.box
  text : row.textBox.Inside row.box
  apart : row.labelBox.Apart row.textBox

end PlacedRow

namespace Placement

variable (placement : Placement) (zones : Zones)

/-- The popup. -/
def box : Box Rat := ⟨0, 0, placement.popupW, placement.popupH⟩

def preBox : Box Rat := ⟨placement.preX, placement.preY, zones.preW, zones.preH⟩

def modeBox : Box Rat := ⟨placement.modeX, placement.modeY, zones.modeW, zones.modeH⟩

/-- The box lies inside the popup and overlaps no row. -/
structure Holds (box : Box Rat) : Prop where
  inside : box.Inside placement.box
  apart : ∀ row ∈ placement.rows, box.Apart row.box

/-- Everything has a place of its own inside the popup. -/
structure Contained : Prop where
  apart : placement.rows.Pairwise fun first second => first.box.Apart second.box
  inside : ∀ row ∈ placement.rows, row.box.Inside placement.box
  texts : ∀ row ∈ placement.rows, row.HoldsTexts
  preedit : zones.preUsed = true → placement.Holds (placement.preBox zones)
  mode : zones.modeShown = true → placement.Holds (placement.modeBox zones)

end Placement

/-! ## The condition -/

/-- How far the label of a row stands below its top. -/
def RowSize.labelDrop (size : RowSize) : Rat :=
  rowPadY + ((size.contentH : Rat) - size.textH) / 2 + (size.textInkYOffset - size.labelInkYOffset)

/-- Standing on the baseline of the text, the label reaches neither above nor below the row. -/
def RowSize.LabelFits (size : RowSize) : Prop :=
  0 ≤ size.labelDrop ∧ size.labelDrop + size.labelH ≤ size.contentH + rowPadY * 2

/-- The mode label fits: beside the highest row of a horizontal layout, or, where there is no row,
into the padding; below the rows of a vertical layout it always does, unless it has no height and
is wider than everything else. -/
def ModeFits (layoutMode : LayoutMode) (zones : Zones) (rows : List RowSize) : Prop :=
  match layoutMode with
  | .vertical =>
      zones.modeH = 0 → zones.modeW ≤ minWidth ∨ zones.modeW ≤ zones.preW + padX * 2 ∨
        ∃ text ∈ rows, ∃ label ∈ rows, zones.modeW ≤
          label.labelW + labelGap + text.textW + rowPadX * 2 + padX * 2
  | .horizontal =>
      0 < zones.modeH → (∃ row ∈ rows, zones.modeH ≤ row.h + rowPadY) ∨
        (rows = [] ∧ zones.preUsed = false ∧ zones.modeH ≤ rowPadY)

/-- Every label fits into its row, and the mode label into the popup. -/
def PanelFits (layoutMode : LayoutMode) (zones : Zones) (rows : List RowSize) : Prop :=
  (∀ size ∈ rows, size.LabelFits) ∧ (zones.modeShown = true → ModeFits layoutMode zones rows)

/-! ## Sizes -/

/-- The sizes measured for a candidate are not negative. -/
structure RowSize.Nonneg (size : RowSize) : Prop where
  labelW : 0 ≤ size.labelW
  labelH : 0 ≤ size.labelH
  textW : 0 ≤ size.textW
  textH : 0 ≤ size.textH

theorem RowSize.Nonneg.h {size : RowSize} (nonneg : size.Nonneg) : 0 ≤ size.h := by
  have label := nonneg.labelH
  simp only [RowSize.h, RowSize.contentH, rowPadY]
  omega

/-- The sizes of the preedit and of the mode label are not negative, and zero where there is
none. -/
structure Zones.Measured (zones : Zones) : Prop where
  preW : 0 ≤ zones.preW
  preH : 0 ≤ zones.preH
  modeW : 0 ≤ zones.modeW
  modeH : 0 ≤ zones.modeH

/-! ## A row -/

section Row

variable {size : RowSize} {row : PlacedRow}

theorem textTop_eq (size : RowSize) (y : Int) :
    textTop size y = y + rowPadY + ((size.contentH : Rat) - size.textH) / 2 := by
  simp only [textTop, RowSize.h, rowPadY]
  push_cast
  ring

theorem labelTop_eq (size : RowSize) (y : Int) : labelTop size y = y + size.labelDrop := by
  rw [labelTop, textTop_eq, RowSize.labelDrop]
  ring

/-- A row whose texts are placed one after the other, the text centred and the label on its
baseline, holds them exactly if the label fits. -/
theorem PlacedRow.holdsTexts_iff (nonneg : row.size.Nonneg)
    (labelY : row.labelY = labelTop row.size row.y) (textY : row.textY = textTop row.size row.y)
    (begins : (row.x : Rat) ≤ row.labelX)
    (follows : row.labelX + row.size.labelW ≤ row.textX)
    (ends : row.textX + row.size.textW ≤ row.x + row.w) :
    row.HoldsTexts ↔ row.size.LabelFits := by
  have text_w : (0 : Rat) ≤ row.size.textW := by exact_mod_cast nonneg.textW
  have label_w : (0 : Rat) ≤ row.size.labelW := by exact_mod_cast nonneg.labelW
  have text_h : (row.size.textH : Rat) ≤ row.size.contentH := by
    exact_mod_cast le_max_right row.size.labelH row.size.textH
  have height : (row.size.h : Rat) = row.size.contentH + rowPadY * 2 := by
    simp [RowSize.h]
  have pad : (rowPadY : Rat) = 3 := by norm_num [rowPadY]
  have label_top := labelTop_eq row.size row.y
  have text_top := textTop_eq row.size row.y
  constructor
  · intro holds
    have top := holds.label.top
    have bottom := holds.label.bottom
    simp only [PlacedRow.box, PlacedRow.labelBox, labelY, label_top, height] at top bottom
    exact ⟨by linarith, by linarith⟩
  · rintro ⟨top, bottom⟩
    refine ⟨⟨begins, ?_, ?_, ?_⟩, ⟨?_, ends, ?_, ?_⟩, .inl follows⟩
    all_goals simp only [PlacedRow.box, PlacedRow.labelBox, PlacedRow.textBox]
    · linarith
    · rw [labelY, label_top]
      linarith
    · rw [labelY, label_top, height]
      linarith
    · linarith
    · rw [textY, text_top]
      linarith
    · rw [textY, text_top, height]
      linarith

end Row

/-! ## The vertical layout -/

section Vertical

variable {popupW maxLabel hOffset : Int} {sizes : List RowSize}

theorem mem_placeRowsVertical {row : PlacedRow} {y : Int}
    (member : row ∈ placeRowsVertical popupW maxLabel hOffset y sizes) :
    row.size ∈ sizes ∧ row = verticalRow popupW maxLabel hOffset row.size row.y := by
  induction sizes generalizing y with
  | nil => cases member
  | cons size sizes induction =>
      rcases List.mem_cons.mp member with rfl | later
      · exact ⟨List.mem_cons_self, rfl⟩
      · obtain ⟨among, placed⟩ := induction later
        exact ⟨List.mem_cons_of_mem _ among, placed⟩

theorem exists_placeRowsVertical {size : RowSize} (y : Int) (member : size ∈ sizes) :
    ∃ row ∈ placeRowsVertical popupW maxLabel hOffset y sizes, row.size = size := by
  induction sizes generalizing y with
  | nil => cases member
  | cons first sizes induction =>
      rcases List.mem_cons.mp member with rfl | later
      · exact ⟨_, List.mem_cons_self, rfl⟩
      · obtain ⟨row, among, same⟩ := induction _ later
        exact ⟨row, List.mem_cons_of_mem _ among, same⟩

/-- The rows stand below one another. -/
theorem placeRowsVertical_inLine (nonneg : ∀ size ∈ sizes, size.Nonneg) (y : Int) :
    InLine PlacedRow.y (fun row => row.y + row.size.h) y
      (placeRowsVertical popupW maxLabel hOffset y sizes) (y + stackedH sizes) := by
  induction sizes generalizing y with
  | nil => simp [placeRowsVertical, InLine, stackedH]
  | cons size sizes induction =>
      have high := (nonneg size List.mem_cons_self).h
      have gap : 0 ≤ if sizes = [] then 0 else rowGap := by
        split <;> simp [rowGap]
      have rest := induction (fun other member => nonneg other (List.mem_cons_of_mem _ member))
        (y + size.h + if sizes = [] then 0 else rowGap)
      refine ⟨le_rfl, ?_, ?_⟩
      · simp only [verticalRow]
        omega
      · refine (rest.of_le ?_).mono ?_
        · simp only [verticalRow]
          omega
        · rw [stackedH]
          omega

end Vertical

/-! ## The horizontal layout -/

section Horizontal

variable {sizes : List RowSize} {y : Int}

theorem mem_placeRowsHorizontal {row : PlacedRow} {x : Int}
    (member : row ∈ placeRowsHorizontal y x sizes) :
    row.size ∈ sizes ∧ row = horizontalRow y row.size row.x := by
  induction sizes generalizing x with
  | nil => cases member
  | cons size sizes induction =>
      rcases List.mem_cons.mp member with rfl | later
      · exact ⟨List.mem_cons_self, rfl⟩
      · obtain ⟨among, placed⟩ := induction later
        exact ⟨List.mem_cons_of_mem _ among, placed⟩

theorem exists_placeRowsHorizontal {size : RowSize} (x : Int) (member : size ∈ sizes) :
    ∃ row ∈ placeRowsHorizontal y x sizes, row.size = size := by
  induction sizes generalizing x with
  | nil => cases member
  | cons first sizes induction =>
      rcases List.mem_cons.mp member with rfl | later
      · exact ⟨_, List.mem_cons_self, rfl⟩
      · obtain ⟨row, among, same⟩ := induction _ later
        exact ⟨row, List.mem_cons_of_mem _ among, same⟩

theorem RowSize.Nonneg.w_pos {size : RowSize} (nonneg : size.Nonneg) : 0 < size.w := by
  have label := nonneg.labelW
  have text := nonneg.textW
  simp only [RowSize.w, labelGap, rowPadX]
  omega

/-- The columns after those which take `rowW` stand beside one another. -/
theorem placeColumns_inLine {start rowW : Int} (nonneg : ∀ size ∈ sizes, size.Nonneg)
    (begun : 0 < rowW) :
    InLine PlacedRow.x (fun row => row.x + row.w) (start + rowW)
      (placeRowsHorizontal y (start + rowW + colGap) sizes) (start + columnsW rowW sizes) := by
  induction sizes generalizing rowW with
  | nil => exact le_rfl
  | cons size sizes induction =>
      have wide := (nonneg size List.mem_cons_self).w_pos
      have rest := @induction (rowW + colGap + size.w)
        (fun other member => nonneg other (List.mem_cons_of_mem _ member))
        (by simp only [colGap]; omega)
      rw [placeRowsHorizontal, columnsW, if_pos begun]
      refine ⟨?_, ?_, ?_⟩
      · simp only [horizontalRow, colGap]
        omega
      · simp only [horizontalRow]
        omega
      · have next : start + rowW + colGap + (size.w + colGap) =
            start + (rowW + colGap + size.w) + colGap := by omega
        have end_eq : (horizontalRow y size (start + rowW + colGap)).x +
            (horizontalRow y size (start + rowW + colGap)).w = start + (rowW + colGap + size.w) := by
          simp only [horizontalRow]
          omega
        rw [next]
        exact rest.of_le end_eq.le

/-- The rows stand beside one another. -/
theorem placeRowsHorizontal_inLine (nonneg : ∀ size ∈ sizes, size.Nonneg) (x : Int) :
    InLine PlacedRow.x (fun row => row.x + row.w) x (placeRowsHorizontal y x sizes)
      (x + columnsW 0 sizes) := by
  cases sizes with
  | nil =>
      rw [columnsW, add_zero]
      exact le_rfl
  | cons size sizes =>
      have wide := (nonneg size List.mem_cons_self).w_pos
      have rest := @placeColumns_inLine sizes y x size.w
        (fun other member => nonneg other (List.mem_cons_of_mem _ member)) wide
      refine ⟨le_rfl, ?_, ?_⟩
      · simp only [horizontalRow]
        omega
      · rw [columnsW, if_neg (lt_irrefl 0), zero_add, ← add_assoc]
        exact rest

end Horizontal

/-! ## The popup -/

section Popup

variable {placement : Placement} {zones : Zones} {rows : List RowSize}

/-- The preedit has its place above the rows. -/
theorem preedit_held {above : Int} (measured : zones.Measured) (preX : placement.preX = (padX : Rat))
    (preY : placement.preY = (padY : Rat)) (wide : zones.preW + padX * 2 ≤ placement.popupW)
    (high : zones.preH + padY * 2 ≤ placement.popupH)
    (below : ∀ row ∈ placement.rows, above ≤ row.y) (above_eq : padY + zones.preH ≤ above) :
    placement.Holds (placement.preBox zones) := by
  have preW := measured.preW
  have preH := measured.preH
  simp only [padX, padY] at wide high above_eq preX preY
  constructor
  · constructor
    all_goals simp only [Placement.preBox, Placement.box, preX, preY]
    · norm_num
    · norm_cast
      omega
    · norm_num
    · norm_cast
      omega
  · intro row member
    have under := below row member
    refine .inr (.inr (.inl ?_))
    simp only [Placement.preBox, PlacedRow.box, preY]
    norm_cast
    omega

/-- What either layout makes of the rows and the preedit. -/
structure Laid (zones : Zones) (rows : List RowSize) (placement : Placement) : Prop where
  size : ∀ row ∈ placement.rows, row.size ∈ rows
  placed : ∀ size ∈ rows, ∃ row ∈ placement.rows, row.size = size
  texts : ∀ row ∈ placement.rows, (row.HoldsTexts ↔ row.size.LabelFits)
  inside : ∀ row ∈ placement.rows, row.box.Inside placement.box
  apart : placement.rows.Pairwise fun first second => first.box.Apart second.box
  preedit : zones.preUsed = true → placement.Holds (placement.preBox zones)

/-- Then only the labels and the mode label are in question. -/
theorem Laid.contained_iff (laid : Laid zones rows placement) :
    placement.Contained zones ↔ (∀ size ∈ rows, size.LabelFits) ∧
      (zones.modeShown = true → placement.Holds (placement.modeBox zones)) := by
  constructor
  · intro contained
    refine ⟨fun size member => ?_, contained.mode⟩
    obtain ⟨row, among, rfl⟩ := laid.placed size member
    exact (laid.texts row among).mp (contained.texts row among)
  · rintro ⟨labels, mode⟩
    exact
      { apart := laid.apart
        inside := laid.inside
        texts := fun row member => (laid.texts row member).mpr (labels _ (laid.size row member))
        preedit := laid.preedit
        mode }

/-- A row which spans what is left of the popup between the paddings. -/
theorem row_inside {row : PlacedRow} (left : padX ≤ row.x)
    (right : row.x + row.w ≤ placement.popupW - padX) (top : padY ≤ row.y)
    (bottom : row.y + row.size.h ≤ placement.popupH - padY) : row.box.Inside placement.box := by
  simp only [padX, padY] at left right top bottom
  constructor
  all_goals simp only [PlacedRow.box, Placement.box]
  all_goals norm_cast
  all_goals omega

end Popup

/-! ### Vertical -/

section Vertical

variable {zones : Zones} {rows : List RowSize}

/-- The vertical layout is as wide as what it stacks. -/
theorem verticalContentW_bounds (zones : Zones) (rows : List RowSize) :
    zones.preW ≤ verticalContentW zones rows ∧
      (∀ row ∈ rows, alignedW (maxLabelW rows) row ≤ verticalContentW zones rows) ∧
      (zones.modePlaced = true → zones.modeW ≤ verticalContentW zones rows) := by
  have widest := start_le_foldl_max (alignedW (maxLabelW rows)) rows zones.preW
  have widest_row (row : RowSize) (member : row ∈ rows) :=
    le_foldl_max (alignedW (maxLabelW rows)) zones.preW member
  unfold verticalContentW
  dsimp only
  split
  next placed =>
    exact ⟨le_max_of_le_left widest, fun row member => le_max_of_le_left (widest_row row member),
      fun _ => le_max_right _ _⟩
  next unplaced => exact ⟨widest, widest_row, fun placed => absurd placed unplaced⟩

/-- The vertical layout is as high as what it stacks. -/
theorem verticalContentH_bounds (measured : zones.Measured)
    (nonneg : ∀ size ∈ rows, size.Nonneg) :
    0 ≤ verticalContentH zones rows ∧
      (zones.preUsed = true → zones.preH ≤ verticalContentH zones rows) ∧
      (rows ≠ [] → zones.rowsY + stackedH rows ≤ padY + verticalContentH zones rows -
        if zones.modePlaced then sectionGap + zones.modeH else 0) ∧
      (zones.modePlaced = true → zones.modeH ≤ verticalContentH zones rows) := by
  have preH := measured.preH
  have modeH := measured.modeH
  have stacked : 0 ≤ stackedH rows := by
    have line := (@placeRowsVertical_inLine 0 0 0 rows nonneg 0).le
    omega
  have label : 0 ≤ if zones.modePlaced then sectionGap + zones.modeH else 0 := by
    simp only [sectionGap]
    split <;> omega
  have gap : 0 ≤ if zones.preUsed = true ∧ rows ≠ [] then sectionGap else 0 := by
    simp only [sectionGap]
    split <;> omega
  have used : 0 ≤ if zones.preUsed then zones.preH else 0 := by
    split <;> omega
  unfold verticalContentH Zones.rowsY
  refine ⟨by omega, fun used => ?_, fun some => ?_, fun placed => ?_⟩
  · rw [if_pos used]
    omega
  · cases zones.preUsed with
    | true =>
        simp only [if_true, some, ne_eq, not_false_eq_true, and_self]
        omega
    | false =>
        simp only [Bool.false_eq_true, if_false, false_and]
        omega
  · rw [if_pos placed]
    simp only [sectionGap] at gap ⊢
    omega

/-- The offset which centres the rows leaves them inside the popup. -/
theorem centring_bounds {contentW popupW : Int} (fits : contentW + padX * 2 ≤ popupW) :
    0 ≤ max 0 ((popupW - padX * 2 - (contentW - rowPadX * 2)).tdiv 2) ∧
      max 0 ((popupW - padX * 2 - (contentW - rowPadX * 2)).tdiv 2) ≤
        popupW - padX * 2 - contentW + rowPadX := by
  simp only [padX, rowPadX] at fits ⊢
  rw [Int.tdiv_eq_ediv_of_nonneg (by omega)]
  omega

/-- A row of the vertical layout holds its texts exactly if its label fits. -/
theorem verticalRow_holdsTexts_iff {popupW hOffset : Int} {size : RowSize} (y : Int)
    (nonneg : ∀ size ∈ rows, size.Nonneg) (member : size ∈ rows) (centred : 0 ≤ hOffset)
    (wide : alignedW (maxLabelW rows) size + hOffset ≤ popupW - padX * 2 + rowPadX) :
    (verticalRow popupW (maxLabelW rows) hOffset size y).HoldsTexts ↔ size.LabelFits := by
  have narrow : size.labelW ≤ maxLabelW rows :=
    le_foldl_max (fun size : RowSize => size.labelW) 0 member
  refine PlacedRow.holdsTexts_iff (nonneg size member) rfl rfl ?_ ?_ ?_
  all_goals
    simp only [verticalRow, alignedW, padX, rowPadX, labelGap] at wide ⊢
    norm_cast
    omega

/-- The mode label of a vertical layout has no place only if it has no height. -/
theorem modeH_eq_zero_of_unplaced (measured : zones.Measured) (shown : zones.modeShown = true)
    (unplaced : zones.modePlaced = false) : zones.modeH = 0 := by
  have modeH := measured.modeH
  rw [Zones.modePlaced, shown, Bool.true_and, decide_eq_false_iff_not] at unplaced
  omega

/-- A mode label without a height is no wider than the popup exactly if something else is as
wide. -/
theorem flat_mode_fits_iff (nonneg : ∀ size ∈ rows, size.Nonneg)
    (unplaced : zones.modePlaced = false) :
    zones.modeW ≤ max (verticalContentW zones rows + padX * 2) minWidth ↔
      zones.modeW ≤ minWidth ∨ zones.modeW ≤ zones.preW + padX * 2 ∨
        ∃ text ∈ rows, ∃ label ∈ rows, zones.modeW ≤
          label.labelW + labelGap + text.textW + rowPadX * 2 + padX * 2 := by
  have contentW : verticalContentW zones rows =
      rows.foldl (fun widest row => max widest (alignedW (maxLabelW rows) row)) zones.preW := by
    rw [verticalContentW, unplaced]
    rfl
  have reached := le_foldl_max_iff (alignedW (maxLabelW rows)) rows zones.preW
    (zones.modeW - padX * 2)
  rw [le_max_iff, contentW, ← sub_le_iff_le_add, reached, or_comm, sub_le_iff_le_add]
  refine or_congr_right (or_congr_right (exists_congr fun text => and_congr_right fun member => ?_))
  have text_label := (nonneg text member).labelW
  have label_reached := le_foldl_max_iff (fun row : RowSize => row.labelW) rows 0
    (zones.modeW - padX * 2 - (labelGap + text.textW + rowPadX * 2))
  have same : zones.modeW - padX * 2 ≤ alignedW (maxLabelW rows) text ↔
      zones.modeW - padX * 2 - (labelGap + text.textW + rowPadX * 2) ≤ maxLabelW rows := by
    rw [alignedW]
    omega
  rw [same, maxLabelW, label_reached]
  constructor
  · rintro (none | ⟨label, among, reaches⟩)
    · exact ⟨text, member, by omega⟩
    · exact ⟨label, among, by omega⟩
  · rintro ⟨label, among, reaches⟩
    exact .inr ⟨label, among, by omega⟩

/-- Where the rows of a vertical layout are. -/
theorem vertical_rows (nonneg : ∀ size ∈ rows, size.Nonneg) :
    InLine PlacedRow.y (fun row => row.y + row.size.h) zones.rowsY
        (computePositionsVertical zones rows).rows (zones.rowsY + stackedH rows) ∧
      ∀ row ∈ (computePositionsVertical zones rows).rows, row.size ∈ rows ∧ row.x = padX ∧
        row.x + row.w = (computePositionsVertical zones rows).popupW - padX ∧
        (row.HoldsTexts ↔ row.size.LabelFits) := by
  refine ⟨placeRowsVertical_inLine nonneg zones.rowsY, fun row member => ?_⟩
  obtain ⟨among, same⟩ := mem_placeRowsVertical member
  obtain ⟨-, row_wide, -⟩ := verticalContentW_bounds zones rows
  have wide := row_wide row.size among
  have popupW := le_max_left (verticalContentW zones rows + padX * 2) minWidth
  obtain ⟨centred, offset⟩ := centring_bounds popupW
  have texts := @verticalRow_holdsTexts_iff rows
    (max (verticalContentW zones rows + padX * 2) minWidth) _ row.size row.y nonneg among centred
    (by omega)
  rw [← same] at texts
  refine ⟨among, ?_, ?_, texts⟩
  · rw [same]
    rfl
  · rw [same]
    simp only [verticalRow, computePositionsVertical]
    omega

theorem Zones.rowsY_of_used (used : zones.preUsed = true) :
    zones.rowsY = padY + (zones.preH + sectionGap) := by
  rw [Zones.rowsY, if_pos used]

theorem Zones.Measured.le_rowsY (measured : zones.Measured) : padY ≤ zones.rowsY := by
  have preH := measured.preH
  simp only [Zones.rowsY, sectionGap]
  split <;> omega

/-- The rows of a vertical layout end above the room for the mode label. -/
theorem vertical_row_bottom (measured : zones.Measured) (nonneg : ∀ size ∈ rows, size.Nonneg)
    {row : PlacedRow} (member : row ∈ (computePositionsVertical zones rows).rows) :
    row.y + row.size.h ≤ (computePositionsVertical zones rows).popupH - padY -
      if zones.modePlaced then sectionGap + zones.modeH else 0 := by
  obtain ⟨line, rows_placed⟩ := @vertical_rows zones rows nonneg
  obtain ⟨-, -, high, -⟩ := verticalContentH_bounds measured nonneg
  have stacked := high (List.ne_nil_of_mem (rows_placed row member).1)
  have bottom := (line.bounds member).2
  simp only [computePositionsVertical]
  omega

theorem vertical_laid (measured : zones.Measured) (nonneg : ∀ size ∈ rows, size.Nonneg) :
    Laid zones rows (computePositionsVertical zones rows) := by
  obtain ⟨line, placed⟩ := @vertical_rows zones rows nonneg
  obtain ⟨pre_wide, -, -⟩ := verticalContentW_bounds zones rows
  obtain ⟨-, pre_high, -, -⟩ := verticalContentH_bounds measured nonneg
  have begins := measured.le_rowsY
  refine ⟨fun row member => (placed row member).1,
    fun size member => exists_placeRowsVertical zones.rowsY member,
    fun row member => (placed row member).2.2.2, fun row member => ?_, ?_, fun used => ?_⟩
  · obtain ⟨-, left, right, -⟩ := placed row member
    have bottom := vertical_row_bottom measured nonneg member
    have label : 0 ≤ if zones.modePlaced then sectionGap + zones.modeH else 0 := by
      have modeH := measured.modeH
      simp only [sectionGap]
      split <;> omega
    exact row_inside left.ge right.le (begins.trans (line.bounds member).1) (by omega)
  · refine line.pairwise.imp fun above => .inr (.inr (.inl ?_))
    simp only [PlacedRow.box]
    exact_mod_cast above
  · refine @preedit_held _ zones zones.rowsY measured rfl rfl ?_ ?_ ?_ ?_
    · exact (add_le_add_left pre_wide _).trans (le_max_left _ _)
    · exact add_le_add_left (pre_high used) _
    · exact fun row member => (line.bounds member).1
    · rw [Zones.rowsY_of_used used]
      simp only [sectionGap]
      omega

/-- A vertical layout has room for the mode label below the rows. -/
theorem vertical_mode_held (measured : zones.Measured) (nonneg : ∀ size ∈ rows, size.Nonneg)
    (placed : zones.modePlaced = true) :
    (computePositionsVertical zones rows).Holds
      ((computePositionsVertical zones rows).modeBox zones) := by
  obtain ⟨-, -, mode_wide⟩ := verticalContentW_bounds zones rows
  obtain ⟨-, -, -, mode_high⟩ := verticalContentH_bounds measured nonneg
  have wide := mode_wide placed
  have high := mode_high placed
  have popupW := le_max_left (verticalContentW zones rows + padX * 2) minWidth
  constructor
  · constructor
    all_goals
      simp only [Placement.modeBox, Placement.box, computePositionsVertical, placed, if_true, padX,
        padY] at popupW ⊢
      norm_cast
      omega
  · intro row member
    have bottom := vertical_row_bottom measured nonneg member
    rw [if_pos placed] at bottom
    refine .inr (.inr (.inr ?_))
    simp only [Placement.modeBox, PlacedRow.box, computePositionsVertical, placed, if_true, padY,
      sectionGap] at bottom ⊢
    norm_cast
    omega

/-- A mode label without a height stays in the corner of the popup. -/
theorem flat_mode_held_iff {placement : Placement} (modeX : placement.modeX = 0)
    (modeY : placement.modeY = 0) (flat : zones.modeH = 0) (high : 0 ≤ placement.popupH)
    (below : ∀ row ∈ placement.rows, 0 ≤ row.y) :
    placement.Holds (placement.modeBox zones) ↔ zones.modeW ≤ placement.popupW := by
  constructor
  · intro held
    have right := held.inside.right
    simp only [Placement.modeBox, Placement.box, modeX, zero_add] at right
    exact_mod_cast right
  · intro wide
    refine ⟨⟨?_, ?_, ?_, ?_⟩, fun row member => .inr (.inr (.inl ?_))⟩
    all_goals simp only [Placement.modeBox, Placement.box, PlacedRow.box, modeX, modeY, flat,
      zero_add, Int.cast_zero, le_refl]
    · exact_mod_cast wide
    · exact_mod_cast high
    · exact_mod_cast below row member

/-- A vertical layout contains everything exactly if everything fits. -/
theorem vertical_contained_iff (measured : zones.Measured) (nonneg : ∀ size ∈ rows, size.Nonneg) :
    (computePositionsVertical zones rows).Contained zones ↔ PanelFits .vertical zones rows := by
  rw [(vertical_laid measured nonneg).contained_iff]
  refine and_congr_right fun _ => forall_congr' fun shown => ?_
  cases placed : zones.modePlaced with
  | true =>
      have held := vertical_mode_held measured nonneg placed
      have tall : zones.modeH ≠ 0 := by
        intro flat
        simp [Zones.modePlaced, flat] at placed
      exact iff_of_true held fun flat => absurd flat tall
  | false =>
      have flat := modeH_eq_zero_of_unplaced measured shown placed
      obtain ⟨line, -⟩ := @vertical_rows zones rows nonneg
      have begins := measured.le_rowsY
      have below (row : PlacedRow) (member : row ∈ (computePositionsVertical zones rows).rows) :
          0 ≤ row.y := by
        have top := (line.bounds member).1
        simp only [padY] at begins
        omega
      have high : 0 ≤ (computePositionsVertical zones rows).popupH := by
        have content := (verticalContentH_bounds measured nonneg).1
        simp only [computePositionsVertical, padY]
        omega
      rw [flat_mode_held_iff (by simp [computePositionsVertical, placed])
        (by simp [computePositionsVertical, placed]) flat high below]
      refine (flat_mode_fits_iff nonneg placed).trans ?_
      simp only [ModeFits, flat, true_implies]

end Vertical

/-! ### Horizontal -/

section Horizontal

variable {zones : Zones} {rows : List RowSize}

/-- The horizontal layout is as wide as what stands beside one another. -/
theorem horizontalContentW_bounds (zones : Zones) (rows : List RowSize) :
    zones.preW ≤ horizontalContentW zones rows ∧
      columnsW 0 rows + (if zones.modeShown = true ∧ 0 < zones.modeW then colGap + zones.modeW
        else 0) ≤ horizontalContentW zones rows :=
  ⟨le_max_right _ _, le_max_left _ _⟩

/-- The horizontal layout is as high as the preedit above its highest row. -/
theorem horizontalContentH_bounds (measured : zones.Measured) :
    0 ≤ horizontalContentH zones rows ∧
      (zones.preUsed = true → zones.preH ≤ horizontalContentH zones rows) ∧
      (rows ≠ [] → zones.rowsY + maxRowH rows = padY + horizontalContentH zones rows) ∧
      (rows = [] → zones.rowsY = padY + horizontalContentH zones rows +
        if zones.preUsed then sectionGap else 0) := by
  have preH := measured.preH
  have highest : 0 ≤ maxRowH rows := start_le_foldl_max RowSize.h rows 0
  have gap : 0 ≤ if zones.preUsed = true ∧ rows ≠ [] then sectionGap else 0 := by
    simp only [sectionGap]
    split <;> omega
  have used : 0 ≤ if zones.preUsed then zones.preH else 0 := by
    split <;> omega
  unfold horizontalContentH Zones.rowsY
  refine ⟨by omega, fun used => ?_, fun some => ?_, fun none => ?_⟩
  · rw [if_pos used]
    omega
  · cases zones.preUsed with
    | true =>
        simp only [if_true, some, ne_eq, not_false_eq_true, and_self]
        omega
    | false =>
        simp only [Bool.false_eq_true, if_false, false_and]
        omega
  · subst none
    cases zones.preUsed with
    | true => simp [maxRowH, add_assoc]
    | false => simp [maxRowH]

/-- Where the rows of a horizontal layout are. -/
theorem horizontal_rows (nonneg : ∀ size ∈ rows, size.Nonneg) :
    InLine PlacedRow.x (fun row => row.x + row.w) padX (computePositionsHorizontal zones rows).rows
        (padX + columnsW 0 rows) ∧
      ∀ row ∈ (computePositionsHorizontal zones rows).rows, row.size ∈ rows ∧ row.y = zones.rowsY ∧
        (row.HoldsTexts ↔ row.size.LabelFits) := by
  refine ⟨placeRowsHorizontal_inLine nonneg padX, fun row member => ?_⟩
  obtain ⟨among, same⟩ := mem_placeRowsHorizontal member
  have sizes := nonneg row.size among
  have labelW := sizes.labelW
  have textW := sizes.textW
  refine ⟨among, by rw [same]; rfl, PlacedRow.holdsTexts_iff sizes ?_ ?_ ?_ ?_ ?_⟩
  · rw [same]
    rfl
  · rw [same]
    rfl
  all_goals
    rw [same]
    simp only [horizontalRow, RowSize.w, rowPadX, labelGap]
    norm_cast
    omega

/-- The columns end before the room for the mode label. -/
theorem horizontal_row_right (nonneg : ∀ size ∈ rows, size.Nonneg) {row : PlacedRow}
    (member : row ∈ (computePositionsHorizontal zones rows).rows) :
    row.x + row.w + (if zones.modeShown = true ∧ 0 < zones.modeW then colGap + zones.modeW else 0) ≤
      (computePositionsHorizontal zones rows).popupW - padX := by
  obtain ⟨line, -⟩ := @horizontal_rows zones rows nonneg
  obtain ⟨-, columns⟩ := horizontalContentW_bounds zones rows
  have right := (line.bounds member).2
  have popupW := le_max_left (horizontalContentW zones rows + padX * 2) minWidth
  simp only [computePositionsHorizontal]
  omega

theorem horizontal_laid (measured : zones.Measured) (nonneg : ∀ size ∈ rows, size.Nonneg) :
    Laid zones rows (computePositionsHorizontal zones rows) := by
  obtain ⟨line, placed⟩ := @horizontal_rows zones rows nonneg
  obtain ⟨pre_wide, -⟩ := horizontalContentW_bounds zones rows
  obtain ⟨-, pre_high, high, -⟩ := @horizontalContentH_bounds zones rows measured
  have begins := measured.le_rowsY
  refine ⟨fun row member => (placed row member).1,
    fun size member => exists_placeRowsHorizontal padX member,
    fun row member => (placed row member).2.2, fun row member => ?_, ?_, fun used => ?_⟩
  · obtain ⟨among, top, -⟩ := placed row member
    have right := horizontal_row_right nonneg member
    have label : 0 ≤ if zones.modeShown = true ∧ 0 < zones.modeW then colGap + zones.modeW else 0 := by
      simp only [colGap]
      split <;> omega
    have rows_high := high (List.ne_nil_of_mem among)
    have row_high : row.size.h ≤ maxRowH rows := le_foldl_max RowSize.h 0 among
    refine row_inside (line.bounds member).1 (by omega) (begins.trans top.ge) ?_
    simp only [computePositionsHorizontal]
    omega
  · refine line.pairwise.imp fun before => .inl ?_
    simp only [PlacedRow.box]
    exact_mod_cast before
  · refine @preedit_held _ zones zones.rowsY measured rfl rfl ?_ ?_ ?_ ?_
    · exact (add_le_add_left pre_wide _).trans (le_max_left _ _)
    · exact add_le_add_left (pre_high used) _
    · exact fun row member => (placed row member).2.1.ge
    · rw [Zones.rowsY_of_used used]
      simp only [sectionGap]
      omega

/-- The mode label of a horizontal layout stands beside the rows, and inside the popup exactly if
it is not too high. -/
theorem horizontal_mode_held_iff (measured : zones.Measured)
    (nonneg : ∀ size ∈ rows, size.Nonneg) (shown : zones.modeShown = true)
    (tall : 0 < zones.modeH) :
    (computePositionsHorizontal zones rows).Holds
        ((computePositionsHorizontal zones rows).modeBox zones) ↔
      zones.rowsY + rowPadY + zones.modeH ≤ (computePositionsHorizontal zones rows).popupH := by
  have placed : zones.modePlaced = true := by
    simp [Zones.modePlaced, shown, tall]
  have modeW := measured.modeW
  have begins := measured.le_rowsY
  constructor
  · intro held
    have bottom := held.inside.bottom
    simp only [Placement.modeBox, Placement.box, computePositionsHorizontal, placed, if_true,
      zero_add] at bottom
    simp only [computePositionsHorizontal]
    exact_mod_cast bottom
  · intro high
    obtain ⟨-, columns⟩ := horizontalContentW_bounds zones rows
    have columns_nonneg : 0 ≤ columnsW 0 rows := by
      have line := (placeRowsHorizontal_inLine (y := 0) nonneg 0).le
      omega
    have popupW := le_max_left (horizontalContentW zones rows + padX * 2) minWidth
    have wide : zones.modeW ≤ horizontalContentW zones rows := by
      simp only [shown, true_and, colGap] at columns
      split at columns <;> omega
    refine ⟨⟨?_, ?_, ?_, ?_⟩, fun row member => .inr (.inl ?_)⟩
    all_goals
      simp only [Placement.modeBox, Placement.box, PlacedRow.box, computePositionsHorizontal, placed,
        if_true, padX, padY, rowPadY] at popupW begins high ⊢
      norm_cast
    · omega
    · omega
    · omega
    · omega
    · have right := @horizontal_row_right zones rows nonneg _ member
      simp only [computePositionsHorizontal, shown, true_and, colGap, padX] at right
      split at right <;> omega

/-- The mode label is not too high exactly if it fits beside the highest row, or into the padding
where there is no row. -/
theorem tall_mode_fits_iff (measured : zones.Measured) (nonneg : ∀ size ∈ rows, size.Nonneg)
    (tall : 0 < zones.modeH) :
    zones.rowsY + rowPadY + zones.modeH ≤ (computePositionsHorizontal zones rows).popupH ↔
      (∃ row ∈ rows, zones.modeH ≤ row.h + rowPadY) ∨
        (rows = [] ∧ zones.preUsed = false ∧ zones.modeH ≤ rowPadY) := by
  obtain ⟨-, -, high, empty⟩ := @horizontalContentH_bounds zones rows measured
  simp only [computePositionsHorizontal]
  by_cases none : rows = []
  · have rows_begin := empty none
    subst none
    simp only [List.not_mem_nil, false_and, exists_false, true_and, false_or]
    cases used : zones.preUsed with
    | true =>
        rw [used, if_pos rfl] at rows_begin
        simp only [padY, rowPadY, sectionGap, Bool.true_eq_false, false_and, iff_false] at *
        omega
    | false =>
        rw [used, if_neg Bool.false_ne_true] at rows_begin
        simp only [padY, rowPadY, true_and] at *
        omega
  · have rows_end := high none
    have reached := le_foldl_max_iff RowSize.h rows 0 (zones.modeH - rowPadY)
    have same : zones.rowsY + rowPadY + zones.modeH ≤ horizontalContentH zones rows + padY * 2 ↔
        zones.modeH - rowPadY ≤ maxRowH rows := by
      simp only [padY, rowPadY] at *
      omega
    rw [same, maxRowH, reached]
    constructor
    · rintro (low | ⟨row, member, reaches⟩)
      · obtain ⟨row, member⟩ := List.exists_mem_of_ne_nil rows none
        have row_high := (nonneg row member).h
        exact .inl ⟨row, member, by omega⟩
      · exact .inl ⟨row, member, by omega⟩
    · rintro (⟨row, member, reaches⟩ | ⟨empty, -⟩)
      · exact .inr ⟨row, member, by omega⟩
      · exact absurd empty none

/-- A horizontal layout contains everything exactly if everything fits. -/
theorem horizontal_contained_iff (measured : zones.Measured)
    (nonneg : ∀ size ∈ rows, size.Nonneg) :
    (computePositionsHorizontal zones rows).Contained zones ↔ PanelFits .horizontal zones rows := by
  rw [(horizontal_laid measured nonneg).contained_iff]
  refine and_congr_right fun _ => forall_congr' fun shown => ?_
  have modeH := measured.modeH
  have modeW := measured.modeW
  have begins := measured.le_rowsY
  rcases modeH.lt_or_eq with tall | flat
  · rw [horizontal_mode_held_iff measured nonneg shown tall,
      tall_mode_fits_iff measured nonneg tall]
    exact ⟨fun fits _ => fits, fun fits => fits tall⟩
  · have unplaced : zones.modePlaced = false := by
      simp [Zones.modePlaced, ← flat]
    obtain ⟨-, rows_placed⟩ := @horizontal_rows zones rows nonneg
    obtain ⟨-, columns⟩ := horizontalContentW_bounds zones rows
    have columns_nonneg : 0 ≤ columnsW 0 rows := by
      have line := (placeRowsHorizontal_inLine (y := 0) nonneg 0).le
      omega
    have content := (@horizontalContentH_bounds zones rows measured).1
    have popupW := le_max_left (horizontalContentW zones rows + padX * 2) minWidth
    have wide : zones.modeW ≤ (computePositionsHorizontal zones rows).popupW := by
      simp only [shown, true_and, colGap, computePositionsHorizontal, padX] at columns popupW ⊢
      split at columns <;> omega
    have below (row : PlacedRow) (member : row ∈ (computePositionsHorizontal zones rows).rows) :
        0 ≤ row.y := by
      have top := (rows_placed row member).2.1
      simp only [padY] at begins
      omega
    have high : 0 ≤ (computePositionsHorizontal zones rows).popupH := by
      simp only [computePositionsHorizontal, padY]
      omega
    have held := (flat_mode_held_iff (by simp [computePositionsHorizontal, unplaced])
      (by simp [computePositionsHorizontal, unplaced]) flat.symm high below).mpr wide
    exact iff_of_true held fun tall => absurd tall (by omega)

end Horizontal

/-! ## What is measured -/

/-- Everything is contained exactly if everything fits, in either layout. -/
theorem computePositions_contained_iff (layoutMode : LayoutMode) {zones : Zones}
    {rows : List RowSize} (measured : zones.Measured) (nonneg : ∀ size ∈ rows, size.Nonneg) :
    (computePositions layoutMode zones rows).Contained zones ↔ PanelFits layoutMode zones rows := by
  cases layoutMode with
  | vertical => exact vertical_contained_iff measured nonneg
  | horizontal => exact horizontal_contained_iff measured nonneg

theorem effectiveScale_pos (scale : Rat) : 0 < effectiveScale scale := by
  unfold effectiveScale
  split
  next positive => exact positive
  next => exact zero_lt_one

theorem logicalPx_nonneg {physical : Rat} (scale : Rat) (nonneg : 0 ≤ physical) :
    0 ≤ logicalPx physical scale := by
  have quotient : 0 ≤ physical / effectiveScale scale :=
    div_nonneg nonneg (effectiveScale_pos scale).le
  have above : -1 < logicalPx physical scale := by
    rw [logicalPx, Rat.lt_ceil_iff]
    push_cast
    linarith
  omega

section Engine

variable (engine : MeasuringEngine)

theorem textSize_nonneg (text : Text) (font : FontDesc) (scale : Rat) :
    0 ≤ (textSize engine text font scale).1 ∧ 0 ≤ (textSize engine text font scale).2 := by
  obtain ⟨wide, high⟩ := engine.nonneg text font
  unfold textSize
  split
  · exact ⟨logicalPx_nonneg scale wide, logicalPx_nonneg scale high⟩
  · exact ⟨logicalPx_nonneg scale le_rfl, logicalPx_nonneg scale le_rfl⟩

theorem rowSizes_nonneg (cfg : PopupConfig) (scale : Rat) (candidates : List Candidate)
    (index : Nat) : ∀ size ∈ rowSizes engine cfg scale candidates index, size.Nonneg := by
  induction candidates generalizing index with
  | nil => exact List.forall_mem_nil _
  | cons candidate candidates induction =>
      refine List.forall_mem_cons.mpr ⟨?_, induction (index + 1)⟩
      have label := textSize_nonneg engine (formatCandidateParts candidate index).1
        (scaledFontDesc cfg.labelFontDesc scale) scale
      have text := textSize_nonneg engine (formatCandidateParts candidate index).2
        (scaledFontDesc cfg.fontDesc scale) scale
      exact ⟨label.1, label.2, text.1, text.2⟩

/-- What is measured for the preedit and the mode label. -/
def measuredZones (cfg : PopupConfig) (scale : Rat) (preeditText modeLabel : Text) : Zones :=
  let font := scaledFontDesc cfg.auxFontDesc scale
  let preSize := CandidatePanel.auxSize engine.toTextEngine true preeditText font scale
  let modeSize := CandidatePanel.auxSize engine.toTextEngine cfg.modeIndicator modeLabel font scale
  { preUsed := decide (preeditText ≠ [])
    preW := preSize.1
    preH := preSize.2
    modeShown := cfg.modeIndicator && decide (modeLabel ≠ []) && engine.creates font
    modeW := modeSize.1
    modeH := modeSize.2 }

theorem auxSize_nonneg (shown : Bool) (text : Text) (font : FontDesc) (scale : Rat) :
    0 ≤ (CandidatePanel.auxSize engine.toTextEngine shown text font scale).1 ∧
      0 ≤ (CandidatePanel.auxSize engine.toTextEngine shown text font scale).2 := by
  obtain ⟨wide, high⟩ := engine.nonneg text font
  unfold CandidatePanel.auxSize
  split
  · exact ⟨logicalPx_nonneg scale wide, logicalPx_nonneg scale high⟩
  · exact ⟨logicalPx_nonneg scale le_rfl, logicalPx_nonneg scale le_rfl⟩

theorem measuredZones_measured (cfg : PopupConfig) (scale : Rat) (preeditText modeLabel : Text) :
    (measuredZones engine cfg scale preeditText modeLabel).Measured where
  preW := (auxSize_nonneg engine true preeditText _ scale).1
  preH := (auxSize_nonneg engine true preeditText _ scale).2
  modeW := (auxSize_nonneg engine cfg.modeIndicator modeLabel _ scale).1
  modeH := (auxSize_nonneg engine cfg.modeIndicator modeLabel _ scale).2

/-- A list of candidates which fits on a page. -/
structure Page extends CandidateList where
  bounded : toCandidateList.count ≤ maxRows

namespace CandidatePanel

variable (popup : CandidatePanel)

theorem createAux_isSome (shown : Bool) (text : Text) (font : FontDesc) :
    (popup.createAux engine.toTextEngine shown text font).2.isSome =
      (shown && decide (text ≠ []) && engine.creates font) := by
  unfold createAux createLayout
  cases shown <;> by_cases empty : text = [] <;> cases creates : engine.creates font <;>
    simp [empty]

/-- A page is always laid out, from the sizes which are measured for it. -/
theorem placedCompute_page (page : Page) (preeditText modeLabel : Option Text) (cfg : PopupConfig)
    (palette : Palette) (scale : Rat) :
    ∃ placed, (popup.placedCompute engine page.toCandidateList preeditText modeLabel cfg palette
        scale).2 = some placed ∧
      placed.placement = computePositions cfg.layoutMode
        (measuredZones engine cfg (effectiveScale scale) (cText preeditText) (cText modeLabel))
        (rowSizes engine cfg (effectiveScale scale) page.candidates 0) := by
  have fits : ¬ maxRows < page.toCandidateList.count := Nat.not_lt.mpr page.bounded
  simp only [placedCompute, geometryCompute, if_neg fits, Option.map_some]
  refine ⟨_, rfl, ?_⟩
  dsimp only
  simp only [PopupGeometry.zones, createAux_isSome, layoutSize_createAux]
  rfl

end CandidatePanel

end Engine

/-- Every character is eight pixels wide and sixteen high, and stands on the twelfth. -/
def gridEngine : MeasuringEngine where
  creates := fun _ => true
  metrics := fun text _ => (8 * text.length, 16)
  baseline := fun _ _ => 12
  nonneg := fun text _ => ⟨by positivity, by norm_num⟩

/-- The panel in one row, with the mode label shown. -/
def oneRowConfig : PopupConfig where
  themeMode := .auto
  layoutMode := .horizontal
  fontSize := 16
  modeIndicator := true
  fontDesc := ⟨[83, 97, 110, 115], 16⟩
  labelFontDesc := ⟨[83, 97, 110, 115], 12⟩
  auxFontDesc := ⟨[83, 97, 110, 115], 15⟩

end Popup

end Typio
