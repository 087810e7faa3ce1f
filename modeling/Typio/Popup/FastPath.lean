import Typio.Popup.Containment

/-!
# The fast path of the candidate panel

When only the preedit or the mode label changes and their sizes stay, the geometry is copied and
not computed again.  A text which is not empty has a positive size, so the four sizes which are
compared tell which of the two boxes there are, and the copy is what a computation would give.
-/

namespace Typio

namespace Popup

/-- A text engine which gives a text which is not empty a positive size; a font which could not be
had would give it none. -/
structure PositiveEngine extends MeasuringEngine where
  creates_all : ∀ font, creates font = true
  positive : ∀ text font, text ≠ [] → 0 < (metrics text font).1 ∧ 0 < (metrics text font).2

/-- The row without its layouts. -/
def PopupRow.bare (_ : PopupRow) : PopupRow := ⟨none, none, none, none⟩

/-- The geometry without its layouts; which of the two boxes have one is kept. -/
def PlacedGeometry.bare (placed : PlacedGeometry) : PlacedGeometry :=
  { placed with
    geom := { placed.geom with
      rows := placed.geom.rows.map PopupRow.bare
      preeditLayout := placed.geom.preeditLayout.map fun _ => 0
      modeLayout := placed.geom.modeLayout.map fun _ => 0 } }

/-- What a geometry is computed from, besides its preedit and its mode label. -/
structure PanelInput where
  cands : CandidateList
  cfg : PopupConfig
  palette : Palette
  scale : Rat

section Engine

variable (engine : PositiveEngine)

/-- The geometries which a computation and any number of successful updates lead to, whatever
happens to the panel meanwhile. -/
inductive Obtained (input : PanelInput) : PlacedGeometry → Prop
  | computed {popup : CandidatePanel} {preeditText modeLabel : Option Text} {placed : PlacedGeometry}
      (found : (popup.placedCompute engine.toMeasuringEngine input.cands preeditText modeLabel
        input.cfg input.palette input.scale).2 = some placed) : Obtained input placed
  | updated {popup : CandidatePanel} {preeditText modeLabel : Option Text}
      {base placed : PlacedGeometry} (obtained : Obtained input base)
      (found : (popup.placedUpdateAux engine.toMeasuringEngine base preeditText modeLabel).2 =
        some placed) : Obtained input placed

/-- What a computation gives for the preedit and the mode label, without its layouts. -/
def bareGeometry (input : PanelInput) (preeditText modeLabel : Text) : PlacedGeometry :=
  let scale := effectiveScale input.scale
  let zones := measuredZones engine.toMeasuringEngine input.cfg scale preeditText modeLabel
  { geom :=
      { rows := input.cands.candidates.map fun _ => ⟨none, none, none, none⟩
        preeditLayout := if zones.preUsed then some 0 else none
        preW := zones.preW
        preH := zones.preH
        modeLayout := if zones.modeShown then some 0 else none
        modeW := zones.modeW
        modeH := zones.modeH
        scale
        contentSig := input.cands.contentSignature
        paletteSig := input.palette.signature
        preeditText := snprintf 256 preeditText
        modeLabel := snprintf 128 modeLabel
        config := input.cfg
        candidates := input.cands.candidates }
    placement := computePositions input.cfg.layoutMode zones
      (rowSizes engine.toMeasuringEngine input.cfg scale input.cands.candidates 0) }

/-! ## Sizes tell which boxes there are -/

theorem logicalPx_pos {physical : Rat} (scale : Rat) (positive : 0 < physical) :
    0 < logicalPx physical scale := by
  rw [logicalPx, Rat.lt_ceil_iff]
  exact_mod_cast div_pos positive (effectiveScale_pos scale)

theorem auxSize_pos_iff (shown : Bool) (text : Text) (font : FontDesc) (scale : Rat) :
    0 < (CandidatePanel.auxSize engine.toTextEngine shown text font scale).1 ↔
      shown = true ∧ text ≠ [] := by
  unfold CandidatePanel.auxSize
  constructor
  · intro positive
    split at positive
    next made => exact ⟨made.1, made.2.1⟩
    next =>
      rw [logicalPx, Rat.lt_ceil_iff] at positive
      simp at positive
  · rintro ⟨isShown, some⟩
    rw [if_pos ⟨isShown, some, engine.creates_all font⟩]
    exact logicalPx_pos scale (engine.positive text font some).1

/-- Where the sizes are the same, so is everything the layout reads of the preedit and the mode
label. -/
theorem measuredZones_congr {cfg : PopupConfig} {scale : Rat}
    {preeditText modeLabel newPreedit newLabel : Text}
    (pre : CandidatePanel.auxSize engine.toTextEngine true newPreedit
        (scaledFontDesc cfg.auxFontDesc scale) scale =
      CandidatePanel.auxSize engine.toTextEngine true preeditText
        (scaledFontDesc cfg.auxFontDesc scale) scale)
    (mode : CandidatePanel.auxSize engine.toTextEngine cfg.modeIndicator newLabel
        (scaledFontDesc cfg.auxFontDesc scale) scale =
      CandidatePanel.auxSize engine.toTextEngine cfg.modeIndicator modeLabel
        (scaledFontDesc cfg.auxFontDesc scale) scale) :
    measuredZones engine.toMeasuringEngine cfg scale newPreedit newLabel =
      measuredZones engine.toMeasuringEngine cfg scale preeditText modeLabel := by
  have used : newPreedit ≠ [] ↔ preeditText ≠ [] := by
    have new := auxSize_pos_iff engine true newPreedit (scaledFontDesc cfg.auxFontDesc scale) scale
    have old := auxSize_pos_iff engine true preeditText (scaledFontDesc cfg.auxFontDesc scale) scale
    rw [pre, old] at new
    simpa using new.symm
  have shown : (cfg.modeIndicator && decide (newLabel ≠ [])) =
      (cfg.modeIndicator && decide (modeLabel ≠ [])) := by
    have new := auxSize_pos_iff engine cfg.modeIndicator newLabel
      (scaledFontDesc cfg.auxFontDesc scale) scale
    have old := auxSize_pos_iff engine cfg.modeIndicator modeLabel
      (scaledFontDesc cfg.auxFontDesc scale) scale
    rw [mode, old] at new
    rw [Bool.eq_iff_iff]
    simpa using new.symm
  simp only [measuredZones, pre, mode, shown, used]

/-! ## Computing and updating -/

namespace CandidatePanel

theorem computeRows_bare (popup : CandidatePanel) (cfg : PopupConfig) (palette : Palette)
    (scale : Rat) (candidates : List Candidate) (index : Nat) :
    ((popup.computeRows engine.toTextEngine cfg palette scale candidates index).2.map
        PopupRow.bare) = candidates.map fun _ => ⟨none, none, none, none⟩ := by
  induction candidates generalizing popup index with
  | nil => rfl
  | cons candidate candidates induction =>
      simp only [computeRows, List.map_cons, induction]
      rfl

theorem createAux_map (popup : CandidatePanel) (shown : Bool) (text : Text) (font : FontDesc) :
    (popup.createAux engine.toTextEngine shown text font).2.map (fun _ => 0) =
      if shown && decide (text ≠ []) && engine.creates font then some 0 else none := by
  rw [← createAux_isSome engine.toMeasuringEngine popup]
  cases (popup.createAux engine.toTextEngine shown text font).2 <;> rfl

variable {popup : CandidatePanel} {input : PanelInput} {preeditText modeLabel : Option Text}
  {base placed : PlacedGeometry}

/-- A computed geometry, without its layouts, depends on the input and the two texts alone. -/
theorem placedCompute_bare (found : (popup.placedCompute engine.toMeasuringEngine input.cands
      preeditText modeLabel input.cfg input.palette input.scale).2 = some placed) :
    placed.bare = bareGeometry engine input (cText preeditText) (cText modeLabel) := by
  simp only [placedCompute, geometryCompute] at found
  split at found
  · cases found
  · rw [Option.map_some, Option.some.injEq] at found
    subst found
    simp only [PlacedGeometry.bare, bareGeometry, computeRows_bare, createAux_map,
      PopupGeometry.zones, createAux_isSome, layoutSize_createAux, measuredZones,
      engine.creates_all]
    simp

/-- A page which has been computed once can be computed again. -/
theorem placedCompute_again {other : CandidatePanel} (otherPreedit otherLabel : Option Text)
    (found : (popup.placedCompute engine.toMeasuringEngine input.cands preeditText modeLabel
      input.cfg input.palette input.scale).2 = some placed) :
    ∃ fresh, (other.placedCompute engine.toMeasuringEngine input.cands otherPreedit otherLabel
      input.cfg input.palette input.scale).2 = some fresh := by
  simp only [placedCompute, geometryCompute] at found ⊢
  split at found
  · cases found
  next few =>
    rw [if_neg few]
    exact ⟨_, rfl⟩

/-- An update which succeeds replaces the two texts, as far as the layouts are not looked at. -/
theorem placedUpdateAux_bare {oldPreedit oldLabel : Text}
    (base_bare : base.bare = bareGeometry engine input oldPreedit oldLabel)
    (found : (popup.placedUpdateAux engine.toMeasuringEngine base preeditText modeLabel).2 =
      some placed) :
    placed.bare = bareGeometry engine input (cText preeditText) (cText modeLabel) := by
  have config : base.geom.config = input.cfg := congrArg (fun placed => placed.geom.config) base_bare
  have scale : base.geom.scale = effectiveScale input.scale :=
    congrArg (fun placed => placed.geom.scale) base_bare
  have pre : (base.geom.preW, base.geom.preH) = _ :=
    congrArg (fun placed => (placed.geom.preW, placed.geom.preH)) base_bare
  have mode : (base.geom.modeW, base.geom.modeH) = _ :=
    congrArg (fun placed => (placed.geom.modeW, placed.geom.modeH)) base_bare
  simp only [placedUpdateAux, geometryUpdateAux, layoutSize_createAux, config, scale, pre, mode]
    at found
  split at found
  · cases found
  next same =>
    rw [Option.map_some, Option.some.injEq] at found
    subst found
    simp only [not_or, not_not] at same
    have zones := measuredZones_congr engine same.1 same.2
    have updated : bareGeometry engine input (cText preeditText) (cText modeLabel) =
        { bareGeometry engine input oldPreedit oldLabel with
          geom := { (bareGeometry engine input oldPreedit oldLabel).geom with
            preeditText := snprintf 256 (cText preeditText)
            modeLabel := snprintf 128 (cText modeLabel) } } := by
      simp only [bareGeometry, zones]
    have preedit_layout : base.geom.preeditLayout.map (fun _ => 0) = _ :=
      congrArg (fun placed => placed.geom.preeditLayout) base_bare
    have mode_layout : base.geom.modeLayout.map (fun _ => 0) = _ :=
      congrArg (fun placed => placed.geom.modeLayout) base_bare
    simp only [bareGeometry, ← zones] at preedit_layout mode_layout
    rw [updated, ← base_bare]
    simp only [PlacedGeometry.bare, createAux_map, preedit_layout, mode_layout, measuredZones,
      engine.creates_all, config, scale, Bool.true_and, Bool.and_true]

end CandidatePanel

/-- Every geometry obtained is, without its layouts, a computed one. -/
theorem Obtained.bare {input : PanelInput} {placed : PlacedGeometry}
    (obtained : Obtained engine input placed) :
    (∃ preeditText modeLabel, placed.bare = bareGeometry engine input preeditText modeLabel) ∧
      ∀ (popup : CandidatePanel) (preeditText modeLabel : Option Text), ∃ fresh,
        (popup.placedCompute engine.toMeasuringEngine input.cands preeditText modeLabel input.cfg
          input.palette input.scale).2 = some fresh := by
  induction obtained with
  | computed found =>
      exact ⟨⟨_, _, CandidatePanel.placedCompute_bare engine found⟩, fun popup preeditText modeLabel =>
        CandidatePanel.placedCompute_again engine preeditText modeLabel found⟩
  | updated _ found induction =>
      obtain ⟨⟨oldPreedit, oldLabel, base_bare⟩, again⟩ := induction
      exact ⟨⟨_, _, CandidatePanel.placedUpdateAux_bare engine base_bare found⟩, again⟩

/-- For every geometry obtained by a computation and any number of updates, a further update which
succeeds gives, up to the layouts, what a computation in any state of the panel gives for the new
preedit and mode label. -/
theorem Obtained.update_eq_compute {input : PanelInput} {base placed : PlacedGeometry}
    (obtained : Obtained engine input base) {popup : CandidatePanel}
    {preeditText modeLabel : Option Text}
    (found : (popup.placedUpdateAux engine.toMeasuringEngine base preeditText modeLabel).2 =
      some placed) (other : CandidatePanel) :
    ∃ fresh, (other.placedCompute engine.toMeasuringEngine input.cands preeditText modeLabel
        input.cfg input.palette input.scale).2 = some fresh ∧ placed.bare = fresh.bare := by
  obtain ⟨⟨oldPreedit, oldLabel, base_bare⟩, again⟩ := obtained.bare
  obtain ⟨fresh, computed⟩ := again other preeditText modeLabel
  refine ⟨fresh, computed, ?_⟩
  rw [CandidatePanel.placedUpdateAux_bare engine base_bare found,
    CandidatePanel.placedCompute_bare engine computed]

end Engine

/-- Every character is eight pixels wide and sixteen high. -/
def positiveGrid : PositiveEngine where
  toMeasuringEngine := gridEngine
  creates_all := fun _ => rfl
  positive := by
    intro text font some
    have length : (0 : Rat) < text.length := by
      exact_mod_cast List.length_pos_iff.mpr some
    exact ⟨mul_pos (by norm_num) length, by norm_num [gridEngine]⟩

/-- A preedit and a label of the same length replace those computed. -/
theorem update_eq_compute_same_length :
    let input : PanelInput := ⟨⟨[], -1, 0⟩, oneRowConfig, ⟨1, 2, 3, 4⟩, 1⟩
    ∃ base placed, (CandidatePanel.create.placedCompute gridEngine input.cands (some [110, 105])
        (some [65]) input.cfg input.palette input.scale).2 = some base ∧
      (CandidatePanel.create.placedUpdateAux gridEngine base (some [109, 97]) (some [66])).2 =
        some placed ∧
      ∃ fresh, (CandidatePanel.create.placedCompute gridEngine input.cands (some [109, 97])
        (some [66]) input.cfg input.palette input.scale).2 = some fresh ∧
        placed.bare = fresh.bare := by
  intro input
  have updated : ((CandidatePanel.create.placedCompute gridEngine input.cands (some [110, 105])
      (some [65]) input.cfg input.palette input.scale).2.bind fun base =>
        (CandidatePanel.create.placedUpdateAux gridEngine base (some [109, 97])
          (some [66])).2).isSome = true := by
    decide +kernel
  obtain ⟨placed, replaced⟩ := Option.isSome_iff_exists.mp updated
  obtain ⟨base, found, replaced⟩ := Option.bind_eq_some_iff.mp replaced
  exact ⟨base, placed, found, replaced, Obtained.update_eq_compute positiveGrid (.computed found)
    replaced CandidatePanel.create⟩

end Popup

end Typio
