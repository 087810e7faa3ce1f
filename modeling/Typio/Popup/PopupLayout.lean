import Mathlib.Data.Rat.Floor
import Typio.Reclaim
import Typio.Wayland.Frontend

/-!
# The layouts and the geometry of the candidate panel

A text layout is a handle of the text engine.  The layouts of the candidate rows belong to a cache
of fixed size and are only borrowed by the geometry; the layouts of the preedit and of the mode
label belong to the geometry.  What a frame still in flight may show goes through a ring of slots
before it is freed.
-/

namespace Typio

namespace Popup

open Reclaim

/-! ## Requests -/

/-- `TypioTextLayout *`. -/
abbrev Layout := Nat

/-- `TypioCandidate`. -/
structure Candidate where
  text : Option Text
  comment : Option Text
  label : Option Text
  deriving DecidableEq, Repr

/-- `TypioCandidateList`. -/
structure CandidateList where
  candidates : List Candidate
  selected : Int
  contentSignature : Nat
  deriving DecidableEq, Repr

def CandidateList.count (list : CandidateList) : Nat := list.candidates.length

/-- A font description, cut at its last blank into the family and the size. -/
structure FontDesc where
  family : Text
  size : Nat
  deriving DecidableEq, Repr

inductive ThemeMode where
  | auto
  | light
  | dark
  deriving DecidableEq, Repr

inductive LayoutMode where
  | vertical
  | horizontal
  deriving DecidableEq, Repr

/-- `PopupConfig`. -/
structure PopupConfig where
  themeMode : ThemeMode
  layoutMode : LayoutMode
  fontSize : Nat
  modeIndicator : Bool
  fontDesc : FontDesc
  labelFontDesc : FontDesc
  auxFontDesc : FontDesc
  deriving DecidableEq, Repr

/-- `TypioCandidatePanelPalette`: the packed colours of the row texts, and the hash of the whole. -/
structure Palette where
  muted : Nat
  text : Nat
  selectionText : Nat
  signature : Nat
  deriving DecidableEq, Repr

/-- `TypioTextEngine`: the fonts in which it makes layouts, and the size in pixels of a text. -/
structure TextEngine where
  creates : FontDesc → Bool
  metrics : Text → FontDesc → Rat × Rat

/-! ## The cache and the geometry -/

/-- What identifies an entry of the layout cache. -/
structure LayoutKey where
  label : Text
  text : Text
  labelFontDesc : FontDesc
  fontDesc : FontDesc
  labelColor : Nat
  textColor : Nat
  deriving DecidableEq, Repr

/-- `PopupLayoutEntry`. -/
structure LayoutEntry where
  key : LayoutKey
  labelLayout : Option Layout
  layout : Option Layout
  lruTick : Nat
  deriving DecidableEq, Repr

/-- An entry of zeros. -/
def LayoutEntry.zero : LayoutEntry where
  key := ⟨[], [], ⟨[], 0⟩, ⟨[], 0⟩, 0, 0⟩
  labelLayout := none
  layout := none
  lruTick := 0

/-- `POPUP_LAYOUT_CACHE_CAP`. -/
def layoutCacheCap : Nat := 128

/-- `POPUP_MAX_ROWS`. -/
def maxRows : Nat := 16

/-- `PopupRenderCtx`. -/
structure RenderCtx where
  entries : List LayoutEntry
  tick : Nat
  deriving Repr

/-- `popup_render_ctx_init`. -/
def RenderCtx.init : RenderCtx where
  entries := List.replicate layoutCacheCap .zero
  tick := 0

/-- `PopupRow`. -/
structure PopupRow where
  labelLayout : Option Layout
  layout : Option Layout
  labelLayoutSel : Option Layout
  layoutSel : Option Layout
  deriving DecidableEq, Repr

/-- `PopupGeometry`.  The candidates are those the rows were laid out from. -/
structure PopupGeometry where
  rows : List PopupRow
  preeditLayout : Option Layout
  preW : Int
  preH : Int
  modeLayout : Option Layout
  modeW : Int
  modeH : Int
  scale : Rat
  contentSig : Nat
  paletteSig : Nat
  preeditText : Text
  modeLabel : Text
  config : PopupConfig
  candidates : List Candidate
  deriving DecidableEq, Repr

/-! ## The panel -/

inductive RetireItem where
  | geometry (geom : PopupGeometry)
  | layout (layout : Layout)
  deriving DecidableEq, Repr

inductive PresentResult where
  | ok
  | retry
  | fail
  deriving DecidableEq, Repr

/-- What a frame of the popup was recorded from. -/
structure Frame where
  candidates : List Candidate
  preeditText : Text
  modeLabel : Text
  selected : Int
  deriving DecidableEq, Repr

/-- `TypioWlCandidatePanel`.  The last three fields are kept for the proofs: the next handle of the
text engine, what happened to the handles, and the calls of `popup_present` with their results,
newest first. -/
structure CandidatePanel where
  fxReady : Bool
  presentRetry : Bool
  retire : Nat → List RetireItem
  presentEpoch : Nat
  render : RenderCtx
  geom : Option PopupGeometry
  config : Option PopupConfig
  selected : Int
  visible : Bool
  nextLayout : Layout
  log : Log Layout
  presents : List (Frame × PresentResult)

/-- `POPUP_RETIRE_DEPTH`. -/
def retireDepth : Nat := 3

/-- `POPUP_RETIRE_SLOT_MAX`. -/
def retireSlotMax : Nat := 256

/-- `typio_wl_candidate_panel_create`. -/
def CandidatePanel.create : CandidatePanel where
  fxReady := false
  presentRetry := false
  retire := fun _ => []
  presentEpoch := 0
  render := .init
  geom := none
  config := none
  selected := -1
  visible := false
  nextLayout := 1
  log := []
  presents := []

namespace CandidatePanel

/-! ## Freeing and retiring -/

/-- `typio_flux_layout_free`. -/
def layoutFree (popup : CandidatePanel) : Option Layout → CandidatePanel
  | none => popup
  | some layout => { popup with log := .released layout :: popup.log }

/-- `popup_geometry_free`. -/
def geometryFree (popup : CandidatePanel) (geom : PopupGeometry) : CandidatePanel :=
  (popup.layoutFree geom.preeditLayout).layoutFree geom.modeLayout

/-- `retire_item_free`. -/
def retireItemFree (popup : CandidatePanel) : RetireItem → CandidatePanel
  | .geometry geom => popup.geometryFree geom
  | .layout layout => popup.layoutFree (some layout)

/-- `retire_slot_drain`. -/
def retireSlotDrain (popup : CandidatePanel) (slot : Nat) : CandidatePanel :=
  let popup' := (popup.retire slot).foldl retireItemFree popup
  { popup' with retire := Function.update popup'.retire slot [] }

/-- `flux_device_wait_idle`. -/
def waitIdle (popup : CandidatePanel) : CandidatePanel :=
  { popup with log := .waited :: popup.log }

/-- `retire_slot_push`. -/
def retireSlotPush (popup : CandidatePanel) (slot : Nat) (item : RetireItem) : CandidatePanel :=
  let popup :=
    if retireSlotMax ≤ (popup.retire slot).length then popup.waitIdle.retireSlotDrain slot
    else popup
  { popup with retire := Function.update popup.retire slot (popup.retire slot ++ [item]) }

/-- `retire_geometry`. -/
def retireGeometry (popup : CandidatePanel) : Option PopupGeometry → CandidatePanel
  | none => popup
  | some geom =>
      if popup.fxReady then
        popup.retireSlotPush (popup.presentEpoch % retireDepth) (.geometry geom)
      else popup.geometryFree geom

/-- `popup_retire_layout`, the callback for evicted layouts. -/
def retireLayout (popup : CandidatePanel) : Option Layout → CandidatePanel
  | none => popup
  | some layout =>
      if popup.fxReady then
        popup.retireSlotPush (popup.presentEpoch % retireDepth) (.layout layout)
      else popup.layoutFree (some layout)

/-! ## The layout cache -/

/-- The layouts of an entry, in the order in which they are freed. -/
def entryFree (popup : CandidatePanel) (entry : LayoutEntry) : CandidatePanel :=
  (popup.layoutFree entry.layout).layoutFree entry.labelLayout

/-- `popup_render_ctx_invalidate`. -/
def renderCtxInvalidate (popup : CandidatePanel) : CandidatePanel :=
  { popup.render.entries.foldl entryFree popup with render := .init }

/-- `create_layout` of the text engine. -/
def createLayout (popup : CandidatePanel) (engine : TextEngine) (font : FontDesc) :
    CandidatePanel × Option Layout :=
  if engine.creates font then
    ({ popup with nextLayout := popup.nextLayout + 1 }, some popup.nextLayout)
  else (popup, none)

end CandidatePanel

/-- Where the search of the cache ends: at the entry sought, or at the one to be replaced. -/
inductive LruSlot where
  | found (index : Nat)
  | victim (index : Nat)
  deriving DecidableEq, Repr

/-- The entry is the one sought.  The hash in the entry is a function of the rest of the key. -/
def LayoutEntry.isFor (key : LayoutKey) (entry : LayoutEntry) : Bool :=
  entry.layout.isSome && entry.key = key

/-- The loop of `lru_get_or_create`. -/
def lruScan (key : LayoutKey) : List LayoutEntry → (index lruIdx lruTickMin : Nat) → LruSlot
  | [], _, lruIdx, _ => .victim lruIdx
  | entry :: entries, index, lruIdx, lruTickMin =>
      if entry.isFor key then .found index
      else if entry.layout = none ∨ entry.lruTick < lruTickMin then
        lruScan key entries (index + 1) index (if entry.layout = none then 0 else entry.lruTick)
      else lruScan key entries (index + 1) lruIdx lruTickMin

/-- The 32-bit counter of lookups, a step on. -/
def RenderCtx.nextTick (ctx : RenderCtx) : Nat := (ctx.tick + 1) % 2 ^ 32

/-- The entry at the index. -/
def RenderCtx.entry (ctx : RenderCtx) (index : Nat) : LayoutEntry := ctx.entries.getD index .zero

theorem RenderCtx.entry_of_lt {ctx : RenderCtx} {index : Nat}
    (bounded : index < ctx.entries.length) : ctx.entry index = ctx.entries[index] := by
  simp [RenderCtx.entry, bounded]

namespace CandidatePanel

/-- The victim of the search is evicted and filled with new layouts. -/
def lruReplace (popup : CandidatePanel) (engine : TextEngine) (key : LayoutKey) (index : Nat) :
    CandidatePanel × LayoutEntry :=
  let victim := popup.render.entry index
  let tick := popup.render.nextTick
  let popup := (popup.retireLayout victim.layout).retireLayout victim.labelLayout
  let (popup, labelLayout) := popup.createLayout engine key.labelFontDesc
  let (popup, layout) := popup.createLayout engine key.fontDesc
  let entry : LayoutEntry := { key, labelLayout, layout, lruTick := tick }
  ({ popup with render := { entries := popup.render.entries.set index entry, tick } }, entry)

/-- `lru_get_or_create`. -/
def lruGetOrCreate (popup : CandidatePanel) (engine : TextEngine) (key : LayoutKey) :
    CandidatePanel × LayoutEntry :=
  match lruScan key popup.render.entries 0 0 (2 ^ 32 - 1) with
  | .found index =>
      let entry := { popup.render.entry index with lruTick := popup.render.nextTick }
      ({ popup with
          render :=
            { entries := popup.render.entries.set index entry, tick := popup.render.nextTick } },
        entry)
  | .victim index => popup.lruReplace engine key index

end CandidatePanel

/-! ## The geometry -/

/-- The text of a pointer to characters. -/
def cText (text : Option Text) : Text := text.getD []

/-- What `snprintf` leaves of a text in a buffer of this size. -/
def snprintf (size : Nat) (text : Text) : Text := text.take (size - 1)

/-- A number in decimal. -/
def decimal (number : Nat) : Text :=
  (Nat.toDigits 10 number).map fun digit => digit.toNat.toUInt8

/-- `format_candidate_parts`: the label and the text. -/
def formatCandidateParts (candidate : Candidate) (index : Nat) : Text × Text :=
  match candidate.text with
  | none => ([], [])
  | some text =>
      let label := if cText candidate.label = [] then decimal (index + 1) else cText candidate.label
      let comment :=
        if cText candidate.comment = [] then [] else [32, 32] ++ cText candidate.comment
      (snprintf 64 label, snprintf 512 (text ++ comment))

/-- A scale which is not positive counts as one. -/
def effectiveScale (scale : Rat) : Rat := if 0 < scale then scale else 1

/-- `POPUP_DEFAULT_FONT_SIZE`. -/
def defaultFontSize : Nat := 16

/-- `scaled_font_desc`. -/
def scaledFontDesc (font : FontDesc) (scale : Rat) : FontDesc :=
  let size := if font.size = 0 then defaultFontSize else font.size
  let pixels := (size * effectiveScale scale + 1 / 2).floor
  { font with size := max 1 pixels.toNat }

/-- `logical_px`. -/
def logicalPx (physical scale : Rat) : Int := (physical / effectiveScale scale).ceil

/-- The logical size of a layout of the text, nothing for a null layout. -/
def layoutSize (engine : TextEngine) (layout : Option Layout) (text : Text) (font : FontDesc)
    (scale : Rat) : Int × Int :=
  match layout with
  | none => (logicalPx 0 scale, logicalPx 0 scale)
  | some _ =>
      (logicalPx (engine.metrics text font).1 scale, logicalPx (engine.metrics text font).2 scale)

namespace CandidatePanel

/-- The two lookups for a candidate: its row in the plain and in the selected colours. -/
def computeRow (popup : CandidatePanel) (engine : TextEngine) (cfg : PopupConfig)
    (palette : Palette) (scale : Rat) (candidate : Candidate) (index : Nat) :
    CandidatePanel × PopupRow :=
  let (label, text) := formatCandidateParts candidate index
  let labelFontDesc := scaledFontDesc cfg.labelFontDesc scale
  let fontDesc := scaledFontDesc cfg.fontDesc scale
  let (popup, entry) :=
    popup.lruGetOrCreate engine ⟨label, text, labelFontDesc, fontDesc, palette.muted, palette.text⟩
  let (popup, entrySel) :=
    popup.lruGetOrCreate engine
      ⟨label, text, labelFontDesc, fontDesc, palette.selectionText, palette.selectionText⟩
  (popup, ⟨entry.labelLayout, entry.layout, entrySel.labelLayout, entrySel.layout⟩)

/-- The loop over the candidates, from the one at the index. -/
def computeRows (popup : CandidatePanel) (engine : TextEngine) (cfg : PopupConfig)
    (palette : Palette) (scale : Rat) : List Candidate → (index : Nat) →
      CandidatePanel × List PopupRow
  | [], _ => (popup, [])
  | candidate :: candidates, index =>
      let (popup, row) := popup.computeRow engine cfg palette scale candidate index
      let (popup, rows) := popup.computeRows engine cfg palette scale candidates (index + 1)
      (popup, row :: rows)

/-- The layout of a preedit or mode label; none for an empty one. -/
def createAux (popup : CandidatePanel) (engine : TextEngine) (shown : Bool) (text : Text)
    (font : FontDesc) : CandidatePanel × Option Layout :=
  if shown = true ∧ text ≠ [] then popup.createLayout engine font else (popup, none)

/-- `popup_geometry_compute`. -/
def geometryCompute (popup : CandidatePanel) (engine : TextEngine) (cands : CandidateList)
    (preeditText modeLabel : Option Text) (cfg : PopupConfig) (palette : Palette) (scale : Rat) :
    CandidatePanel × Option PopupGeometry :=
  if maxRows < cands.count then (popup, none)
  else
    let scale := effectiveScale scale
    let (popup, rows) := popup.computeRows engine cfg palette scale cands.candidates 0
    let font := scaledFontDesc cfg.auxFontDesc scale
    let (popup, preeditLayout) := popup.createAux engine true (cText preeditText) font
    let (popup, modeLayout) := popup.createAux engine cfg.modeIndicator (cText modeLabel) font
    let preSize := layoutSize engine preeditLayout (cText preeditText) font scale
    let modeSize := layoutSize engine modeLayout (cText modeLabel) font scale
    (popup, some {
      rows
      preeditLayout
      preW := preSize.1
      preH := preSize.2
      modeLayout
      modeW := modeSize.1
      modeH := modeSize.2
      scale
      contentSig := cands.contentSignature
      paletteSig := palette.signature
      preeditText := snprintf 256 (cText preeditText)
      modeLabel := snprintf 128 (cText modeLabel)
      config := cfg
      candidates := cands.candidates })

/-- `popup_geometry_update_aux`. -/
def geometryUpdateAux (popup : CandidatePanel) (engine : TextEngine) (base : PopupGeometry)
    (preeditText modeLabel : Option Text) : CandidatePanel × Option PopupGeometry :=
  let font := scaledFontDesc base.config.auxFontDesc base.scale
  let (popup, preeditLayout) := popup.createAux engine true (cText preeditText) font
  let (popup, modeLayout) := popup.createAux engine base.config.modeIndicator (cText modeLabel) font
  let preSize := layoutSize engine preeditLayout (cText preeditText) font base.scale
  let modeSize := layoutSize engine modeLayout (cText modeLabel) font base.scale
  if preSize ≠ (base.preW, base.preH) ∨ modeSize ≠ (base.modeW, base.modeH) then
    ((popup.layoutFree preeditLayout).layoutFree modeLayout, none)
  else
    (popup, some { base with
      preeditLayout
      modeLayout
      preeditText := snprintf 256 (cText preeditText)
      modeLabel := snprintf 128 (cText modeLabel) })

/-! ## What upkeep leaves alone -/

/-- Freeing, retiring and laying out texts leaves what the panel shows alone. -/
structure Upkeep (before after : CandidatePanel) : Prop where
  fxReady : after.fxReady = before.fxReady
  presentRetry : after.presentRetry = before.presentRetry
  presentEpoch : after.presentEpoch = before.presentEpoch
  geom : after.geom = before.geom
  config : after.config = before.config
  selected : after.selected = before.selected
  visible : after.visible = before.visible
  presents : after.presents = before.presents

theorem Upkeep.refl (popup : CandidatePanel) : popup.Upkeep popup :=
  ⟨rfl, rfl, rfl, rfl, rfl, rfl, rfl, rfl⟩

theorem Upkeep.trans {before between after : CandidatePanel} (first : before.Upkeep between)
    (second : between.Upkeep after) : before.Upkeep after where
  fxReady := second.fxReady.trans first.fxReady
  presentRetry := second.presentRetry.trans first.presentRetry
  presentEpoch := second.presentEpoch.trans first.presentEpoch
  geom := second.geom.trans first.geom
  config := second.config.trans first.config
  selected := second.selected.trans first.selected
  visible := second.visible.trans first.visible
  presents := second.presents.trans first.presents

theorem Upkeep.foldl {Item : Type} {act : CandidatePanel → Item → CandidatePanel}
    (keeps : ∀ popup item, Upkeep popup (act popup item)) (items : List Item)
    (popup : CandidatePanel) : popup.Upkeep (items.foldl act popup) := by
  induction items generalizing popup with
  | nil => exact .refl popup
  | cons item items induction => exact (keeps popup item).trans (induction (act popup item))

theorem layoutFree_upkeep (popup : CandidatePanel) (layout : Option Layout) :
    popup.Upkeep (popup.layoutFree layout) := by
  cases layout <;> exact ⟨rfl, rfl, rfl, rfl, rfl, rfl, rfl, rfl⟩

theorem geometryFree_upkeep (popup : CandidatePanel) (geom : PopupGeometry) :
    popup.Upkeep (popup.geometryFree geom) :=
  (layoutFree_upkeep popup _).trans (layoutFree_upkeep _ _)

theorem retireItemFree_upkeep (popup : CandidatePanel) (item : RetireItem) :
    popup.Upkeep (popup.retireItemFree item) := by
  cases item with
  | geometry geom => exact geometryFree_upkeep popup geom
  | layout layout => exact layoutFree_upkeep popup layout

theorem retireSlotDrain_upkeep (popup : CandidatePanel) (slot : Nat) :
    popup.Upkeep (popup.retireSlotDrain slot) :=
  have freed := Upkeep.foldl retireItemFree_upkeep (popup.retire slot) popup
  ⟨freed.fxReady, freed.presentRetry, freed.presentEpoch, freed.geom, freed.config, freed.selected,
    freed.visible, freed.presents⟩

theorem waitIdle_upkeep (popup : CandidatePanel) : popup.Upkeep popup.waitIdle :=
  ⟨rfl, rfl, rfl, rfl, rfl, rfl, rfl, rfl⟩

theorem retireSlotPush_upkeep (popup : CandidatePanel) (slot : Nat) (item : RetireItem) :
    popup.Upkeep (popup.retireSlotPush slot item) := by
  by_cases full : retireSlotMax ≤ (popup.retire slot).length
  · have drained := (waitIdle_upkeep popup).trans (retireSlotDrain_upkeep _ slot)
    rw [retireSlotPush, if_pos full]
    exact ⟨drained.fxReady, drained.presentRetry, drained.presentEpoch, drained.geom,
      drained.config, drained.selected, drained.visible, drained.presents⟩
  · rw [retireSlotPush, if_neg full]
    exact ⟨rfl, rfl, rfl, rfl, rfl, rfl, rfl, rfl⟩

theorem retireGeometry_upkeep (popup : CandidatePanel) (geom : Option PopupGeometry) :
    popup.Upkeep (popup.retireGeometry geom) := by
  cases geom with
  | none => exact .refl popup
  | some geom =>
      simp only [retireGeometry]
      split
      · exact retireSlotPush_upkeep popup _ _
      · exact geometryFree_upkeep popup geom

theorem retireLayout_upkeep (popup : CandidatePanel) (layout : Option Layout) :
    popup.Upkeep (popup.retireLayout layout) := by
  cases layout with
  | none => exact .refl popup
  | some layout =>
      simp only [retireLayout]
      split
      · exact retireSlotPush_upkeep popup _ _
      · exact layoutFree_upkeep popup _

theorem renderCtxInvalidate_upkeep (popup : CandidatePanel) :
    popup.Upkeep popup.renderCtxInvalidate :=
  have freed := Upkeep.foldl
    (fun popup (entry : LayoutEntry) =>
      (layoutFree_upkeep popup entry.layout).trans (layoutFree_upkeep _ entry.labelLayout))
    popup.render.entries popup
  ⟨freed.fxReady, freed.presentRetry, freed.presentEpoch, freed.geom, freed.config, freed.selected,
    freed.visible, freed.presents⟩

theorem createLayout_upkeep (popup : CandidatePanel) (engine : TextEngine) (font : FontDesc) :
    popup.Upkeep (popup.createLayout engine font).1 := by
  simp only [createLayout]
  split <;> exact ⟨rfl, rfl, rfl, rfl, rfl, rfl, rfl, rfl⟩

theorem lruReplace_upkeep (popup : CandidatePanel) (engine : TextEngine) (key : LayoutKey)
    (index : Nat) : popup.Upkeep (popup.lruReplace engine key index).1 := by
  have evicted := (retireLayout_upkeep popup (popup.render.entry index).layout).trans
    (retireLayout_upkeep _ (popup.render.entry index).labelLayout)
  have created := (evicted.trans (createLayout_upkeep _ engine key.labelFontDesc)).trans
    (createLayout_upkeep _ engine key.fontDesc)
  exact ⟨created.fxReady, created.presentRetry, created.presentEpoch, created.geom, created.config,
    created.selected, created.visible, created.presents⟩

theorem lruGetOrCreate_upkeep (popup : CandidatePanel) (engine : TextEngine) (key : LayoutKey) :
    popup.Upkeep (popup.lruGetOrCreate engine key).1 := by
  simp only [lruGetOrCreate]
  split
  · exact ⟨rfl, rfl, rfl, rfl, rfl, rfl, rfl, rfl⟩
  · exact lruReplace_upkeep popup engine key _

theorem computeRow_upkeep (popup : CandidatePanel) (engine : TextEngine) (cfg : PopupConfig)
    (palette : Palette) (scale : Rat) (candidate : Candidate) (index : Nat) :
    popup.Upkeep (popup.computeRow engine cfg palette scale candidate index).1 :=
  (lruGetOrCreate_upkeep popup engine _).trans (lruGetOrCreate_upkeep _ engine _)

theorem computeRows_upkeep (popup : CandidatePanel) (engine : TextEngine) (cfg : PopupConfig)
    (palette : Palette) (scale : Rat) (candidates : List Candidate) (index : Nat) :
    popup.Upkeep (popup.computeRows engine cfg palette scale candidates index).1 := by
  induction candidates generalizing popup index with
  | nil => exact .refl popup
  | cons candidate candidates induction =>
      exact (computeRow_upkeep popup engine cfg palette scale candidate index).trans
        (induction _ (index + 1))

theorem createAux_upkeep (popup : CandidatePanel) (engine : TextEngine) (shown : Bool) (text : Text)
    (font : FontDesc) : popup.Upkeep (popup.createAux engine shown text font).1 := by
  simp only [createAux]
  split
  · exact createLayout_upkeep popup engine font
  · exact .refl popup

theorem geometryCompute_upkeep (popup : CandidatePanel) (engine : TextEngine)
    (cands : CandidateList) (preeditText modeLabel : Option Text) (cfg : PopupConfig)
    (palette : Palette) (scale : Rat) :
    popup.Upkeep
      (popup.geometryCompute engine cands preeditText modeLabel cfg palette scale).1 := by
  simp only [geometryCompute]
  split
  · exact .refl popup
  · exact ((computeRows_upkeep popup engine cfg palette _ _ 0).trans
      (createAux_upkeep _ engine true _ _)).trans (createAux_upkeep _ engine _ _ _)

theorem geometryUpdateAux_upkeep (popup : CandidatePanel) (engine : TextEngine)
    (base : PopupGeometry) (preeditText modeLabel : Option Text) :
    popup.Upkeep (popup.geometryUpdateAux engine base preeditText modeLabel).1 := by
  have created (text : Text) (label : Text) (font : FontDesc) :=
    (createAux_upkeep popup engine true text font).trans
      (createAux_upkeep _ engine base.config.modeIndicator label font)
  simp only [geometryUpdateAux]
  split
  · exact ((created ..).trans (layoutFree_upkeep _ _)).trans (layoutFree_upkeep _ _)
  · exact created ..

end CandidatePanel

end Popup

end Typio
