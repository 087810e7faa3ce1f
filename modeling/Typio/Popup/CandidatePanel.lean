import Typio.Popup.PopupLayout
import Typio.Machine

/-!
# The candidate panel

A request is classified by what differs from the stored geometry, the geometry is brought up to
date, and a frame is recorded from it and presented.  A request which differs in nothing from what
the panel takes to be on the screen is answered at once.
-/

namespace Typio

namespace Popup

open Reclaim

/-! ## Requests -/

/-- The results of the flux calls. -/
inductive FluxResult where
  | ok
  | surfaceLost
  | timeout
  | error
  deriving DecidableEq, Repr

/-- What the flux calls of one present return: the acquisition and its repetition on a lost surface,
the canvas, the submission and the present. -/
structure FluxFrame where
  beginFrame : FluxResult
  beginAgain : FluxResult
  canvasBegin : Bool
  submit : Bool
  present : FluxResult
  deriving DecidableEq, Repr

/-- The result of the acquisition, which is repeated once when the surface was lost. -/
def FluxFrame.acquired (flux : FluxFrame) : FluxResult :=
  if flux.beginFrame = .surfaceLost then flux.beginAgain else flux.beginFrame

/-- What a submitted frame ends in. -/
def FluxFrame.presented (flux : FluxFrame) : PresentResult :=
  match flux.present with
  | .ok => .ok
  | .surfaceLost => .retry
  | .timeout | .error => .fail

/-- A call of `popup_render` with the environment it finds: the configuration which would be loaded,
the palette built from it, the scale, the text engine, whether the swapchain can be made, and what
the flux calls return. -/
structure Request where
  cands : Option CandidateList
  preeditText : Option Text
  modeLabel : Option Text
  loadedConfig : PopupConfig
  buildPalette : PopupConfig → Palette
  scale : Rat
  engine : TextEngine
  surfaceCreated : Bool
  flux : FluxFrame

/-- `empty_cands`. -/
def emptyCands : CandidateList where
  candidates := []
  selected := 0
  contentSignature := 0

/-- The candidates of a request; a null list is the empty one. -/
def Request.list (request : Request) : CandidateList := request.cands.getD emptyCands

/-- The row to be highlighted. -/
def Request.newSelected (request : Request) : Int :=
  if 0 < request.list.count then request.list.selected else -1

/-- What a frame for the request is to be recorded from. -/
def Request.frame (request : Request) : Frame where
  candidates := request.list.candidates
  preeditText := cText request.preeditText
  modeLabel := cText request.modeLabel
  selected := request.newSelected

/-! ## Classification -/

/-- `PopupDelta`; `POPUP_DELTA_NONE` is never the outcome. -/
inductive PopupDelta where
  | selection
  | aux
  | content
  | style
  deriving DecidableEq, Repr

/-- The slack in the comparison of scales. -/
def scaleSlack : Rat := 1 / 10000

/-- The geometry was laid out for another style. -/
def PopupGeometry.styleDiffers (geom : PopupGeometry) (cfg : PopupConfig) (paletteSig : Nat)
    (scale : Rat) : Bool :=
  scaleSlack < geom.scale - scale || scaleSlack < scale - geom.scale ||
    geom.paletteSig ≠ paletteSig || geom.config.themeMode ≠ cfg.themeMode ||
    geom.config.layoutMode ≠ cfg.layoutMode || geom.config.fontSize ≠ cfg.fontSize ||
    geom.config.modeIndicator ≠ cfg.modeIndicator || geom.config.fontDesc ≠ cfg.fontDesc ||
    geom.config.auxFontDesc ≠ cfg.auxFontDesc

/-- `classify_delta`. -/
def classifyDelta (geom : Option PopupGeometry) (cands : CandidateList) (preedit modeLabel : Text)
    (cfg : PopupConfig) (paletteSig : Nat) (scale : Rat) : PopupDelta :=
  match geom with
  | none => .content
  | some geom =>
      if geom.styleDiffers cfg paletteSig scale then .style
      else if geom.contentSig ≠ cands.contentSignature then .content
      else if geom.preeditText ≠ preedit ∨ geom.modeLabel ≠ modeLabel then .aux
      else .selection

/-! ## Recording -/

/-- `record_row`: the layouts drawn for a row. -/
def PopupRow.record (row : PopupRow) (selected : Bool) : List Layout :=
  if selected then row.labelLayoutSel.toList ++ row.layoutSel.toList
  else row.labelLayout.toList ++ row.layout.toList

/-- The loop over the rows of `popup_record`, from the row at the index. -/
def recordRows (selected : Int) : List PopupRow → (index : Nat) → List Layout
  | [], _ => []
  | row :: rows, index => row.record (selected = index) ++ recordRows selected rows (index + 1)

/-- `popup_record`: the layouts drawn in a frame. -/
def PopupGeometry.record (geom : PopupGeometry) (selected : Int) : List Layout :=
  geom.preeditLayout.toList ++ recordRows selected geom.rows 0 ++
    if 0 < geom.modeH then geom.modeLayout.toList else []

/-- What a frame recorded from the geometry shows. -/
def PopupGeometry.frame (geom : PopupGeometry) (selected : Int) : Frame where
  candidates := geom.candidates
  preeditText := geom.preeditText
  modeLabel := geom.modeLabel
  selected := selected

namespace CandidatePanel

/-! ## Presenting -/

/-- `popup_present`. -/
def popupPresent (popup : CandidatePanel) (geom : PopupGeometry) (selected : Int)
    (flux : FluxFrame) : CandidatePanel × PresentResult :=
  if popup.fxReady = false then (popup, .fail)
  else if flux.acquired = .timeout then (popup, .retry)
  else if flux.acquired ≠ .ok ∨ flux.canvasBegin = false ∨ flux.submit = false then (popup, .fail)
  else ({ popup with log := .drew (geom.record selected) :: popup.log }, flux.presented)

/-- `ensure_fx_surface`.  A swapchain which is there stays. -/
def ensureFxSurface (popup : CandidatePanel) (created : Bool) : CandidatePanel × Bool :=
  if popup.fxReady = true then (popup, true) else ({ popup with fxReady := created }, created)

/-- What follows a present: a frame which was presented advances the ring and drains the slot which
becomes current. -/
def presented (popup : CandidatePanel) (selected : Int) : PresentResult → CandidatePanel
  | .ok =>
      let epoch := (popup.presentEpoch + 1) % 2 ^ 64
      { popup with
        selected
        visible := true
        presentEpoch := epoch
        log := .advanced :: popup.log }.retireSlotDrain (epoch % retireDepth)
  | .retry => { popup with presentRetry := true }
  | .fail => popup

/-- The end of `popup_render`: the stored geometry is presented. -/
def presentStored (popup : CandidatePanel) (request : Request) : CandidatePanel × Bool :=
  match popup.geom with
  | none => (popup, false)
  | some geom =>
      let (popup, ready) := popup.ensureFxSurface request.surfaceCreated
      if ready = false then (popup, false)
      else
        let (popup, result) := popup.popupPresent geom request.newSelected request.flux
        let popup :=
          { popup with presents := (geom.frame request.newSelected, result) :: popup.presents }
        (popup.presented request.newSelected result, result = .ok)

/-! ## Rendering -/

/-- `get_config`. -/
def configFor (popup : CandidatePanel) (request : Request) : PopupConfig :=
  popup.config.getD request.loadedConfig

/-- How the request differs from the stored geometry. -/
def delta (popup : CandidatePanel) (request : Request) : PopupDelta :=
  classifyDelta popup.geom request.list (cText request.preeditText) (cText request.modeLabel)
    (popup.configFor request) (request.buildPalette (popup.configFor request)).signature
    request.scale

/-- The request is answered without a present. -/
def answersEarly (popup : CandidatePanel) (request : Request) : Bool :=
  popup.delta request = .selection && request.newSelected = popup.selected && popup.visible

/-- The old geometry is retired and the new one stored. -/
def storeGeometry (popup : CandidatePanel) (geom : PopupGeometry) : CandidatePanel :=
  { popup.retireGeometry popup.geom with geom := some geom }

/-- The case `POPUP_DELTA_AUX`. -/
def refreshAux (popup : CandidatePanel) (request : Request) : CandidatePanel × PopupDelta :=
  match popup.geom with
  | none => (popup, .content)
  | some base =>
      let (popup, updated) :=
        popup.geometryUpdateAux request.engine base request.preeditText request.modeLabel
      match updated with
      | none => (popup, .content)
      | some geom => (popup.storeGeometry geom, .aux)

/-- What each kind of difference calls for before the geometry is computed. -/
def adapt (popup : CandidatePanel) (request : Request) : PopupDelta → CandidatePanel × PopupDelta
  | .selection => (popup, .selection)
  | .aux => popup.refreshAux request
  | .style => (popup.renderCtxInvalidate, .style)
  | .content => (popup, .content)

/-- The geometry is computed anew and stored; false when there are too many candidates. -/
def rebuild (popup : CandidatePanel) (request : Request) (cfg : PopupConfig) :
    CandidatePanel × Bool :=
  let (popup, computed) :=
    popup.geometryCompute request.engine request.list request.preeditText request.modeLabel cfg
      (request.buildPalette cfg) request.scale
  match computed with
  | none => (popup, false)
  | some geom => (popup.storeGeometry geom, true)

/-- The panel in which the geometry fits the request, and whether there is one. -/
def prepare (popup : CandidatePanel) (request : Request) : CandidatePanel × Bool :=
  let cfg := popup.configFor request
  let delta := popup.delta request
  let (popup, delta) :=
    { popup with presentRetry := false, config := some cfg }.adapt request delta
  if delta = .content ∨ delta = .style then popup.rebuild request cfg else (popup, true)

/-- `popup_render`. -/
def popupRender (popup : CandidatePanel) (request : Request) : CandidatePanel × Bool :=
  if popup.answersEarly request = true then
    ({ popup with presentRetry := false, config := some (popup.configFor request) }, true)
  else
    let (popup, ready) := popup.prepare request
    if ready = true then popup.presentStored request else (popup, false)

/-- `hide_surface`. -/
def hideSurface (popup : CandidatePanel) : CandidatePanel :=
  if popup.visible = true then
    let popup := { popup with visible := false, selected := -1, presentRetry := false }
    { popup.retireGeometry popup.geom with geom := none }
  else popup

/-- The wait and the drain of the whole ring, when there is a swapchain. -/
def settleRing (popup : CandidatePanel) : CandidatePanel :=
  if popup.fxReady = true then
    ((popup.waitIdle.retireSlotDrain 0).retireSlotDrain 1).retireSlotDrain 2
  else popup

/-- `popup_geometry_free` of a geometry which may be null. -/
def geometryFree? (popup : CandidatePanel) : Option PopupGeometry → CandidatePanel
  | none => popup
  | some geom => popup.geometryFree geom

/-- `typio_wl_candidate_panel_invalidate_config`. -/
def invalidateConfig (popup : CandidatePanel) : CandidatePanel :=
  let popup := { popup with config := none }.settleRing.renderCtxInvalidate
  { popup.geometryFree? popup.geom with geom := none }

theorem settleRing_upkeep (popup : CandidatePanel) : popup.Upkeep popup.settleRing := by
  simp only [settleRing]
  split
  · exact (((waitIdle_upkeep popup).trans (retireSlotDrain_upkeep _ 0)).trans
      (retireSlotDrain_upkeep _ 1)).trans (retireSlotDrain_upkeep _ 2)
  · exact .refl popup

theorem geometryFree?_upkeep (popup : CandidatePanel) (geom : Option PopupGeometry) :
    popup.Upkeep (popup.geometryFree? geom) := by
  cases geom with
  | none => exact .refl popup
  | some geom => exact geometryFree_upkeep popup geom

end CandidatePanel

/-! ## Runs -/

inductive PanelEvent where
  | render (request : Request)
  | hide
  | invalidateConfig

def CandidatePanel.step (popup : CandidatePanel) : PanelEvent → CandidatePanel
  | .render request => (popup.popupRender request).1
  | .hide => popup.hideSurface
  | .invalidateConfig => popup.invalidateConfig

/-! ## A page of candidates -/

/-- A page of candidates, named by one byte, with its selection and what the flux calls return. -/
def pageRequest (page : UInt8) (selected : Int) (flux : FluxFrame) : Request where
  cands := some
    { candidates := [⟨some [page, 49], none, none⟩, ⟨some [page, 50], none, none⟩]
      selected
      contentSignature := page.toNat }
  preeditText := none
  modeLabel := none
  loadedConfig :=
    { themeMode := .auto
      layoutMode := .vertical
      fontSize := 16
      modeIndicator := false
      fontDesc := ⟨[83, 97, 110, 115], 16⟩
      labelFontDesc := ⟨[83, 97, 110, 115], 12⟩
      auxFontDesc := ⟨[83, 97, 110, 115], 15⟩ }
  buildPalette := fun _ => ⟨1, 2, 3, 4⟩
  scale := 1
  engine := ⟨fun _ => true, fun text _ => (text.length, 16)⟩
  surfaceCreated := true
  flux

def frameShown : FluxFrame := ⟨.ok, .ok, true, true, .ok⟩

/-- The acquisition times out. -/
def frameStalled : FluxFrame := ⟨.timeout, .ok, true, true, .ok⟩

end Popup

end Typio
