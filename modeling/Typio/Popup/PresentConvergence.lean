import Typio.Popup.CandidatePanel

/-!
# What the popup shows and what it was asked to show

The geometry is stored before the present is known to succeed, and a later request which differs
from it in nothing is answered without a present.  The answer is right exactly when the last frame
which was presented shows the stored geometry with the selection the panel remembers.
-/

namespace Typio

namespace Popup

/-! ## The assumptions on the requests of a run -/

def PanelEvent.request? : PanelEvent → Option Request
  | .render request => some request
  | .hide | .invalidateConfig => none

/-- The requests of a run. -/
def requests (events : List PanelEvent) : List Request := events.filterMap PanelEvent.request?

/-- Lists of candidates with one content signature are the same. -/
def SignaturesDistinguish (requests : List Request) : Prop :=
  ∀ left ∈ requests, ∀ right ∈ requests,
    left.list.contentSignature = right.list.contentSignature →
      left.list.candidates = right.list.candidates

/-- The preedits and mode labels fit the buffers of the geometry. -/
def TextsFit (requests : List Request) : Prop :=
  ∀ request ∈ requests,
    (cText request.preeditText).length < 256 ∧ (cText request.modeLabel).length < 128

instance (requests : List Request) : Decidable (SignaturesDistinguish requests) :=
  inferInstanceAs (Decidable (∀ left ∈ requests, ∀ right ∈ requests, _ → _))

instance (requests : List Request) : Decidable (TextsFit requests) :=
  inferInstanceAs (Decidable (∀ request ∈ requests, _ ∧ _))

/-! ## The geometry and the request it was computed for -/

/-- The geometry shows the candidates and texts of the request. -/
structure PopupGeometry.Fits (geom : PopupGeometry) (request : Request) : Prop where
  contentSig : geom.contentSig = request.list.contentSignature
  candidates : geom.candidates = request.list.candidates
  preeditText : geom.preeditText = cText request.preeditText
  modeLabel : geom.modeLabel = cText request.modeLabel

theorem PopupGeometry.Fits.frame {geom : PopupGeometry} {request : Request}
    (fits : geom.Fits request) : geom.frame request.newSelected = request.frame := by
  simp only [PopupGeometry.frame, Request.frame, fits.candidates, fits.preeditText, fits.modeLabel]

theorem snprintf_of_lt {size : Nat} {text : Text} (fits : text.length < size) :
    snprintf size text = text :=
  List.take_of_length_le (by omega)

namespace CandidatePanel

variable {popup : CandidatePanel} {request : Request}

/-- What the geometry of the panel came from. -/
structure Known (requests : List Request) (popup : CandidatePanel) : Prop where
  geom : ∀ geom, popup.geom = some geom → ∃ request ∈ requests,
    geom.contentSig = request.list.contentSignature ∧
      geom.candidates = request.list.candidates ∧ request.list.count ≤ maxRows
  rows : ∀ call ∈ popup.presents, call.1.candidates.length ≤ maxRows
  ready : popup.presents ≠ [] → popup.fxReady = true

theorem Known.create (requests : List Request) : create.Known requests where
  geom := by
    intro geom stored
    cases stored
  rows := by
    intro call member
    cases member
  ready := fun called => absurd rfl called

/-- A change which keeps the geometry or drops it, and calls no present, keeps what is known. -/
theorem Known.of_same {asked : List Request} {after : CandidatePanel} (known : popup.Known asked)
    (geom : after.geom = popup.geom ∨ after.geom = none)
    (presents : after.presents = popup.presents)
    (ready : popup.fxReady = true → after.fxReady = true) : after.Known asked where
  geom := by
    intro stored same
    rcases geom with kept | dropped
    · exact known.geom stored (kept ▸ same)
    · rw [dropped] at same
      cases same
  rows := by
    rw [presents]
    exact known.rows
  ready := by
    rw [presents]
    exact fun called => ready (known.ready called)

/-! ### Computing a geometry -/

theorem geometryCompute_eq_none_iff (engine : TextEngine) (cands : CandidateList)
    (preeditText modeLabel : Option Text) (cfg : PopupConfig) (palette : Palette) (scale : Rat) :
    (popup.geometryCompute engine cands preeditText modeLabel cfg palette scale).2 = none ↔
      maxRows < cands.count := by
  simp only [geometryCompute]
  split
  next many => simp [many]
  next few => simp [few]

/-- A geometry which was computed shows what the request asks for. -/
theorem geometryCompute_fits {cfg : PopupConfig} {palette : Palette} {geom : PopupGeometry}
    (preedit : (cText request.preeditText).length < 256)
    (label : (cText request.modeLabel).length < 128)
    (computed : (popup.geometryCompute request.engine request.list request.preeditText
      request.modeLabel cfg palette request.scale).2 = some geom) : geom.Fits request := by
  simp only [geometryCompute] at computed
  split at computed
  · cases computed
  · obtain rfl := Option.some.inj computed
    exact ⟨rfl, rfl, snprintf_of_lt preedit, snprintf_of_lt label⟩

/-- A geometry whose texts were replaced shows the new ones and the candidates it showed before. -/
theorem geometryUpdateAux_some {base geom : PopupGeometry}
    (preedit : (cText request.preeditText).length < 256)
    (label : (cText request.modeLabel).length < 128)
    (updated : (popup.geometryUpdateAux request.engine base request.preeditText
      request.modeLabel).2 = some geom) :
    geom.contentSig = base.contentSig ∧ geom.candidates = base.candidates ∧
      geom.preeditText = cText request.preeditText ∧ geom.modeLabel = cText request.modeLabel := by
  simp only [geometryUpdateAux] at updated
  split at updated
  · cases updated
  · obtain rfl := Option.some.inj updated
    exact ⟨rfl, rfl, snprintf_of_lt preedit, snprintf_of_lt label⟩

/-! ### Classifying a request -/

/-- A request which differs from the geometry in the selection at most, or in the texts. -/
theorem delta_selection_or_aux
    (delta : popup.delta request = .selection ∨ popup.delta request = .aux) :
    ∃ geom, popup.geom = some geom ∧ geom.contentSig = request.list.contentSignature := by
  simp only [CandidatePanel.delta, classifyDelta] at delta
  split at delta
  · rcases delta with delta | delta <;> cases delta
  next geom stored =>
    refine ⟨geom, stored, ?_⟩
    by_contra differs
    rw [if_pos differs] at delta
    split at delta <;> rcases delta with delta | delta <;> cases delta

theorem delta_selection (delta : popup.delta request = .selection) {geom : PopupGeometry}
    (stored : popup.geom = some geom) :
    geom.preeditText = cText request.preeditText ∧ geom.modeLabel = cText request.modeLabel := by
  simp only [CandidatePanel.delta, classifyDelta, stored] at delta
  split_ifs at delta with style content texts
  push Not at texts
  exact texts

variable {asked : List Request}

/-- The candidates of the stored geometry are those of a request with the same signature. -/
theorem Known.candidates (known : popup.Known asked) (distinguish : SignaturesDistinguish asked)
    (member : request ∈ asked) {geom : PopupGeometry} (stored : popup.geom = some geom)
    (signature : geom.contentSig = request.list.contentSignature) :
    geom.candidates = request.list.candidates ∧ request.list.count ≤ maxRows := by
  obtain ⟨source, source_member, source_signature, source_candidates, few⟩ :=
    known.geom geom stored
  have same := distinguish source source_member request member (source_signature ▸ signature)
  refine ⟨source_candidates.trans same, ?_⟩
  rw [CandidateList.count, ← same]
  exact few

/-- A request which only moves the selection finds a geometry which fits it. -/
theorem Known.fits_of_selection (known : popup.Known asked)
    (distinguish : SignaturesDistinguish asked) (member : request ∈ asked)
    (delta : popup.delta request = .selection) :
    ∃ geom, popup.geom = some geom ∧ geom.Fits request ∧ request.list.count ≤ maxRows := by
  obtain ⟨geom, stored, signature⟩ := delta_selection_or_aux (.inl delta)
  obtain ⟨preedit, label⟩ := delta_selection delta stored
  obtain ⟨candidates, few⟩ := known.candidates distinguish member stored signature
  exact ⟨geom, stored, ⟨signature, candidates, preedit, label⟩, few⟩

/-! ### Preparing the geometry -/

/-- What a panel which is about to present has to do with the one which was asked. -/
structure Prepared (before : CandidatePanel) (request : Request) (after : CandidatePanel) :
    Prop where
  geom : ∃ geom, after.geom = some geom ∧ geom.Fits request
  few : request.list.count ≤ maxRows
  presents : after.presents = before.presents
  fxReady : after.fxReady = before.fxReady

theorem Prepared.stored {before between : CandidatePanel} {geom : PopupGeometry}
    (fits : geom.Fits request) (few : request.list.count ≤ maxRows)
    (presents : between.presents = before.presents) (ready : between.fxReady = before.fxReady) :
    before.Prepared request (between.storeGeometry geom) :=
  have retired := retireGeometry_upkeep between between.geom
  ⟨⟨geom, rfl, fits⟩, few, retired.presents.trans presents, retired.fxReady.trans ready⟩

/-- The computation of a geometry, stored when there are not too many candidates. -/
theorem rebuild_prepared {before between : CandidatePanel} (cfg : PopupConfig)
    (preedit : (cText request.preeditText).length < 256)
    (label : (cText request.modeLabel).length < 128)
    (presents : between.presents = before.presents) (ready : between.fxReady = before.fxReady) :
    ((between.rebuild request cfg).2 = true ↔ request.list.count ≤ maxRows) ∧
      ((between.rebuild request cfg).2 = true →
        before.Prepared request (between.rebuild request cfg).1) ∧
      ((between.rebuild request cfg).2 = false →
        between.Upkeep (between.rebuild request cfg).1) := by
  have upkeep := geometryCompute_upkeep between request.engine request.list request.preeditText
    request.modeLabel cfg (request.buildPalette cfg) request.scale
  have failed := @geometryCompute_eq_none_iff between request.engine request.list
    request.preeditText request.modeLabel cfg (request.buildPalette cfg) request.scale
  simp only [rebuild]
  split
  next missing =>
    have many := failed.mp missing
    refine ⟨⟨fun impossible => ?_, fun few => absurd few (by omega)⟩, fun impossible => ?_,
      fun _ => upkeep⟩
    · cases impossible
    · cases impossible
  next geom computed =>
    have few : request.list.count ≤ maxRows := by
      by_contra many
      rw [failed.mpr (by omega)] at computed
      cases computed
    have fits := geometryCompute_fits preedit label computed
    refine ⟨⟨fun _ => few, fun _ => rfl⟩, fun _ => ?_, fun impossible => ?_⟩
    · exact .stored fits few (upkeep.presents.trans presents) (upkeep.fxReady.trans ready)
    · cases impossible

/-- The texts of the geometry are replaced, or a computation is called for. -/
theorem refreshAux_prepared {before between : CandidatePanel} (known : between.Known asked)
    (distinguish : SignaturesDistinguish asked) (fit : TextsFit asked) (member : request ∈ asked)
    {base : PopupGeometry} (stored : between.geom = some base)
    (signature : base.contentSig = request.list.contentSignature)
    (presents : between.presents = before.presents) (ready : between.fxReady = before.fxReady) :
    ((between.refreshAux request).2 = .aux ∧
        before.Prepared request (between.refreshAux request).1) ∨
      ((between.refreshAux request).2 = .content ∧
        between.Upkeep (between.refreshAux request).1) := by
  obtain ⟨preedit, label⟩ := fit request member
  obtain ⟨candidates, few⟩ := known.candidates distinguish member stored signature
  have upkeep := geometryUpdateAux_upkeep between request.engine base request.preeditText
    request.modeLabel
  simp only [refreshAux, stored]
  split
  next missing => exact .inr ⟨rfl, upkeep⟩
  next geom updated =>
    obtain ⟨same_sig, same_candidates, preedit_text, mode_label⟩ :=
      geometryUpdateAux_some preedit label updated
    have fits : geom.Fits request :=
      ⟨same_sig.trans signature, same_candidates.trans candidates, preedit_text, mode_label⟩
    exact .inl ⟨rfl, .stored fits few (upkeep.presents.trans presents)
      (upkeep.fxReady.trans ready)⟩

/-- The panel prepares for every request which does not have too many candidates. -/
theorem Known.prepare (known : popup.Known asked) (distinguish : SignaturesDistinguish asked)
    (fit : TextsFit asked) (member : request ∈ asked) :
    (request.list.count ≤ maxRows → (popup.prepare request).2 = true) ∧
      ((popup.prepare request).2 = true → popup.Prepared request (popup.prepare request).1) ∧
      ((popup.prepare request).2 = false →
        (popup.prepare request).1.geom = popup.geom ∧
          (popup.prepare request).1.presents = popup.presents ∧
          (popup.prepare request).1.fxReady = popup.fxReady) := by
  obtain ⟨preedit, label⟩ := fit request member
  let begun : CandidatePanel :=
    { popup with presentRetry := false, config := some (popup.configFor request) }
  have begun_known : begun.Known asked := known.of_same (.inl rfl) rfl id
  -- what a computation from a panel with the old geometry comes to
  have rebuilt (between : CandidatePanel) (upkeep : begun.Upkeep between) :
      (request.list.count ≤ maxRows →
          (between.rebuild request (popup.configFor request)).2 = true) ∧
        ((between.rebuild request (popup.configFor request)).2 = true →
          popup.Prepared request (between.rebuild request (popup.configFor request)).1) ∧
        ((between.rebuild request (popup.configFor request)).2 = false →
          (between.rebuild request (popup.configFor request)).1.geom = popup.geom ∧
            (between.rebuild request (popup.configFor request)).1.presents = popup.presents ∧
            (between.rebuild request (popup.configFor request)).1.fxReady = popup.fxReady) := by
    have outcome := @rebuild_prepared request popup between (popup.configFor request) preedit label
      upkeep.presents upkeep.fxReady
    refine ⟨outcome.1.mpr, outcome.2.1, fun failed => ?_⟩
    have whole := upkeep.trans (outcome.2.2 failed)
    exact ⟨whole.geom, whole.presents, whole.fxReady⟩
  cases delta : popup.delta request with
  | selection =>
      obtain ⟨geom, stored, fits, few⟩ := known.fits_of_selection distinguish member delta
      simp only [CandidatePanel.prepare, delta, adapt]
      refine ⟨fun _ => by simp, fun _ => ⟨⟨geom, stored, fits⟩, few, rfl, rfl⟩, fun failed => ?_⟩
      simp at failed
  | aux =>
      obtain ⟨base, stored, signature⟩ := delta_selection_or_aux (.inr delta)
      simp only [CandidatePanel.prepare, delta, adapt]
      rcases @refreshAux_prepared request asked popup begun begun_known distinguish fit member base
        stored signature rfl rfl with ⟨kind, prepared⟩ | ⟨kind, upkeep⟩
      · rw [kind]
        refine ⟨fun _ => by simp, fun _ => by simpa using prepared, fun failed => ?_⟩
        simp at failed
      · rw [kind, if_pos (.inl rfl)]
        exact rebuilt _ upkeep
  | content =>
      simp only [CandidatePanel.prepare, delta, adapt]
      rw [if_pos (.inl trivial)]
      exact rebuilt begun (.refl begun)
  | style =>
      simp only [CandidatePanel.prepare, delta, adapt]
      rw [if_pos (.inr trivial)]
      exact rebuilt _ (renderCtxInvalidate_upkeep begun)

/-! ### Presenting -/

/-- The last frame which was presented. -/
def lastShown (popup : CandidatePanel) : Option Frame :=
  (popup.presents.find? fun call => call.2 = .ok).map Prod.fst

/-- The frame of the last call of `popup_present`. -/
def lastFrame (popup : CandidatePanel) : Option Frame := popup.presents.head?.map Prod.fst

theorem popupPresent_upkeep (geom : PopupGeometry) (selected : Int) (flux : FluxFrame) :
    popup.Upkeep (popup.popupPresent geom selected flux).1 := by
  simp only [popupPresent]
  split_ifs <;> exact ⟨rfl, rfl, rfl, rfl, rfl, rfl, rfl, rfl⟩

theorem presented_keeps (selected : Int) (result : PresentResult) :
    (popup.presented selected result).geom = popup.geom ∧
      (popup.presented selected result).presents = popup.presents ∧
      (popup.presented selected result).fxReady = popup.fxReady := by
  cases result with
  | ok =>
      have drained := retireSlotDrain_upkeep
        { popup with
          selected
          visible := true
          presentEpoch := (popup.presentEpoch + 1) % 2 ^ 64
          log := .advanced :: popup.log }
        ((popup.presentEpoch + 1) % 2 ^ 64 % retireDepth)
      exact ⟨drained.geom, drained.presents, drained.fxReady⟩
  | retry => exact ⟨rfl, rfl, rfl⟩
  | fail => exact ⟨rfl, rfl, rfl⟩

/-- The present of a stored geometry: without a swapchain nothing is called; otherwise the call is
for the geometry, and the answer is whether it was presented. -/
theorem presentStored_cases (request : Request) {geom : PopupGeometry}
    (stored : popup.geom = some geom) :
    (popup.presentStored request).1.geom = popup.geom ∧
      (((popup.presentStored request).2 = false ∧ popup.fxReady = false ∧
          (popup.presentStored request).1.presents = popup.presents) ∨
        ((popup.presentStored request).1.fxReady = true ∧
          ∃ result, (popup.presentStored request).1.presents =
              (geom.frame request.newSelected, result) :: popup.presents ∧
            (popup.presentStored request).2 = (result = .ok : Bool))) := by
  simp only [presentStored, stored]
  by_cases ready : (popup.ensureFxSurface request.surfaceCreated).2 = false
  · rw [if_pos ready]
    have unready : popup.fxReady = false := by
      simp only [ensureFxSurface] at ready
      split at ready
      · cases ready
      next none_yet => simpa using none_yet
    refine ⟨?_, .inl ⟨rfl, unready, ?_⟩⟩ <;> simp [ensureFxSurface, unready, stored]
  · rw [if_neg ready]
    have made : (popup.ensureFxSurface request.surfaceCreated).1.fxReady = true ∧
        (popup.ensureFxSurface request.surfaceCreated).1.geom = popup.geom ∧
        (popup.ensureFxSurface request.surfaceCreated).1.presents = popup.presents := by
      simp only [ensureFxSurface] at ready ⊢
      split
      next there => exact ⟨there, rfl, rfl⟩
      next none_yet =>
        rw [if_neg none_yet] at ready
        exact ⟨by simpa using ready, rfl, rfl⟩
    obtain ⟨made_ready, made_geom, made_presents⟩ := made
    have called := @popupPresent_upkeep (popup.ensureFxSurface request.surfaceCreated).1 geom
      request.newSelected request.flux
    obtain ⟨kept_geom, kept_presents, kept_ready⟩ := @presented_keeps
      { ((popup.ensureFxSurface request.surfaceCreated).1.popupPresent geom request.newSelected
          request.flux).1 with
        presents := (geom.frame request.newSelected,
            ((popup.ensureFxSurface request.surfaceCreated).1.popupPresent geom
              request.newSelected request.flux).2) ::
          ((popup.ensureFxSurface request.surfaceCreated).1.popupPresent geom request.newSelected
            request.flux).1.presents }
      request.newSelected
      ((popup.ensureFxSurface request.surfaceCreated).1.popupPresent geom request.newSelected
        request.flux).2
    refine ⟨(kept_geom.trans called.geom).trans (made_geom.trans stored),
      .inr ⟨(kept_ready.trans called.fxReady).trans made_ready, _, ?_, rfl⟩⟩
    rw [kept_presents]
    simp only [called.presents, made_presents]

/-! ### Requests -/

/-- The request is presented once more. -/
def PresentsAgain (popup : CandidatePanel) (request : Request) : Prop :=
  ∃ result, (popup.popupRender request).1.presents = (request.frame, result) :: popup.presents

/-- A request which is not answered early is presented, unless there is no swapchain yet or there
are too many candidates, and it is answered with whether it was. -/
theorem Known.render_cases (known : popup.Known asked)
    (distinguish : SignaturesDistinguish asked) (fit : TextsFit asked) (member : request ∈ asked)
    (late : popup.answersEarly request = false) :
    (popup.popupRender request).1.Known asked ∧
      (((popup.popupRender request).2 = false ∧
          (popup.fxReady = false ∨ maxRows < request.list.count)) ∨
        ∃ result, (popup.popupRender request).1.presents =
            (request.frame, result) :: popup.presents ∧
          (popup.popupRender request).2 = (result = .ok : Bool)) := by
  obtain ⟨prepares, prepared, unprepared⟩ := known.prepare distinguish fit member
  rw [popupRender, if_neg (by simp [late])]
  cases ready : (popup.prepare request).2 with
  | false =>
      obtain ⟨geom, presents, surface⟩ := unprepared ready
      simp only [ready]
      refine ⟨known.of_same (.inl geom) presents (fun there => surface.trans there),
        .inl ⟨rfl, .inr ?_⟩⟩
      by_contra few
      rw [prepares (by omega)] at ready
      cases ready
  | true =>
      obtain ⟨⟨geom, stored, fits⟩, few, presents, surface⟩ := prepared ready
      obtain ⟨kept, outcome⟩ := presentStored_cases request stored
      simp only [ready, if_true]
      have source : ∀ geom', ((popup.prepare request).1.presentStored request).1.geom =
          some geom' → ∃ request ∈ asked, geom'.contentSig = request.list.contentSignature ∧
            geom'.candidates = request.list.candidates ∧ request.list.count ≤ maxRows := by
        intro geom' same
        rw [kept, stored] at same
        obtain rfl := Option.some.inj same
        exact ⟨request, member, fits.contentSig, fits.candidates, few⟩
      rcases outcome with ⟨failed, unready, same⟩ | ⟨made, result, called, answer⟩
      · refine ⟨⟨source, ?_, ?_⟩, .inl ⟨failed, .inl (surface.symm.trans unready)⟩⟩
        · rw [same, presents]
          exact known.rows
        · rw [same, presents]
          intro called
          rw [surface, known.ready called] at unready
          cases unready
      · rw [fits.frame, presents] at called
        refine ⟨⟨source, ?_, fun _ => made⟩, .inr ⟨result, called, answer⟩⟩
        rw [called]
        intro call call_member
        rcases List.mem_cons.mp call_member with rfl | earlier
        · exact few
        · exact known.rows call earlier

/-- A request answered early is answered for the stored geometry and the selection remembered. -/
theorem Known.early (known : popup.Known asked) (distinguish : SignaturesDistinguish asked)
    (member : request ∈ asked) (early : popup.answersEarly request = true) :
    ∃ geom, popup.geom = some geom ∧ geom.frame popup.selected = request.frame := by
  simp only [answersEarly, Bool.and_eq_true, decide_eq_true_eq] at early
  obtain ⟨⟨delta, selected⟩, -⟩ := early
  obtain ⟨geom, stored, fits, -⟩ := known.fits_of_selection distinguish member delta
  exact ⟨geom, stored, selected ▸ fits.frame⟩

/-! ## The statement -/

/-- A request which is answered with success is the last one presented, and one which repeats the
request whose present has to be retried is presented again. -/
def Converges (popup : CandidatePanel) : PanelEvent → Prop
  | .render request =>
      ((popup.popupRender request).2 = true →
        (popup.popupRender request).1.lastShown = some request.frame) ∧
      (popup.presentRetry = true → popup.lastFrame = some request.frame →
        popup.PresentsAgain request)
  | .hide | .invalidateConfig => True

/-- What the stored geometry shows with the selection the panel remembers. -/
def remembered (popup : CandidatePanel) : Option Frame :=
  popup.geom.map (·.frame popup.selected)

/-- A request is answered early only when what the panel remembers is what was presented last and is
not what has to be retried. -/
def AnswersShown (popup : CandidatePanel) : PanelEvent → Prop
  | .render request => popup.answersEarly request = true →
      popup.lastShown = popup.remembered ∧
        ¬ (popup.presentRetry = true ∧ popup.lastFrame = popup.remembered)
  | .hide | .invalidateConfig => True

instance (popup : CandidatePanel) : DecidablePred popup.AnswersShown := fun event =>
  match event with
  | .render _ => inferInstanceAs (Decidable (_ → _ ∧ ¬ (_ ∧ _)))
  | .hide | .invalidateConfig => .isTrue trivial

/-- One request, in a panel about which what is known holds. -/
theorem Known.converges_iff (known : popup.Known asked)
    (distinguish : SignaturesDistinguish asked) (fit : TextsFit asked) (member : request ∈ asked) :
    popup.Converges (.render request) ↔ popup.AnswersShown (.render request) := by
  cases early : popup.answersEarly request with
  | true =>
      obtain ⟨geom, stored, frame⟩ := known.early distinguish member early
      have remembers : popup.remembered = some request.frame := by
        rw [remembered, stored, Option.map_some, frame]
      have answered : popup.popupRender request = ({ popup with
          presentRetry := false, config := some (popup.configFor request) }, true) := by
        rw [popupRender, if_pos early]
      have once : ¬ popup.PresentsAgain request := by
        rintro ⟨result, longer⟩
        rw [answered] at longer
        have lengths := congrArg List.length longer
        simp at lengths
      have shown : (popup.popupRender request).1.lastShown = popup.lastShown := by
        rw [answered]
        rfl
      have success : (popup.popupRender request).2 = true := by rw [answered]
      simp only [Converges, AnswersShown, early, remembers, shown, success, once, imp_false,
        not_and, true_implies]
  | false =>
      obtain ⟨-, outcome⟩ := known.render_cases distinguish fit member early
      have left : popup.Converges (.render request) := by
        refine ⟨fun success => ?_, fun _ retried => ?_⟩
        · rcases outcome with ⟨failed, -⟩ | ⟨result, called, answer⟩
          · rw [failed] at success
            cases success
          · rw [answer] at success
            simp only [decide_eq_true_eq] at success
            subst success
            simp [lastShown, called]
        · rcases outcome with ⟨-, unready | many⟩ | ⟨result, called, -⟩
          · obtain ⟨call, head, -⟩ := Option.map_eq_some_iff.mp retried
            rw [known.ready (List.ne_nil_of_mem (List.mem_of_head? head))] at unready
            cases unready
          · obtain ⟨call, head, same⟩ := Option.map_eq_some_iff.mp retried
            have few := known.rows call (List.mem_of_head? head)
            rw [same] at few
            exact absurd few (by simpa [CandidateList.count, Request.frame] using many)
          · exact ⟨result, called⟩
      simp [left, AnswersShown, early]

/-- Nothing a panel does makes what is known about it false. -/
theorem Known.step (known : popup.Known asked) (distinguish : SignaturesDistinguish asked)
    (fit : TextsFit asked) (event : PanelEvent) (member : ∀ request ∈ event.request?,
      request ∈ asked) : (popup.step event).Known asked := by
  cases event with
  | render request =>
      cases early : popup.answersEarly request with
      | true =>
          rw [CandidatePanel.step, popupRender, if_pos early]
          exact known.of_same (.inl rfl) rfl id
      | false => exact (known.render_cases distinguish fit (member request rfl) early).1
  | hide =>
      simp only [CandidatePanel.step, hideSurface]
      split
      · have retired := retireGeometry_upkeep
          { popup with visible := false, selected := -1, presentRetry := false } popup.geom
        exact known.of_same (.inr rfl) retired.presents fun there => retired.fxReady.trans there
      · exact known
  | invalidateConfig =>
      have whole := (settleRing_upkeep { popup with config := none }).trans
        (renderCtxInvalidate_upkeep _)
      have freed := whole.trans (geometryFree?_upkeep _
        { popup with config := none }.settleRing.renderCtxInvalidate.geom)
      exact known.of_same (.inr rfl) freed.presents fun there => freed.fxReady.trans there

end CandidatePanel

open CandidatePanel

theorem mem_requests {events : List PanelEvent} {event : PanelEvent} (member : event ∈ events)
    {request : Request} (asks : request ∈ event.request?) : request ∈ requests events :=
  List.mem_filterMap.mpr ⟨event, member, asks⟩

/-- Every request of a run which is answered with success is the last one presented, and a present
which has to be retried is retried, exactly when no request is answered early for something which
was not presented last or has to be retried. -/
theorem converges_iff_answersShown (events : List PanelEvent)
    (distinguish : SignaturesDistinguish (requests events)) (fit : TextsFit (requests events)) :
    Machine.EachStep CandidatePanel.step Converges .create events ↔
      Machine.EachStep CandidatePanel.step AnswersShown .create events := by
  have known (front : List PanelEvent) (within : front <+: events) :
      (Machine.run CandidatePanel.step .create front).Known (requests events) := by
    induction front using List.reverseRecOn with
    | nil => exact .create _
    | append_singleton front event induction =>
        rw [Machine.run_concat]
        have before := induction ((List.prefix_append front [event]).trans within)
        apply before.step distinguish fit event
        intro request asks
        exact mem_requests (within.subset (List.mem_append_right front List.mem_cons_self)) asks
  have agree (front : List PanelEvent) (event : PanelEvent) (within : front ++ [event] <+: events) :
      (Machine.run CandidatePanel.step .create front).Converges event ↔
        (Machine.run CandidatePanel.step .create front).AnswersShown event := by
    have before := known front ((List.prefix_append front [event]).trans within)
    cases event with
    | render request =>
        apply before.converges_iff distinguish fit
        exact mem_requests (within.subset (List.mem_append_right front List.mem_cons_self)) rfl
    | hide => exact Iff.rfl
    | invalidateConfig => exact Iff.rfl
  constructor
  · intro each front event within
    exact (agree front event within).mp (each front event within)
  · intro each front event within
    exact (agree front event within).mpr (each front event within)

/-! ## A compositor which stalls -/

/-- A page is shown; the next page, with the same row selected, stalls and is asked for again. -/
def stalledPage : List PanelEvent :=
  [.render (pageRequest 65 0 frameShown), .render (pageRequest 66 0 frameStalled),
    .render (pageRequest 66 0 frameShown)]

/-- The second request for the page is answered with success while the old page is on the screen. -/
theorem stalled_page_not_shown :
    SignaturesDistinguish (requests stalledPage) ∧ TextsFit (requests stalledPage) ∧
      ¬ Machine.EachStep CandidatePanel.step Converges .create stalledPage := by
  refine ⟨by decide +kernel, by decide +kernel, fun each => ?_⟩
  have last := each [.render (pageRequest 65 0 frameShown), .render (pageRequest 66 0 frameStalled)]
    (.render (pageRequest 66 0 frameShown)) (List.prefix_refl stalledPage)
  have shown := last.1 (by decide +kernel)
  revert shown
  decide +kernel

/-- The next page stalls with another row selected, and is presented when it is asked for again. -/
def retriedPage : List PanelEvent :=
  [.render (pageRequest 65 0 frameShown), .render (pageRequest 66 1 frameStalled),
    .render (pageRequest 66 1 frameShown), .render (pageRequest 66 1 frameShown), .hide]

theorem converges_iff_answersShown_retriedPage :
    Machine.EachStep CandidatePanel.step Converges .create retriedPage :=
  (converges_iff_answersShown retriedPage (by decide +kernel) (by decide +kernel)).mpr
    (by decide +kernel)

end Popup

end Typio
