import Typio.Popup.LayoutCache

/-!
# Who owns the layouts of the candidate panel

Over a run of renders, hides and invalidations every layout reachable from the stored geometry is
unreleased, no layout is released twice, and a layout which was drawn is released only when the
pipeline was waited for or the retire ring has gone round.  A change of style drops the whole cache
without either, so it has to find the cached layouts idle.
-/

namespace Typio

namespace Popup

open Reclaim

namespace CandidatePanel

/-! ## The statement -/

/-- The layouts reachable from the stored geometry. -/
def reachable (popup : CandidatePanel) : List Layout := rowsOf popup.geom ++ auxOf popup.geom

structure OwnsLayouts (popup : CandidatePanel) : Prop where
  reachable : ∀ layout ∈ popup.reachable, layout ∉ released popup.log
  once : (released popup.log).Nodup
  settled : Disciplined retireDepth popup.log

/-! ## The condition -/

/-- The size of the layout which `createAux` makes. -/
def auxSize (engine : TextEngine) (shown : Bool) (text : Text) (font : FontDesc) (scale : Rat) :
    Int × Int :=
  if shown = true ∧ text ≠ [] ∧ engine.creates font = true then
    (logicalPx (engine.metrics text font).1 scale, logicalPx (engine.metrics text font).2 scale)
  else (logicalPx 0 scale, logicalPx 0 scale)

/-- The texts of the request take as much room as those of the geometry. -/
def auxFits (geom : PopupGeometry) (request : Request) : Bool :=
  let font := scaledFontDesc geom.config.auxFontDesc geom.scale
  auxSize request.engine true (cText request.preeditText) font geom.scale =
      (geom.preW, geom.preH) &&
    auxSize request.engine geom.config.modeIndicator (cText request.modeLabel) font geom.scale =
      (geom.modeW, geom.modeH)

/-- The request calls for a computation of the geometry. -/
def computes (popup : CandidatePanel) (request : Request) : Bool :=
  match popup.delta request with
  | .selection => false
  | .aux => popup.geom.all fun geom => !auxFits geom request
  | .content | .style => true

/-- The counter of lookups when the computation for the request begins. -/
def tickFor (popup : CandidatePanel) (request : Request) : Nat :=
  if popup.delta request = .style then 0 else popup.render.tick

/-- A change of style finds every cached layout idle, and leaves no geometry without its rows; a
computation does not take the counter of lookups round, and does not get a label without its text;
and the number of presents does not go round. -/
structure RendersSafely (popup : CandidatePanel) (request : Request) : Prop where
  style : popup.delta request = .style →
    (∀ layout ∈ popup.render.layouts, Aged retireDepth layout popup.log) ∧
      (request.list.count ≤ maxRows ∨ rowsOf popup.geom = [])
  counter : popup.computes request = true → request.list.count ≤ maxRows →
    popup.tickFor request + 2 * request.list.count < 2 ^ 32
  pairs : popup.computes request = true → request.list.candidates ≠ [] →
    MakesPairs request.engine (popup.configFor request) (effectiveScale request.scale)
  epoch : popup.presentEpoch + 1 < 2 ^ 64

theorem rendersSafely_iff (popup : CandidatePanel) (request : Request) :
    popup.RendersSafely request ↔
      (popup.delta request = .style →
        (∀ layout ∈ popup.render.layouts, Aged retireDepth layout popup.log) ∧
          (request.list.count ≤ maxRows ∨ rowsOf popup.geom = [])) ∧
      (popup.computes request = true → request.list.count ≤ maxRows →
        popup.tickFor request + 2 * request.list.count < 2 ^ 32) ∧
      (popup.computes request = true → request.list.candidates ≠ [] →
        MakesPairs request.engine (popup.configFor request) (effectiveScale request.scale)) ∧
      popup.presentEpoch + 1 < 2 ^ 64 := by
  constructor
  · rintro ⟨style, counter, pairs, epoch⟩
    exact ⟨style, counter, pairs, epoch⟩
  · rintro ⟨style, counter, pairs, epoch⟩
    exact ⟨style, counter, pairs, epoch⟩

instance (popup : CandidatePanel) (request : Request) :
    Decidable (popup.RendersSafely request) :=
  decidable_of_iff _ (rendersSafely_iff popup request).symm

def StepsSafely (popup : CandidatePanel) : PanelEvent → Prop
  | .render request => popup.RendersSafely request
  | .hide | .invalidateConfig => True

instance (popup : CandidatePanel) : DecidablePred popup.StepsSafely := fun event =>
  match event with
  | .render request => inferInstanceAs (Decidable (popup.RendersSafely request))
  | .hide | .invalidateConfig => .isTrue trivial

/-! ## The invariant -/

/-- The cache is whole, the rows of the geometry are in it, and the ledger is sound about what the
cache and the geometry own. -/
structure Kept (popup : CandidatePanel) : Prop where
  whole : popup.render.Whole
  rows : ∀ layout ∈ rowsOf popup.geom, layout ∈ popup.render.layouts
  sound : Sound popup.ledger (popup.render.layouts ++ auxOf popup.geom)

variable {popup : CandidatePanel} {request : Request}

theorem Kept.create : create.Kept where
  whole := RenderCtx.whole_init
  rows := fun _ member => nomatch member
  sound :=
    { once := fun layout => by simp [Ledger.tally, ledger, CandidatePanel.create, ringLayouts,
        slotLayouts]
      made := fun layout held => by
        simp [Ledger.tally, ledger, CandidatePanel.create, ringLayouts, slotLayouts] at held
      drawn := fun layout drawn => absurd rfl drawn
      disciplined := trivial
      ripening := fun slot _ layout member => nomatch member
      idle := fun _ => ⟨fun _ => rfl, fun _ => rfl⟩ }

theorem Kept.ownsLayouts (kept : popup.Kept) : popup.OwnsLayouts where
  reachable := by
    intro layout member
    apply kept.sound.not_released
    rcases List.mem_append.mp member with row | aux
    · exact List.mem_append_left _ (kept.rows layout row)
    · exact List.mem_append_right _ aux
  once := kept.sound.released_nodup
  settled := kept.sound.disciplined

/-! ### Storing a geometry -/

/-- The old geometry is retired and the new one stored, which owns layouts made for it. -/
theorem storeGeometry_kept {geom : PopupGeometry} (whole : popup.render.Whole)
    (rows : ∀ layout ∈ geom.rowLayouts, layout ∈ popup.render.layouts)
    (sound : Sound popup.ledger
      (geom.auxLayouts ++ (popup.render.layouts ++ auxOf popup.geom))) :
    (popup.storeGeometry geom).Kept := by
  have render := retireGeometry_render popup popup.geom
  have parted : Sound popup.ledger
      (auxOf popup.geom ++ (popup.render.layouts ++ geom.auxLayouts)) := by
    apply sound.of_count
    intro layout
    simp only [List.count_append]
    omega
  have retired := retireGeometry_sound parted
  refine ⟨?_, ?_, ?_⟩
  · exact (congrArg RenderCtx.Whole render).mpr whole
  · intro layout member
    rw [storeGeometry, rowsOf_some] at member
    simp only [storeGeometry, render]
    exact rows layout member
  · simp only [storeGeometry, render, auxOf_some]
    exact retired

/-- The layout made for a text is fresh. -/
theorem createAux_sound {owned : List Layout} (engine : TextEngine) (shown : Bool) (text : Text)
    (font : FontDesc) (sound : Sound popup.ledger owned) :
    Sound (popup.createAux engine shown text font).1.ledger
        ((popup.createAux engine shown text font).2.toList ++ owned) ∧
      (∀ layout ∈ (popup.createAux engine shown text font).2, popup.nextLayout ≤ layout) ∧
      (popup.createAux engine shown text font).1.render = popup.render ∧
      (popup.createAux engine shown text font).1.log = popup.log ∧
      popup.nextLayout ≤ (popup.createAux engine shown text font).1.nextLayout := by
  simp only [createAux]
  split
  · obtain ⟨made, fresh⟩ := createLayout_sound engine font sound
    exact ⟨made, fresh, createLayout_frame popup engine font⟩
  · refine ⟨sound, fun layout made => ?_, rfl, rfl, Nat.le_refl _⟩
    cases made

theorem layoutSize_createAux (engine : TextEngine) (shown : Bool) (text : Text) (font : FontDesc)
    (scale : Rat) :
    layoutSize engine (popup.createAux engine shown text font).2 text font scale =
      auxSize engine shown text font scale := by
  simp only [createAux, createLayout, auxSize]
  split
  next made =>
    by_cases creates : engine.creates font = true
    · rw [if_pos creates, if_pos ⟨made.1, made.2, creates⟩]
      rfl
    · rw [if_neg creates, if_neg fun whole => creates whole.2.2]
      rfl
  next unmade =>
    rw [if_neg fun whole => unmade ⟨whole.1, whole.2.1⟩]
    rfl

/-- The texts are replaced when they fit, and otherwise what was made for them is freed again. -/
theorem Kept.refreshAux (kept : popup.Kept) {base : PopupGeometry}
    (stored : popup.geom = some base) :
    (popup.refreshAux request).1.Kept ∧
      ((popup.refreshAux request).2 = .aux ∧ auxFits base request = true ∨
        (popup.refreshAux request).2 = .content ∧ auxFits base request = false ∧
          (popup.refreshAux request).1.render = popup.render ∧
          (popup.refreshAux request).1.Upkeep popup) := by
  let font := scaledFontDesc base.config.auxFontDesc base.scale
  have sound := kept.sound
  rw [stored] at sound
  obtain ⟨first_sound, first_fresh, first_render, first_log, first_next⟩ :=
    createAux_sound request.engine true (cText request.preeditText) font sound
  let between := (popup.createAux request.engine true (cText request.preeditText) font).1
  let preedit := (popup.createAux request.engine true (cText request.preeditText) font).2
  obtain ⟨second_sound, second_fresh, second_render, second_log, -⟩ :=
    @createAux_sound between _ request.engine base.config.modeIndicator (cText request.modeLabel)
      font first_sound
  let made := (between.createAux request.engine base.config.modeIndicator
    (cText request.modeLabel) font).1
  let label := (between.createAux request.engine base.config.modeIndicator
    (cText request.modeLabel) font).2
  have upkeep : popup.Upkeep made := (createAux_upkeep popup _ _ _ _).trans
    (createAux_upkeep _ _ _ _ _)
  have made_render : made.render = popup.render := second_render.trans first_render
  have made_log : made.log = popup.log := second_log.trans first_log
  have fits : (layoutSize request.engine preedit (cText request.preeditText) font base.scale ≠
        (base.preW, base.preH) ∨
      layoutSize request.engine label (cText request.modeLabel) font base.scale ≠
        (base.modeW, base.modeH)) ↔ auxFits base request = false := by
    rw [layoutSize_createAux, layoutSize_createAux]
    simp only [auxFits, Bool.and_eq_false_iff, decide_eq_false_iff_not]
    exact Iff.rfl
  -- what was made for the texts was never drawn
  have undrawn : ∀ layout ∈ preedit.toList ++ label.toList, age layout made.log = none := by
    intro layout member
    rw [made_log]
    apply sound.undrawn
    rcases List.mem_append.mp member with first | second
    · exact first_fresh layout (Option.mem_toList.mp first)
    · exact first_next.trans (second_fresh layout (Option.mem_toList.mp second))
  have update : popup.geometryUpdateAux request.engine base request.preeditText
      request.modeLabel =
      if auxFits base request = false then ((made.layoutFree preedit).layoutFree label, none)
      else (made, some { base with
        preeditLayout := preedit
        modeLayout := label
        preeditText := snprintf 256 (cText request.preeditText)
        modeLabel := snprintf 128 (cText request.modeLabel) }) :=
    ite_congr (propext fits) (fun _ => rfl) fun _ => rfl
  simp only [CandidatePanel.refreshAux, stored, update]
  cases fitting : auxFits base request with
  | false =>
      simp only [if_true]
      have freed : (made.layoutFree preedit).layoutFree label =
          made.freeAll (preedit.toList ++ label.toList) := by
        rw [layoutFree_eq, layoutFree_eq, freeAll_append]
      rw [freed]
      have owned : Sound made.ledger
          (preedit.toList ++ label.toList ++ (popup.render.layouts ++ auxOf (some base))) := by
        apply second_sound.of_count
        intro layout
        simp only [List.count_append, label, preedit, between]
        omega
      have released := owned.freeAll fun layout member => .of_undrawn (undrawn layout member)
      refine ⟨⟨?_, ?_, ?_⟩, .inr ⟨by trivial, by trivial, made_render, ?_⟩⟩
      · exact (congrArg RenderCtx.Whole made_render).mpr kept.whole
      · intro layout member
        simp only [freeAll, upkeep.geom] at member
        simp only [freeAll, made_render]
        exact kept.rows layout member
      · simp only [freeAll, made_render, upkeep.geom, stored]
        exact released
      · exact ⟨upkeep.fxReady.symm, upkeep.presentRetry.symm, upkeep.presentEpoch.symm,
          upkeep.geom.symm, upkeep.config.symm, upkeep.selected.symm, upkeep.visible.symm,
          upkeep.presents.symm⟩
  | true =>
      simp only [Bool.true_eq_false, if_false]
      refine ⟨?_, .inl ⟨by trivial, by trivial⟩⟩
      apply storeGeometry_kept
      · exact (congrArg RenderCtx.Whole made_render).mpr kept.whole
      · intro layout member
        rw [made_render]
        apply kept.rows layout
        rw [stored, rowsOf_some]
        exact member
      · rw [made_render, upkeep.geom, stored]
        apply second_sound.of_count
        intro layout
        simp only [List.count_append, PopupGeometry.auxLayouts, label, preedit, between]
        omega

/-- A computed geometry is stored; with too many candidates nothing changes. -/
theorem rebuild_kept (cfg : PopupConfig) (whole : popup.render.Whole)
    (sound : Sound popup.ledger (popup.render.layouts ++ auxOf popup.geom))
    (counter : request.list.count ≤ maxRows →
      popup.render.tick + 2 * request.list.count < 2 ^ 32)
    (pairs : request.list.candidates ≠ [] →
      MakesPairs request.engine cfg (effectiveScale request.scale)) :
    ((popup.rebuild request cfg).2 = true ∧ (popup.rebuild request cfg).1.Kept) ∨
      (popup.rebuild request cfg = (popup, false) ∧ maxRows < request.list.count) := by
  by_cases many : maxRows < request.list.count
  · refine .inr ⟨?_, many⟩
    simp only [rebuild, geometryCompute, if_pos many]
  · left
    have few : request.list.count ≤ maxRows := Nat.not_lt.mp many
    have room := counter few
    have narrow : 0 + 2 * request.list.candidates.length ≤ layoutCacheCap := by
      simp only [CandidateList.count, maxRows, layoutCacheCap] at few ⊢
      omega
    let scale := effectiveScale request.scale
    have laid := @(Laying.start whole sound).rows _ _ _ _ _ request.engine cfg
      (request.buildPalette cfg) scale request.list.candidates pairs (by
        simp only [CandidateList.count] at room
        omega) narrow 0
    let rows := popup.computeRows request.engine cfg (request.buildPalette cfg) scale
      request.list.candidates 0
    let font := scaledFontDesc cfg.auxFontDesc scale
    obtain ⟨first_sound, -, first_render, -, -⟩ :=
      @createAux_sound rows.1 _ request.engine true (cText request.preeditText) font laid.sound
    let between := (rows.1.createAux request.engine true (cText request.preeditText) font).1
    obtain ⟨second_sound, -, second_render, -, -⟩ :=
      @createAux_sound between _ request.engine cfg.modeIndicator (cText request.modeLabel) font
        first_sound
    let made := (between.createAux request.engine cfg.modeIndicator (cText request.modeLabel)
      font).1
    have upkeep : popup.Upkeep made := ((computeRows_upkeep popup request.engine cfg
      (request.buildPalette cfg) scale request.list.candidates 0).trans
        (createAux_upkeep _ _ _ _ _)).trans (createAux_upkeep _ _ _ _ _)
    have render : made.render = rows.1.render := second_render.trans first_render
    simp only [rebuild, geometryCompute, if_neg many]
    refine ⟨trivial, ?_⟩
    apply storeGeometry_kept
    · exact (congrArg RenderCtx.Whole render).mpr laid.whole
    · intro layout member
      rw [show _ = rows.1.render from render]
      exact (laid.handed layout (List.mem_append_right _ member)).cached
    · rw [show _ = rows.1.render from render, show _ = popup.geom from upkeep.geom]
      apply second_sound.of_count
      intro layout
      simp only [List.count_append, PopupGeometry.auxLayouts, between, rows, font, scale]
      omega

/-- The panel in which the geometry fits the request. -/
theorem Kept.prepare (kept : popup.Kept) (safe : popup.RendersSafely request) :
    (popup.prepare request).1.Kept := by
  let begun : CandidatePanel :=
    { popup with presentRetry := false, config := some (popup.configFor request) }
  have begun_kept : begun.Kept := ⟨kept.whole, kept.rows, kept.sound⟩
  cases delta : popup.delta request with
  | selection =>
      simp only [CandidatePanel.prepare, delta, adapt]
      exact begun_kept
  | content =>
      have computes : popup.computes request = true := by simp only [CandidatePanel.computes, delta]
      have counter := safe.counter computes
      simp only [tickFor, delta, reduceCtorEq, if_false] at counter
      simp only [CandidatePanel.prepare, delta, adapt]
      rw [if_pos (.inl trivial)]
      rcases @rebuild_kept begun request (popup.configFor request) kept.whole kept.sound counter
        (safe.pairs computes) with ⟨-, rebuilt⟩ | ⟨same, -⟩
      · exact rebuilt
      · rw [same]
        exact begun_kept
  | style =>
      have computes : popup.computes request = true := by simp only [CandidatePanel.computes, delta]
      have counter := safe.counter computes
      simp only [tickFor, delta, if_true] at counter
      obtain ⟨aged, rows_left⟩ := safe.style delta
      simp only [CandidatePanel.prepare, delta, adapt]
      rw [if_pos (.inr trivial), renderCtxInvalidate_eq]
      have dropped : Sound { begun.ledger with
          log := releaseAll popup.render.layouts popup.log }
          (RenderCtx.init.layouts ++ auxOf popup.geom) := by
        rw [RenderCtx.layouts_init]
        exact kept.sound.freeAll aged
      rcases @rebuild_kept { begun with
          log := releaseAll popup.render.layouts popup.log
          render := .init } request (popup.configFor request) RenderCtx.whole_init dropped counter
        (safe.pairs computes) with ⟨-, rebuilt⟩ | ⟨same, many⟩
      · exact rebuilt
      · have empty : rowsOf popup.geom = [] := rows_left.resolve_left (by omega)
        rw [same]
        refine ⟨RenderCtx.whole_init, fun layout member => ?_, dropped⟩
        replace member : layout ∈ rowsOf popup.geom := member
        rw [empty] at member
        cases member
  | aux =>
      obtain ⟨base, stored, -⟩ : ∃ geom, popup.geom = some geom ∧ True := by
        cases stored : popup.geom with
        | none =>
            simp only [CandidatePanel.delta, classifyDelta, stored] at delta
            cases delta
        | some geom => exact ⟨geom, rfl, trivial⟩
      simp only [CandidatePanel.prepare, delta, adapt]
      obtain ⟨refreshed, outcome⟩ := @Kept.refreshAux begun request begun_kept base stored
      rcases outcome with ⟨kind, -⟩ | ⟨kind, misfit, render, upkeep⟩
      · rw [kind]
        simpa using refreshed
      · have computes : popup.computes request = true := by
          simp only [CandidatePanel.computes, delta, stored, Option.all_some, misfit,
            Bool.not_false]
        have counter := safe.counter computes
        simp only [tickFor, delta, reduceCtorEq, if_false] at counter
        rw [kind, if_pos (.inl rfl)]
        have tick := congrArg RenderCtx.tick render
        rcases @rebuild_kept (begun.refreshAux request).1 request (popup.configFor request)
          refreshed.whole refreshed.sound (by rw [tick]; exact counter) (safe.pairs computes)
          with ⟨-, rebuilt⟩ | ⟨same, -⟩
        · exact rebuilt
        · rw [same]
          exact refreshed

/-! ### Presenting -/

theorem recordRows_subset (selected : Int) (rows : List PopupRow) (index : Nat) :
    ∀ layout ∈ recordRows selected rows index, layout ∈ rows.flatMap PopupRow.layouts := by
  induction rows generalizing index with
  | nil => exact fun _ member => nomatch member
  | cons row rows induction =>
      intro layout member
      rw [List.flatMap_cons, List.mem_append]
      rcases List.mem_append.mp member with own | later
      · left
        simp only [PopupRow.record] at own
        simp only [PopupRow.layouts, List.mem_append]
        split at own <;> rcases List.mem_append.mp own with first | second <;> tauto
      · exact .inr (induction (index + 1) layout later)

/-- A frame shows layouts of the rows and of the geometry itself. -/
theorem record_subset (geom : PopupGeometry) (selected : Int) :
    ∀ layout ∈ geom.record selected, layout ∈ geom.rowLayouts ∨ layout ∈ geom.auxLayouts := by
  intro layout member
  simp only [PopupGeometry.record, List.mem_append] at member
  rcases member with (preedit | row) | label
  · exact .inr (List.mem_append_left _ preedit)
  · exact .inl (recordRows_subset selected geom.rows 0 layout row)
  · split at label
    · exact .inr (List.mem_append_right _ label)
    · cases label

/-- A swapchain which is there or was made. -/
theorem ensureFxSurface_ready {created : Bool} (ready : (popup.ensureFxSurface created).2 = true) :
    (popup.ensureFxSurface created).1 = { popup with fxReady := true } := by
  simp only [ensureFxSurface] at ready ⊢
  split
  next there => rw [← there]
  next none_yet =>
    rw [if_neg none_yet] at ready
    rw [show created = true from ready]

theorem ensureFxSurface_unready {created : Bool}
    (unready : (popup.ensureFxSurface created).2 = false) :
    (popup.ensureFxSurface created).1 = popup := by
  simp only [ensureFxSurface] at unready ⊢
  split
  · rfl
  next none_yet =>
    rw [if_neg none_yet] at unready
    rw [show created = false from unready]
    simp only [Bool.not_eq_true] at none_yet
    rw [← none_yet]

/-- A present changes the log at most, by the frame it submits. -/
theorem popupPresent_log (geom : PopupGeometry) (selected : Int) (flux : FluxFrame) :
    ∃ log, (popup.popupPresent geom selected flux).1 = { popup with log } ∧
      (log = popup.log ∨ log = .drew (geom.record selected) :: popup.log) := by
  simp only [popupPresent]
  split_ifs
  · exact ⟨popup.log, rfl, .inl rfl⟩
  · exact ⟨popup.log, rfl, .inl rfl⟩
  · exact ⟨popup.log, rfl, .inl rfl⟩
  · exact ⟨_, rfl, .inr rfl⟩

/-- What follows a present keeps the panel; one which succeeded advances the ring. -/
theorem Kept.presented (kept : popup.Kept) (ready : popup.fxReady = true)
    (epoch : popup.presentEpoch + 1 < 2 ^ 64) (selected : Int) (result : PresentResult) :
    (popup.presented selected result).Kept := by
  cases result with
  | ok =>
      have epoch_eq : (popup.presentEpoch + 1) % 2 ^ 64 = popup.presentEpoch + 1 :=
        Nat.mod_eq_of_lt epoch
      simp only [CandidatePanel.presented, retireSlotDrain_eq, epoch_eq]
      exact ⟨kept.whole, kept.rows, kept.sound.advance ready⟩
  | retry => exact ⟨kept.whole, kept.rows, kept.sound⟩
  | fail => exact ⟨kept.whole, kept.rows, kept.sound⟩

/-- A present draws what is owned. -/
theorem Kept.presentStored (kept : popup.Kept) (epoch : popup.presentEpoch + 1 < 2 ^ 64) :
    (popup.presentStored request).1.Kept := by
  cases stored : popup.geom with
  | none =>
      simp only [CandidatePanel.presentStored, stored]
      exact kept
  | some geom =>
      simp only [CandidatePanel.presentStored, stored]
      cases ready : (popup.ensureFxSurface request.surfaceCreated).2 with
      | false =>
          simp only [if_true, ensureFxSurface_unready ready]
          exact kept
      | true =>
          simp only [Bool.true_eq_false, if_false, ensureFxSurface_ready ready]
          let opened : CandidatePanel := { popup with fxReady := true }
          have sound : Sound opened.ledger (popup.render.layouts ++ auxOf popup.geom) :=
            { kept.sound with idle := fun unready => nomatch unready }
          have shown : ∀ layout ∈ geom.record request.newSelected,
              layout ∈ popup.render.layouts ++ auxOf popup.geom := by
            intro layout member
            rw [stored, auxOf_some]
            rcases record_subset geom request.newSelected layout member with row | aux
            · apply List.mem_append_left
              apply kept.rows
              rw [stored, rowsOf_some]
              exact row
            · exact List.mem_append_right _ aux
          obtain ⟨log, called, logged⟩ :=
            @popupPresent_log opened geom request.newSelected request.flux
          have drawn : Sound { opened.ledger with log }
              (popup.render.layouts ++ auxOf popup.geom) := by
            rcases logged with rfl | rfl
            · exact sound
            · exact sound.drew rfl shown
          rw [called]
          have called_kept : Kept { opened with
              log
              presents := (geom.frame request.newSelected,
                (opened.popupPresent geom request.newSelected request.flux).2) ::
                  opened.presents } :=
            ⟨kept.whole, kept.rows, drawn⟩
          exact called_kept.presented rfl epoch _ _

/-! ### Hiding and invalidating -/

theorem Kept.hideSurface (kept : popup.Kept) : popup.hideSurface.Kept := by
  simp only [CandidatePanel.hideSurface]
  split
  · have render := retireGeometry_render
      { popup with visible := false, selected := -1, presentRetry := false } popup.geom
    have parted : Sound popup.ledger (auxOf popup.geom ++ popup.render.layouts) := by
      apply kept.sound.of_count
      intro layout
      simp only [List.count_append]
      omega
    have retired := @retireGeometry_sound
      { popup with visible := false, selected := -1, presentRetry := false } _ _ parted
    refine ⟨?_, (fun _ member => nomatch member), ?_⟩
    · exact (congrArg RenderCtx.Whole render).mpr kept.whole
    · simp only [render, auxOf_none, List.append_nil]
      exact retired
  · exact kept

/-- Once the ring is settled nothing is in flight. -/
theorem settleRing_sound {owned : List Layout} (sound : Sound popup.ledger owned) :
    Sound popup.settleRing.ledger owned ∧ popup.settleRing.render = popup.render ∧
      ∀ layout, age layout popup.settleRing.log = none := by
  simp only [settleRing]
  split
  next ready =>
    have idle (layout : Layout) : age layout (.waited :: popup.log) = none := rfl
    simp only [retireSlotDrain_eq, waitIdle]
    refine ⟨?_, trivial, fun layout => by simp only [age_releaseAll, idle]⟩
    have first := sound.waited.drain (show 0 < retireDepth by decide) fun layout _ =>
      .of_undrawn rfl
    have second := first.drain (show 1 < retireDepth by decide) fun layout _ =>
      .of_undrawn ((age_releaseAll ..).trans rfl)
    exact second.drain (show 2 < retireDepth by decide) fun layout _ =>
      .of_undrawn ((age_releaseAll ..).trans ((age_releaseAll ..).trans rfl))
  next unready => exact ⟨sound, rfl, (sound.idle (by simpa [ledger] using unready)).2⟩

theorem geometryFree?_eq (popup : CandidatePanel) (geom : Option PopupGeometry) :
    popup.geometryFree? geom = popup.freeAll (auxOf geom) := by
  cases geom with
  | none => rfl
  | some geom => rw [auxOf_some, geometryFree?, geometryFree_eq]

theorem Kept.invalidateConfig (kept : popup.Kept) : popup.invalidateConfig.Kept := by
  obtain ⟨sound, render, idle⟩ := @settleRing_sound { popup with config := none } _ kept.sound
  have upkeep := settleRing_upkeep { popup with config := none }
  let settled := { popup with config := none }.settleRing
  have dropped : Sound { settled.ledger with
      log := releaseAll settled.render.layouts settled.log } (auxOf settled.geom) := by
    rw [render, upkeep.geom]
    exact sound.freeAll fun layout _ => .of_undrawn (idle layout)
  have freed : Sound { settled.ledger with
      log := releaseAll (auxOf settled.geom) (releaseAll settled.render.layouts settled.log) }
      [] := by
    apply @Sound.freeAll { settled.ledger with
      log := releaseAll settled.render.layouts settled.log }
    · rw [List.append_nil]
      exact dropped
    · intro layout _
      apply Aged.of_undrawn
      simp only [age_releaseAll, settled, idle]
  simp only [CandidatePanel.invalidateConfig, renderCtxInvalidate_eq, geometryFree?_eq, freeAll]
  refine ⟨RenderCtx.whole_init, fun geom member => ?_, ?_⟩
  · cases member
  · rw [RenderCtx.layouts_init]
    exact freed

/-! ### Runs -/

theorem storeGeometry_presentEpoch (popup : CandidatePanel) (geom : PopupGeometry) :
    (popup.storeGeometry geom).presentEpoch = popup.presentEpoch :=
  (retireGeometry_upkeep popup popup.geom).presentEpoch

theorem rebuild_presentEpoch (popup : CandidatePanel) (request : Request) (cfg : PopupConfig) :
    (popup.rebuild request cfg).1.presentEpoch = popup.presentEpoch := by
  have computed := (geometryCompute_upkeep popup request.engine request.list request.preeditText
    request.modeLabel cfg (request.buildPalette cfg) request.scale).presentEpoch
  simp only [rebuild]
  split
  · exact computed
  · exact (storeGeometry_presentEpoch _ _).trans computed

theorem refreshAux_presentEpoch (popup : CandidatePanel) (request : Request) :
    (popup.refreshAux request).1.presentEpoch = popup.presentEpoch := by
  simp only [CandidatePanel.refreshAux]
  split
  · rfl
  next base stored =>
    have updated := (geometryUpdateAux_upkeep popup request.engine base request.preeditText
      request.modeLabel).presentEpoch
    split
    · exact updated
    · exact (storeGeometry_presentEpoch _ _).trans updated

/-- Only a present advances the ring. -/
theorem prepare_presentEpoch (popup : CandidatePanel) (request : Request) :
    (popup.prepare request).1.presentEpoch = popup.presentEpoch := by
  have adapted (begun : CandidatePanel) (delta : PopupDelta) :
      (begun.adapt request delta).1.presentEpoch = begun.presentEpoch := by
    cases delta with
    | selection => rfl
    | aux => exact refreshAux_presentEpoch begun request
    | content => rfl
    | style => exact (renderCtxInvalidate_upkeep begun).presentEpoch
  simp only [CandidatePanel.prepare]
  split
  · exact (rebuild_presentEpoch _ request _).trans (adapted _ _)
  · exact adapted _ _

theorem Kept.step (kept : popup.Kept) (event : PanelEvent) (safe : popup.StepsSafely event) :
    (popup.step event).Kept := by
  cases event with
  | render request =>
      simp only [CandidatePanel.step, popupRender]
      split
      · exact ⟨kept.whole, kept.rows, kept.sound⟩
      · have prepared := kept.prepare safe
        have epoch := prepare_presentEpoch popup request
        cases ready : (popup.prepare request).2 with
        | false =>
            simp only [Bool.false_eq_true, if_false]
            exact prepared
        | true =>
            simp only [if_true]
            exact prepared.presentStored (epoch ▸ safe.epoch)
  | hide => exact kept.hideSurface
  | invalidateConfig => exact kept.invalidateConfig

end CandidatePanel

open CandidatePanel

/-- Over every run whose renders are safe, the layouts are owned properly in every state. -/
theorem ownsLayouts_of_safe (events : List PanelEvent)
    (safe : Machine.EachStep CandidatePanel.step StepsSafely .create events) :
    Machine.Always CandidatePanel.step OwnsLayouts .create events :=
  (Machine.Always.of_invariant Kept (fun _ event kept safe => kept.step event safe) .create
    safe).mono fun _ kept => kept.ownsLayouts

theorem not_ownsLayouts {popup : CandidatePanel}
    (early : ¬ Disciplined retireDepth popup.log) : ¬ popup.OwnsLayouts :=
  fun owns => early owns.settled

/-! ## A change of scale -/

/-- The request at another scale. -/
def Request.atScale (request : Request) (scale : Rat) : Request := { request with scale }

/-- A page is shown, and asked for again when the scale of the surface changed. -/
def rescaledPage : List PanelEvent :=
  [.render (pageRequest 65 0 frameShown), .render ((pageRequest 65 0 frameShown).atScale 2)]

/-- The layouts of the frame which was just submitted are freed at once. -/
theorem rescaled_page_frees_drawn :
    ¬ Machine.Always CandidatePanel.step OwnsLayouts .create rescaledPage := by
  intro always
  exact not_ownsLayouts (by decide +kernel) always.final

/-- Pages shown, stalled and hidden; the scale changes while no geometry is stored. -/
def pagesTurned : List PanelEvent :=
  [.render (pageRequest 65 0 frameShown), .render (pageRequest 66 0 frameShown),
    .render (pageRequest 66 1 frameStalled), .hide, .render (pageRequest 65 1 frameShown),
    .invalidateConfig, .render ((pageRequest 65 0 frameShown).atScale 2)]

theorem ownsLayouts_of_safe_pagesTurned :
    Machine.Always CandidatePanel.step OwnsLayouts .create pagesTurned :=
  ownsLayouts_of_safe pagesTurned (by decide +kernel)

end Popup

end Typio
