import Mathlib.Tactic.IntervalCases
import Typio.Popup.CandidatePanel

/-!
# Where the layouts of the candidate panel are

Every layout the text engine made is in one place at most: owned by the cache or by the geometry,
parked in the retire ring, or released.  Freeing, parking, draining and drawing are each told what
is owned besides the ring.
-/

namespace Typio

namespace Popup

open Reclaim

/-! ## Where layouts are -/

def LayoutEntry.layouts (entry : LayoutEntry) : List Layout :=
  entry.layout.toList ++ entry.labelLayout.toList

def RenderCtx.layouts (ctx : RenderCtx) : List Layout := ctx.entries.flatMap LayoutEntry.layouts

def PopupRow.layouts (row : PopupRow) : List Layout :=
  row.labelLayout.toList ++ row.layout.toList ++ row.labelLayoutSel.toList ++ row.layoutSel.toList

/-- The layouts a geometry borrows from the cache. -/
def PopupGeometry.rowLayouts (geom : PopupGeometry) : List Layout :=
  geom.rows.flatMap PopupRow.layouts

/-- The layouts a geometry owns. -/
def PopupGeometry.auxLayouts (geom : PopupGeometry) : List Layout :=
  geom.preeditLayout.toList ++ geom.modeLayout.toList

def RetireItem.layouts : RetireItem → List Layout
  | .geometry geom => geom.auxLayouts
  | .layout parked => [parked]

/-- The layouts owned by the stored geometry. -/
def auxOf (geom : Option PopupGeometry) : List Layout :=
  geom.toList.flatMap PopupGeometry.auxLayouts

/-- The layouts borrowed by the stored geometry. -/
def rowsOf (geom : Option PopupGeometry) : List Layout :=
  geom.toList.flatMap PopupGeometry.rowLayouts

def slotLayouts (retire : Nat → List RetireItem) (slot : Nat) : List Layout :=
  (retire slot).flatMap RetireItem.layouts

def ringLayouts (retire : Nat → List RetireItem) : List Layout :=
  slotLayouts retire 0 ++ slotLayouts retire 1 ++ slotLayouts retire 2

@[simp] theorem auxOf_none : auxOf none = [] := rfl

@[simp] theorem auxOf_some (geom : PopupGeometry) : auxOf (some geom) = geom.auxLayouts := by
  simp [auxOf]

@[simp] theorem rowsOf_none : rowsOf none = [] := rfl

@[simp] theorem rowsOf_some (geom : PopupGeometry) : rowsOf (some geom) = geom.rowLayouts := by
  simp [rowsOf]

theorem slotLayouts_update (retire : Nat → List RetireItem) (slot : Nat)
    (items : List RetireItem) :
    slotLayouts (Function.update retire slot items) =
      Function.update (slotLayouts retire) slot (items.flatMap RetireItem.layouts) := by
  funext other
  rcases eq_or_ne other slot with rfl | different
  · simp [slotLayouts]
  · simp [slotLayouts, different]

/-- Replacing a slot exchanges its layouts in the ring. -/
theorem count_ringLayouts_update (retire : Nat → List RetireItem) {slot : Nat}
    (bounded : slot < retireDepth) (items : List RetireItem) (layout : Layout) :
    (ringLayouts (Function.update retire slot items)).count layout +
        (slotLayouts retire slot).count layout =
      (ringLayouts retire).count layout + (items.flatMap RetireItem.layouts).count layout := by
  simp only [ringLayouts, slotLayouts_update, List.count_append]
  simp only [retireDepth] at bounded
  interval_cases slot <;> simp [Function.update] <;> omega

/-! ## The ledger -/

/-- What the places of the layouts depend on besides the cache and the geometry. -/
structure Ledger where
  fxReady : Bool
  retire : Nat → List RetireItem
  presentEpoch : Nat
  nextLayout : Layout
  log : Log Layout

def CandidatePanel.ledger (popup : CandidatePanel) : Ledger where
  fxReady := popup.fxReady
  retire := popup.retire
  presentEpoch := popup.presentEpoch
  nextLayout := popup.nextLayout
  log := popup.log

/-- How often a layout is owned, parked or released. -/
def Ledger.tally (ledger : Ledger) (owned : List Layout) (layout : Layout) : Nat :=
  owned.count layout + (ringLayouts ledger.retire).count layout +
    (released ledger.log).count layout

/-- Every layout is in one place at most, those given out are below the next one, releases are in
time, and without a swapchain nothing was drawn and nothing is parked. -/
structure Sound (ledger : Ledger) (owned : List Layout) : Prop where
  once : ∀ layout, ledger.tally owned layout ≤ 1
  made : ∀ layout, 0 < ledger.tally owned layout → layout < ledger.nextLayout
  drawn : ∀ layout, age layout ledger.log ≠ none → layout < ledger.nextLayout
  disciplined : Disciplined retireDepth ledger.log
  ripening : Ripening retireDepth (slotLayouts ledger.retire) ledger.presentEpoch ledger.log
  idle : ledger.fxReady = false →
    (∀ slot, ledger.retire slot = []) ∧ ∀ layout, age layout ledger.log = none

namespace Sound

variable {ledger : Ledger} {owned : List Layout}

theorem of_count {other : List Layout} (sound : Sound ledger owned)
    (same : ∀ layout, other.count layout = owned.count layout) : Sound ledger other := by
  have tally (layout : Layout) : ledger.tally other layout = ledger.tally owned layout := by
    rw [Ledger.tally, same layout]
    rfl
  exact { sound with
    once := fun layout => tally layout ▸ sound.once layout
    made := fun layout positive => sound.made layout (tally layout ▸ positive) }

theorem not_released (sound : Sound ledger owned) {layout : Layout} (member : layout ∈ owned) :
    layout ∉ released ledger.log := by
  intro gone
  have only := sound.once layout
  have held := List.count_pos_iff.mpr member
  have freed := List.count_pos_iff.mpr gone
  simp only [Ledger.tally] at only
  omega

theorem released_nodup (sound : Sound ledger owned) : (released ledger.log).Nodup := by
  rw [List.nodup_iff_count_le_one]
  intro layout
  have only := sound.once layout
  simp only [Ledger.tally] at only
  omega

theorem lt_next (sound : Sound ledger owned) {layout : Layout} (member : layout ∈ owned) :
    layout < ledger.nextLayout := by
  apply sound.made
  have held := List.count_pos_iff.mpr member
  simp only [Ledger.tally]
  omega

/-- What was not handed out yet was not drawn. -/
theorem undrawn (sound : Sound ledger owned) {layout : Layout}
    (fresh : ledger.nextLayout ≤ layout) : age layout ledger.log = none := by
  by_contra drawn
  exact absurd (sound.drawn layout drawn) (Nat.not_lt.mpr fresh)

/-- Owned layouts which have aged are released. -/
theorem freeAll {layouts : List Layout} (sound : Sound ledger (layouts ++ owned))
    (aged : ∀ layout ∈ layouts, Aged retireDepth layout ledger.log) :
    Sound { ledger with log := releaseAll layouts ledger.log } owned := by
  have tally (layout : Layout) :
      ({ ledger with log := releaseAll layouts ledger.log } : Ledger).tally owned layout =
        ledger.tally (layouts ++ owned) layout := by
    simp only [Ledger.tally, count_released_releaseAll, List.count_append]
    omega
  exact
    { once := fun layout => tally layout ▸ sound.once layout
      made := fun layout positive => sound.made layout (tally layout ▸ positive)
      drawn := by
        intro layout
        simp only [age_releaseAll]
        exact sound.drawn layout
      disciplined := by
        apply sound.disciplined.releaseAll aged
        intro layout
        have only := sound.once layout
        simp only [Ledger.tally, List.count_append] at only
        omega
      ripening := sound.ripening.releaseAll layouts
      idle := by
        intro unready
        simp only [age_releaseAll]
        exact sound.idle unready }

/-- The pipeline is waited for. -/
theorem waited (sound : Sound ledger owned) :
    Sound { ledger with log := .waited :: ledger.log } owned where
  once := sound.once
  made := sound.made
  drawn := fun _ drawn => absurd rfl drawn
  disciplined := sound.disciplined
  ripening := .waited
  idle := fun unready => ⟨(sound.idle unready).1, fun _ => rfl⟩

/-- A slot whose layouts have aged is emptied. -/
theorem drain (sound : Sound ledger owned) {slot : Nat} (bounded : slot < retireDepth)
    (aged : ∀ layout ∈ slotLayouts ledger.retire slot, Aged retireDepth layout ledger.log) :
    Sound { ledger with
      log := releaseAll (slotLayouts ledger.retire slot) ledger.log
      retire := Function.update ledger.retire slot [] } owned := by
  have tally (layout : Layout) :
      ({ ledger with
        log := releaseAll (slotLayouts ledger.retire slot) ledger.log
        retire := Function.update ledger.retire slot [] } : Ledger).tally owned layout =
        ledger.tally owned layout := by
    have exchanged := count_ringLayouts_update ledger.retire bounded [] layout
    simp only [Ledger.tally, count_released_releaseAll]
    simp only [List.flatMap_nil, List.count_nil] at exchanged
    omega
  exact
    { once := fun layout => tally layout ▸ sound.once layout
      made := fun layout positive => sound.made layout (tally layout ▸ positive)
      drawn := by
        intro layout
        simp only [age_releaseAll]
        exact sound.drawn layout
      disciplined := by
        apply sound.disciplined.releaseAll aged
        intro layout
        have only := sound.once layout
        have exchanged := count_ringLayouts_update ledger.retire bounded [] layout
        simp only [Ledger.tally] at only
        simp only [List.flatMap_nil, List.count_nil] at exchanged
        omega
      ripening := by
        rw [slotLayouts_update]
        exact (sound.ripening.releaseAll _).clear slot
      idle := by
        intro unready
        simp only [age_releaseAll]
        refine ⟨fun other => ?_, (sound.idle unready).2⟩
        rcases eq_or_ne other slot with rfl | different
        · simp
        · simp [different, (sound.idle unready).1 other] }

/-- An owned item is parked in the current slot. -/
theorem park {item : RetireItem} (sound : Sound ledger (item.layouts ++ owned))
    (ready : ledger.fxReady = true) :
    Sound { ledger with
      retire := Function.update ledger.retire (ledger.presentEpoch % retireDepth)
        (ledger.retire (ledger.presentEpoch % retireDepth) ++ [item]) } owned := by
  have bounded : ledger.presentEpoch % retireDepth < retireDepth := Nat.mod_lt _ (by decide)
  have tally (layout : Layout) :
      ({ ledger with
        retire := Function.update ledger.retire (ledger.presentEpoch % retireDepth)
          (ledger.retire (ledger.presentEpoch % retireDepth) ++ [item]) } : Ledger).tally
          owned layout = ledger.tally (item.layouts ++ owned) layout := by
    have exchanged := count_ringLayouts_update ledger.retire bounded
      (ledger.retire (ledger.presentEpoch % retireDepth) ++ [item]) layout
    simp only [List.flatMap_append, List.flatMap_singleton, List.count_append, slotLayouts]
      at exchanged
    simp only [Ledger.tally, List.count_append]
    omega
  exact { sound with
    once := fun layout => tally layout ▸ sound.once layout
    made := fun layout positive => sound.made layout (tally layout ▸ positive)
    ripening := by
      rw [slotLayouts_update, List.flatMap_append, List.flatMap_singleton]
      exact sound.ripening.push item.layouts
    idle := by
      intro unready
      simp only [ready] at unready
      cases unready }

/-- A frame which shows owned layouts is submitted. -/
theorem drew (sound : Sound ledger owned) (ready : ledger.fxReady = true) {layouts : List Layout}
    (shown : ∀ layout ∈ layouts, layout ∈ owned) :
    Sound { ledger with log := .drew layouts :: ledger.log } owned where
  once := sound.once
  made := sound.made
  drawn := by
    intro layout drawn
    by_cases member : layout ∈ layouts
    · exact sound.lt_next (shown layout member)
    · simp only [age_drew_of_not_mem member] at drawn
      exact sound.drawn layout drawn
  disciplined := sound.disciplined
  ripening := by
    apply sound.ripening.drew
    intro slot bounded layout parked member
    have only := sound.once layout
    have held := List.count_pos_iff.mpr (shown layout member)
    have exchanged := count_ringLayouts_update ledger.retire bounded [] layout
    have in_slot := List.count_pos_iff.mpr parked
    simp only [Ledger.tally] at only
    simp only [List.flatMap_nil, List.count_nil] at exchanged
    omega
  idle := by
    intro unready
    simp only [ready] at unready
    cases unready

/-- A frame was presented: the ring advances, and the slot which becomes current is emptied. -/
theorem advance (sound : Sound ledger owned) (ready : ledger.fxReady = true) :
    Sound { ledger with
      presentEpoch := ledger.presentEpoch + 1
      log := releaseAll (slotLayouts ledger.retire ((ledger.presentEpoch + 1) % retireDepth))
        (.advanced :: ledger.log)
      retire := Function.update ledger.retire ((ledger.presentEpoch + 1) % retireDepth) [] }
      owned := by
  have positive : 0 < retireDepth := by decide
  have bounded : (ledger.presentEpoch + 1) % retireDepth < retireDepth := Nat.mod_lt _ positive
  have tally (layout : Layout) :
      owned.count layout + (ringLayouts (Function.update ledger.retire
          ((ledger.presentEpoch + 1) % retireDepth) [])).count layout +
        (released (releaseAll (slotLayouts ledger.retire ((ledger.presentEpoch + 1) % retireDepth))
          (.advanced :: ledger.log))).count layout = ledger.tally owned layout := by
    have exchanged := count_ringLayouts_update ledger.retire bounded [] layout
    simp only [Ledger.tally, count_released_releaseAll, released_advanced]
    simp only [List.flatMap_nil, List.count_nil] at exchanged
    omega
  exact
    { once := fun layout => (tally layout).le.trans (sound.once layout)
      made := fun layout held => sound.made layout (tally layout ▸ held)
      drawn := by
        intro layout
        simp only [age_releaseAll]
        intro drawn
        exact sound.drawn layout fun undrawn => drawn (age_advanced_eq_none undrawn)
      disciplined := by
        apply Disciplined.releaseAll
        · exact sound.disciplined
        · exact sound.ripening.ripe positive
        · intro layout
          have only := sound.once layout
          have exchanged := count_ringLayouts_update ledger.retire bounded [] layout
          simp only [Ledger.tally] at only
          simp only [List.flatMap_nil, List.count_nil] at exchanged
          simp only [released_advanced]
          omega
      ripening := by
        rw [slotLayouts_update]
        exact sound.ripening.advanced.releaseAll _
      idle := by
        intro unready
        simp only [ready] at unready
        cases unready }

end Sound

/-! ## Freeing and retiring -/

namespace CandidatePanel

variable {popup : CandidatePanel} {owned : List Layout}

/-- The layouts are released one by one. -/
def freeAll (popup : CandidatePanel) (layouts : List Layout) : CandidatePanel :=
  { popup with log := releaseAll layouts popup.log }

theorem layoutFree_eq (popup : CandidatePanel) (layout : Option Layout) :
    popup.layoutFree layout = popup.freeAll layout.toList := by
  cases layout <;> rfl

theorem freeAll_append (popup : CandidatePanel) (left right : List Layout) :
    (popup.freeAll left).freeAll right = popup.freeAll (left ++ right) := by
  simp only [freeAll, releaseAll_append]

theorem geometryFree_eq (popup : CandidatePanel) (geom : PopupGeometry) :
    popup.geometryFree geom = popup.freeAll geom.auxLayouts := by
  simp only [geometryFree, layoutFree_eq, freeAll_append, PopupGeometry.auxLayouts]

theorem retireItemFree_eq (popup : CandidatePanel) (item : RetireItem) :
    popup.retireItemFree item = popup.freeAll item.layouts := by
  cases item with
  | geometry geom => exact geometryFree_eq popup geom
  | layout parked => exact layoutFree_eq popup (some parked)

theorem entryFree_eq (popup : CandidatePanel) (entry : LayoutEntry) :
    popup.entryFree entry = popup.freeAll entry.layouts := by
  simp only [entryFree, layoutFree_eq, freeAll_append, LayoutEntry.layouts]

/-- Freeing item by item frees the layouts of all items. -/
theorem foldl_freeAll {Item : Type} {act : CandidatePanel → Item → CandidatePanel}
    {layouts : Item → List Layout} (frees : ∀ popup item, act popup item =
      freeAll popup (layouts item)) (items : List Item) (popup : CandidatePanel) :
    items.foldl act popup = popup.freeAll (items.flatMap layouts) := by
  induction items generalizing popup with
  | nil => rfl
  | cons item items induction =>
      rw [List.foldl_cons, frees, induction, freeAll_append, List.flatMap_cons]

theorem retireSlotDrain_eq (popup : CandidatePanel) (slot : Nat) :
    popup.retireSlotDrain slot =
      { popup with
        log := releaseAll (slotLayouts popup.retire slot) popup.log
        retire := Function.update popup.retire slot [] } := by
  simp only [retireSlotDrain, foldl_freeAll retireItemFree_eq, freeAll, slotLayouts]

theorem renderCtxInvalidate_eq (popup : CandidatePanel) :
    popup.renderCtxInvalidate =
      { popup with log := releaseAll popup.render.layouts popup.log, render := .init } := by
  simp only [renderCtxInvalidate, foldl_freeAll entryFree_eq, freeAll, RenderCtx.layouts]

theorem retireSlotPush_sound (item : RetireItem)
    (sound : Sound popup.ledger (item.layouts ++ owned)) (ready : popup.fxReady = true) :
    Sound (popup.retireSlotPush (popup.presentEpoch % retireDepth) item).ledger owned := by
  have bounded : popup.presentEpoch % retireDepth < retireDepth := Nat.mod_lt _ (by decide)
  simp only [retireSlotPush]
  split
  next full =>
    rw [retireSlotDrain_eq]
    exact (sound.waited.drain bounded fun _ _ => .of_undrawn rfl).park ready
  next room => exact sound.park ready

/-- Without a swapchain an owned layout may be freed at once. -/
theorem freeAll_sound_of_unready {layouts : List Layout}
    (sound : Sound popup.ledger (layouts ++ owned)) (unready : popup.fxReady = false) :
    Sound (popup.freeAll layouts).ledger owned :=
  sound.freeAll fun layout _ => .of_undrawn ((sound.idle unready).2 layout)

theorem retireGeometry_sound {geom : Option PopupGeometry}
    (sound : Sound popup.ledger (auxOf geom ++ owned)) :
    Sound (popup.retireGeometry geom).ledger owned := by
  cases geom with
  | none => exact sound
  | some geom =>
      rw [auxOf_some] at sound
      simp only [retireGeometry]
      split
      next ready => exact retireSlotPush_sound (.geometry geom) sound ready
      next unready =>
        rw [geometryFree_eq]
        exact freeAll_sound_of_unready sound (by simpa using unready)

theorem retireLayout_sound {layout : Option Layout}
    (sound : Sound popup.ledger (layout.toList ++ owned)) :
    Sound (popup.retireLayout layout).ledger owned := by
  cases layout with
  | none => exact sound
  | some evicted =>
      simp only [retireLayout]
      split
      next ready => exact retireSlotPush_sound (.layout evicted) sound ready
      next unready =>
        rw [layoutFree_eq]
        exact freeAll_sound_of_unready sound (by simpa using unready)

/-- A layout which was made is fresh: it was not drawn. -/
theorem createLayout_sound (engine : TextEngine) (font : FontDesc)
    (sound : Sound popup.ledger owned) :
    Sound (popup.createLayout engine font).1.ledger
        ((popup.createLayout engine font).2.toList ++ owned) ∧
      ∀ layout ∈ (popup.createLayout engine font).2, popup.nextLayout ≤ layout := by
  simp only [createLayout]
  split
  next creates =>
    have fresh : popup.ledger.tally owned popup.nextLayout = 0 := by
      by_contra held
      exact absurd (sound.made popup.nextLayout (Nat.pos_of_ne_zero held)) (Nat.lt_irrefl _)
    have grown (layout : Layout) : popup.ledger.tally (popup.nextLayout :: owned) layout =
        popup.ledger.tally owned layout + if popup.nextLayout = layout then 1 else 0 := by
      simp only [Ledger.tally, List.count_cons, beq_iff_eq]
      omega
    refine ⟨⟨?_, ?_, ?_, sound.disciplined, sound.ripening, sound.idle⟩, ?_⟩
    · intro layout
      refine (grown layout).le.trans ?_
      split
      next same =>
        subst same
        omega
      next other => exact sound.once layout
    · intro layout held
      replace held : 0 < popup.ledger.tally (popup.nextLayout :: owned) layout := held
      rw [grown] at held
      split at held
      next same =>
        subst same
        exact Nat.lt_succ_self _
      next other => exact Nat.lt_succ_of_lt (sound.made layout held)
    · intro layout drawn
      exact Nat.lt_succ_of_lt (sound.drawn layout drawn)
    · intro layout made
      obtain rfl := Option.some.inj made
      exact Nat.le_refl _
  next fails =>
    refine ⟨sound, fun layout made => ?_⟩
    cases made

theorem createLayout_frame (popup : CandidatePanel) (engine : TextEngine) (font : FontDesc) :
    (popup.createLayout engine font).1.render = popup.render ∧
      (popup.createLayout engine font).1.log = popup.log ∧
      popup.nextLayout ≤ (popup.createLayout engine font).1.nextLayout := by
  simp only [createLayout]
  split
  · exact ⟨rfl, rfl, Nat.le_succ _⟩
  · exact ⟨rfl, rfl, Nat.le_refl _⟩

theorem retireGeometry_render (popup : CandidatePanel) (geom : Option PopupGeometry) :
    (popup.retireGeometry geom).render = popup.render := by
  cases geom with
  | none => rfl
  | some geom =>
      simp only [retireGeometry, retireSlotPush, retireSlotDrain_eq, geometryFree_eq, freeAll]
      split_ifs <;> rfl

theorem retireLayout_render (popup : CandidatePanel) (layout : Option Layout) :
    (popup.retireLayout layout).render = popup.render := by
  cases layout with
  | none => rfl
  | some evicted =>
      simp only [retireLayout, retireSlotPush, retireSlotDrain_eq, layoutFree_eq, freeAll]
      split_ifs <;> rfl

end CandidatePanel

end Popup

end Typio
