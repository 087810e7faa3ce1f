import Typio.Popup.LayoutLedger

/-!
# The layout cache

A lookup either finds its entry or replaces the one looked up longest ago.  As long as the counter
of lookups does not wrap, the entries looked up for one geometry are never replaced by a later
lookup for it, for there are fewer of them than the cache has places.
-/

namespace Typio

namespace Popup

open Reclaim

/-! ## The cache -/

/-- How the search ranks an entry: an empty one first, then by the last lookup. -/
def LayoutEntry.rank (entry : LayoutEntry) : Nat :=
  if entry.layout = none then 0 else entry.lruTick

theorem lruScan_found {key : LayoutKey} {entries : List LayoutEntry} {index lru least found : Nat}
    (scan : lruScan key entries index lru least = .found found) :
    ∃ offset, found = index + offset ∧ offset < entries.length := by
  induction entries generalizing index lru least with
  | nil => cases scan
  | cons entry entries induction =>
      simp only [lruScan] at scan
      split at scan
      · obtain rfl := LruSlot.found.inj scan
        exact ⟨0, rfl, Nat.succ_pos _⟩
      · split at scan <;>
          · obtain ⟨offset, rfl, bounded⟩ := induction scan
            exact ⟨offset + 1, by omega, by simpa using bounded⟩

/-- The victim of the search ranks lowest, among the entries and what the search began with. -/
theorem lruScan_victim {key : LayoutKey} {entries : List LayoutEntry}
    {index lru least victim : Nat} (scan : lruScan key entries index lru least = .victim victim) :
    (victim = lru ∧ ∀ entry ∈ entries, least ≤ entry.rank) ∨
      ∃ offset, victim = index + offset ∧ ∃ bounded : offset < entries.length,
        entries[offset].rank ≤ least ∧ ∀ entry ∈ entries, entries[offset].rank ≤ entry.rank := by
  induction entries generalizing index lru least with
  | nil =>
      obtain rfl := LruSlot.victim.inj scan
      exact .inl ⟨rfl, fun _ member => nomatch member⟩
  | cons entry entries induction =>
      simp only [lruScan] at scan
      split at scan
      · cases scan
      · split at scan
        next lower =>
          have below : entry.rank ≤ least := by
            simp only [LayoutEntry.rank]
            split
            next empty => exact Nat.zero_le _
            next full => exact (lower.resolve_left full).le
          rcases induction scan with ⟨rfl, lowest⟩ | ⟨offset, rfl, bounded, under, lowest⟩
          · refine .inr ⟨0, rfl, Nat.succ_pos _, below, fun other member => ?_⟩
            rcases List.mem_cons.mp member with rfl | later
            · exact Nat.le_refl _
            · exact lowest other later
          · refine .inr ⟨offset + 1, by omega, by simpa using bounded, ?_, fun other member => ?_⟩
            · exact Nat.le_trans under below
            · rcases List.mem_cons.mp member with rfl | later
              · exact under
              · exact lowest other later
        next higher =>
          obtain ⟨full, above⟩ := not_or.mp higher
          have lifted : least ≤ entry.rank := by
            simp only [LayoutEntry.rank, if_neg full]
            omega
          rcases induction scan with ⟨rfl, lowest⟩ | ⟨offset, rfl, bounded, under, lowest⟩
          · refine .inl ⟨rfl, fun other member => ?_⟩
            rcases List.mem_cons.mp member with rfl | later
            · exact lifted
            · exact lowest other later
          · refine .inr ⟨offset + 1, by omega, by simpa using bounded, under,
              fun other member => ?_⟩
            rcases List.mem_cons.mp member with rfl | later
            · exact Nat.le_trans under lifted
            · exact lowest other later

/-- Replacing an entry exchanges its layouts. -/
theorem count_flatMap_set (entries : List LayoutEntry) {index : Nat}
    (bounded : index < entries.length) (entry : LayoutEntry) (layout : Layout) :
    ((entries.set index entry).flatMap LayoutEntry.layouts).count layout +
        entries[index].layouts.count layout =
      (entries.flatMap LayoutEntry.layouts).count layout + entry.layouts.count layout := by
  induction entries generalizing index with
  | nil => cases bounded
  | cons head tail induction =>
      cases index with
      | zero =>
          simp only [List.set_cons_zero, List.flatMap_cons, List.count_append,
            List.getElem_cons_zero]
          omega
      | succ index =>
          have later := induction (Nat.lt_of_succ_lt_succ bounded)
          simp only [List.set_cons_succ, List.flatMap_cons, List.count_append,
            List.getElem_cons_succ]
          omega

/-- The cache is full size, its ticks are behind the counter, and an entry without a text layout has
no label layout. -/
structure RenderCtx.Whole (ctx : RenderCtx) : Prop where
  size : ctx.entries.length = layoutCacheCap
  ticks : ∀ entry ∈ ctx.entries, entry.lruTick ≤ ctx.tick
  paired : ∀ entry ∈ ctx.entries, entry.layout = none → entry.labelLayout = none

theorem RenderCtx.whole_init : RenderCtx.init.Whole where
  size := List.length_replicate
  ticks := by
    intro entry member
    obtain rfl := List.eq_of_mem_replicate member
    exact Nat.le_refl _
  paired := by
    intro entry member _
    obtain rfl := List.eq_of_mem_replicate member
    rfl

@[simp] theorem RenderCtx.layouts_init : RenderCtx.init.layouts = [] := by
  apply List.flatMap_eq_nil_iff.mpr
  intro entry member
  obtain rfl := List.eq_of_mem_replicate member
  rfl

/-- The entry was looked up since the counter stood at `base`, and has layouts. -/
def LayoutEntry.recent (base : Nat) (entry : LayoutEntry) : Bool :=
  entry.layout.isSome && base < entry.lruTick

/-- The layout is one of an entry looked up since the counter stood at `base`. -/
def RenderCtx.HandedOut (ctx : RenderCtx) (base : Nat) (layout : Layout) : Prop :=
  ∃ entry ∈ ctx.entries, base < entry.lruTick ∧ layout ∈ entry.layouts

theorem RenderCtx.HandedOut.cached {ctx : RenderCtx} {base : Nat} {layout : Layout}
    (handed : ctx.HandedOut base layout) : layout ∈ ctx.layouts :=
  have ⟨entry, member, _, owns⟩ := handed
  List.mem_flatMap.mpr ⟨entry, member, owns⟩

/-- An entry with layouts has a text layout. -/
theorem RenderCtx.Whole.rank_of_layouts {ctx : RenderCtx} (whole : ctx.Whole) {entry : LayoutEntry}
    (member : entry ∈ ctx.entries) {layout : Layout} (owns : layout ∈ entry.layouts) :
    entry.rank = entry.lruTick := by
  simp only [LayoutEntry.rank]
  split
  next empty =>
    rw [LayoutEntry.layouts, empty, whole.paired entry member empty] at owns
    cases owns
  next full => rfl

/-- With fewer recent entries than the cache has places, the search never ends at a recent entry. -/
theorem RenderCtx.Whole.victim_stale {ctx : RenderCtx} (whole : ctx.Whole) {key : LayoutKey}
    {base victim : Nat} (room : ctx.tick < 2 ^ 32 - 1)
    (few : ctx.entries.countP (LayoutEntry.recent base) < layoutCacheCap)
    (scan : lruScan key ctx.entries 0 0 (2 ^ 32 - 1) = .victim victim) :
    victim < ctx.entries.length ∧ (ctx.entry victim).rank ≤ base := by
  have stale : ∃ entry ∈ ctx.entries, entry.rank ≤ base := by
    by_contra none_stale
    push Not at none_stale
    have all : ctx.entries.countP (LayoutEntry.recent base) = ctx.entries.length := by
      apply List.countP_eq_length.mpr
      intro entry member
      have above := none_stale entry member
      simp only [LayoutEntry.rank] at above
      split at above
      next empty => omega
      next full => simp [LayoutEntry.recent, Option.isSome_iff_ne_none, full, above]
    rw [all, whole.size] at few
    exact Nat.lt_irrefl _ few
  obtain ⟨entry, member, low⟩ := stale
  have behind : entry.rank ≤ ctx.tick := by
    simp only [LayoutEntry.rank]
    split
    · exact Nat.zero_le _
    · exact whole.ticks entry member
  rcases lruScan_victim scan with ⟨-, lowest⟩ | ⟨offset, rfl, bounded, -, lowest⟩
  · have top := lowest entry member
    omega
  · rw [Nat.zero_add, RenderCtx.entry_of_lt bounded]
    exact ⟨bounded, (lowest entry member).trans low⟩

/-- One entry is replaced by one which was just looked up. -/
structure RenderCtx.Touched (before after : RenderCtx) (index : Nat) (entry : LayoutEntry) :
    Prop where
  bounded : index < before.entries.length
  entries : after.entries = before.entries.set index entry
  tick : after.tick = before.tick + 1
  looked : entry.lruTick = before.tick + 1
  paired : entry.layout = none → entry.labelLayout = none

namespace RenderCtx.Touched

variable {before after : RenderCtx} {index : Nat} {entry : LayoutEntry} {base : Nat}

theorem whole (touched : before.Touched after index entry) (whole : before.Whole) :
    after.Whole where
  size := by
    rw [touched.entries, List.length_set]
    exact whole.size
  ticks := by
    intro other member
    rw [touched.entries] at member
    rw [touched.tick]
    rcases List.mem_or_eq_of_mem_set member with kept | rfl
    · exact Nat.le_succ_of_le (whole.ticks other kept)
    · exact touched.looked.le
  paired := by
    intro other member
    rw [touched.entries] at member
    rcases List.mem_or_eq_of_mem_set member with kept | rfl
    · exact whole.paired other kept
    · exact touched.paired

theorem recent_le (touched : before.Touched after index entry) :
    after.entries.countP (LayoutEntry.recent base) ≤
      before.entries.countP (LayoutEntry.recent base) + 1 := by
  rw [touched.entries, List.countP_set touched.bounded]
  split <;> split <;> omega

theorem mem (touched : before.Touched after index entry) : entry ∈ after.entries := by
  rw [touched.entries]
  exact List.mem_set touched.bounded entry

/-- The layouts of the entry looked up are handed out. -/
theorem handsOut (touched : before.Touched after index entry) (begun : base ≤ before.tick)
    {layout : Layout} (owns : layout ∈ entry.layouts) : after.HandedOut base layout :=
  ⟨entry, touched.mem, by rw [touched.looked]; omega, owns⟩

/-- What was handed out of another entry, or is in the new one too, stays handed out. -/
theorem keeps (touched : before.Touched after index entry) (begun : base ≤ before.tick)
    {layout : Layout} (handed : before.HandedOut base layout)
    (kept : base < (before.entry index).lruTick → layout ∈ (before.entry index).layouts →
      layout ∈ entry.layouts) : after.HandedOut base layout := by
  obtain ⟨other, member, later, owns⟩ := handed
  obtain ⟨place, within, rfl⟩ := List.getElem_of_mem member
  rcases eq_or_ne place index with rfl | different
  · rw [RenderCtx.entry_of_lt within] at kept
    exact touched.handsOut begun (kept later owns)
  · refine ⟨before.entries[place], ?_, later, owns⟩
    rw [touched.entries, List.mem_iff_getElem]
    exact ⟨place, by simpa using within, List.getElem_set_ne different.symm _⟩

end RenderCtx.Touched

/-! ## Laying out the rows -/

namespace CandidatePanel

/-- What holds while rows are laid out: the counter stood at `base` when it began, `lookups` were
made since, and the layouts in `handed` were handed out and are still in the cache. -/
structure Laying (base : Nat) (owned : List Layout) (popup : CandidatePanel) (lookups : Nat)
    (handed : List Layout) : Prop where
  whole : popup.render.Whole
  tick : popup.render.tick = base + lookups
  recent : popup.render.entries.countP (LayoutEntry.recent base) ≤ lookups
  handed : ∀ layout ∈ handed, popup.render.HandedOut base layout
  sound : Sound popup.ledger (popup.render.layouts ++ owned)

variable {popup : CandidatePanel} {base lookups : Nat} {owned handed : List Layout}

theorem Laying.start (whole : popup.render.Whole)
    (sound : Sound popup.ledger (popup.render.layouts ++ owned)) :
    popup.Laying popup.render.tick owned 0 [] where
  whole := whole
  tick := rfl
  recent := by
    rw [Nat.le_zero, List.countP_eq_zero]
    intro entry member
    have behind := whole.ticks entry member
    simp only [LayoutEntry.recent, Bool.and_eq_true, decide_eq_true_eq, not_and]
    omega
  handed := fun _ member => nomatch member
  sound := sound

/-- What replacing an entry by the one looked up comes to. -/
theorem Laying.touched (laying : Laying base owned popup lookups handed) {after : CandidatePanel}
    (index : Nat) {entry : LayoutEntry}
    (touched : popup.render.Touched after.render index entry)
    (kept : base < (popup.render.entry index).lruTick →
      ∀ layout ∈ (popup.render.entry index).layouts, layout ∈ entry.layouts)
    (sound : Sound after.ledger (after.render.layouts ++ owned)) :
    Laying base owned after (lookups + 1) (handed ++ entry.layouts) where
  whole := touched.whole laying.whole
  tick := by
    rw [touched.tick, laying.tick]
    rfl
  recent := touched.recent_le.trans (Nat.succ_le_succ laying.recent)
  handed := by
    have begun : base ≤ popup.render.tick := by
      rw [laying.tick]
      exact Nat.le_add_right _ _
    intro layout member
    rcases List.mem_append.mp member with before | new
    · exact touched.keeps begun (laying.handed layout before) fun later owns =>
        kept later layout owns
    · exact touched.handsOut begun new
  sound := sound

theorem Laying.nextTick (laying : Laying base owned popup lookups handed)
    (room : base + lookups + 1 < 2 ^ 32) :
    popup.render.nextTick = popup.render.tick + 1 := by
  rw [RenderCtx.nextTick, Nat.mod_eq_of_lt]
  rw [laying.tick]
  exact room

/-- The victim's layouts are retired and the entry which replaces it owns fresh ones. -/
theorem Laying.replace (laying : Laying base owned popup lookups handed) {engine : TextEngine}
    {key : LayoutKey} (makes : engine.creates key.labelFontDesc = true →
      engine.creates key.fontDesc = true) (room : base + lookups + 1 < 2 ^ 32) {index : Nat}
    (bounded : index < popup.render.entries.length)
    (stale : (popup.render.entry index).rank ≤ base) :
    Laying base owned (popup.lruReplace engine key index).1 (lookups + 1)
      (handed ++ (popup.lruReplace engine key index).2.layouts) := by
  have entry_eq := RenderCtx.entry_of_lt bounded
  have member : popup.render.entry index ∈ popup.render.entries := by
    rw [entry_eq]
    exact List.getElem_mem bounded
  let victim := popup.render.entry index
  let emptied := (popup.render.entries.set index .zero).flatMap LayoutEntry.layouts
  have zero : LayoutEntry.zero.layouts = [] := rfl
  have taken : Sound popup.ledger
      (victim.layout.toList ++ (victim.labelLayout.toList ++ (emptied ++ owned))) := by
    apply laying.sound.of_count
    intro layout
    have exchanged := count_flatMap_set popup.render.entries bounded .zero layout
    rw [← entry_eq, zero, LayoutEntry.layouts] at exchanged
    simp only [List.count_append, List.count_nil, RenderCtx.layouts, victim, emptied]
      at exchanged ⊢
    omega
  let evicted := (popup.retireLayout victim.layout).retireLayout victim.labelLayout
  have evicted_sound : Sound evicted.ledger (emptied ++ owned) :=
    retireLayout_sound (retireLayout_sound taken)
  have evicted_render : evicted.render = popup.render := by
    rw [retireLayout_render, retireLayout_render]
  have labelled := (createLayout_sound engine key.labelFontDesc evicted_sound).1
  have label_render := (createLayout_frame evicted engine key.labelFontDesc).1
  let relabelled := (evicted.createLayout engine key.labelFontDesc).1
  have texted := (@createLayout_sound relabelled _ engine key.fontDesc labelled).1
  have text_render := (createLayout_frame relabelled engine key.fontDesc).1
  have render : (relabelled.createLayout engine key.fontDesc).1.render = popup.render :=
    text_render.trans (label_render.trans evicted_render)
  apply laying.touched index
  · refine ⟨bounded, ?_, laying.nextTick room, laying.nextTick room, ?_⟩
    · exact congrArg (fun ctx : RenderCtx => ctx.entries.set index _) render
    · intro no_text
      have no_font : engine.creates key.fontDesc = false := by
        by_contra creates
        simp only [lruReplace, createLayout, Bool.not_eq_false] at no_text creates
        simp only [creates, if_true] at no_text
        cases no_text
      have no_label : engine.creates key.labelFontDesc = false := by
        by_contra creates
        rw [makes (by simpa using creates)] at no_font
        cases no_font
      simp [lruReplace, createLayout, no_label]
  · intro later layout owns
    rw [← laying.whole.rank_of_layouts member owns] at later
    omega
  · apply Sound.of_count texted
    intro layout
    have exchanged := count_flatMap_set popup.render.entries bounded
      (popup.lruReplace engine key index).2 layout
    have cleared := count_flatMap_set popup.render.entries bounded .zero layout
    rw [zero, List.count_nil] at cleared
    have entries : (popup.lruReplace engine key index).1.render.layouts =
        (popup.render.entries.set index (popup.lruReplace engine key index).2).flatMap
          LayoutEntry.layouts :=
      congrArg (fun ctx : RenderCtx =>
        (ctx.entries.set index (popup.lruReplace engine key index).2).flatMap
          LayoutEntry.layouts) render
    have layouts : (popup.lruReplace engine key index).2.layouts =
        (relabelled.createLayout engine key.fontDesc).2.toList ++
          (evicted.createLayout engine key.labelFontDesc).2.toList := rfl
    rw [layouts, List.count_append] at exchanged
    simp only [entries, List.count_append, emptied]
    omega

/-- One lookup. -/
theorem Laying.lookup (laying : Laying base owned popup lookups handed) {engine : TextEngine}
    (key : LayoutKey) (makes : engine.creates key.labelFontDesc = true →
      engine.creates key.fontDesc = true) (room : base + lookups + 1 < 2 ^ 32)
    (few : lookups < layoutCacheCap) :
    Laying base owned (popup.lruGetOrCreate engine key).1 (lookups + 1)
      (handed ++ (popup.lruGetOrCreate engine key).2.layouts) := by
  simp only [lruGetOrCreate]
  split
  next index scan =>
    obtain ⟨offset, same, bounded⟩ := lruScan_found scan
    rw [Nat.zero_add] at same
    subst same
    have entry_eq := RenderCtx.entry_of_lt bounded
    have member : popup.render.entry index ∈ popup.render.entries := by
      rw [entry_eq]
      exact List.getElem_mem bounded
    apply laying.touched index
    · exact ⟨bounded, rfl, laying.nextTick room, laying.nextTick room,
        laying.whole.paired (popup.render.entry index) member⟩
    · exact fun _ layout owns => owns
    · apply laying.sound.of_count
      intro layout
      have exchanged := count_flatMap_set popup.render.entries bounded
        { popup.render.entry index with lruTick := popup.render.nextTick } layout
      rw [← entry_eq] at exchanged
      have unchanged : (LayoutEntry.layouts
          { popup.render.entry index with lruTick := popup.render.nextTick }) =
          (popup.render.entry index).layouts := rfl
      rw [unchanged] at exchanged
      dsimp only at exchanged
      simp only [List.count_append, RenderCtx.layouts]
      omega
  next index scan =>
    have below : popup.render.tick < 2 ^ 32 - 1 := by
      rw [laying.tick]
      omega
    obtain ⟨bounded, stale⟩ := laying.whole.victim_stale below
      (Nat.lt_of_le_of_lt laying.recent few) scan
    exact laying.replace makes room bounded stale

variable {engine : TextEngine} {cfg : PopupConfig} {palette : Palette} {scale : Rat}

/-- The text engine makes the text of a row whenever it makes its label. -/
def MakesPairs (engine : TextEngine) (cfg : PopupConfig) (scale : Rat) : Prop :=
  engine.creates (scaledFontDesc cfg.labelFontDesc scale) = true →
    engine.creates (scaledFontDesc cfg.fontDesc scale) = true

instance (engine : TextEngine) (cfg : PopupConfig) (scale : Rat) :
    Decidable (MakesPairs engine cfg scale) :=
  inferInstanceAs (Decidable (_ → _))

theorem Laying.row (laying : Laying base owned popup lookups handed)
    (makes : MakesPairs engine cfg scale) (room : base + lookups + 2 < 2 ^ 32)
    (few : lookups + 1 < layoutCacheCap) (candidate : Candidate) (index : Nat) :
    Laying base owned (popup.computeRow engine cfg palette scale candidate index).1 (lookups + 2)
      (handed ++ (popup.computeRow engine cfg palette scale candidate index).2.layouts) := by
  let label := (formatCandidateParts candidate index).1
  let text := (formatCandidateParts candidate index).2
  let labelFontDesc := scaledFontDesc cfg.labelFontDesc scale
  let fontDesc := scaledFontDesc cfg.fontDesc scale
  have plain := laying.lookup
    ⟨label, text, labelFontDesc, fontDesc, palette.muted, palette.text⟩ makes (by omega) (by omega)
  have selected := plain.lookup
    ⟨label, text, labelFontDesc, fontDesc, palette.selectionText, palette.selectionText⟩ makes
    (by omega) few
  refine { selected with handed := fun layout member => selected.handed layout ?_ }
  simp only [computeRow, PopupRow.layouts, LayoutEntry.layouts, List.mem_append] at member ⊢
  tauto

/-- The loop over the candidates. -/
theorem Laying.rows (laying : Laying base owned popup lookups handed)
    (candidates : List Candidate) (makes : candidates ≠ [] → MakesPairs engine cfg scale)
    (room : base + lookups + 2 * candidates.length < 2 ^ 32)
    (few : lookups + 2 * candidates.length ≤ layoutCacheCap) (index : Nat) :
    Laying base owned (popup.computeRows engine cfg palette scale candidates index).1
      (lookups + 2 * candidates.length)
      (handed ++ (popup.computeRows engine cfg palette scale candidates index).2.flatMap
        PopupRow.layouts) := by
  induction candidates generalizing popup lookups handed index with
  | nil => simpa [computeRows] using laying
  | cons candidate candidates induction =>
      rw [List.length_cons] at room few ⊢
      have pairs := makes (List.cons_ne_nil candidate candidates)
      have row := @laying.row _ _ _ _ _ engine cfg palette scale pairs (by omega) (by omega)
        candidate index
      have rest := induction row (fun _ => pairs) (by omega) (by omega) (index + 1)
      simp only [computeRows, List.flatMap_cons, ← List.append_assoc]
      rw [show lookups + 2 * (candidates.length + 1) = lookups + 2 + 2 * candidates.length by omega]
      exact rest

end CandidatePanel

end Popup

end Typio
