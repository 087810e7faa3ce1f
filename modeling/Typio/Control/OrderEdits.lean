import Typio.Control.EngineOrder

/-!
# Edits of the engine order

A move and a drop give an engine another place, an addition appends one engine and a removal takes
one out; the order of all others is kept and no engine is listed twice.  The editor meets this as
long as no engine is added which the edited list already has.  It does not look there: before an
addition it searches the custom order, which is still empty while the order is automatic.
-/

namespace Typio

namespace Control

open Splice StrSlice Config

namespace OrderEditor

/-! ## What an edit is to do -/

/-- The engine stands one place further towards the front, or back; at the border it stays. -/
def Shifted (direction : Int) (engineName : CString) (before after : List CString) : Prop :=
  if direction < 0 then
    (∃ other, Swapped other engineName before after) ∨
      before.head? = some engineName ∧ after = before
  else
    (∃ other, Swapped engineName other before after) ∨
      before.getLast? = some engineName ∧ after = before

/-- The engine stands directly in front of the target, or directly behind it. -/
def Beside (engineName targetName : CString) (placeAfter : Bool) (after : List CString) : Prop :=
  if placeAfter then [targetName, engineName] <:+: after else [engineName, targetName] <:+: after

variable (editor : OrderEditor)

/-- The entry of the menu which is selected. -/
def offeredEngine (selected : Option Nat) : Option CString :=
  selected.bind (editor.engineOrderAddIdModel[·]?)

/-- A name of the edited list. -/
def listedEngine (engineName : Option CString) : Option CString :=
  engineName.filter (· ∈ editor.editedOrder)

/-- What the event is to make of the edited list; a name which is not listed changes nothing. -/
def Meets (after : OrderEditor) : OrderEvent → Prop
  | .move engineName direction =>
      match editor.listedEngine engineName with
      | none => after.editedOrder = editor.editedOrder
      | some name =>
          Shifted direction name editor.editedOrder after.engineOrderModel ∧
            OthersKept name editor.editedOrder after.engineOrderModel
  | .reorderTo engineName targetName placeAfter =>
      match editor.listedEngine engineName, editor.listedEngine targetName with
      | some name, some target =>
          if name = target then after.editedOrder = editor.editedOrder
          else
            Beside name target placeAfter after.engineOrderModel ∧
              OthersKept name editor.editedOrder after.engineOrderModel
      | _, _ => after.editedOrder = editor.editedOrder
  | .addClicked selected =>
      match editor.offeredEngine selected with
      | none => after.editedOrder = editor.editedOrder
      | some name => after.engineOrderModel = editor.editedOrder ++ [name]
  | .removeClicked engineName =>
      match editor.listedEngine engineName with
      | none => after.editedOrder = editor.editedOrder
      | some name => after.engineOrderModel = editor.editedOrder.filter (· ≠ name)
  | .resetClicked => after.engineOrderModel = []
  | .refresh => after.engineOrderModel = editor.engineOrderModel

/-- The step does to the edited list what it is to do, and no engine is listed twice after it. -/
def WellEdited (event : OrderEvent) : Prop :=
  editor.Meets (editor.step event) event ∧ (editor.step event).engineOrderModel.Nodup

/-- An engine which is added is not yet in the edited list. -/
def AddsUnlisted : OrderEvent → Prop
  | .addClicked selected => ∀ name ∈ editor.offeredEngine selected, name ∉ editor.editedOrder
  | _ => True

/-! ## Names of the edited list -/

section Listed

variable {editor : OrderEditor} {engineName : Option CString} {name : CString}

theorem listedEngine_eq_some :
    editor.listedEngine engineName = some name ↔
      engineName = some name ∧ name ∈ editor.editedOrder := by
  simp [listedEngine, Option.filter_eq_some_iff]

theorem listedEngine_eq_none :
    editor.listedEngine engineName = none ↔
      ∀ name ∈ engineName, name ∉ editor.editedOrder := by
  simp [listedEngine, Option.filter_eq_none_iff]

/-- The list is as it was, or has only become a custom one. -/
def Same (editor after : OrderEditor) : Prop :=
  after = editor ∨ after = editor.controlMaterializeCurrentEngineOrder

theorem Same.editedOrder {after : OrderEditor} (same : Same editor after) :
    after.editedOrder = editor.editedOrder := by
  rcases same with rfl | rfl
  · rfl
  · rw [materialize_eq]
    by_cases empty : editor.editedOrder = []
    · have none_left : editor.engineOrderModel = [] := by
        by_contra custom
        exact custom (editedOrder_custom editor custom ▸ empty)
      simp [OrderEditor.editedOrder, none_left] at empty ⊢
    · exact editedOrder_custom _ empty

theorem givenName_some (named : name ≠ .utf8 []) : givenName (some name) = some name := by
  simp [givenName, named]

/-- A listed name is given, and found at an index which cuts the edited list. -/
theorem Sound.found (sound : editor.Sound) (listed : name ∈ editor.editedOrder) :
    givenName (some name) = some name ∧ ∃ left right,
      editor.editedOrder = left ++ name :: right ∧
        controlFindModelIndex editor.editedOrder name = some left.length := by
  refine ⟨?_, ?_⟩
  · exact givenName_some fun empty => sound.named_editedOrder (empty ▸ listed)
  · obtain ⟨index, found⟩ := Option.isSome_iff_exists.mp (List.isSome_idxOf?.mpr listed)
    obtain ⟨left, right, cut, rfl⟩ := split_at_index found
    exact ⟨left, right, cut, found⟩

theorem not_found (unlisted : name ∉ editor.editedOrder) :
    controlFindModelIndex editor.editedOrder name = none :=
  List.idxOf?_eq_none_iff.mpr unlisted

end Listed

/-! ## The steps -/

section Steps

variable {editor : OrderEditor} {name target : CString}

theorem Shifted.relocated {direction : Int} {before after : List CString}
    (shifted : Shifted direction name before after) : Relocated name before after := by
  rw [Shifted] at shifted
  split at shifted
  · obtain ⟨other, swapped⟩ | ⟨first, rfl⟩ := shifted
    · exact swapped.relocated_second
    · exact relocated_self (List.mem_of_head? first)
  · obtain ⟨other, swapped⟩ | ⟨last, rfl⟩ := shifted
    · exact swapped.relocated_first
    · exact relocated_self (List.mem_of_getLast? last)

/-- A listed engine is moved one place. -/
theorem move_listed (sound : editor.Sound) (listed : name ∈ editor.editedOrder)
    (direction : Int) :
    ∃ order, editor.controlEngineOrderMove (some name) direction =
        { editor with engineOrderModel := order } ∧
      Shifted direction name editor.editedOrder order := by
  obtain ⟨given, left, right, cut, found⟩ := sound.found listed
  simp only [controlEngineOrderMove, given, materialize_eq, found, Shifted, place]
  by_cases up : direction < 0
  · simp only [up, if_true, cut]
    obtain rfl | ⟨front, other, rfl⟩ := left.eq_nil_or_concat
    · refine ⟨name :: right, ?_, .inr ⟨rfl, rfl⟩⟩
      simp
    · refine ⟨front ++ name :: other :: right, ?_, .inl ⟨other, front, right, by simp, rfl⟩⟩
      simp [relocate_up]
      intro short
      omega
  · simp only [up, if_false, cut]
    cases right with
    | nil =>
        refine ⟨left ++ [name], ?_, .inr ⟨by simp, rfl⟩⟩
        simp
    | cons other back =>
        refine ⟨left ++ other :: name :: back, ?_, .inl ⟨other, left, back, rfl, rfl⟩⟩
        simp [relocate_down]
        intro short
        omega

theorem move_unlisted {engineName : Option CString} (direction : Int)
    (unlisted : editor.listedEngine engineName = none) :
    Same editor (editor.controlEngineOrderMove engineName direction) := by
  rw [controlEngineOrderMove]
  split
  · exact .inl rfl
  · next name given =>
      have absent := listedEngine_eq_none.mp unlisted name (Option.eq_some_of_filter_eq_some given)
      simp only [materialize_eq, not_found absent]
      exact .inr (materialize_eq editor).symm

/-- A listed engine which is dropped on another one is put beside it: the index of the target is
read before the engine is taken out, and is one less after it if the target lies behind. -/
theorem reorderTo_listed (sound : editor.Sound) (listed : name ∈ editor.editedOrder)
    (targeted : target ∈ editor.editedOrder) (differs : name ≠ target) (placeAfter : Bool) :
    ∃ order, editor.controlEngineOrderReorderTo (some name) (some target) placeAfter =
        { editor with engineOrderModel := order } ∧
      Relocated name editor.editedOrder order ∧ Beside name target placeAfter order := by
  obtain ⟨given, left, right, cut, found⟩ := sound.found listed
  obtain ⟨givenTarget, before, behind, cutTarget, foundTarget⟩ := sound.found targeted
  have apart : left.length ≠ before.length := by
    intro same
    have heads := List.append_inj_right (cut.symm.trans cutTarget) same
    exact differs (List.cons_eq_cons.mp heads).1
  have shifted := foundTarget
  rw [cut] at shifted
  obtain ⟨front, back, rest, width⟩ := split_at_index (index_without differs.symm shifted)
  simp only [controlEngineOrderReorderTo, given, givenTarget, materialize_eq, found, foundTarget,
    if_neg apart, place, ← width, Beside]
  cases placeAfter with
  | false =>
      have placed := relocate_eq name rest
      refine ⟨front ++ name :: target :: back, ?_, ?_, ?_⟩
      · simp [cut, placed]
      · exact ⟨left, right, front, target :: back, cut, rfl, rest⟩
      · exact ⟨front, back, by simp⟩
  | true =>
      have restAfter : left ++ right = (front ++ [target]) ++ back := by simp [rest]
      have placed := relocate_eq name restAfter
      refine ⟨front ++ target :: name :: back, ?_, ?_, ?_⟩
      · simpa [cut] using placed
      · exact ⟨left, right, front ++ [target], back, cut, by simp, restAfter⟩
      · exact ⟨front, back, by simp⟩

theorem reorderTo_self (editor : OrderEditor) (name : CString) (placeAfter : Bool) :
    Same editor (editor.controlEngineOrderReorderTo (some name) (some name) placeAfter) := by
  rw [controlEngineOrderReorderTo]
  cases givenName (some name) with
  | none => exact .inl rfl
  | some given =>
      refine .inr ?_
      dsimp only
      cases controlFindModelIndex
        editor.controlMaterializeCurrentEngineOrder.engineOrderModel given with
      | none => rfl
      | some index => exact if_pos rfl

theorem reorderTo_unlisted (engineName targetName : Option CString) (placeAfter : Bool)
    (unlisted : editor.listedEngine engineName = none ∨ editor.listedEngine targetName = none) :
    Same editor (editor.controlEngineOrderReorderTo engineName targetName placeAfter) := by
  rw [controlEngineOrderReorderTo]
  split
  · next name target given givenTarget =>
      simp only [materialize_eq]
      split
      · next found foundTarget =>
          exfalso
          rcases unlisted with unlisted | unlisted
          · have absent := listedEngine_eq_none.mp unlisted name
              (Option.eq_some_of_filter_eq_some given)
            rw [not_found absent] at found
            exact absurd found (Option.some_ne_none _).symm
          · have absent := listedEngine_eq_none.mp unlisted target
              (Option.eq_some_of_filter_eq_some givenTarget)
            rw [not_found absent] at foundTarget
            exact absurd foundTarget (Option.some_ne_none _).symm
      · exact .inr (materialize_eq editor).symm
  · exact .inl rfl

theorem removeClicked_listed (sound : editor.Sound) (listed : name ∈ editor.editedOrder) :
    editor.onEngineOrderRemoveClicked (some name) =
      { editor with engineOrderModel := editor.editedOrder.filter (· ≠ name) } := by
  obtain ⟨given, left, right, cut, found⟩ := sound.found listed
  have distinct := sound.editedOrder_nodup
  rw [cut, List.nodup_middle, List.nodup_cons] at distinct
  have others : (left ++ right).filter (· ≠ name) = left ++ right := by
    rw [List.filter_eq_self]
    intro other inside
    have differs : other ≠ name := fun same => distinct.1 (same ▸ inside)
    simpa using differs
  simp only [onEngineOrderRemoveClicked, given, materialize_eq, found]
  rw [cut, splice_append]
  simpa using others.symm

theorem removeClicked_unlisted {engineName : Option CString}
    (unlisted : editor.listedEngine engineName = none) :
    Same editor (editor.onEngineOrderRemoveClicked engineName) := by
  rw [onEngineOrderRemoveClicked]
  split
  · exact .inl rfl
  · next name given =>
      have absent := listedEngine_eq_none.mp unlisted name (Option.eq_some_of_filter_eq_some given)
      simp only [materialize_eq, not_found absent]
      exact .inr (materialize_eq editor).symm

theorem addClicked_unselected {selected : Option Nat}
    (unselected : editor.offeredEngine selected = none) :
    editor.onEngineOrderAddClicked selected = editor := by
  rw [offeredEngine] at unselected
  simp [onEngineOrderAddClicked, unselected, givenName]

theorem Sound.offered_named (sound : editor.Sound) {selected : Option Nat}
    (offered : editor.offeredEngine selected = some name) : name ≠ .utf8 [] := by
  rintro rfl
  obtain ⟨index, -, entry⟩ := Option.bind_eq_some_iff.mp offered
  exact sound.offered (List.mem_of_getElem? entry)

/-- An engine of the menu is appended, unless the custom order has it already. -/
theorem addClicked_offered (sound : editor.Sound) {selected : Option Nat}
    (offered : editor.offeredEngine selected = some name) :
    editor.onEngineOrderAddClicked selected =
      if name ∈ editor.engineOrderModel then editor
      else { editor with engineOrderModel := editor.editedOrder ++ [name] } := by
  have named := sound.offered_named offered
  rw [offeredEngine] at offered
  simp [onEngineOrderAddClicked, offered, givenName_some named, materialize_eq]

/-- An engine of the edited list is appended to it once more while the order is automatic, and not
at all once it is custom. -/
theorem addClicked_listed (sound : editor.Sound) {selected : Option Nat}
    (offered : editor.offeredEngine selected = some name) (listed : name ∈ editor.editedOrder) :
    ¬editor.WellEdited (.addClicked selected) := by
  simp only [WellEdited, Meets, offered, step, addClicked_offered sound offered]
  rintro ⟨appended, distinct⟩
  split at appended
  · next custom =>
      rw [editedOrder_custom editor (List.ne_nil_of_mem custom)] at appended
      simp at appended
  · next missing =>
      rw [if_neg missing, List.nodup_append] at distinct
      exact distinct.2.2 name listed name (.head _) rfl

end Steps

/-! ## Runs -/

section Runs

variable {editor after : OrderEditor} {event : OrderEvent}

theorem Sound.of_order (sound : editor.Sound) {order : List CString} (distinct : order.Nodup)
    (named : .utf8 [] ∉ order) : { editor with engineOrderModel := order }.Sound :=
  ⟨sound.distinct, distinct, named, sound.offered⟩

theorem Sound.of_same (sound : editor.Sound) (same : Same editor after) : after.Sound := by
  rcases same with rfl | rfl
  · exact sound
  · rw [materialize_eq]
    exact sound.of_order sound.editedOrder_nodup sound.named_editedOrder

theorem Sound.of_relocated (sound : editor.Sound) {name : CString} {order : List CString}
    (relocated : Relocated name editor.editedOrder order) :
    { editor with engineOrderModel := order }.Sound :=
  sound.of_order (relocated.perm.nodup_iff.mpr sound.editedOrder_nodup)
    fun empty => sound.named_editedOrder (relocated.perm.mem_iff.mp empty)

/-- The step does what it is to do and keeps the lists sound. -/
def Proper (editor : OrderEditor) (event : OrderEvent) : Prop :=
  editor.Meets (editor.step event) event ∧ (editor.step event).Sound

theorem Sound.move (sound : editor.Sound) (engineName : Option CString) (direction : Int) :
    editor.Proper (.move engineName direction) := by
  rw [Proper, OrderEditor.step, Meets]
  split
  · next absent =>
      have same := move_unlisted direction absent
      exact ⟨same.editedOrder, sound.of_same same⟩
  · next name present =>
      obtain ⟨rfl, listed⟩ := listedEngine_eq_some.mp present
      obtain ⟨order, moved, shifted⟩ := move_listed sound listed direction
      rw [moved]
      exact ⟨⟨shifted, shifted.relocated.othersKept⟩, sound.of_relocated shifted.relocated⟩

theorem Sound.reorderTo (sound : editor.Sound) (engineName targetName : Option CString)
    (placeAfter : Bool) : editor.Proper (.reorderTo engineName targetName placeAfter) := by
  rw [Proper, OrderEditor.step, Meets]
  cases present : editor.listedEngine engineName with
  | none =>
      have same := reorderTo_unlisted engineName targetName placeAfter (.inl present)
      exact ⟨same.editedOrder, sound.of_same same⟩
  | some name =>
      cases targeted : editor.listedEngine targetName with
      | none =>
          have same := reorderTo_unlisted engineName targetName placeAfter (.inr targeted)
          exact ⟨same.editedOrder, sound.of_same same⟩
      | some target =>
          obtain ⟨rfl, listed⟩ := listedEngine_eq_some.mp present
          obtain ⟨rfl, listedTarget⟩ := listedEngine_eq_some.mp targeted
          dsimp only
          split
          · next itself =>
              rw [itself]
              have same := reorderTo_self editor target placeAfter
              exact ⟨same.editedOrder, sound.of_same same⟩
          · next differs =>
              obtain ⟨order, dropped, relocated, beside⟩ :=
                reorderTo_listed sound listed listedTarget differs placeAfter
              rw [dropped]
              exact ⟨⟨beside, relocated.othersKept⟩, sound.of_relocated relocated⟩

theorem Sound.addClicked (sound : editor.Sound) {selected : Option Nat}
    (unlisted : editor.AddsUnlisted (.addClicked selected)) :
    editor.Proper (.addClicked selected) := by
  rw [Proper, OrderEditor.step, Meets]
  split
  · next unselected =>
      rw [addClicked_unselected unselected]
      exact ⟨rfl, sound⟩
  · next name offered =>
      have fresh := unlisted name offered
      have missing : name ∉ editor.engineOrderModel := by
        intro custom
        rw [editedOrder_custom editor (List.ne_nil_of_mem custom)] at fresh
        exact fresh custom
      rw [addClicked_offered sound offered, if_neg missing]
      refine ⟨rfl, sound.of_order ?_ ?_⟩
      · rw [← List.concat_eq_append]
        exact sound.editedOrder_nodup.concat fresh
      · have named := sound.offered_named offered
        simpa [sound.named_editedOrder] using named.symm

theorem Sound.removeClicked (sound : editor.Sound) (engineName : Option CString) :
    editor.Proper (.removeClicked engineName) := by
  rw [Proper, OrderEditor.step, Meets]
  split
  · next absent =>
      have same := removeClicked_unlisted absent
      exact ⟨same.editedOrder, sound.of_same same⟩
  · next name present =>
      obtain ⟨rfl, listed⟩ := listedEngine_eq_some.mp present
      rw [removeClicked_listed sound listed]
      exact ⟨rfl, sound.of_order (sound.editedOrder_nodup.filter _)
        fun empty => sound.named_editedOrder (List.mem_of_mem_filter empty)⟩

theorem Sound.resetClicked (sound : editor.Sound) : editor.Proper .resetClicked := by
  rw [Proper, OrderEditor.step, Meets, onEngineOrderResetClicked]
  split
  · next automatic => exact ⟨List.eq_nil_of_length_eq_zero automatic, sound⟩
  · rw [splice_all]
    exact ⟨rfl, sound.of_order List.nodup_nil List.not_mem_nil⟩

theorem Sound.refresh (sound : editor.Sound) : editor.Proper .refresh := by
  refine ⟨rfl, sound.distinct, sound.listed, sound.named, ?_⟩
  simp [OrderEditor.step, controlRefreshEngineOrderEditor]

/-- As long as it adds no listed engine, a step is proper. -/
theorem Sound.step (sound : editor.Sound) (unlisted : editor.AddsUnlisted event) :
    editor.Proper event := by
  cases event with
  | move engineName direction => exact sound.move engineName direction
  | reorderTo engineName targetName placeAfter =>
      exact sound.reorderTo engineName targetName placeAfter
  | addClicked selected => exact sound.addClicked unlisted
  | removeClicked engineName => exact sound.removeClicked engineName
  | resetClicked => exact sound.resetClicked
  | refresh => exact sound.refresh

theorem wellEdited_iff (sound : editor.Sound) :
    editor.WellEdited event ↔ editor.AddsUnlisted event := by
  constructor
  · intro edited
    cases event with
    | addClicked selected =>
        intro name offered listed
        exact addClicked_listed sound offered listed edited
    | _ => trivial
  · intro unlisted
    obtain ⟨meets, next⟩ := sound.step unlisted
    exact ⟨meets, next.listed⟩

/-- A custom order as it is loaded. -/
structure CustomOrder where
  names : List CString
  nodup : names.Nodup
  named : .utf8 [] ∉ names

theorem append_unique_kept {model : List CString} (distinct : model.Nodup)
    (named : .utf8 [] ∉ model) (value : Option CString) :
    (controlAppendUniqueString model value).Nodup ∧
      .utf8 [] ∉ controlAppendUniqueString model value := by
  rw [controlAppendUniqueString.eq_def]
  split
  · exact ⟨distinct, named⟩
  · next value =>
      split
      · exact ⟨distinct, named⟩
      · next fresh =>
          rw [not_or] at fresh
          rw [← List.concat_eq_append]
          refine ⟨distinct.concat fresh.2, ?_⟩
          simpa [named] using Ne.symm fresh.1

theorem load_names_kept (engineIds : List CString) (names : List (Option CString))
    {model : List CString} (distinct : model.Nodup) (named : .utf8 [] ∉ model) :
    (names.foldl (controlLoadEngineName engineIds) model).Nodup ∧
      .utf8 [] ∉ names.foldl (controlLoadEngineName engineIds) model := by
  induction names generalizing model with
  | nil => exact ⟨distinct, named⟩
  | cons name names induction =>
      rw [List.foldl_cons, controlLoadEngineName]
      split
      · exact induction distinct named
      · obtain ⟨kept, still⟩ := append_unique_kept distinct named name
        exact induction kept still

/-- No custom order: the order is automatic. -/
def CustomOrder.automatic : CustomOrder where
  names := []
  nodup := List.nodup_nil
  named := List.not_mem_nil

/-- The order of a configuration; without one the order is automatic. -/
def CustomOrder.load {Float : Type} (engineIds : List CString) (config : Entries Float) :
    CustomOrder where
  names := controlLoadEngineOrder engineIds config
  nodup := (load_names_kept engineIds _ List.nodup_nil List.not_mem_nil).1
  named := (load_names_kept engineIds _ List.nodup_nil List.not_mem_nil).2

/-- The editor as the panel shows it: the menu is built for the order. -/
def shown (engineIds : List CString) (order : CustomOrder) : OrderEditor :=
  controlRefreshEngineOrderEditor ⟨engineIds, order.names, []⟩

theorem shown_sound {engineIds : List CString} (distinct : engineIds.Nodup)
    (order : CustomOrder) : (shown engineIds order).Sound :=
  ⟨distinct, order.nodup, order.named, by simp [shown, controlRefreshEngineOrderEditor]⟩

instance (editor : OrderEditor) (event : OrderEvent) : Decidable (editor.AddsUnlisted event) :=
  match event with
  | .addClicked selected =>
      inferInstanceAs
        (Decidable (∀ name ∈ editor.offeredEngine selected, name ∉ editor.editedOrder))
  | .move _ _ | .reorderTo _ _ _ | .removeClicked _ | .resetClicked | .refresh =>
      inferInstanceAs (Decidable True)

/-- The order which lists one engine. -/
def CustomOrder.single (name : CString) (named : name ≠ .utf8 []) : CustomOrder where
  names := [name]
  nodup := List.nodup_singleton name
  named := by simpa using named.symm

private def basic : CString := .utf8 "basic".toList
private def rime : CString := .utf8 "rime".toList

end Runs

end OrderEditor

end Control

end Typio
