import Typio.Control.ConfigForm
import Typio.Machine
import Typio.Splice

/-!
# The editor of the engine order

The editor holds the custom order, which is empty while the order is automatic, and the menu of the
engines which can be added.  The menu is rebuilt when the panel is idle, so that it may lag behind
the order.  A move, a drop, an addition and a removal first turn an automatic order into a custom
one, which lists all available engines.
-/

namespace Typio

namespace Control

open Splice StrSlice Config

/-- The custom order, the available engines and the menu. -/
structure OrderEditor where
  engineIdModel : List CString
  engineOrderModel : List CString
  engineOrderAddIdModel : List CString

/-- What the panel does to the order; a name comes from the row of an engine. -/
inductive OrderEvent where
  | move (engineName : Option CString) (direction : Int)
  | reorderTo (engineName targetName : Option CString) (placeAfter : Bool)
  | addClicked (selected : Option Nat)
  | removeClicked (engineName : Option CString)
  | resetClicked
  | refresh

/-- A name which is there and not empty. -/
def givenName (name : Option CString) : Option CString :=
  name.filter (· ≠ .utf8 [])

/-- `control_find_model_index`. -/
def controlFindModelIndex (model : List CString) (value : CString) : Option Nat :=
  model.idxOf? value

namespace OrderEditor

variable (editor : OrderEditor)

/-- `control_materialize_current_engine_order`. -/
def controlMaterializeCurrentEngineOrder : OrderEditor :=
  if editor.engineOrderModel ≠ [] then editor
  else
    { editor with
      engineOrderModel := editor.engineIdModel.foldl
        (fun model name =>
          if name = .utf8 [] then model else splice model model.length 0 [name])
        editor.engineOrderModel }

/-- `control_refresh_engine_order_editor`. -/
def controlRefreshEngineOrderEditor : OrderEditor :=
  { editor with
    engineOrderAddIdModel := editor.engineIdModel.filter fun name =>
      ¬(name = .utf8 [] ∨ name ∈ editor.engineOrderModel) }

/-- The engine is taken out of the order and put back at another index. -/
def place (engineName : CString) (source target : Nat) : OrderEditor :=
  { editor with engineOrderModel := relocate editor.engineOrderModel engineName source target }

/-- `control_engine_order_move`. -/
def controlEngineOrderMove (engineName : Option CString) (direction : Int) : OrderEditor :=
  match givenName engineName with
  | none => editor
  | some engineName =>
      let editor := editor.controlMaterializeCurrentEngineOrder
      match controlFindModelIndex editor.engineOrderModel engineName with
      | none => editor
      | some index =>
          if editor.engineOrderModel.length < 2 then editor
          else if direction < 0 then
            if index = 0 then editor else editor.place engineName index (index - 1)
          else if editor.engineOrderModel.length ≤ index + 1 then editor
          else editor.place engineName index (index + 1)

/-- `control_engine_order_reorder_to`. -/
def controlEngineOrderReorderTo (engineName targetName : Option CString) (placeAfter : Bool) :
    OrderEditor :=
  match givenName engineName, givenName targetName with
  | some engineName, some targetName =>
      let editor := editor.controlMaterializeCurrentEngineOrder
      match controlFindModelIndex editor.engineOrderModel engineName,
          controlFindModelIndex editor.engineOrderModel targetName with
      | some sourceIndex, some targetIndex =>
          if sourceIndex = targetIndex then editor
          else
            let targetIndex := if sourceIndex < targetIndex then targetIndex - 1 else targetIndex
            let insertIndex := if placeAfter then targetIndex + 1 else targetIndex
            editor.place engineName sourceIndex insertIndex
      | _, _ => editor
  | _, _ => editor

/-- `on_engine_order_add_clicked`, for the entry of the menu which is selected. -/
def onEngineOrderAddClicked (selected : Option Nat) : OrderEditor :=
  match givenName (selected.bind (editor.engineOrderAddIdModel[·]?)) with
  | none => editor
  | some engineName =>
      if engineName ∈ editor.engineOrderModel then editor
      else
        let editor := editor.controlMaterializeCurrentEngineOrder
        { editor with
          engineOrderModel :=
            splice editor.engineOrderModel editor.engineOrderModel.length 0 [engineName] }

/-- `on_engine_order_remove_clicked`. -/
def onEngineOrderRemoveClicked (engineName : Option CString) : OrderEditor :=
  match givenName engineName with
  | none => editor
  | some engineName =>
      let editor := editor.controlMaterializeCurrentEngineOrder
      match controlFindModelIndex editor.engineOrderModel engineName with
      | none => editor
      | some index =>
          { editor with engineOrderModel := splice editor.engineOrderModel index 1 [] }

/-- `on_engine_order_reset_clicked`. -/
def onEngineOrderResetClicked : OrderEditor :=
  if editor.engineOrderModel.length = 0 then editor
  else
    { editor with
      engineOrderModel := splice editor.engineOrderModel 0 editor.engineOrderModel.length [] }

def step : OrderEvent → OrderEditor
  | .move engineName direction => editor.controlEngineOrderMove engineName direction
  | .reorderTo engineName targetName placeAfter =>
      editor.controlEngineOrderReorderTo engineName targetName placeAfter
  | .addClicked selected => editor.onEngineOrderAddClicked selected
  | .removeClicked engineName => editor.onEngineOrderRemoveClicked engineName
  | .resetClicked => editor.onEngineOrderResetClicked
  | .refresh => editor.controlRefreshEngineOrderEditor

/-- The list which an edit starts from: the custom order, or all available engines. -/
def editedOrder : List CString :=
  if editor.engineOrderModel ≠ [] then editor.engineOrderModel
  else editor.engineIdModel.filter (· ≠ .utf8 [])

theorem editedOrder_custom (custom : editor.engineOrderModel ≠ []) :
    editor.editedOrder = editor.engineOrderModel :=
  if_pos custom

theorem editedOrder_automatic (automatic : editor.engineOrderModel = []) :
    editor.editedOrder = editor.engineIdModel.filter (· ≠ .utf8 []) :=
  if_neg (not_not.mpr automatic)

theorem materialize_fold (names model : List CString) :
    names.foldl (fun model name =>
        if name = .utf8 [] then model else splice model model.length 0 [name]) model =
      model ++ names.filter (· ≠ .utf8 []) := by
  induction names generalizing model with
  | nil => simp
  | cons name names induction =>
      by_cases empty : name = .utf8 []
      · simpa [empty] using induction model
      · simpa [empty] using induction (model ++ [name])

/-- An edit starts from a custom order. -/
theorem materialize_eq :
    editor.controlMaterializeCurrentEngineOrder =
      { editor with engineOrderModel := editor.editedOrder } := by
  rw [controlMaterializeCurrentEngineOrder]
  split
  · next custom => rw [editedOrder_custom _ custom]
  · next automatic =>
      rw [not_not] at automatic
      rw [editedOrder_automatic _ automatic, materialize_fold, automatic, List.nil_append]

/-- What is kept of the lists whatever the panel does, as long as no engine is listed twice. -/
structure Sound : Prop where
  distinct : editor.engineIdModel.Nodup
  listed : editor.engineOrderModel.Nodup
  named : .utf8 [] ∉ editor.engineOrderModel
  offered : .utf8 [] ∉ editor.engineOrderAddIdModel

variable {editor}

theorem Sound.editedOrder_nodup (sound : editor.Sound) : editor.editedOrder.Nodup := by
  rw [editedOrder]
  split
  · exact sound.listed
  · exact sound.distinct.filter _

theorem Sound.named_editedOrder (sound : editor.Sound) : .utf8 [] ∉ editor.editedOrder := by
  rw [editedOrder]
  split
  · exact sound.named
  · simp

end OrderEditor

end Control

end Typio
