import Typio.JsonPlacement
import Typio.Ipc.TipJsonStrings
import Typio.State.StatusService

/-!
# The properties as JSON

Each property stands for a value, and its text is compared with that value.  Two builders place
their commas wrongly: the flag of `ActiveEngineState` never clears, and `EngineOrder` looks at the
index of an item although items are skipped.
-/

namespace Typio

namespace Status

open JsonText TipJson

/-! ## What the properties stand for -/

def nullable (text : Option CString) : Json := .string (text.getD [])

def strings (items : List CString) : Json := .array (items.map .string)

/-- Infinities and NaNs have no counterpart in JSON. -/
def ConfigValue.json : ConfigValue → Json
  | .string text => nullable text
  | .int value => .number value.toInt 0
  | .bool value => .bool value
  | .float (.finite literal) => literal.value
  | .float (.infinite _) | .float (.nan _) | .array | .object => .null

def EngineInfo.json (info : EngineInfo) : List (CString × Json) :=
  [(ascii "name", nullable info.name), (ascii "display_name", nullable info.displayName),
    (ascii "icon", nullable info.icon), (ascii "language", nullable info.language),
    (ascii "engine_type", .string (engineTypeName info.voice)),
    (ascii "capabilities", .number info.capabilities.toNat 0)]

def EngineMode.json (mode : EngineMode) (classKey idKey labelKey iconKey : CString) :
    List (CString × Json) :=
  [(classKey, .string (modeClassName mode.latin)), (idKey, nullable mode.modeId),
    (labelKey, nullable mode.displayLabel), (iconKey, nullable mode.iconName)]

/-- The labels shown for the engines which have one. -/
def labels (view : View) (engines : List CString) : List (CString × CString) :=
  (engines.map fun name => (name, engineLabelFromInfo (view.info name))).filter
    fun (_, display) => display ≠ []

def activeEngineState (view : View) : List (CString × Json) :=
  ((view.activeKeyboard.bind ActiveEngine.info).map EngineInfo.json).getD [] ++
    (view.activeKeyboard.map fun engine => [(ascii "active", Json.bool engine.active)]).getD [] ++
    (match view.activeKeyboard.bind ActiveEngine.configPath with
      | none | some [] => []
      | some path => [(ascii "config_path", .string path)]) ++
    (view.lastMode.map fun mode => mode.json (ascii "mode_class") (ascii "mode_id")
      (ascii "mode_display_label") (ascii "mode_icon")).getD [] ++
    (match engineName view.activeKeyboard with
      | none | some [] => []
      | some name => ((view.engineConfig name).getD []).filterMap fun (key, value) =>
          key.map fun key => (ascii "config." ++ key, value.json))

def RuntimeState.json (state : RuntimeState) : List (CString × Json) :=
  [(ascii "frontend_backend", nullable state.frontendBackend),
    (ascii "lifecycle_phase", nullable state.lifecyclePhase),
    (ascii "virtual_keyboard_state", nullable state.virtualKeyboardState),
    (ascii "keyboard_grab_active", .bool state.keyboardGrabActive),
    (ascii "virtual_keyboard_has_keymap", .bool state.virtualKeyboardHasKeymap),
    (ascii "watchdog_armed", .bool state.watchdogArmed),
    (ascii "active_key_generation", .number state.activeKeyGeneration.toNat 0),
    (ascii "virtual_keyboard_keymap_generation",
      .number state.virtualKeyboardKeymapGeneration.toNat 0),
    (ascii "virtual_keyboard_drop_count", .number state.virtualKeyboardDropCount.toNat 0),
    (ascii "virtual_keyboard_state_age_ms", .number state.virtualKeyboardStateAgeMs.toNat 0),
    (ascii "virtual_keyboard_keymap_age_ms", .number state.virtualKeyboardKeymapAgeMs.toNat 0),
    (ascii "virtual_keyboard_forward_age_ms", .number state.virtualKeyboardForwardAgeMs.toNat 0),
    (ascii "virtual_keyboard_keymap_deadline_remaining_ms",
      .number state.virtualKeyboardKeymapDeadlineRemainingMs.toInt 0)]

/-- The value a property stands for. -/
def Property.json (view : View) : Property → Json
  | version => .string view.version
  | activeKeyboardEngine | activeEngine => nullable (engineName view.activeKeyboard)
  | availableKeyboardEngines => strings view.keyboardEngines
  | availableEngines => strings view.engines
  | orderedKeyboardEngines | orderedEngines => strings view.orderedKeyboards
  | engineDisplayNames =>
      .object ((labels view view.engines).map fun (name, display) => (name, .string display))
  | engineOrder => strings (view.engineOrder.filterMap id)
  | availableVoiceEngines => strings view.voiceEngines
  | activeVoiceEngine => nullable (engineName view.activeVoice)
  | activeEngineState => .object (Status.activeEngineState view)
  | activeEngineMode => .object ((view.lastMode.map fun mode => mode.json (ascii "mode_class")
      (ascii "mode_id") (ascii "display_label") (ascii "icon_name")).getD [])
  | runtimeState => .object view.runtimeState.json
  | rimeSchema => nullable view.rimeSchema
  | configText => nullable view.configText

/-- The members that `GetAll` lists. -/
def allJson (view : View) : Json :=
  .object (Property.table.map fun property => (property.name, property.json view))

/-! ## Where the commas are in place -/

/-- No group follows another one in `ActiveEngineState`. -/
def StateSeparated (view : View) : Prop :=
  ∀ engine ∈ view.activeKeyboard,
    engine.info = none ∧ engine.configPath.getD [] = [] ∧ view.lastMode = none

/-- No string of `engine_order` comes after an item at index 0 which is none. -/
def OrderSeparated (view : View) : Prop :=
  view.engineOrder.head? = some none → ∀ item ∈ view.engineOrder, item = none

def Property.Separated (view : View) : Property → Prop
  | activeEngineState => StateSeparated view
  | engineOrder => OrderSeparated view
  | _ => True

/-! ## Members -/

/-- Members as the builders write them, with a comma in front of every one but the first. -/
def membersText (members : List (CString × Json)) : CString :=
  [comma].intercalate (members.map fun (name, value) => appendMember name (compact value).render)

theorem appendMember_eq (name value : CString) :
    appendMember name value = Place.memberText (name, value) := by
  rw [appendMember, appendKey_eq_render, List.append_assoc]
  rfl

theorem render_object (members : List (CString × Json)) :
    (compact (.object members)).render = leftBrace :: membersText members ++ [rightBrace] := by
  simp only [render_compact_object, membersText, appendMember_eq]
  rfl

theorem intercalate_zipIdx {α : Type*} (items : List α) (text : α → CString) :
    (items.zipIdx.flatMap fun (item, i) => (if 0 < i then [comma] else []) ++ text item) =
      [comma].intercalate (items.map text) := by
  have later (items : List α) (i : Nat) :
      ((items.zipIdx (i + 1)).flatMap fun (item, i) =>
          (if 0 < i then [comma] else []) ++ text item) =
        (items.map text).flatMap (comma :: ·) := by
    induction items generalizing i with
    | nil => rfl
    | cons item items ih => simp [List.zipIdx_cons, ih]
  cases items with
  | nil => rfl
  | cons item items =>
      rw [List.map_cons, intercalate_cons_flatMap, ← later items 0]
      simp [List.zipIdx_cons]

/-! ## The builders in order -/

theorem buildStringArray_eq (items : List CString) :
    buildStringArray items = (compact (strings items)).render := by
  rw [buildStringArray, intercalate_zipIdx, strings, render_compact_array, List.map_map,
    List.map_congr_left fun item _ => appendString_eq_render item]
  rfl

theorem appendNullable_eq (text : Option CString) :
    appendNullable text = (compact (nullable text)).render := appendString_eq_render _

theorem infoMembers_eq (info : EngineInfo) : infoMembers info = membersText info.json := by
  simp [infoMembers, EngineInfo.json, membersText, appendNullable_eq, appendString_eq_render,
    appendInt_eq_render]

theorem modeMembers_eq (classKey idKey labelKey iconKey : CString) (mode : EngineMode) :
    modeMembers classKey idKey labelKey iconKey mode =
      membersText (mode.json classKey idKey labelKey iconKey) := by
  simp [modeMembers, EngineMode.json, membersText, appendNullable_eq, appendString_eq_render]

theorem displayNameMembers_eq (view : View) (first : Bool) (engines : List CString) :
    displayNameMembers view first engines =
      let members := (labels view engines).map fun (name, display) =>
        appendMember name (appendString display)
      if first then [comma].intercalate members else members.flatMap (comma :: ·) := by
  induction engines generalizing first with
  | nil => cases first <;> rfl
  | cons name later ih =>
      rw [displayNameMembers]
      by_cases unlabelled : engineLabelFromInfo (view.info name) = []
      · simp only [unlabelled, if_true, ih]
        simp [labels, unlabelled]
      · simp only [unlabelled, if_false, ih]
        cases first <;> simp [labels, unlabelled, intercalate_cons_flatMap]

theorem buildEngineDisplayNames_eq (view : View) :
    buildEngineDisplayNames view = (compact (Property.engineDisplayNames.json view)).render := by
  rw [buildEngineDisplayNames, displayNameMembers_eq, Property.json, render_object]
  simp [membersText, appendString_eq_render, Function.comp_def]

theorem buildRuntimeState_eq (view : View) :
    buildRuntimeState view = (compact (Property.runtimeState.json view)).render := by
  rw [Property.json, render_object]
  unfold buildRuntimeState membersText RuntimeState.json
  simp only [appendNullable_eq, appendBool_eq_render, appendInt_eq_render, List.map_cons,
    List.map_nil, List.intercalate_cons_cons, List.intercalate_singleton, List.append_assoc,
    List.cons_append]

theorem buildActiveEngineMode_eq (view : View) :
    buildActiveEngineMode view = (compact (Property.activeEngineMode.json view)).render := by
  rw [buildActiveEngineMode, Property.json, render_object]
  cases view.lastMode <;> simp [modeMembers_eq, membersText]

/-! ## The state of the active engine -/

theorem run_membersText {place : Place} (awaits : place.Awaits) {members : List (CString × Json)}
    (nonempty : members ≠ []) : place.run (membersText members) = .done := by
  let texts := members.map fun (name, value) => (name, (compact value).render)
  have ended : ∀ each ∈ texts, Place.ready.run each.2 = .done := by
    intro each listed
    obtain ⟨source, -, rfl⟩ := List.mem_map.mp listed
    exact Place.run_render _ (.inl rfl)
  have run := Place.run_members awaits (by simpa [texts] using nonempty) fun each listed =>
    .inl (ended each listed)
  rw [if_pos ended] at run
  rw [← run]
  simp [membersText, appendMember_eq, texts, Function.comp_def]

/-- A member has no place where a value has ended. -/
theorem run_done_appendMember (name value : CString) :
    Place.done.run (appendMember name value) = .astray := by
  rw [appendMember_eq, Place.memberText, renderString, List.cons_append, List.cons_append,
    Place.run_cons]
  exact Place.run_astray _

theorem buildActiveEngineState_eq {view : View} (separated : StateSeparated view) :
    buildActiveEngineState view = (compact (Property.activeEngineState.json view)).render := by
  rw [Property.json, render_object]
  cases found : view.activeKeyboard with
  | none =>
      cases mode : view.lastMode <;>
        simp [buildActiveEngineState, activeEngineState, found, mode, engineName, modeMembers_eq,
          membersText]
  | some engine =>
      obtain ⟨noInfo, noPath, noMode⟩ := separated engine found
      obtain ⟨info, active, path⟩ := engine
      obtain rfl : info = none := noInfo
      obtain rfl | rfl : path = none ∨ path = some [] := by cases path <;> simp_all
      all_goals
        simp [buildActiveEngineState, activeEngineState, found, engineName, noMode, membersText,
          appendBool_eq_render]

theorem buildActiveEngineState_astray {view : View} (joined : ¬ StateSeparated view) :
    Place.ready.run (buildActiveEngineState view) = .astray := by
  simp only [StateSeparated, not_forall] at joined
  obtain ⟨engine, found, joined⟩ := joined
  have found : view.activeKeyboard = some engine := found
  have active : Place.opened.run (appendMember (ascii "active") (appendBool engine.active)) =
      .done := by
    have run := @run_membersText .opened (.inr rfl) [(ascii "active", Json.bool engine.active)]
      (by simp)
    rw [appendBool_eq_render, ← run]
    simp [membersText]
  simp only [buildActiveEngineState, found, Option.bind_some, ite_true, List.nil_append,
    List.cons_append, Place.run_cons, Place.run_append,
    show Place.ready.step leftBrace = .opened from rfl]
  cases shown : engine.info with
  | some info =>
      dsimp only
      rw [infoMembers_eq, run_membersText (.inr rfl) (by simp [EngineInfo.json]),
        run_done_appendMember]
      simp
  | none =>
      simp only [Place.run_nil, active]
      have ended (noPath : engine.configPath.getD [] = []) : ∃ mode, view.lastMode = some mode ∧
          Place.done.run (modeMembers (ascii "mode_class") (ascii "mode_id")
            (ascii "mode_display_label") (ascii "mode_icon") mode) = .astray := by
        obtain ⟨mode, hasMode⟩ := Option.ne_none_iff_exists'.mp fun noMode =>
          joined ⟨shown, noPath, noMode⟩
        refine ⟨mode, hasMode, ?_⟩
        simp only [modeMembers, List.append_assoc, Place.run_append, run_done_appendMember,
          Place.run_astray]
      rcases path : engine.configPath with _ | _ | ⟨byte, rest⟩
      · obtain ⟨mode, hasMode, starts⟩ := ended (by simp [path])
        simp [hasMode, starts]
      · obtain ⟨mode, hasMode, starts⟩ := ended (by simp [path])
        simp [hasMode, starts]
      · simp [run_done_appendMember]

/-! ## The configured order -/

theorem buildEngineOrder_later (items : List (Option CString)) (i : Nat) :
    ((items.zipIdx (i + 1)).flatMap fun (name, i) =>
      match name with
      | none => []
      | some name => (if 0 < i then [comma] else []) ++ appendString name) =
    ((items.filterMap id).map appendString).flatMap (comma :: ·) := by
  induction items generalizing i with
  | nil => rfl
  | cons item items ih => cases item <;> simp [List.zipIdx_cons, ih]

theorem buildEngineOrder_cons {view : View} {item : Option CString} {later : List (Option CString)}
    (order : view.engineOrder = item :: later) :
    buildEngineOrder view = leftBracket :: ((item.map appendString).getD [] ++
      ((later.filterMap id).map appendString).flatMap (comma :: ·)) ++ [rightBracket] := by
  rw [← buildEngineOrder_later later 0]
  rw [buildEngineOrder, order, List.zipIdx_cons]
  cases item <;> rfl

theorem buildEngineOrder_eq {view : View} (separated : OrderSeparated view) :
    buildEngineOrder view = (compact (Property.engineOrder.json view)).render := by
  have text : buildEngineOrder view = buildStringArray (view.engineOrder.filterMap id) := by
    rw [buildStringArray, intercalate_zipIdx]
    cases order : view.engineOrder with
    | nil => simp [buildEngineOrder, order]
    | cons item later =>
        rw [buildEngineOrder_cons order]
        cases item with
        | some name => simp [intercalate_cons_flatMap]
        | none =>
            have noName : ∀ item ∈ later, item = none := by
              have all := separated (by rw [order]; rfl)
              rw [order] at all
              exact fun item listed => all item (by simp [listed])
            simp [List.filterMap_eq_nil_iff.mpr noName]
  rw [text, buildStringArray_eq]
  rfl

/-- A string after a skipped first item comes with a comma in front. -/
theorem buildEngineOrder_astray {view : View} (joined : ¬ OrderSeparated view) :
    Place.ready.run (buildEngineOrder view) = .astray := by
  simp only [OrderSeparated, Classical.not_imp, not_forall] at joined
  obtain ⟨skipped, item, listed, isName⟩ := joined
  cases order : view.engineOrder with
  | nil => simp [order] at skipped
  | cons first later =>
      obtain rfl : first = none := by simpa [order] using skipped
      obtain ⟨name, rfl⟩ := Option.ne_none_iff_exists'.mp isName
      have named : name ∈ later.filterMap id := by simpa [order] using listed
      obtain ⟨before, rest, split⟩ := List.exists_cons_of_ne_nil (List.ne_nil_of_mem named)
      rw [buildEngineOrder_cons order, split]
      exact Place.run_astray _

/-! ## Every property -/

theorem build_eq {view : View} {property : Property} (separated : property.Separated view) :
    property.build view = (compact (property.json view)).render := by
  cases property with
  | version => exact appendString_eq_render _
  | activeKeyboardEngine | activeEngine | activeVoiceEngine | rimeSchema | configText =>
      exact appendNullable_eq _
  | availableKeyboardEngines | availableEngines | orderedKeyboardEngines | orderedEngines
    | availableVoiceEngines => exact buildStringArray_eq _
  | engineDisplayNames => exact buildEngineDisplayNames_eq view
  | engineOrder => exact buildEngineOrder_eq separated
  | activeEngineState => exact buildActiveEngineState_eq separated
  | activeEngineMode => exact buildActiveEngineMode_eq view
  | runtimeState => exact buildRuntimeState_eq view

theorem build_astray {view : View} {property : Property} (joined : ¬ property.Separated view) :
    Place.ready.run (property.build view) = .astray := by
  cases property with
  | engineOrder => exact buildEngineOrder_astray joined
  | activeEngineState => exact buildActiveEngineState_astray joined
  | _ => exact absurd trivial joined

theorem dispatchProperty_name (view : View) (property : Property) :
    dispatchProperty view property.name = some (property.build view) := by
  cases property <;> rfl

/-- The text of `GetAll` is made of the members of the table. -/
theorem getAllJson_eq (view : View) :
    getAllJson view = leftBrace :: [comma].intercalate (Property.table.map fun property =>
      Place.memberText (property.name, property.build view)) ++ [rightBrace] := by
  have separated := intercalate_zipIdx Property.table fun property =>
    appendMember property.name ((dispatchProperty view property.name).getD appendNull)
  refine (congrArg (fun text => leftBrace :: text ++ [rightBrace]) separated).trans ?_
  simp only [dispatchProperty_name, Option.getD_some, appendMember_eq]

theorem mem_table (property : Property) : property ∈ Property.table := by
  cases property <;> decide

theorem getAllJson_eq_render {view : View}
    (separated : ∀ property : Property, property.Separated view) :
    getAllJson view = (compact (allJson view)).render := by
  rw [getAllJson_eq, allJson, render_object]
  simp only [membersText, List.map_map, Function.comp_def, appendMember_eq,
    fun property => build_eq (separated property)]

theorem build_decided (view : View) (property : Property) :
    Place.ready.run (property.build view) = .done ∨
      Place.ready.run (property.build view) = .astray := by
  by_cases separated : property.Separated view
  · rw [build_eq separated]
    exact .inl (Place.run_render _ (.inl rfl))
  · exact .inr (build_astray separated)

theorem getAllJson_astray {view : View} {property : Property}
    (joined : ¬ property.Separated view) : Place.ready.run (getAllJson view) = .astray := by
  let members := Property.table.map fun property => (property.name, property.build view)
  have run := @Place.run_members .opened (.inr rfl) members
    (List.cons_ne_nil _ _) fun each listed => by
      obtain ⟨property, -, rfl⟩ := List.mem_map.mp listed
      exact build_decided view property
  rw [if_neg fun all => by
    have isDone := all (property.name, property.build view)
      (List.mem_map_of_mem (mem_table property))
    simp [build_astray joined] at isDone] at run
  have text : Property.table.map (fun property =>
      Place.memberText (property.name, property.build view)) = members.map Place.memberText := by
    simp [members]
  rw [getAllJson_eq, text, List.cons_append, Place.run_cons, Place.run_append,
    show Place.ready.step leftBrace = .opened from rfl, run]
  rfl

theorem denotes_compact (json : Json) : Denotes (compact json).render json := by
  have denotes := denotes_render (compact json)
  rwa [value_compact] at denotes

theorem not_denotes_of_astray {text : CString} (run : Place.ready.run text = .astray)
    (json : Json) : ¬ Denotes text json := fun denotes => by
  rw [Place.run_of_denotes denotes] at run
  simp at run

theorem build_denotes_iff (view : View) (property : Property) :
    Denotes (property.build view) (property.json view) ↔ property.Separated view := by
  constructor
  · intro denotes
    by_contra joined
    exact not_denotes_of_astray (build_astray joined) _ denotes
  · intro separated
    rw [build_eq separated]
    exact denotes_compact _

theorem properties_separated_iff {view : View} :
    (∀ property : Property, property.Separated view) ↔ StateSeparated view ∧ OrderSeparated view := by
  constructor
  · exact fun each => ⟨each .activeEngineState, each .engineOrder⟩
  · rintro ⟨state, order⟩ property
    cases property with
    | activeEngineState => exact state
    | engineOrder => exact order
    | _ => trivial

/-- Every property and `GetAll` are well formed and denote what they list exactly when no group of
`ActiveEngineState` follows another one and no string of `engine_order` follows a skipped head. -/
theorem properties_denote_iff (view : View) :
    ((∀ property : Property, Denotes (property.build view) (property.json view)) ∧
      Denotes (getAllJson view) (allJson view)) ↔ StateSeparated view ∧ OrderSeparated view := by
  rw [← properties_separated_iff]
  simp only [build_denotes_iff]
  refine and_iff_left_of_imp fun separated => ?_
  rw [getAllJson_eq_render separated]
  exact denotes_compact _

/-- An instance whose keyboard engine is `rime`, with a number first in `engine_order`. -/
def rimeView : View :=
  let info : EngineInfo :=
    { name := some (ascii "rime"), displayName := none, icon := none, language := none
      voice := false, capabilities := 1 }
  { (default : View) with
    activeKeyboard := some { info := some info, active := true, configPath := none }
    engineOrder := [none, some (ascii "rime")] }

/-- No comma stands between the groups of `ActiveEngineState`, and one too many in
`EngineOrder`. -/
theorem rimeView_malformed :
    (¬ ∃ json, Denotes (buildActiveEngineState rimeView) json) ∧
      (¬ ∃ json, Denotes (buildEngineOrder rimeView) json) ∧
      ¬ ∃ json, Denotes (getAllJson rimeView) json := by
  have state : ¬ StateSeparated rimeView := fun separated => by
    have noInfo := (separated _ rfl).1
    simp at noInfo
  have order : ¬ OrderSeparated rimeView := fun separated => by
    have noName := separated rfl (some (ascii "rime")) (by simp [rimeView])
    simp at noName
  exact ⟨fun ⟨json, denotes⟩ =>
      not_denotes_of_astray (buildActiveEngineState_astray state) json denotes,
    fun ⟨json, denotes⟩ => not_denotes_of_astray (buildEngineOrder_astray order) json denotes,
    fun ⟨json, denotes⟩ =>
      not_denotes_of_astray (@getAllJson_astray _ .activeEngineState state) json denotes⟩

end Status

end Typio
