import Typio.Control.ConfigForm

/-!
# What an edit of the form leaves alone

Everything in the form is written back with every edit.  So a key which was not edited keeps its
value exactly if the value survives its own widget.
-/

namespace Typio

namespace Control

open StrSlice Config

variable {Float : Type}

/-! ## Items which are saved one after the other -/

section Saves

variable {Item : Type} {save : Entries Float → Item → Entries Float} {keyOf : Item → Str}
  {written : Item → Option (ConfigValue Float)}
  (saves : ∀ config item key, get (save config item) key =
    if keyOf item = key then (written item).or (get config key) else get config key)

include saves

theorem get_foldl_of_not_mem {items : List Item} {key : Str} (absent : key ∉ items.map keyOf)
    (config : Entries Float) : get (items.foldl save config) key = get config key := by
  induction items generalizing config with
  | nil => rfl
  | cons item items induction =>
      rw [List.map_cons, List.mem_cons, not_or] at absent
      rw [List.foldl_cons, induction absent.2, saves, if_neg (Ne.symm absent.1)]

/-- Each of the items is saved under its own key. -/
theorem get_foldl_of_mem {items : List Item} (distinct : (items.map keyOf).Nodup) {item : Item}
    (member : item ∈ items) (config : Entries Float) :
    get (items.foldl save config) (keyOf item) =
      (written item).or (get config (keyOf item)) := by
  induction items generalizing config with
  | nil => cases member
  | cons other items induction =>
      obtain ⟨absent, rest⟩ := List.nodup_cons.mp distinct
      rw [List.foldl_cons]
      obtain rfl | later := List.mem_cons.mp member
      · rw [get_foldl_of_not_mem saves absent, saves, if_pos rfl]
      · have differs : keyOf other ≠ keyOf item := fun same =>
          absent (same ▸ List.mem_map_of_mem later)
        rw [induction rest later, saves, if_neg differs]

end Saves

/-! ## What each part of the form saves -/

theorem get_apply (call : SetCall) (config : Entries Float) (key : Str) :
    get (call.apply config) key = if call.key = key then some call.value else get config key :=
  get_insert _ _ _ _

/-- The value which the binding saves. -/
def ControlBinding.written (binding : ControlBinding) : Option (ConfigValue Float) :=
  match binding.field.type, binding.widget with
  | .bool _, .switch active => some (.bool active)
  | .int _ _ _, .spinButton value => some (.int value)
  | .choice _, .dropDown selected => selected.map .string
  | .string _, .entry text => some (.string text)
  | _, _ => none

theorem get_controlBindingSave (config : Entries Float) (binding : ControlBinding) (key : Str) :
    get (controlBindingSave config binding) key =
      if binding.field.key = key then binding.written.or (get config key) else get config key := by
  rw [controlBindingSave.eq_def, ControlBinding.written.eq_def]
  cases binding.field.type <;> rcases binding.widget with _ | _ | (_ | _) | _
  all_goals
    first
    | exact get_apply _ config key
    | exact (ite_self _).symm

/-- The string which is saved, if it is not empty. -/
def written (value : Option CString) : Option (ConfigValue Float) :=
  (value.filter (· ≠ .utf8 [])).map .string

theorem get_setNonEmpty (config : Entries Float) (key : Str) (value : Option CString)
    (other : Str) : get (setNonEmpty config key value) other =
      if key = other then (written value).or (get config other) else get config other := by
  rw [setNonEmpty, written]
  cases value.filter (· ≠ .utf8 []) with
  | none => exact (ite_self _).symm
  | some text => exact get_apply _ config other

theorem get_controlSaveShortcut (label : Shortcut → Option CString) (config : Entries Float)
    (shortcut : Shortcut) (key : Str) : get (controlSaveShortcut label config shortcut) key =
      if shortcut.key = key then (written (label shortcut)).or (get config key)
      else get config key :=
  get_setNonEmpty config shortcut.key _ key

theorem get_controlSaveEngineOrder (names : List CString) (config : Entries Float) (key : Str) :
    get (controlSaveEngineOrder names config) key =
      if engineOrderKey = key then if names = [] then none else some (.array (names.map .string))
      else get config key := by
  rw [controlSaveEngineOrder]
  split
  next empty => exact get_remove _ _ _
  next some_names =>
    rw [get_apply]
    simp only [SetCall.key, SetCall.value, List.map_map, Function.comp_def, SetCall.ownedString,
      Option.getD_some]

/-- Saving the string that is there already changes nothing. -/
theorem written_or {value : ConfigValue Float} {saved : Option CString}
    (same : ∀ text, saved = some text → text = .utf8 [] ∨ value = .string text) :
    (written saved).or (some value) = some value := by
  cases saved with
  | none => rfl
  | some text =>
      rw [written]
      by_cases empty : text = .utf8 []
      · rw [Option.filter_some_neg (by simpa using empty)]
        rfl
      · rw [Option.filter_some_pos (by simpa using empty), (same text rfl).resolve_left empty]
        rfl

/-! ## What a widget shows -/

/-- The widget of the field shows the value as it is. -/
def FieldType.Shows : FieldType → ConfigValue Float → Prop
  | .bool _, .bool _ => True
  | .int _ uiMin uiMax, .int value =>
      ¬ value < (spinRange uiMin uiMax).1 ∧ ¬ (spinRange uiMin uiMax).2 < value
  | .choice _, .string _ => True
  | .string _, .string _ => True
  | _, _ => False

theorem clamp_eq_iff {range : Int32 × Int32} {value : Int32} :
    clamp range value = value ↔ ¬ value < range.1 ∧ ¬ range.2 < value := by
  rw [clamp]
  split
  next below =>
    refine iff_of_false (fun same => ?_) fun inside => inside.1 below
    rw [same] at below
    exact Int32.lt_irrefl below
  next not_below =>
    split
    next above =>
      refine iff_of_false (fun same => ?_) fun inside => inside.2 above
      rw [same] at above
      exact Int32.lt_irrefl above
    next not_above => exact iff_of_true rfl ⟨not_below, not_above⟩

theorem selectOption_default (choice : Options) :
    selectOption choice.options (some (.utf8 choice.default)) = some (.utf8 choice.default) :=
  Option.filter_some_pos (decide_eq_true (.inl (List.mem_map_of_mem choice.offered)))

theorem selectOption_cases (options : List Str) (text : CString) :
    selectOption options (some text) = none ∨ selectOption options (some text) = some text := by
  rw [selectOption]
  by_cases shown : text ∈ options.map .utf8 ∨ text ≠ .utf8 []
  · exact .inr (Option.filter_some_pos (decide_eq_true shown))
  · exact .inl (Option.filter_some_neg (by simpa using shown))

/-- A field which is loaded and saved keeps its value exactly if its widget shows it. -/
theorem written_load_iff (truncate : Float → Int32) {config : Entries Float}
    {field : TypioConfigField} {value : ConfigValue Float}
    (there : get config field.key = some value) :
    (controlBindingLoad truncate config field).written.or (get config field.key) = some value ↔
      field.type.Shows value := by
  obtain ⟨key, type⟩ := field
  rw [there]
  cases type with
  | bool default =>
      simp only [ControlBinding.written, controlBindingLoad, getBool, there, Option.or_some]
      cases value <;> simp [FieldType.Shows]
  | int default uiMin uiMax =>
      simp only [ControlBinding.written, controlBindingLoad, getInt, there]
      cases value <;> simp [FieldType.Shows, clamp_eq_iff]
  | string default =>
      simp only [ControlBinding.written, controlBindingLoad, getString, there]
      cases value <;> simp [FieldType.Shows]
  | choice choice =>
      simp only [ControlBinding.written, controlBindingLoad, getString, there]
      cases value with
      | string text =>
          refine iff_of_true ?_ trivial
          obtain none | some := selectOption_cases choice.options text
          · rw [none]
            rfl
          · rw [some]
            rfl
      | _ =>
          rw [selectOption_default]
          exact iff_of_false nofun not_false

/-! ## The engine order -/

/-- The names can be an order: they differ, and each is a name which the panel lets through. -/
structure Orderable (engineIds names : List CString) : Prop where
  distinct : names.Nodup
  some_text : ∀ name ∈ names, name ≠ .utf8 []
  known : engineIds ≠ [] → ∀ name ∈ names, name ∈ engineIds

theorem Orderable.controlLoadEngineName {engineIds model : List CString}
    (orderable : Orderable engineIds model) (name : Option CString) :
    Orderable engineIds (controlLoadEngineName engineIds model name) := by
  rw [Control.controlLoadEngineName]
  split
  next unknown => exact orderable
  next known =>
    cases name with
    | none => exact orderable
    | some name =>
        rw [controlAppendUniqueString]
        split
        next ignored => exact orderable
        next fresh =>
          rw [not_or] at fresh
          refine ⟨?_, ?_, fun restricted => ?_⟩
          · exact orderable.distinct.append (List.nodup_singleton name)
              (List.disjoint_singleton.mpr fresh.2)
          · exact List.forall_mem_append.mpr
              ⟨orderable.some_text, List.forall_mem_singleton.mpr fresh.1⟩
          · refine List.forall_mem_append.mpr
              ⟨orderable.known restricted, List.forall_mem_singleton.mpr ?_⟩
            by_contra missing
            exact known ⟨restricted, by simpa using missing⟩

theorem orderable_controlLoadEngineOrder (engineIds : List CString) (config : Entries Float) :
    Orderable engineIds (controlLoadEngineOrder engineIds config) := by
  rw [controlLoadEngineOrder]
  have step (names : List (Option CString)) {model : List CString}
      (orderable : Orderable engineIds model) :
      Orderable engineIds (names.foldl (controlLoadEngineName engineIds) model) := by
    induction names generalizing model with
    | nil => exact orderable
    | cons name names induction => exact induction (orderable.controlLoadEngineName name)
  exact step _ ⟨List.nodup_nil, nofun, nofun⟩

/-- Names which can be an order are loaded as they are. -/
theorem foldl_controlLoadEngineName {engineIds names model : List CString}
    (orderable : Orderable engineIds (model ++ names)) :
    (names.map some).foldl (controlLoadEngineName engineIds) model = model ++ names := by
  induction names generalizing model with
  | nil => rw [List.append_nil, List.map_nil, List.foldl_nil]
  | cons name names induction =>
      have member : name ∈ model ++ name :: names :=
        List.mem_append_right model (List.mem_cons_self)
      have fresh : name ∉ model := fun earlier =>
        (List.nodup_append'.mp orderable.distinct).2.2 earlier List.mem_cons_self
      have taken : controlLoadEngineName engineIds model (some name) = model ++ [name] := by
        rw [controlLoadEngineName, if_neg, controlAppendUniqueString, if_neg]
        · exact not_or.mpr ⟨orderable.some_text name member, fresh⟩
        · rintro ⟨restricted, missing⟩
          exact missing (List.mem_map_of_mem (orderable.known restricted name member))
      rw [List.append_cons] at orderable ⊢
      rw [List.map_cons, List.foldl_cons, taken, induction orderable]

theorem getArrayStrings_array {config : Entries Float} {key : Str} {names : List CString}
    (there : get config key = some (.array (names.map .string))) :
    getArrayStrings config key = names.map some := by
  rw [getArrayStrings, there]
  simp

/-- A value under the key of the engine order that the form shows as it is. -/
def IsOrder (engineIds : List CString) (value : ConfigValue Float) : Prop :=
  ∃ names, Orderable engineIds names ∧ names ≠ [] ∧ value = .array (names.map .string)

theorem saved_order_iff {engineIds : List CString} {config : Entries Float}
    {value : ConfigValue Float} (there : get config engineOrderKey = some value) :
    get (controlSaveEngineOrder (controlLoadEngineOrder engineIds config) config) engineOrderKey =
      some value ↔ IsOrder engineIds value := by
  rw [get_controlSaveEngineOrder, if_pos rfl]
  constructor
  · intro kept
    split at kept
    next empty => cases kept
    next some_names =>
      exact ⟨_, orderable_controlLoadEngineOrder engineIds config, some_names,
        (Option.some.inj kept).symm⟩
  · rintro ⟨names, orderable, some_names, rfl⟩
    have loaded : controlLoadEngineOrder engineIds config = names := by
      rw [controlLoadEngineOrder, getArrayStrings_array there]
      exact foldl_controlLoadEngineName (List.nil_append names ▸ orderable)
    rw [loaded, if_neg some_names]

/-! ## The keys of the form -/

def boundKeys : List Str := boundFields.map TypioConfigField.key

def voiceKeys : List Str :=
  [voiceBackendKey, VoiceBackend.whisper.modelKey, VoiceBackend.sherpaOnnx.modelKey]

def shortcutKeys : List Str := Shortcut.all.map Shortcut.key

/-- No two parts of the form have a key in common. -/
theorem formKeys_distinct :
    (boundKeys ++ (engineOrderKey :: (voiceKeys ++ shortcutKeys))).Nodup := by
  decide +kernel

theorem boundKeys_apart {key : Str} (bound : key ∈ boundKeys) :
    engineOrderKey ≠ key ∧ key ∉ voiceKeys ∧ key ∉ shortcutKeys := by
  have apart : key ∉ engineOrderKey :: (voiceKeys ++ shortcutKeys) :=
    List.disjoint_of_nodup_append formKeys_distinct bound
  rw [List.mem_cons, List.mem_append, not_or, not_or] at apart
  exact ⟨Ne.symm apart.1, apart.2.1, apart.2.2⟩

theorem engineOrderKey_apart : engineOrderKey ∉ voiceKeys ∧ engineOrderKey ∉ shortcutKeys := by
  have rest := (List.nodup_append'.mp formKeys_distinct).2.1
  have apart := (List.nodup_cons.mp rest).1
  rwa [List.mem_append, not_or] at apart

theorem modelKey_mem_voiceKeys (backend : VoiceBackend) : backend.modelKey ∈ voiceKeys := by
  cases backend with
  | whisper => exact List.mem_cons_of_mem _ List.mem_cons_self
  | sherpaOnnx => exact List.mem_cons_of_mem _ (List.mem_cons_of_mem _ List.mem_cons_self)

theorem mem_all (shortcut : Shortcut) : shortcut ∈ Shortcut.all := by
  cases shortcut <;> decide

theorem shortcutKeys_distinct : shortcutKeys.Nodup :=
  (List.nodup_append'.mp (List.nodup_cons.mp
    (List.nodup_append'.mp formKeys_distinct).2.1).2).2.1

/-! ## Saving the form -/

theorem get_controlSaveVoice_of_not_mem {key : Str} (other : key ∉ voiceKeys)
    (backend : Option VoiceBackend) (model : Option CString) (config : Entries Float) :
    get (controlSaveVoice backend model config) key = get config key := by
  rw [controlSaveVoice.eq_def]
  cases backend with
  | none => rfl
  | some backend =>
      have not_model : backend.modelKey ≠ key := fun same =>
        other (same ▸ modelKey_mem_voiceKeys backend)
      have not_backend : voiceBackendKey ≠ key := fun same => other (same ▸ List.mem_cons_self)
      simp only [get_setNonEmpty, if_neg not_model, if_neg not_backend]

section Form

variable (form : Form) (config : Entries Float)

theorem get_saveForm_of_not_shortcut {key : Str} (other : key ∉ shortcutKeys) :
    get (saveForm form config) key =
      get (controlSaveVoice form.voiceBackend form.voiceModel
        (controlSaveEngineOrder form.engineOrder
          (form.bindings.foldl controlBindingSave config))) key :=
  get_foldl_of_not_mem (get_controlSaveShortcut form.label) other _

theorem get_saveForm_bound {key : Str} (bound : key ∈ boundKeys) :
    get (saveForm form config) key =
      get (form.bindings.foldl controlBindingSave config) key := by
  obtain ⟨not_order, not_voice, not_shortcut⟩ := boundKeys_apart bound
  rw [get_saveForm_of_not_shortcut form config not_shortcut,
    get_controlSaveVoice_of_not_mem not_voice, get_controlSaveEngineOrder, if_neg not_order]

theorem get_saveForm_order :
    get (saveForm form config) engineOrderKey =
      get (controlSaveEngineOrder form.engineOrder config) engineOrderKey := by
  rw [get_saveForm_of_not_shortcut form config engineOrderKey_apart.2,
    get_controlSaveVoice_of_not_mem engineOrderKey_apart.1, get_controlSaveEngineOrder,
    get_controlSaveEngineOrder, if_pos rfl, if_pos rfl]

/-- Before the shortcuts are saved, a key that no part of the form has is as it was. -/
theorem get_saveOrder_of_not_mem (same_fields : form.bindings.map (·.field) = boundFields)
    {key : Str} (not_bound : key ∉ boundKeys) (not_order : engineOrderKey ≠ key) :
    get (controlSaveEngineOrder form.engineOrder
      (form.bindings.foldl controlBindingSave config)) key = get config key := by
  rw [get_controlSaveEngineOrder, if_neg not_order]
  refine get_foldl_of_not_mem get_controlBindingSave ?_ config
  rw [boundKeys, ← same_fields, List.map_map] at not_bound
  exact not_bound

theorem get_saveForm_shortcut (same_fields : form.bindings.map (·.field) = boundFields)
    (shortcut : Shortcut) : get (saveForm form config) shortcut.key =
      (written (form.label shortcut)).or (get config shortcut.key) := by
  have member : shortcut.key ∈ shortcutKeys := List.mem_map_of_mem (mem_all shortcut)
  have not_bound : shortcut.key ∉ boundKeys := fun bound => (boundKeys_apart bound).2.2 member
  have not_order : engineOrderKey ≠ shortcut.key := fun same =>
    engineOrderKey_apart.2 (same ▸ member)
  have not_voice : shortcut.key ∉ voiceKeys := by
    have rest := (List.nodup_cons.mp (List.nodup_append'.mp formKeys_distinct).2.1).2
    exact fun voice => List.disjoint_of_nodup_append rest voice member
  rw [saveForm, get_foldl_of_mem (get_controlSaveShortcut form.label) shortcutKeys_distinct
    (mem_all shortcut), get_controlSaveVoice_of_not_mem not_voice,
    get_saveOrder_of_not_mem form config same_fields not_bound not_order]

end Form

/-! ## Editing the form -/

theorem set_field (binding : ControlBinding) (widget : Widget) :
    (binding.set widget).field = binding.field := by
  rw [ControlBinding.set.eq_def]
  split <;> rfl

section Edit

variable (lists : FormLists) (config : Entries Float) (form : Form) (edit : FormEdit)

theorem apply_fields :
    (edit.apply lists config form).bindings.map (·.field) = form.bindings.map (·.field) := by
  cases edit with
  | field key widget =>
      rw [FormEdit.apply, List.map_map]
      refine List.map_congr_left fun binding _ => ?_
      rw [Function.comp_apply]
      split
      next edited => exact set_field binding widget
      next other => rfl
  | _ => rfl

variable {form edit}

theorem apply_binding {binding : ControlBinding} (member : binding ∈ form.bindings)
    (unedited : edit.key form ≠ some binding.field.key) :
    binding ∈ (edit.apply lists config form).bindings := by
  cases edit with
  | field key widget =>
      have other : binding.field.key ≠ key := fun same => unedited (congrArg some same.symm)
      exact List.mem_map.mpr ⟨binding, member, if_neg other⟩
  | _ => exact member

theorem apply_engineOrder (unedited : edit.key form ≠ some engineOrderKey) :
    (edit.apply lists config form).engineOrder = form.engineOrder := by
  cases edit with
  | engineOrder names => exact absurd rfl unedited
  | _ => rfl

theorem apply_voiceBackend (unedited : edit.key form ≠ some voiceBackendKey) :
    (edit.apply lists config form).voiceBackend = form.voiceBackend := by
  cases edit with
  | voiceBackend backend => exact absurd rfl unedited
  | _ => rfl

/-- The voice model is the configured one of the backend, unless it was edited. -/
theorem apply_voiceModel
    (selected : form.voiceModel = controlSelectVoiceModel lists config form.voiceBackend)
    {backend : VoiceBackend}
    (there : (edit.apply lists config form).voiceBackend = some backend)
    (unedited : edit.key form ≠ some backend.modelKey) :
    (edit.apply lists config form).voiceModel =
      controlSelectVoiceModel lists config (some backend) := by
  rw [← there]
  cases edit with
  | voiceModel model => exact absurd (congrArg (Option.map VoiceBackend.modelKey) there) unedited
  | voiceBackend backend => rfl
  | _ => exact selected

theorem apply_label {shortcut : Shortcut} (unedited : edit.key form ≠ some shortcut.key) :
    (edit.apply lists config form).label shortcut = form.label shortcut := by
  cases edit with
  | shortcut edited label =>
      have other : shortcut ≠ edited := fun same =>
        unedited (congrArg (some ∘ Shortcut.key) same.symm)
      exact if_neg other
  | _ => rfl

end Edit

/-! ## What is kept -/

theorem controlLoadVoiceBackend_some {lists : FormLists} {config : Entries Float}
    {backend : VoiceBackend} (loaded : controlLoadVoiceBackend lists config = some backend) :
    get config voiceBackendKey = some (.string (.utf8 backend.name)) := by
  rw [controlLoadVoiceBackend, getString] at loaded
  split at loaded
  next none => cases loaded
  next text configured =>
    split at loaded
    next empty => cases loaded
    next nonempty =>
      have same : text = .utf8 backend.name := by
        simpa using List.find?_some loaded
      rw [← same]
      split at configured
      next string there => rw [there, Option.some.inj configured]
      next other => cases configured

theorem controlSelectVoiceModel_some {lists : FormLists} {config : Entries Float}
    {backend : VoiceBackend} {value : ConfigValue Float}
    (there : get config backend.modelKey = some value) {text : CString}
    (selected : controlSelectVoiceModel lists config (some backend) = some text) :
    text = .utf8 [] ∨ value = .string text := by
  rw [controlSelectVoiceModel, getString, there] at selected
  obtain ⟨configured, -⟩ := Option.filter_eq_some_iff.mp selected
  split at configured
  next string found =>
    rw [Option.some.inj found, Option.some.inj configured]
    exact .inr rfl
  next other => exact .inl (Option.some.inj configured).symm

/-- The form shows the value under the key as it is. -/
structure Representable (engineIds : List CString) (key : Str) (value : ConfigValue Float) :
    Prop where
  field : ∀ field ∈ boundFields, field.key = key → field.type.Shows value
  order : key = engineOrderKey → IsOrder engineIds value
  shortcut : ∀ shortcut : Shortcut, shortcut.key = key → ∃ text, value = .string text

section Kept

variable (truncate : Float → Int32) (lists : FormLists) {config : Entries Float} {edit : FormEdit}

theorem loadForm_fields : (loadForm truncate lists config).bindings.map (·.field) =
    boundFields := by
  rw [loadForm, List.map_map]
  exact List.map_id _

theorem editForm_fields :
    (edit.apply lists config (loadForm truncate lists config)).bindings.map (·.field) =
      boundFields :=
  (apply_fields lists config _ edit).trans (loadForm_fields truncate lists)

variable {key : Str} {value : ConfigValue Float} (there : get config key = some value)
  (unedited : edit.key (loadForm truncate lists config) ≠ some key)

include there unedited

theorem kept_field {field : TypioConfigField} (member : field ∈ boundFields)
    (same : field.key = key) :
    get (editConfig truncate lists edit config) key = some value ↔ field.type.Shows value := by
  subst same
  have binding : controlBindingLoad truncate config field ∈
      (edit.apply lists config (loadForm truncate lists config)).bindings :=
    apply_binding lists config (List.mem_map_of_mem member) unedited
  have distinct : ((edit.apply lists config (loadForm truncate lists config)).bindings.map
      (·.field.key)).Nodup := by
    have bound : boundKeys.Nodup := (List.nodup_append'.mp formKeys_distinct).1
    rw [boundKeys, ← @editForm_fields _ truncate lists config edit,
      List.map_map] at bound
    exact bound
  rw [editConfig, get_saveForm_bound _ _ (List.mem_map_of_mem member)]
  have saved := get_foldl_of_mem get_controlBindingSave distinct binding config
  rw [← written_load_iff truncate there]
  exact Eq.congr_left saved

theorem kept_order (same : key = engineOrderKey) :
    get (editConfig truncate lists edit config) key = some value ↔
      IsOrder lists.engineIds value := by
  subst same
  rw [editConfig, get_saveForm_order, apply_engineOrder lists config unedited]
  exact saved_order_iff there

theorem kept_shortcut {shortcut : Shortcut} (same : shortcut.key = key) :
    get (editConfig truncate lists edit config) key = some value ↔
      ∃ text, value = .string text := by
  subst same
  rw [editConfig, get_saveForm_shortcut _ _ (editForm_fields truncate lists), there,
    apply_label lists config unedited]
  have label : (loadForm truncate lists config).label shortcut =
      getString config shortcut.key (some (.utf8 shortcut.default)) := rfl
  rw [label, getString, there]
  cases value with
  | string text =>
      refine iff_of_true (written_or fun saved loaded => .inr ?_) ⟨text, rfl⟩
      rw [Option.some.inj loaded]
  | _ =>
      have default : written (some (.utf8 shortcut.default)) =
          some (.string (.utf8 shortcut.default) : ConfigValue Float) := by
        cases shortcut <;> rfl
      simp [default]

/-- The other keys are kept, among them the voice backend and its model. -/
theorem kept_other (not_bound : key ∉ boundKeys) (not_order : engineOrderKey ≠ key)
    (not_shortcut : key ∉ shortcutKeys) :
    get (editConfig truncate lists edit config) key = some value := by
  rw [editConfig, get_saveForm_of_not_shortcut _ _ not_shortcut]
  have before := get_saveOrder_of_not_mem
    (edit.apply lists config (loadForm truncate lists config)) config
    (editForm_fields truncate lists) not_bound not_order
  rw [there] at before
  rw [controlSaveVoice.eq_def]
  split
  next none => exact before
  next backend selected =>
    rw [get_setNonEmpty, get_setNonEmpty, before]
    have backend_kept : (if voiceBackendKey = key then
        (written (some (.utf8 backend.name))).or (some value) else some value) = some value := by
      split
      next same =>
        subst same
        rw [apply_voiceBackend lists config unedited] at selected
        have configured := (controlLoadVoiceBackend_some selected).symm.trans there
        refine written_or fun text saved => .inr ?_
        rw [← Option.some.inj saved, Option.some.inj configured]
      next other => rfl
    rw [backend_kept]
    split
    next same =>
      subst same
      rw [apply_voiceModel lists config rfl selected unedited]
      exact written_or fun text saved => controlSelectVoiceModel_some there saved
    next other => rfl

theorem kept_iff : get (editConfig truncate lists edit config) key = some value ↔
    Representable lists.engineIds key value := by
  constructor
  · intro kept
    refine ⟨fun field member same => ?_, fun same => ?_, fun shortcut same => ?_⟩
    · exact (kept_field truncate lists there unedited member same).mp kept
    · exact (kept_order truncate lists there unedited same).mp kept
    · exact (kept_shortcut truncate lists there unedited same).mp kept
  · intro representable
    by_cases bound : key ∈ boundKeys
    · obtain ⟨field, member, same⟩ := List.mem_map.mp bound
      exact (kept_field truncate lists there unedited member same).mpr
        (representable.field field member same)
    by_cases order : key = engineOrderKey
    · exact (kept_order truncate lists there unedited order).mpr (representable.order order)
    by_cases label : key ∈ shortcutKeys
    · obtain ⟨shortcut, -, same⟩ := List.mem_map.mp label
      exact (kept_shortcut truncate lists there unedited same).mpr
        (representable.shortcut shortcut same)
    exact kept_other truncate lists there unedited bound (Ne.symm order) label

end Kept

/-! ## The text -/

/-- The keys which were not edited have in the second configuration what they have in the first. -/
def KeepsOthers (truncate : Float → Int32) (lists : FormLists) (edit : FormEdit)
    (config after : Entries Float) : Prop :=
  ∀ key value, get config key = some value →
    edit.key (loadForm truncate lists config) ≠ some key → get after key = some value

section Text

variable (toml : Str → Option (TomlValue Float)) (parseF64 : Str → Option Float)
  (floatText : Float → Str) (iterate : Entries Float → Entries Float)
  (truncate : Float → Int32) (lists : FormLists) (edit : FormEdit) (content : Str)

/-- Only what was edited is changed in the configuration which is rendered. -/
def FrameKept : Prop :=
  ∀ config, loadString toml parseF64 (some content) = .ok (some config) →
    KeepsOthers truncate lists edit config (editConfig truncate lists edit config)

/-- Only what was edited is changed in the rendered text, as it is loaded again. -/
def TextFrameKept : Prop :=
  ∀ form, controlSyncFormFromBuffer toml parseF64 truncate lists content = .ok (some form) →
    ∀ config, loadString toml parseF64 (some content) = .ok (some config) →
      ∀ rendered, controlSyncBufferFromForm toml parseF64 floatText iterate
          (edit.apply lists config form) content = .ok rendered →
        ∀ reread, loadString toml parseF64 (some rendered) = .ok (some reread) →
          KeepsOthers truncate lists edit config reread

/-- The text which is rendered after the edit is loaded again as what was rendered. -/
def ReadsBack : Prop :=
  ∀ config, loadString toml parseF64 (some content) = .ok (some config) →
    ∃ reread,
      loadString toml parseF64 (some (configToStringInternal floatText
        (iterate (editConfig truncate lists edit config)))) = .ok (some reread) ∧
      ∀ key, get reread key = get (editConfig truncate lists edit config) key

/-- Each value which is not edited is one that the form shows as it is. -/
def ShowsOthers : Prop :=
  ∀ config, loadString toml parseF64 (some content) = .ok (some config) →
    ∀ key value, get config key = some value →
      edit.key (loadForm truncate lists config) ≠ some key →
      Representable lists.engineIds key value

variable {toml parseF64 floatText iterate truncate lists edit content}

theorem textFrameKept_iff
    (reads_back : ReadsBack toml parseF64 floatText iterate truncate lists edit content) :
    TextFrameKept toml parseF64 floatText iterate truncate lists edit content ↔
      FrameKept toml parseF64 truncate lists edit content := by
  constructor
  · intro kept config loaded key value there unedited
    obtain ⟨reread, read, same⟩ := reads_back config loaded
    rw [← same]
    refine kept (loadForm truncate lists config) ?_ config loaded _ ?_ reread read key value there
      unedited
    · rw [controlSyncFormFromBuffer, loaded]
      rfl
    · rw [controlSyncBufferFromForm, loaded]
      rfl
  · intro kept form filled config loaded rendered saved reread read key value there unedited
    rw [controlSyncFormFromBuffer, loaded] at filled
    obtain rfl : loadForm truncate lists config = form := Option.some.inj (Except.ok.inj filled)
    rw [controlSyncBufferFromForm, loaded] at saved
    obtain rfl := Except.ok.inj saved
    obtain ⟨other, other_read, same⟩ := reads_back config loaded
    obtain rfl : other = reread := Option.some.inj (Except.ok.inj (other_read.symm.trans read))
    rw [same]
    exact kept config loaded key value there unedited

end Text

/-- An edit leaves the other values alone exactly if the form shows each of them as it is; and so it
is for the values of the text, if the text is loaded as it was rendered. -/
theorem frameKept_iff (toml : Str → Option (TomlValue Float)) (parseF64 : Str → Option Float)
    (floatText : Float → Str) (iterate : Entries Float → Entries Float)
    (truncate : Float → Int32) (lists : FormLists) (edit : FormEdit) (content : Str) :
    (FrameKept toml parseF64 truncate lists edit content ↔
      ShowsOthers toml parseF64 truncate lists edit content) ∧
    (ReadsBack toml parseF64 floatText iterate truncate lists edit content →
      (TextFrameKept toml parseF64 floatText iterate truncate lists edit content ↔
        ShowsOthers toml parseF64 truncate lists edit content)) := by
  have frame : FrameKept toml parseF64 truncate lists edit content ↔
      ShowsOthers toml parseF64 truncate lists edit content := by
    constructor
    · intro kept config loaded key value there unedited
      exact (kept_iff truncate lists there unedited).mp
        (kept config loaded key value there unedited)
    · intro shown config loaded key value there unedited
      exact (kept_iff truncate lists there unedited).mpr
        (shown config loaded key value there unedited)
  exact ⟨frame, fun reads_back => (textFrameKept_iff reads_back).trans frame⟩

/-! ## A large font -/

def fontSizeKey : Str := "display.font_size".toList

def largeFontTables : List (Str × TomlValue Unit) :=
  [("display".toList, .table [("font_size".toList, .integer 100)])]

/-- The text has a font size of 100. -/
def largeFontToml (_ : Str) : Option (TomlValue Unit) := some (.table largeFontTables)

/-- Two engines are available, and no voice backend is. -/
def twoEngines : FormLists where
  engineIds := [.utf8 "basic".toList, .utf8 "rime".toList]
  voiceBackends := []
  voiceModels _ := []

/-- The mode indicator is switched on. -/
def showIndicator : FormEdit := .field "display.popup_mode_indicator".toList (.switch true)

theorem largeFont_loaded :
    (fromToml (.table largeFontTables) : Entries Unit) = [(fontSizeKey, .int 100)] := by
  have key : fullKey (fullKey [] "display".toList) "font_size".toList = fontSizeKey := by
    decide
  rw [fromToml, populateFromToml, largeFontTables, populateEntries, populateEntries,
    populateEntries, populateEntries, key]
  · rfl
  · intro _ impossible
    cases impossible

/-- Another edit makes the font smaller. -/
theorem large_font_changed :
    ¬ FrameKept largeFontToml (fun _ => none) (fun _ => 0) twoEngines showIndicator [] := by
  intro kept
  have there : get (fromToml (.table largeFontTables)) fontSizeKey =
      some (.int 100 : ConfigValue Unit) := by
    rw [largeFont_loaded, get_cons, if_pos rfl]
  have unedited : showIndicator.key (loadForm (fun _ => 0) twoEngines
      (fromToml (.table largeFontTables))) ≠ some fontSizeKey := by
    rw [showIndicator, FormEdit.key]
    decide
  have loaded : loadString largeFontToml (fun _ => none) (some []) =
      .ok (some (fromToml (.table largeFontTables))) := rfl
  have shown := (kept_iff _ _ there unedited).mp (kept _ loaded _ _ there unedited)
  have member : ⟨fontSizeKey, .int 11 6 72⟩ ∈ boundFields :=
    List.mem_cons_of_mem _ (List.mem_cons_of_mem _ List.mem_cons_self)
  have inside := shown.field _ member rfl
  exact absurd inside.2 (by decide)

end Control

end Typio
