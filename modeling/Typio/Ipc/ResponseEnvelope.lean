import Typio.Ipc.IpcBus
import Typio.Ipc.QuotedNames
import Typio.State.StatusBus
import Typio.State.StatusJson

/-!
# The envelope of a response

Most methods build the envelope themselves; `Get` and `GetAll` return the bare text of a property.
Which one it is, the handler decides by searching the text for the quoted word `jsonrpc`, which a
string of the state may contain as well.
-/

namespace Typio

namespace Bus

open JsonText TipJson Status

/-! ## Envelopes -/

/-- One envelope with that id, and with a result or an error but not both. -/
def IsEnvelope (id : Int) (text : CString) : Prop :=
  ∃ json, Denotes text json ∧ json.get? (ascii "jsonrpc") = some (.string (ascii "2.0")) ∧
    json.get? (ascii "id") = some (.number id 0) ∧
    ((json.get? (ascii "result")).isSome ≠ (json.get? (ascii "error")).isSome)

def envelopeJson (id : Int) (outcome : CString) (content : Json) : Json :=
  .object [(ascii "jsonrpc", .string (ascii "2.0")), (ascii "id", .number id 0),
    (outcome, content)]

def errorJson (code : Int) (message : CString) : Json :=
  .object [(ascii "code", .number code 0), (ascii "message", .string message)]

theorem envelope_text (id : Int) (outcome : CString) (content : Json) :
    (compact (envelopeJson id outcome content)).render =
      ascii "\x7b\"jsonrpc\":\"2.0\",\"id\":" ++ (appendInt id ++ comma :: (appendKey outcome ++
        ((compact content).render ++ [rightBrace]))) := by
  rw [envelopeJson, render_object]
  simp only [membersText, List.map_cons, List.map_nil, List.intercalate_cons_cons,
    List.intercalate_singleton, appendMember, List.append_assoc, List.cons_append,
    List.nil_append]
  rfl

theorem buildResponse_denotes (id : Int) (result : Json) :
    Denotes (buildResponse id (some (compact result).render))
      (envelopeJson id (ascii "result") result) := by
  have text : buildResponse id (some (compact result).render) =
      (compact (envelopeJson id (ascii "result") result)).render := by
    rw [envelope_text]
    simp only [buildResponse, List.append_assoc]
    rfl
  rw [text]
  exact denotes_compact _

theorem buildError_denotes (id code : Int) (message : CString) :
    Denotes (buildError id code message)
      (envelopeJson id (ascii "error") (errorJson code message)) := by
  have text : buildError id code message =
      (compact (envelopeJson id (ascii "error") (errorJson code message))).render := by
    rw [envelope_text, errorJson, render_object]
    simp only [membersText, List.map_cons, List.map_nil, List.intercalate_cons_cons,
      List.intercalate_singleton, appendMember, List.append_assoc, List.cons_append,
      List.nil_append, buildError, appendString_eq_render]
    rfl
  rw [text]
  exact denotes_compact _

theorem isEnvelope_iff_of_denotes {id : Int} {text : CString} {json : Json}
    (denotes : Denotes text json) : IsEnvelope id text ↔
      json.get? (ascii "jsonrpc") = some (.string (ascii "2.0")) ∧
        json.get? (ascii "id") = some (.number id 0) ∧
        ((json.get? (ascii "result")).isSome ≠ (json.get? (ascii "error")).isSome) := by
  constructor
  · rintro ⟨other, denotes', envelope⟩
    rwa [denotes.unique denotes']
  · exact fun envelope => ⟨json, denotes, envelope⟩

theorem envelopeJson_id (id : Int) (outcome : String) (content : Json)
    (named : outcome = "result" ∨ outcome = "error") :
    (envelopeJson id (ascii outcome) content).get? (ascii "id") = some (.number id 0) := by
  obtain rfl | rfl := named <;> rfl

/-- An envelope is one for its own id only. -/
theorem isEnvelope_iff_of_envelope {id found : Int} {text : CString} {outcome : String}
    {content : Json} (named : outcome = "result" ∨ outcome = "error")
    (denotes : Denotes text (envelopeJson found (ascii outcome) content)) :
    IsEnvelope id text ↔ found = id := by
  rw [isEnvelope_iff_of_denotes denotes, envelopeJson_id found outcome content named]
  constructor
  · rintro ⟨-, same, -⟩
    simpa using same
  · rintro rfl
    obtain rfl | rfl := named <;> exact ⟨rfl, rfl, Bool.noConfusion⟩

theorem isEnvelope_result_iff {id found : Int} (result : Json) :
    IsEnvelope id (buildResponse found (some (compact result).render)) ↔ found = id :=
  isEnvelope_iff_of_envelope (.inl rfl) (buildResponse_denotes found result)

theorem isEnvelope_error_iff {id found : Int} (code : Int) (message : CString) :
    IsEnvelope id (buildError found code message) ↔ found = id :=
  isEnvelope_iff_of_envelope (.inr rfl) (buildError_denotes found code message)

/-! ## Bare texts -/

theorem jsonrpc_isWord : IsWord (ascii "jsonrpc") := by decide +kernel

/-- No string of the value is, or ends in, the quoted word that marks an envelope. -/
def Unmarked (json : Json) : Prop := ∀ text ∈ stringsOf json, ¬ Names (ascii "jsonrpc") text

theorem isSome_strstr_compact {json : Json} :
    (strstr (compact json).render (quoted (ascii "jsonrpc"))).isSome ↔ ¬ Unmarked json := by
  rw [strstr_isSome_iff, isInfix_compact_iff jsonrpc_isWord]
  simp [Unmarked]

/-- A spoilt text spoils the envelope around it. -/
theorem wrap_astray {text : CString} (astray : Place.ready.run text = .astray) (found : Int) :
    Place.ready.run (wrap found text) = .astray := by
  unfold wrap
  split
  · exact astray
  · have begun : Place.ready.run (ascii "\x7b\"jsonrpc\":\"2.0\",\"id\":") = .ready := by decide
    have ended : Place.done.run (ascii ",\"result\":") = .ready := by decide
    have number : Place.ready.run (appendInt found) = .done := Place.run_number (.inl rfl) _
    simp only [buildResponse, Option.getD_some, Place.run_append, begun, number, ended, astray,
      Place.run_astray]

/-- A bare text comes in an envelope with the id exactly when it is well formed and nothing in it
is taken for an envelope. -/
theorem isEnvelope_wrap_iff {id found : Int} {text : CString} {json : Json} {separated : Prop}
    (formed : separated → text = (compact json).render)
    (spoilt : ¬ separated → Place.ready.run text = .astray)
    (anonymous : ∀ number exponent, json.get? (ascii "id") ≠ some (.number number exponent)) :
    IsEnvelope id (wrap found text) ↔ found = id ∧ separated ∧ Unmarked json := by
  by_cases well : separated
  · obtain rfl := formed well
    by_cases unmarked : Unmarked json
    · have bare : wrap found (compact json).render =
          buildResponse found (some (compact json).render) :=
        if_neg (by rw [isSome_strstr_compact]; exact not_not_intro unmarked)
      rw [bare, isEnvelope_result_iff]
      simp [well, unmarked]
    · have taken : wrap found (compact json).render = (compact json).render :=
        if_pos (isSome_strstr_compact.mpr unmarked)
      rw [taken, isEnvelope_iff_of_denotes (denotes_compact json)]
      simp [unmarked, anonymous]
  · refine iff_of_false ?_ fun envelope => well envelope.2.1
    rintro ⟨json, denotes, -⟩
    exact not_denotes_of_astray (wrap_astray (spoilt well) found) json denotes

theorem state_anonymous (view : View) {name : CString} {value : Json}
    (listed : (name, value) ∈ activeEngineState view) : name ≠ ascii "id" := by
  simp only [activeEngineState, List.mem_append] at listed
  obtain (((listed | listed) | listed) | listed) | listed := listed
  · cases found : view.activeKeyboard.bind ActiveEngine.info with
    | none => simp [found] at listed
    | some info =>
        simp only [found, Option.map_some, Option.getD_some, EngineInfo.json, List.mem_cons,
          List.not_mem_nil, or_false, Prod.mk.injEq] at listed
        obtain ⟨rfl, -⟩ | ⟨rfl, -⟩ | ⟨rfl, -⟩ | ⟨rfl, -⟩ | ⟨rfl, -⟩ | ⟨rfl, -⟩ := listed <;> decide
  · cases found : view.activeKeyboard with
    | none => simp [found] at listed
    | some engine =>
        simp only [found, Option.map_some, Option.getD_some, List.mem_cons, List.not_mem_nil,
          or_false, Prod.mk.injEq] at listed
        obtain ⟨rfl, -⟩ := listed
        decide
  · split at listed
    · simp at listed
    · simp at listed
    · simp only [List.mem_cons, List.not_mem_nil, or_false, Prod.mk.injEq] at listed
      obtain ⟨rfl, -⟩ := listed
      decide
  · cases found : view.lastMode with
    | none => simp [found] at listed
    | some mode =>
        simp only [found, Option.map_some, Option.getD_some, EngineMode.json, List.mem_cons,
          List.not_mem_nil, or_false, Prod.mk.injEq] at listed
        obtain ⟨rfl, -⟩ | ⟨rfl, -⟩ | ⟨rfl, -⟩ | ⟨rfl, -⟩ := listed <;> decide
  · split at listed
    · simp at listed
    · simp at listed
    · obtain ⟨⟨key, entry⟩, -, entered⟩ := List.mem_filterMap.mp listed
      obtain ⟨key, -, same⟩ := Option.map_eq_some_iff.mp entered
      obtain ⟨rfl, -⟩ := Prod.mk.inj same
      exact fun same => absurd (List.head_eq_of_cons_eq same) (by decide)

/-- No property has a number for a member `id`. -/
theorem property_anonymous (view : View) (property : Property) (number exponent : Int) :
    (property.json view).get? (ascii "id") ≠ some (.number number exponent) := by
  intro get
  cases property with
  | engineDisplayNames =>
      obtain ⟨label, -, same⟩ := List.mem_map.mp (mem_of_get? get)
      simp at same
  | activeEngineState => exact state_anonymous view (mem_of_get? get) rfl
  | activeEngineMode =>
      have listed := mem_of_get? get
      cases found : view.lastMode <;> simp [found, EngineMode.json, nullable] at listed
  | runtimeState =>
      have long : ∀ name ∈ view.runtimeState.json.map Prod.fst, name.length ≠ 2 := by
        simp only [RuntimeState.json, List.map_cons, List.map_nil]
        decide +kernel
      exact long _ (List.mem_map_of_mem (mem_of_get? get)) rfl
  | _ => simp [Property.json, nullable, strings, Json.get?] at get

theorem all_anonymous (view : View) (number exponent : Int) :
    (allJson view).get? (ascii "id") ≠ some (.number number exponent) := by
  intro get
  obtain ⟨property, -, same⟩ := List.mem_map.mp (mem_of_get? get)
  exact absurd (Prod.mk.inj same).1 (by cases property <;> decide)

/-! ## Texts of the service -/

/-- The methods that build the envelope themselves. -/
inductive Enveloped (id : Int) : CString → Prop
  | result : Enveloped id (buildResponse id (some appendNull))
  | error (code : Int) (message : CString) : Enveloped id (buildError id code message)

theorem Enveloped.wrap_eq {id : Int} {text : CString} (enveloped : Enveloped id text)
    (found : Int) : wrap found text = text := by
  refine if_pos (strstr_isSome_iff.mpr ?_)
  cases enveloped with
  | result =>
      refine ⟨[leftBrace], ascii ":\"2.0\",\"id\":" ++ appendInt id ++ ascii ",\"result\":" ++
        appendNull ++ ascii "\x7d", ?_⟩
      simp only [buildResponse, List.append_assoc]
      rfl
  | error code message =>
      refine ⟨[leftBrace], ascii ":\"2.0\",\"id\":" ++ appendInt id ++
        ascii ",\"error\":\x7b\"code\":" ++ appendInt code ++ ascii ",\"message\":" ++
        appendString message ++ ascii "\x7d\x7d", ?_⟩
      simp only [buildError, List.append_assoc]
      rfl

theorem Enveloped.isEnvelope_iff {id found outer : Int} {text : CString}
    (enveloped : Enveloped found text) : IsEnvelope id (wrap outer text) ↔ found = id := by
  rw [enveloped.wrap_eq]
  cases enveloped with
  | result => exact isEnvelope_result_iff .null
  | error code message => exact isEnvelope_error_iff code message

section Methods

variable {σ : Type} (inst : Instance σ)

theorem reply_enveloped (id : Int) (result : σ × Bool) (failure : String) :
    Enveloped id (reply id result failure).2 := by
  unfold reply
  split
  · exact .result
  · exact .error ..

/-- The methods other than `Get` and `GetAll`. -/
theorem handle_enveloped {method : CString} (notAll : method ≠ ascii "GetAll")
    (notGet : method ≠ ascii "Get") (params : Option CString) (id : Int) (state : σ) :
    Enveloped id (handle inst method params id state).2 := by
  rw [handle, if_neg notAll, if_neg notGet]
  split
  · unfold handleActivateEngine
    split
    · exact .error ..
    · exact .error ..
    · split
      · exact .error ..
      · dsimp only
        split
        · exact .error ..
        · exact .result
  split
  · unfold handleNextEngine
    split
    · exact .error ..
    · exact reply_enveloped ..
  split
  · exact reply_enveloped ..
  split
  · unfold handleStop
    split
    · exact .error ..
    · exact .result
  split
  · unfold handleSetConfigText
    split
    · exact .error ..
    · exact reply_enveloped ..
  split
  · unfold handleSetRimeSchema
    split
    · exact .error ..
    · dsimp only
      split
      · exact .error ..
      · exact reply_enveloped ..
  split
  · exact reply_enveloped ..
  · exact .error ..

/-! ## The handler -/

theorem dispatchProperty_eq_none {view : View} {name : CString}
    (unknown : ∀ property : Property, name ≠ property.name) :
    dispatchProperty view name = none := by
  rw [dispatchProperty, Option.map_eq_none_iff, List.find?_eq_none]
  intro property _
  rw [beq_iff_eq]
  exact fun same => unknown property same.symm

/-- The id which the search reads, 0 if it finds none. -/
def readId (request : CString) : Int := (extractId request).getD 0

/-- `Get` without parameters is answered under the id 0.  Otherwise the id is the one which the
search reads, and what `Get` and `GetAll` return is well formed and contains no string which is, or
ends in, the quoted word `jsonrpc`. -/
def Answerable (view : View) (request : CString) (id : Int) : Prop :=
  let method := extractString request (ascii "method")
  if method = some (ascii "GetAll") then
    readId request = id ∧ (StateSeparated view ∧ OrderSeparated view) ∧ Unmarked (allJson view)
  else if method = some (ascii "Get") then
    match requestParams request with
    | none => id = 0
    | some params =>
        readId request = id ∧ ∀ property : Property,
          extractString params (ascii "property") = some property.name →
            property.Separated view ∧ Unmarked (property.json view)
  else readId request = id

theorem handleGet_isEnvelope_iff (params : CString) (id found : Int) (state : σ) :
    IsEnvelope id (wrap found (handleGet inst (some params) found state).2) ↔
      found = id ∧ ∀ property : Property,
        extractString params (ascii "property") = some property.name →
          property.Separated (inst.view state) ∧ Unmarked (property.json (inst.view state)) := by
  rw [handleGet]
  cases asked : extractString params (ascii "property") with
  | none => simpa using (Enveloped.error _ _).isEnvelope_iff
  | some name =>
      by_cases known : ∃ property : Property, name = property.name
      · obtain ⟨property, rfl⟩ := known
        have bare (other : Property) (same : property.name = other.name) :
            IsEnvelope id (wrap found (property.build (inst.view state))) ↔ found = id ∧
              other.Separated (inst.view state) ∧ Unmarked (other.json (inst.view state)) := by
          have text := dispatchProperty_name (inst.view state) property
          rw [same, dispatchProperty_name, Option.some.injEq] at text
          rw [← text]
          exact isEnvelope_wrap_iff build_eq build_astray (property_anonymous _ _)
        simp only [dispatchProperty_name, Option.some.injEq]
        constructor
        · exact fun envelope =>
            ⟨((bare property rfl).mp envelope).1, fun other same => ((bare other same).mp envelope).2⟩
        · exact fun ⟨same, each⟩ => (bare property rfl).mpr ⟨same, each property rfl⟩
      · have unknown : ∀ property : Property, name ≠ property.name := by simpa using known
        simp only [dispatchProperty_eq_none unknown]
        rw [(Enveloped.error _ _).isEnvelope_iff]
        simp [unknown]

theorem handle_getAll (params : Option CString) (id : Int) (state : σ) :
    handle inst (ascii "GetAll") params id state = handleGetall inst state := rfl

theorem handle_get (params : Option CString) (id : Int) (state : σ) :
    handle inst (ascii "Get") params id state = handleGet inst params id state := rfl

theorem handleRequest_response (request : CString) (state : σ) :
    (handleRequest inst request state).2 =
      match extractString request (ascii "method") with
      | none => buildError (readId request) (-32600) (ascii "Invalid Request: missing method")
      | some method => wrap (readId request)
          (handle inst method (requestParams request) (readId request) state).2 := by
  rw [handleRequest, readId]
  cases extractString request (ascii "method") <;> rfl

theorem getAll_isEnvelope_iff (id found : Int) (state : σ) :
    IsEnvelope id (wrap found (handleGetall inst state).2) ↔ found = id ∧
      (StateSeparated (inst.view state) ∧ OrderSeparated (inst.view state)) ∧
        Unmarked (allJson (inst.view state)) := by
  rw [← properties_separated_iff]
  refine isEnvelope_wrap_iff getAllJson_eq_render ?_ (all_anonymous _)
  rw [not_forall]
  exact fun ⟨property, joined⟩ => getAllJson_astray joined

theorem get_isEnvelope_iff (params : Option CString) (id found : Int) (state : σ) :
    IsEnvelope id (wrap found (handleGet inst params found state).2) ↔
      match params with
      | none => id = 0
      | some params => found = id ∧ ∀ property : Property,
          extractString params (ascii "property") = some property.name →
            property.Separated (inst.view state) ∧ Unmarked (property.json (inst.view state)) := by
  cases params with
  | none =>
      have invalid : (handleGet inst none found state).2 =
          buildError 0 (-32602) (ascii "Invalid params") := rfl
      rw [invalid, (Enveloped.error ..).isEnvelope_iff, eq_comm]
  | some params => exact handleGet_isEnvelope_iff inst params id found state

theorem handleRequest_isEnvelope_iff (request : CString) (id : Int) (state : σ) :
    IsEnvelope id (handleRequest inst request state).2 ↔
      Answerable (inst.view state) request id := by
  rw [handleRequest_response, Answerable]
  cases extractString request (ascii "method") with
  | none => exact isEnvelope_error_iff ..
  | some method =>
      simp only [Option.some.injEq]
      by_cases isAll : method = ascii "GetAll"
      · rw [if_pos isAll, isAll, handle_getAll]
        exact getAll_isEnvelope_iff inst id (readId request) state
      rw [if_neg isAll]
      by_cases isGet : method = ascii "Get"
      · rw [if_pos isGet, isGet, handle_get]
        exact get_isEnvelope_iff inst (requestParams request) id (readId request) state
      · rw [if_neg isGet]
        exact (handle_enveloped inst isAll isGet ..).isEnvelope_iff

/-- The bus answers each payload with one response, which is an envelope for an id exactly when
the id and the state allow it. -/
theorem response_isEnvelope_iff (changes : σ → CString → List σ) (payload : Uds.Bytes) (id : Int)
    (state : σ) :
    (∃ text, (requestHandler inst changes state payload).response = some text ∧
      IsEnvelope id text) ↔
        Answerable (inst.view state) (payload.takeWhile (· ≠ 0)) id := by
  rw [← handleRequest_isEnvelope_iff]
  exact ⟨fun ⟨_, same, envelope⟩ => Option.some.inj same ▸ envelope,
    fun envelope => ⟨_, rfl, envelope⟩⟩

end Methods

/-- An instance with an engine named `jsonrpc`. -/
def namesake : Instance (List CString) :=
  { recorder with view := fun _ => { (default : View) with engines := [ascii "jsonrpc"] } }

/-- The list of the engines is returned without an envelope. -/
theorem namesake_bare :
    (requestHandler namesake (fun _ _ => []) [] (ascii ("\x7b\"jsonrpc\":\"2.0\",\"id\":7,"
      ++ "\"method\":\"Get\",\"params\":\x7b\"property\":\"AvailableEngines\"\x7d\x7d"))).response =
        some (ascii "[\"jsonrpc\"]") ∧ ¬ IsEnvelope 7 (ascii "[\"jsonrpc\"]") := by
  constructor
  · decide +kernel
  · have text : ascii "[\"jsonrpc\"]" = (compact (strings [ascii "jsonrpc"])).render := by decide
    rw [text, isEnvelope_iff_of_denotes (denotes_compact _)]
    simp [strings, Json.get?]

end Bus

end Typio
