import Typio.Ipc.TipJsonStrings
import Typio.State.StatusService

/-!
# The D-Bus control path

Each control method writes its argument into a JSON text as it is, and lets the service take the
text apart again.  The reply is an error when the text that comes back contains the quoted word.
An argument arrives unchanged exactly when the scanner reads it as one literal, and the engine's
name must also fit the buffer it is printed into.
-/

namespace Typio

namespace Status

open JsonText TipJson

/-! ## The handlers -/

inductive DBusReply where
  | methodReturn
  | error (message : CString)
  deriving DecidableEq, Repr

def DBusReply.isError : DBusReply → Bool
  | methodReturn => false
  | error _ => true

/-- The message is the string after the colon, if there is one. -/
def serviceReplyFromJson (json : CString) : DBusReply :=
  match strstr json (quoted (ascii "error")) with
  | none => .methodReturn
  | some err =>
      match (err.dropWhile (· ≠ colon)).tail.dropWhile (fun byte => byte = 32 || byte = 9) with
      | [] => .error (ascii "Service error")
      | byte :: text =>
          if byte = quote ∧ quote ∈ text then .error (text.takeWhile (· ≠ quote))
          else .error (ascii "Service error")

/-- The argument between quotes, unescaped, as the only member of an object. -/
def formatParams (key : String) (argument : CString) : CString :=
  leftBrace :: quoted (ascii key) ++ colon :: quoted argument ++ [rightBrace]

/-- `snprintf` keeps what fits in front of the terminator. -/
def snprintf (size : Nat) (text : CString) : CString := text.take (size - 1)

/-- The methods which control the instance. -/
inductive ControlMethod where
  | activateEngine
  | nextEngine
  | setRimeSchema
  | setConfigText
  | deployRimeConfig
  | reloadConfig
  deriving DecidableEq, Repr

section Handlers

variable {σ : Type} (inst : Instance σ)

def serviceReply (method : String) (params : Option CString) (state : σ) : σ × DBusReply :=
  let (after, json) := handle inst (ascii method) params 0 state
  (after, serviceReplyFromJson json)

def statusHandleActivateEngine (engineName : CString) (state : σ) : σ × DBusReply :=
  if engineName = [] then
    (state, .error (ascii "ActivateEngine expects a non-empty engine name"))
  else
    serviceReply inst "ActivateEngine" (some (snprintf 256 (formatParams "engine" engineName)))
      state

def statusHandleNextEngine (state : σ) : σ × DBusReply := serviceReply inst "NextEngine" none state

def statusHandleReloadConfig (state : σ) : σ × DBusReply :=
  serviceReply inst "ReloadConfig" none state

/-- The buffer is 32 bytes longer than the text. -/
def statusHandleSetConfigText (configText : CString) (state : σ) : σ × DBusReply :=
  serviceReply inst "SetConfigText"
    (some (snprintf (configText.length + 32) (formatParams "content" configText))) state

def statusHandleSetRimeSchema (schema : CString) (state : σ) : σ × DBusReply :=
  serviceReply inst "SetRimeSchema"
    (some (snprintf (schema.length + 32) (formatParams "schema" schema))) state

def statusHandleDeployRimeConfig (state : σ) : σ × DBusReply :=
  serviceReply inst "DeployRimeConfig" none state

/-- The handler of a method; the methods without an argument ignore it. -/
def statusHandle (method : ControlMethod) (argument : CString) (state : σ) : σ × DBusReply :=
  match method with
  | .activateEngine => statusHandleActivateEngine inst argument state
  | .nextEngine => statusHandleNextEngine inst state
  | .setRimeSchema => statusHandleSetRimeSchema inst argument state
  | .setConfigText => statusHandleSetConfigText inst argument state
  | .deployRimeConfig => statusHandleDeployRimeConfig inst state
  | .reloadConfig => statusHandleReloadConfig inst state

/-! ## The operations behind the methods -/

/-- What a method is there to do, applied to the argument itself. -/
def operation (method : ControlMethod) (argument : CString) (state : σ) : σ × Bool :=
  match method with
  | .activateEngine =>
      if argument = [] ∨ !inst.hasManager state then (state, false)
      else
        let (activated, ok) := inst.setActive argument state
        if ok ∧ inst.hasConfig activated then
          (inst.saveConfig (inst.setDefaultEngine argument activated), true)
        else (activated, ok)
  | .nextEngine => if inst.hasManager state then inst.next state else (state, false)
  | .setRimeSchema =>
      let (persisted, ok) := inst.setRimeSchema argument state
      if ok then inst.reloadConfig persisted else (persisted, false)
  | .setConfigText => inst.setConfigText argument state
  | .deployRimeConfig => inst.deployRimeConfig state
  | .reloadConfig => inst.reloadConfig state

/-- The handler does what the operation does, and replies with an error exactly when it fails. -/
def DoesAsAsked (method : ControlMethod) (argument : CString) (state : σ) : Prop :=
  (statusHandle inst method argument state).1 = (operation inst method argument state).1 ∧
    ((statusHandle inst method argument state).2.isError ↔
      ¬ (operation inst method argument state).2)

end Handlers

/-- The argument survives the way through the text: no quote in it counts as the closing one, no
backslash at its end hides that one, and an engine name leaves room for it in the buffer. -/
def Passes (method : ControlMethod) (argument : CString) : Prop :=
  match method with
  | .activateEngine => argument = [] ∨ Literal argument ∧ argument.length ≤ 243
  | .setConfigText | .setRimeSchema => Literal argument
  | .nextEngine | .deployRimeConfig | .reloadConfig => True

/-! ## The replies -/

theorem strstr_isSome_iff {text pattern : CString} :
    (strstr text pattern).isSome ↔ pattern <:+: text := by
  constructor
  · intro found
    obtain ⟨after, found⟩ := Option.isSome_iff_exists.mp found
    obtain ⟨before, first⟩ := strstr_eq_some.mp found
    obtain ⟨tail, rfl⟩ := first.here
    exact ⟨before, tail, by rw [first.splits, List.append_assoc]⟩
  · intro inside
    induction text with
    | nil =>
        obtain rfl := List.infix_nil.mp inside
        rfl
    | cons byte text ih =>
        rw [strstr]
        split
        · rfl
        next elsewhere =>
          rw [List.isPrefixOf_iff_prefix] at elsewhere
          exact ih ((List.infix_cons_iff.mp inside).resolve_left elsewhere)

theorem serviceReplyFromJson_isError (json : CString) :
    (serviceReplyFromJson json).isError ↔ quoted (ascii "error") <:+: json := by
  rw [← strstr_isSome_iff]
  unfold serviceReplyFromJson
  cases strstr json (quoted (ascii "error")) with
  | none => simp [DBusReply.isError]
  | some err =>
      dsimp only
      split
      · simp [DBusReply.isError]
      · split <;> simp [DBusReply.isError]

theorem buildError_isError (id code : Int) (message : CString) :
    (serviceReplyFromJson (buildError id code message)).isError := by
  rw [serviceReplyFromJson_isError]
  refine ⟨ascii "\x7b\"jsonrpc\":\"2.0\",\"id\":" ++ appendInt id ++ ascii ",",
    ascii ":\x7b\"code\":" ++ appendInt code ++ ascii ",\"message\":" ++ appendString message ++
      ascii "\x7d\x7d", ?_⟩
  simp only [buildError, List.append_assoc]
  rfl

theorem appendInt_zero : appendInt 0 = [48] := by
  simp [appendInt, NumberText.ofInt, NumberText.render, Whole.ofNat, Whole.digits, renderDigits,
    Digit.byte, NumberText.renderFraction, NumberText.renderExponent]

theorem buildResponse_null_isError :
    (serviceReplyFromJson (buildResponse 0 (some appendNull))).isError = false := by
  rw [buildResponse, appendInt_zero]
  decide

/-! ## The way of the argument -/

theorem extractString_firstMember {key : CString} (short : key.length ≤ 100) (content : CString) :
    extractString (leftBrace :: (quoted key ++ colon :: quote :: content)) key =
      scanString false content := by
  have first : FirstAt (leftBrace :: (quoted key ++ colon :: quote :: content)) (quoted key)
      [leftBrace] (quoted key ++ ([] ++ colon :: quote :: content)) := by
    refine ⟨rfl, List.prefix_append _ _, fun start later parts nonempty here => ?_⟩
    cases start with
    | nil =>
        rw [List.nil_append] at parts
        subst parts
        obtain ⟨tail, same⟩ := here
        exact absurd (List.head_eq_of_cons_eq same) (by decide)
    | cons byte start =>
        obtain ⟨-, absent⟩ := List.append_eq_nil_iff.mp (List.tail_eq_of_cons_eq parts).symm
        exact nonempty absent
  unfold extractString
  rw [if_neg (by omega), memberValue_eq_some.mpr ⟨_, [], _, first, by simp, rfl⟩,
    skipWs_eq_self (by simp; decide)]
  simp

theorem scanString_closed_iff {argument rest : CString} :
    scanString false (argument ++ quote :: rest) = some argument ↔ Literal argument := by
  rw [scanString_eq_some]
  exact ⟨And.left, fun literal => ⟨literal, rest, rfl⟩⟩

/-- A buffer sized for the argument holds the whole text. -/
theorem param_formatParams (key : String) (argument : CString)
    (short : (ascii key).length ≤ 24) :
    param (some (snprintf (argument.length + 32) (formatParams key argument))) key =
      some argument ↔ Literal argument := by
  have fits : (formatParams key argument).length ≤ argument.length + 32 - 1 := by
    simp only [formatParams, quoted, List.length_append, List.length_cons, List.length_nil]
    omega
  have text : formatParams key argument =
      leftBrace :: (quoted (ascii key) ++ colon :: quote :: (argument ++ quote :: [rightBrace])) := by
    simp [formatParams, quoted]
  rw [param, Option.bind_some, snprintf, List.take_of_length_le fits, text,
    extractString_firstMember (by omega), scanString_closed_iff]

/-- The engine's name is cut off when the text does not fit 255 bytes. -/
theorem param_engine (argument : CString) :
    param (some (snprintf 256 (formatParams "engine" argument))) "engine" = some argument ↔
      Literal argument ∧ argument.length ≤ 243 := by
  have text : snprintf 256 (formatParams "engine" argument) =
      leftBrace :: (quoted (ascii "engine") ++ colon :: quote ::
        (argument ++ quote :: [rightBrace]).take 244) := by
    have parts : formatParams "engine" argument =
        (leftBrace :: quoted (ascii "engine") ++ [colon, quote]) ++
          (argument ++ quote :: [rightBrace]) := by
      simp [formatParams, quoted]
    rw [snprintf, parts, List.take_append, List.take_of_length_le (by decide)]
    rfl
  rw [param, Option.bind_some, text, extractString_firstMember (by decide), scanString_eq_some]
  refine and_congr_right fun _ => ⟨?_, fun fits => ⟨[rightBrace].take (243 - argument.length), ?_⟩⟩
  · rintro ⟨rest, parts⟩
    have length := congrArg List.length parts
    simp only [List.length_take, List.length_append, List.length_cons, List.length_nil] at length
    omega
  · rw [List.take_append, List.take_of_length_le (by omega),
      show 244 - argument.length = 243 - argument.length + 1 by omega, List.take_succ_cons]

/-! ## The methods -/

section Methods

variable {σ : Type} (inst : Instance σ)

/-- The handler passes on what the service did and replied. -/
theorem does_of_handled {method : ControlMethod} {argument : CString} {state : σ} {json : CString}
    (handled : statusHandle inst method argument state =
      ((operation inst method argument state).1, serviceReplyFromJson json))
    (reports : (serviceReplyFromJson json).isError = !(operation inst method argument state).2) :
    DoesAsAsked inst method argument state := by
  refine ⟨by rw [handled], ?_⟩
  rw [handled, reports]
  simp

/-- The reply of a method which only reports the result of its operation. -/
theorem does_of_reply {method : ControlMethod} {argument : CString} {state : σ} {result : σ × Bool}
    (failure : String) (operates : operation inst method argument state = result)
    (handled : statusHandle inst method argument state =
      ((reply 0 result failure).1, serviceReplyFromJson (reply 0 result failure).2)) :
    DoesAsAsked inst method argument state := by
  subst operates
  unfold reply at handled
  cases ok : (operation inst method argument state).2 with
  | true =>
      rw [ok, if_pos rfl] at handled
      exact does_of_handled inst handled (by rw [ok]; exact buildResponse_null_isError)
  | false =>
      rw [ok, if_neg Bool.false_ne_true] at handled
      exact does_of_handled inst handled (by rw [ok]; exact buildError_isError ..)

theorem setConfigText_does {argument : CString} (literal : Literal argument) (state : σ) :
    DoesAsAsked inst .setConfigText argument state := by
  have found : param (some (snprintf (argument.length + 32) (formatParams "content" argument)))
      "content" = some argument := (param_formatParams _ _ (by decide)).mpr literal
  refine does_of_reply inst "Failed to save config" rfl ?_
  change ((handleSetConfigText inst _ 0 state).1,
    serviceReplyFromJson (handleSetConfigText inst _ 0 state).2) = _
  rw [handleSetConfigText, found]
  rfl

theorem setRimeSchema_does {argument : CString} (literal : Literal argument) (state : σ) :
    DoesAsAsked inst .setRimeSchema argument state := by
  have found : param (some (snprintf (argument.length + 32) (formatParams "schema" argument)))
      "schema" = some argument := (param_formatParams _ _ (by decide)).mpr literal
  have handled : statusHandle inst .setRimeSchema argument state =
      let json := handleSetRimeSchema inst (some (snprintf (argument.length + 32)
        (formatParams "schema" argument))) 0 state
      (json.1, serviceReplyFromJson json.2) := rfl
  rw [handleSetRimeSchema, found] at handled
  cases persisted : inst.setRimeSchema argument state with
  | mk after ok =>
      cases ok with
      | true =>
          have operates : operation inst .setRimeSchema argument state =
              inst.reloadConfig after := by simp [operation, persisted]
          exact does_of_reply inst "Failed to reload after schema change" operates
            (by simpa [persisted] using handled)
      | false =>
          have failed : statusHandle inst .setRimeSchema argument state =
              ((operation inst .setRimeSchema argument state).1, serviceReplyFromJson
                (buildError 0 (-32603) (ascii "Failed to persist schema"))) := by
            simpa [persisted, operation] using handled
          exact does_of_handled inst failed (by simp [operation, persisted, buildError_isError])

theorem activateEngine_does {argument : CString} (literal : Literal argument)
    (fits : argument.length ≤ 243) (state : σ) :
    DoesAsAsked inst .activateEngine argument state := by
  have found := (param_engine argument).mpr ⟨literal, fits⟩
  cases argument with
  | nil =>
      simp [DoesAsAsked, statusHandle, statusHandleActivateEngine, operation, DBusReply.isError]
  | cons byte name =>
      have handled : statusHandle inst .activateEngine (byte :: name) state =
          let json := handleActivateEngine inst (some (snprintf 256 (formatParams "engine"
            (byte :: name)))) 0 state
          (json.1, serviceReplyFromJson json.2) := rfl
      rw [handleActivateEngine, found] at handled
      cases manager : inst.hasManager state with
      | false =>
          have refused : statusHandle inst .activateEngine (byte :: name) state =
              ((operation inst .activateEngine (byte :: name) state).1, serviceReplyFromJson
                (buildError 0 (-32603) (ascii "Engine manager not available"))) := by
            simpa [manager, operation] using handled
          exact does_of_handled inst refused (by simp [operation, manager, buildError_isError])
      | true =>
          cases switched : inst.setActive (byte :: name) state with
          | mk activated ok =>
              cases ok with
              | false =>
                  have failed : statusHandle inst .activateEngine (byte :: name) state =
                      ((operation inst .activateEngine (byte :: name) state).1,
                        serviceReplyFromJson
                          (buildError 0 (-32603) (ascii "Failed to activate engine"))) := by
                    simpa [manager, switched, operation] using handled
                  exact does_of_handled inst failed
                    (by simp [operation, manager, switched, buildError_isError])
              | true =>
                  have done : statusHandle inst .activateEngine (byte :: name) state =
                      ((operation inst .activateEngine (byte :: name) state).1,
                        serviceReplyFromJson (buildResponse 0 (some appendNull))) := by
                    rw [handled]
                    cases stores : inst.hasConfig activated <;>
                      simp [manager, switched, operation, stores]
                  refine does_of_handled inst done ?_
                  cases stores : inst.hasConfig activated <;>
                    simp [operation, manager, switched, stores, buildResponse_null_isError]

/-- A method without an argument does what it is asked. -/
theorem nextEngine_does (argument : CString) (state : σ) :
    DoesAsAsked inst .nextEngine argument state := by
  have handled : statusHandle inst .nextEngine argument state =
      let json := handleNextEngine inst 0 state
      (json.1, serviceReplyFromJson json.2) := rfl
  rw [handleNextEngine] at handled
  cases manager : inst.hasManager state with
  | false =>
      have refused : statusHandle inst .nextEngine argument state =
          ((operation inst .nextEngine argument state).1, serviceReplyFromJson
            (buildError 0 (-32603) (ascii "Engine manager not available"))) := by
        simpa [manager, operation] using handled
      exact does_of_handled inst refused (by simp [operation, manager, buildError_isError])
  | true =>
      have operates : operation inst .nextEngine argument state = inst.next state := by
        simp [operation, manager]
      exact does_of_reply inst "Failed to switch engine" operates
        (by simpa [manager] using handled)

theorem does_of_passes {method : ControlMethod} {argument : CString}
    (passes : Passes method argument) (state : σ) : DoesAsAsked inst method argument state := by
  cases method with
  | activateEngine =>
      obtain rfl | ⟨literal, fits⟩ := passes
      · exact activateEngine_does inst (show Literal [] from rfl) (by decide) state
      · exact activateEngine_does inst literal fits state
  | nextEngine => exact nextEngine_does inst argument state
  | setRimeSchema => exact setRimeSchema_does inst passes state
  | setConfigText => exact setConfigText_does inst passes state
  | deployRimeConfig => exact does_of_reply inst "Failed to deploy Rime config" rfl rfl
  | reloadConfig => exact does_of_reply inst "Failed to reload config" rfl rfl

end Methods

/-! ## An instance which records the arguments -/

/-- Every operation succeeds and is recorded with its argument. -/
def recorder : Instance (List CString) where
  view _ := default
  hasManager _ := true
  setActive name calls := (name :: calls, true)
  next calls := (calls, true)
  hasConfig _ := false
  setDefaultEngine _ calls := calls
  saveConfig calls := calls
  reloadConfig calls := (calls, true)
  setConfigText text calls := (text :: calls, true)
  setRimeSchema schema calls := (schema :: calls, true)
  deployRimeConfig calls := (calls, true)
  stop := none

/-- The recorder tells which argument reached its operation. -/
theorem passes_of_recorded {method : ControlMethod} {argument : CString}
    (does : DoesAsAsked recorder method argument []) : Passes method argument := by
  have same := does.1
  cases method with
  | nextEngine | deployRimeConfig | reloadConfig => trivial
  | setConfigText =>
      refine (param_formatParams "content" _ (by decide)).mp ?_
      change (handleSetConfigText recorder _ 0 []).1 = [argument] at same
      rw [handleSetConfigText] at same
      split at same
      · simp at same
      next text found =>
        obtain rfl : text = argument := by simpa [reply, recorder] using same
        exact found
  | setRimeSchema =>
      refine (param_formatParams "schema" _ (by decide)).mp ?_
      change (handleSetRimeSchema recorder _ 0 []).1 = [argument] at same
      rw [handleSetRimeSchema] at same
      split at same
      · simp at same
      next schema found =>
        obtain rfl : schema = argument := by simpa [reply, recorder] using same
        exact found
  | activateEngine =>
      cases argument with
      | nil => exact .inl rfl
      | cons byte name =>
          refine .inr ((param_engine (byte :: name)).mp ?_)
          change (handleActivateEngine recorder _ 0 []).1 = [byte :: name] at same
          rw [handleActivateEngine] at same
          split at same
          · simp at same
          · simp at same
          next engine _ found =>
            obtain rfl : engine = byte :: name := by simpa [recorder] using same
            exact found

/-- A control method does what it is asked on every instance exactly when its argument passes. -/
theorem doesAsAsked_iff_passes (method : ControlMethod) (argument : CString) :
    (∀ (σ : Type) (inst : Instance σ) (state : σ), DoesAsAsked inst method argument state) ↔
      Passes method argument :=
  ⟨fun does => passes_of_recorded (does _ recorder []),
    fun passes _ inst state => does_of_passes inst passes state⟩

/-- A configuration text is cut off at its first quote. -/
theorem quoted_text_cut : ¬ ∀ (σ : Type) (inst : Instance σ) (state : σ),
    DoesAsAsked inst .setConfigText (ascii "default_engine = \"rime\"") state := by
  intro does
  have literal : Literal (ascii "default_engine = \"rime\"") :=
    passes_of_recorded (does _ recorder [])
  exact absurd literal (by decide)

end Status

end Typio
