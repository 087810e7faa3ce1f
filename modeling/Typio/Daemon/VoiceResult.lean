import Typio.Core.TagBuffer
import Typio.Core.VoiceSession

/-!
# Who frees a voice result

The session puts the text of a result on the heap, hands it to its callback, and frees it when the
callback has returned.  The callback of the frontend frees every text but the empty one itself.
-/

namespace Typio

namespace Daemon

open Typio.Core StrSlice

/-- `TypioVoiceSessionEventType` with what the session fills in; the text of a result is a pointer to
the string. -/
inductive VoiceEvent where
  | stateChange (state : VoiceState)
  | result (pointer : Nat) (text : List UInt8)
  deriving DecidableEq, Repr

/-- The session, the frontend and the heap between them: whether the callback is set, whether the
frontend has an input context, the texts which were handed over and committed, and the calls of
`free`, newest first. -/
structure VoiceDesk where
  callback : Bool
  context : Bool
  nextPointer : Nat
  delivered : List Nat
  committed : List (List UInt8)
  released : List Nat

namespace VoiceDesk

variable (desk : VoiceDesk)

/-- The session and the frontend before the first result. -/
def start (context : Bool) : VoiceDesk where
  callback := false
  context := context
  nextPointer := 0
  delivered := []
  committed := []
  released := []

/-- `free`. -/
def free (pointer : Nat) : VoiceDesk := { desk with released := pointer :: desk.released }

/-- `typio_input_context_commit`, if there is a context. -/
def commit (text : List UInt8) : VoiceDesk :=
  if desk.context then { desk with committed := text :: desk.committed } else desk

/-- The string that is left in the buffer of a text after `typio_voice_filter_tags_inplace`. -/
def filteredText (text : List UInt8) : List UInt8 := (filterTagsInplace text).takeWhile (· ≠ 0)

/-- `voice_event_cb`. -/
def voiceEventCb : VoiceEvent → VoiceDesk
  | .stateChange _ => desk
  | .result pointer text =>
      if text = [] then desk
      else
        let spoken := (filteredText text).dropWhile (· = 0x20)
        (if spoken = [] then desk else desk.commit spoken).free pointer

/-- The callback is called, if it is set. -/
def callCallback (event : VoiceEvent) : VoiceDesk :=
  if desk.callback then desk.voiceEventCb event else desk

/-- `VoiceSession::fire_event`, which frees the text of a result afterwards. -/
def fireEvent (event : VoiceEvent) : VoiceDesk :=
  match event with
  | .stateChange _ => desk.callCallback event
  | .result pointer _ => (desk.callCallback event).free pointer

/-- The text of a result: what is left of a transcription without its tags and the white space around
it, or the empty text if there is a NUL character in it. -/
def resultText (text : Str) : List UInt8 :=
  let trimmed := trim (filterTags text)
  (if '\x00' ∈ trimmed then [] else trimmed).flatMap String.utf8EncodeChar

/-- `CString::into_raw`. -/
def deliver (text : List UInt8) : VoiceDesk :=
  let pointer := desk.nextPointer
  { desk with nextPointer := pointer + 1, delivered := pointer :: desk.delivered }.fireEvent
    (.result pointer text)

/-- `typio_voice_session_dispatch` after the thread which transcribes has been joined. -/
def dispatch (text : Option Str) : VoiceDesk :=
  match text.filter (· ≠ []) with
  | none => desk.fireEvent (.stateChange .idle)
  | some text => desk.deliver (resultText text)

inductive Event where
  | setCallback (registered : Bool)
  | setContext (present : Bool)
  | dispatch (text : Option Str)

def step : Event → VoiceDesk
  | .setCallback registered => { desk with callback := registered }
  | .setContext present => { desk with context := present }
  | .dispatch text => desk.dispatch text

/-- Each text which was handed over has been freed exactly once. -/
def OneOwner : Prop := ∀ pointer ∈ desk.delivered, desk.released.count pointer = 1

/-- There is nothing to say in the text: white space and tags, or a NUL character. -/
def Mute (text : Str) : Prop :=
  trim (filterTags text) = [] ∨ '\x00' ∈ trim (filterTags text)

/-- A result that the callback sees is mute. -/
def Harmless : Event → Prop
  | .dispatch (some text) => desk.callback = true → text ≠ [] → Mute text
  | _ => True

/-! ## One dispatch -/

theorem resultText_eq_nil_iff (text : Str) : resultText text = [] ↔ Mute text := by
  unfold resultText Mute
  dsimp only
  split
  next null => simp [null]
  next terminated =>
    rw [or_iff_left terminated, List.flatMap_eq_nil_iff]
    constructor
    · intro empty
      refine List.eq_nil_iff_forall_not_mem.mpr fun char member => ?_
      have encoded := congrArg List.length (empty char member)
      rw [String.length_utf8EncodeChar] at encoded
      exact absurd encoded (Nat.ne_of_gt char.utf8Size_pos)
    · rintro nothing
      simp [nothing]

/-- The callback frees a text that is not empty, and nothing else. -/
theorem released_voiceEventCb (pointer : Nat) (text : List UInt8) :
    (desk.voiceEventCb (.result pointer text)).released =
      if text = [] then desk.released else pointer :: desk.released := by
  rw [voiceEventCb]
  split
  · rfl
  dsimp only [free]
  unfold commit
  split
  · rfl
  · split <;> rfl

/-- A text is freed by the session, and before that by the callback if there is one and the text is
not empty. -/
theorem released_deliver (text : List UInt8) :
    (desk.deliver text).released =
      if desk.callback = true ∧ text ≠ [] then desk.nextPointer :: desk.nextPointer :: desk.released
      else desk.nextPointer :: desk.released := by
  unfold deliver fireEvent callCallback free
  dsimp only
  cases set : desk.callback with
  | false => simp
  | true => by_cases empty : text = [] <;> simp [released_voiceEventCb, empty]

theorem commit_frame (text : List UInt8) :
    (desk.commit text).nextPointer = desk.nextPointer ∧
      (desk.commit text).delivered = desk.delivered := by
  unfold commit
  split <;> exact ⟨rfl, rfl⟩

theorem voiceEventCb_frame (event : VoiceEvent) :
    (desk.voiceEventCb event).nextPointer = desk.nextPointer ∧
      (desk.voiceEventCb event).delivered = desk.delivered := by
  cases event with
  | stateChange state => exact ⟨rfl, rfl⟩
  | result pointer text =>
      rw [voiceEventCb]
      split
      · exact ⟨rfl, rfl⟩
      dsimp only [free]
      split
      · exact ⟨rfl, rfl⟩
      · exact desk.commit_frame _

theorem deliver_frame (text : List UInt8) :
    (desk.deliver text).nextPointer = desk.nextPointer + 1 ∧
      (desk.deliver text).delivered = desk.nextPointer :: desk.delivered := by
  unfold deliver fireEvent callCallback free
  dsimp only
  split
  · exact voiceEventCb_frame _ _
  · exact ⟨rfl, rfl⟩

/-- Pointers come from the heap one after the other. -/
structure Fresh : Prop where
  delivered : ∀ pointer ∈ desk.delivered, pointer < desk.nextPointer
  released : ∀ pointer ∈ desk.released, pointer < desk.nextPointer

variable {desk}

theorem Fresh.deliver (fresh : desk.Fresh) (text : List UInt8) : (desk.deliver text).Fresh := by
  obtain ⟨next, delivered⟩ := desk.deliver_frame text
  constructor
  · rw [next, delivered]
    intro pointer member
    obtain rfl | before := List.mem_cons.mp member
    · exact Nat.lt_succ_self _
    · exact Nat.lt_succ_of_lt (fresh.delivered pointer before)
  · rw [next, released_deliver]
    intro pointer member
    have here : pointer = desk.nextPointer ∨ pointer ∈ desk.released := by
      split at member
      · simpa using member
      · simpa using member
    obtain rfl | before := here
    · exact Nat.lt_succ_self _
    · exact Nat.lt_succ_of_lt (fresh.released pointer before)

/-- A result keeps one owner for each text exactly when the callback does not free it as well. -/
theorem Fresh.oneOwner_deliver (fresh : desk.Fresh) (owned : desk.OneOwner) (text : List UInt8) :
    (desk.deliver text).OneOwner ↔ (desk.callback = true → text = []) := by
  obtain ⟨-, delivered⟩ := desk.deliver_frame text
  have unreleased : desk.released.count desk.nextPointer = 0 :=
    List.count_eq_zero.mpr fun member => Nat.lt_irrefl _ (fresh.released _ member)
  have older : ∀ pointer ∈ desk.delivered, desk.nextPointer ≠ pointer :=
    fun pointer member same => Nat.lt_irrefl _ (same ▸ fresh.delivered pointer member)
  rw [OneOwner, delivered, released_deliver, List.forall_mem_cons]
  by_cases both : desk.callback = true ∧ text ≠ []
  · rw [if_pos both]
    refine iff_of_false (fun each => ?_) fun harmless => both.2 (harmless both.1)
    have twice := each.1
    simp [unreleased] at twice
  · rw [if_neg both]
    refine iff_of_true ⟨by simp [unreleased], fun pointer member => ?_⟩ fun set => ?_
    · rw [List.count_cons_of_ne (older pointer member)]
      exact owned pointer member
    · exact not_not.mp fun nonempty => both ⟨set, nonempty⟩

/-- A dispatch reports a change of state, or it delivers the result of a transcription. -/
theorem dispatch_cases (text : Option Str) :
    (text.filter (· ≠ []) = none ∧ desk.dispatch text = desk.fireEvent (.stateChange .idle)) ∨
      ∃ spoken, text = some spoken ∧ spoken ≠ [] ∧
        desk.dispatch text = desk.deliver (resultText spoken) := by
  match text with
  | none => exact .inl ⟨rfl, rfl⟩
  | some [] => exact .inl ⟨rfl, rfl⟩
  | some (char :: chars) => exact .inr ⟨char :: chars, rfl, nofun, rfl⟩

theorem fireEvent_stateChange (state : VoiceState) :
    desk.fireEvent (.stateChange state) = desk := by
  unfold fireEvent callCallback
  dsimp only
  split <;> rfl

theorem Fresh.step (fresh : desk.Fresh) (event : Event) : (desk.step event).Fresh := by
  cases event with
  | setCallback registered => exact ⟨fresh.delivered, fresh.released⟩
  | setContext present => exact ⟨fresh.delivered, fresh.released⟩
  | dispatch text =>
      obtain ⟨-, same⟩ | ⟨spoken, -, -, delivers⟩ := desk.dispatch_cases text
      · rw [VoiceDesk.step, same, fireEvent_stateChange]
        exact fresh
      · rw [VoiceDesk.step, delivers]
        exact fresh.deliver _

theorem Fresh.oneOwner_step (fresh : desk.Fresh) (owned : desk.OneOwner) (event : Event) :
    (desk.step event).OneOwner ↔ desk.Harmless event := by
  cases event with
  | setCallback registered => exact iff_of_true owned trivial
  | setContext present => exact iff_of_true owned trivial
  | dispatch text =>
      obtain ⟨nothing, same⟩ | ⟨spoken, rfl, nonempty, delivers⟩ := desk.dispatch_cases text
      · rw [VoiceDesk.step, same, fireEvent_stateChange]
        refine iff_of_true owned ?_
        match text, nothing with
        | none, _ => trivial
        | some [], _ => exact fun _ nonempty => absurd rfl nonempty
      · rw [VoiceDesk.step, delivers, fresh.oneOwner_deliver owned, resultText_eq_nil_iff]
        exact forall_congr' fun _ => (imp_iff_right nonempty).symm

end VoiceDesk

/-- Every result text has one owner throughout a run if and only if no transcription with anything
to say reaches the callback. -/
theorem oneOwner_iff (context : Bool) (events : List VoiceDesk.Event) :
    Machine.Always VoiceDesk.step VoiceDesk.OneOwner (.start context) events ↔
      Machine.EachStep VoiceDesk.step VoiceDesk.Harmless (.start context) events :=
  Machine.always_iff_eachStep VoiceDesk.Fresh
    (fun _ event fresh owned => fresh.oneOwner_step owned event)
    (fun _ event fresh _ _ => fresh.step event)
    ⟨fun _ member => (List.not_mem_nil member).elim,
      fun _ member => (List.not_mem_nil member).elim⟩
    fun _ member => (List.not_mem_nil member).elim

/-- Somebody says "hi", and the frontend commits it. -/
theorem result_freed_twice :
    ¬Machine.Always VoiceDesk.step VoiceDesk.OneOwner (.start true)
      [.setCallback true, .dispatch (some "hi".toList)] := by
  intro always
  have fresh : ((VoiceDesk.start true).step (.setCallback true)).Fresh :=
    ⟨fun _ member => (List.not_mem_nil member).elim, fun _ member => (List.not_mem_nil member).elim⟩
  have harmless := (fresh.oneOwner_step (fun _ member => (List.not_mem_nil member).elim)
    (.dispatch (some "hi".toList))).mp always.final
  have filtered : filterTags "hi".toList = "hi".toList := by simp [filterTags, filterLoop]
  have mute : VoiceDesk.Mute "hi".toList := harmless rfl (by decide)
  rw [VoiceDesk.Mute, filtered] at mute
  revert mute
  decide

end Daemon

end Typio
