import Mathlib.Data.List.Infix

/-!
# Length-prefixed framing

A frame is a header of fixed width, which declares the length of the payload, followed by the
payload.  A prefix of a stream of frames determines the frames it contains whole, and the next one
as soon as its header is there.
-/

/-- A header of fixed width from which the length of the payload can be read back. -/
structure FrameFormat (α : Type*) where
  /-- Number of symbols of a header. -/
  width : Nat
  /-- The greatest length a header can declare. -/
  bound : Nat
  /-- The header of a payload of the given length. -/
  header : Nat → List α
  /-- The length that the header at the front of the symbols declares. -/
  declared : List α → Nat
  length_header : ∀ length, (header length).length = width
  declared_header : ∀ length rest, length ≤ bound → declared (header length ++ rest) = length
  declared_take : ∀ symbols, declared (symbols.take width) = declared symbols

namespace FrameFormat

variable {α : Type*} (format : FrameFormat α)

/-- The frame of a payload. -/
def encode (payload : List α) : List α :=
  format.header payload.length ++ payload

/-- The stream of the frames of the payloads. -/
def encodeAll (payloads : List (List α)) : List α :=
  payloads.flatMap format.encode

/-- The payloads whose frames end within the first `count` symbols of the stream. -/
def completed : List (List α) → Nat → List (List α)
  | [], _ => []
  | payload :: payloads, count =>
      if format.width + payload.length ≤ count then
        payload :: completed payloads (count - (format.width + payload.length))
      else []

@[simp] theorem length_encode (payload : List α) :
    (format.encode payload).length = format.width + payload.length := by
  simp [encode, format.length_header]

@[simp] theorem encodeAll_nil : format.encodeAll [] = [] := rfl

@[simp] theorem encodeAll_cons (payload : List α) (payloads : List (List α)) :
    format.encodeAll (payload :: payloads) = format.encode payload ++ format.encodeAll payloads :=
  rfl

@[simp] theorem encodeAll_append (left right : List (List α)) :
    format.encodeAll (left ++ right) = format.encodeAll left ++ format.encodeAll right := by
  simp [encodeAll]

/-- Whole frames at the front are completed. -/
theorem completed_append (done rest : List (List α)) (count : Nat) :
    format.completed (done ++ rest) ((format.encodeAll done).length + count) =
      done ++ format.completed rest count := by
  induction done with
  | nil => simp
  | cons payload done induction =>
      have reached : format.width + payload.length ≤
          format.width + payload.length + (format.encodeAll done).length + count := by
        omega
      have remaining : format.width + payload.length + (format.encodeAll done).length + count -
          (format.width + payload.length) = (format.encodeAll done).length + count := by
        omega
      simp only [List.cons_append, completed, encodeAll_cons, List.length_append, length_encode,
        if_pos reached, remaining, induction]

/-- A header that has arrived declares the length of the payload sent. -/
theorem declared_of_prefix {buffer : List α} {payload : List α} {payloads : List (List α)}
    (arrived : buffer <+: format.encodeAll (payload :: payloads))
    (whole : format.width ≤ buffer.length) (bounded : payload.length ≤ format.bound) :
    format.declared buffer = payload.length := by
  have front : buffer.take format.width = format.header payload.length := by
    obtain ⟨rest, stream⟩ := arrived
    have taken := congrArg (List.take format.width) stream
    rw [List.take_append_of_le_length whole, encodeAll_cons, encode, List.append_assoc,
      List.take_left' (format.length_header _)] at taken
    exact taken
  rw [← format.declared_take, front, ← List.append_nil (format.header _),
    format.declared_header _ _ bounded]

/-- A frame whose declared length has arrived is the frame of the next payload. -/
theorem next_of_prefix {buffer : List α} {payloads : List (List α)}
    (arrived : buffer <+: format.encodeAll payloads)
    (bounded : ∀ payload ∈ payloads, payload.length ≤ format.bound)
    (header : format.width ≤ buffer.length) (nonempty : buffer ≠ [])
    (whole : format.width + format.declared buffer ≤ buffer.length) :
    ∃ payload later, payloads = payload :: later ∧
      format.declared buffer = payload.length ∧
      buffer = format.encode payload ++ buffer.drop (format.width + payload.length) ∧
      buffer.drop (format.width + payload.length) <+: format.encodeAll later := by
  cases payloads with
  | nil => exact absurd (List.prefix_nil.mp arrived) nonempty
  | cons payload later =>
      have declared := format.declared_of_prefix arrived header
        (bounded payload List.mem_cons_self)
      have long : (format.encode payload).length ≤ buffer.length := by
        rw [length_encode, ← declared]
        exact whole
      have front : format.encode payload <+: buffer :=
        List.prefix_of_prefix_length_le (List.prefix_append _ _) arrived long
      obtain ⟨rest, rfl⟩ := front
      refine ⟨payload, later, rfl, declared, ?_, ?_⟩
      · rw [List.drop_left' (format.length_encode payload)]
      · rw [List.drop_left' (format.length_encode payload)]
        exact (List.prefix_append_right_inj _).mp arrived

/-- While the next frame is incomplete, nothing more is completed. -/
theorem completed_of_incomplete {buffer : List α} {payloads : List (List α)}
    (arrived : buffer <+: format.encodeAll payloads)
    (bounded : ∀ payload ∈ payloads, payload.length ≤ format.bound)
    (incomplete : format.width ≤ buffer.length →
      buffer.length < format.width + format.declared buffer) :
    format.completed payloads buffer.length = [] := by
  cases payloads with
  | nil => rfl
  | cons payload later =>
      refine if_neg fun reached => ?_
      have header : format.width ≤ buffer.length := by omega
      have declared := format.declared_of_prefix arrived header
        (bounded payload List.mem_cons_self)
      have short := incomplete header
      omega

end FrameFormat
