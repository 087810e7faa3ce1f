import Mathlib.Algebra.Group.Nat.Defs
import Mathlib.Data.List.Basic
import Mathlib.Data.List.Infix
import Mathlib.Tactic.Basic

/-!
# The audio which is transcribed

What was recorded is cut down, before the engine transcribes it, to the samples between the first
and the last one which are loud enough, with a padding on both sides.  Which samples are loud
enough is a parameter.  Arithmetic on `usize` and a slice panic out of range; they never do.
-/

namespace Typio

namespace Core

inductive AudioPanic where
  | overflow
  | slice
  deriving DecidableEq, Repr

/-- The samples of a `Vec<f32>`, whose bytes are at most `isize::MAX`. -/
structure Samples (Sample : Type) where
  samples : List Sample
  fits : 4 * samples.length < 2 ^ 63

namespace Samples

def sampleRate : Nat := 16000

def trimPaddingSamples : Nat := sampleRate / 10

def minActiveSamples : Nat := sampleRate / 5

def checkedAdd (left right : Nat) : Except AudioPanic Nat :=
  if left + right < 2 ^ 64 then .ok (left + right) else .error .overflow

def checkedSub (left right : Nat) : Except AudioPanic Nat :=
  if right ≤ left then .ok (left - right) else .error .overflow

variable {Sample : Type}

/-- `audio[start..stop]`. -/
def slice (audio : List Sample) (start stop : Nat) : Except AudioPanic (List Sample) :=
  if start ≤ stop ∧ stop ≤ audio.length then .ok ((audio.take stop).drop start)
  else .error .slice

/-- What the scan knows: the first and the last active sample so far. -/
structure Activity where
  firstActive : Nat
  lastActive : Nat
  deriving DecidableEq, Repr

/-- The body of the loop; the length of the buffer stands for no first sample. -/
def note (active : Sample → Bool) (length : Nat) (activity : Activity) (entry : Sample × Nat) :
    Activity :=
  if active entry.1 then
    { firstActive := if activity.firstActive = length then entry.2 else activity.firstActive
      lastActive := entry.2 }
  else activity

/-- The loop over the samples. -/
def scan (active : Sample → Bool) (length : Nat) (audio : List Sample) : Activity :=
  audio.zipIdx.foldl (note active length) ⟨length, 0⟩

/-- Whether there is too little to transcribe. -/
def discards (length : Nat) (activity : Activity) : Except AudioPanic Bool :=
  if activity.firstActive = length ∨ activity.lastActive ≤ activity.firstActive then .ok true
  else do
    let span ← checkedAdd (← checkedSub activity.lastActive activity.firstActive) 1
    return decide (span < minActiveSamples)

/-- `prepare_audio`: what is transcribed, and what is left of the buffer. -/
def prepareAudio (active : Sample → Bool) (audio : Samples Sample) :
    Except AudioPanic (List Sample × List Sample) :=
  let length := audio.samples.length
  if audio.samples.isEmpty then .ok ([], audio.samples)
  else do
    let activity := scan active length audio.samples
    let tooShort ← discards length activity
    if tooShort then return ([], audio.samples)
    let start := activity.firstActive - trimPaddingSamples
    let padded ← checkedAdd (← checkedAdd activity.lastActive trimPaddingSamples) 1
    let stop := min padded length
    if start > 0 ∨ stop < length then
      -- the length of the slice is logged first
      let _logged ← checkedSub stop start
      let trimmed ← slice audio.samples start stop
      return (trimmed, audio.samples)
    else return (audio.samples, [])

/-! ## The scan -/

/-- All active samples lie between these two, which are active. -/
structure Spans (active : Sample → Bool) (audio : List Sample) (first last : Nat) : Prop where
  first_active : ∃ sample, audio[first]? = some sample ∧ active sample
  last_active : ∃ sample, audio[last]? = some sample ∧ active sample
  between : ∀ {i : Nat} {sample}, audio[i]? = some sample → active sample → first ≤ i ∧ i ≤ last

theorem Spans.last_lt {active : Sample → Bool} {audio : List Sample} {first last : Nat}
    (spans : Spans active audio first last) : last < audio.length := by
  obtain ⟨sample, found, -⟩ := spans.last_active
  exact (List.getElem?_eq_some_iff.mp found).choose

theorem Spans.first_le_last {active : Sample → Bool} {audio : List Sample} {first last : Nat}
    (spans : Spans active audio first last) : first ≤ last := by
  obtain ⟨sample, found, loud⟩ := spans.first_active
  exact (spans.between found loud).2

theorem scan_concat (active : Sample → Bool) (length : Nat) (audio : List Sample)
    (sample : Sample) :
    scan active length (audio ++ [sample]) =
      note active length (scan active length audio) (sample, audio.length) := by
  simp [scan, List.zipIdx_append]

/-- A sample of a buffer with one more is the last one or one of the others. -/
theorem getElem?_concat_cases {audio : List Sample} {sample : Sample} {i : Nat} {found : Sample}
    (at_i : (audio ++ [sample])[i]? = some found) :
    audio[i]? = some found ∨ i = audio.length ∧ found = sample := by
  obtain below | above := Nat.lt_or_ge i audio.length
  · rw [List.getElem?_append_left below] at at_i
    exact .inl at_i
  · rw [List.getElem?_append_right above, List.getElem?_singleton] at at_i
    split at at_i
    · next last => exact .inr ⟨by omega, (Option.some.inj at_i).symm⟩
    · cases at_i

theorem getElem?_concat_of_some {audio : List Sample} {sample found : Sample} {i : Nat}
    (at_i : audio[i]? = some found) : (audio ++ [sample])[i]? = some found := by
  have below : i < audio.length := (List.getElem?_eq_some_iff.mp at_i).choose
  rw [List.getElem?_append_left below, at_i]

/-- The scan met no active sample, or it knows the first and the last one. -/
theorem scan_spec (active : Sample → Bool) {length : Nat} (audio : List Sample)
    (room : audio.length ≤ length) :
    ((scan active length audio).firstActive = length ∧ ∀ sample ∈ audio, ¬ active sample) ∨
      ((scan active length audio).firstActive < length ∧
        Spans active audio (scan active length audio).firstActive
          (scan active length audio).lastActive) := by
  induction audio using List.reverseRecOn with
  | nil => exact .inl ⟨rfl, by simp⟩
  | append_singleton audio sample induction =>
      have short : audio.length < length := by
        rw [List.length_append, List.length_singleton] at room
        exact room
      rw [scan_concat, note]
      by_cases loud : active sample
      · have here : (audio ++ [sample])[audio.length]? = some sample := by simp
        rw [if_pos loud]
        refine .inr ?_
        obtain ⟨none_yet, quiet⟩ | ⟨first_lt, spans⟩ := induction short.le
        · rw [if_pos none_yet]
          refine ⟨short, ⟨sample, here, loud⟩, ⟨sample, here, loud⟩, fun at_i active_i => ?_⟩
          obtain earlier | ⟨rfl, -⟩ := getElem?_concat_cases at_i
          · exact absurd active_i (quiet _ (List.mem_of_getElem? earlier))
          · exact ⟨le_rfl, le_rfl⟩
        · rw [if_neg first_lt.ne]
          obtain ⟨first, at_first, first_active⟩ := spans.first_active
          refine ⟨first_lt, ⟨first, getElem?_concat_of_some at_first, first_active⟩,
            ⟨sample, here, loud⟩, fun at_i active_i => ?_⟩
          have last_lt := spans.last_lt
          have first_le := spans.first_le_last
          obtain earlier | ⟨rfl, -⟩ := getElem?_concat_cases at_i
          · have between := spans.between earlier active_i
            dsimp only
            omega
          · dsimp only
            omega
      · rw [if_neg loud]
        obtain ⟨none_yet, quiet⟩ | ⟨first_lt, spans⟩ := induction short.le
        · refine .inl ⟨none_yet, fun other member => ?_⟩
          obtain earlier | last := List.mem_append.mp member
          · exact quiet other earlier
          · rwa [List.mem_singleton.mp last]
        · obtain ⟨first, at_first, first_active⟩ := spans.first_active
          obtain ⟨last, at_last, last_active⟩ := spans.last_active
          refine .inr ⟨first_lt, ⟨first, getElem?_concat_of_some at_first, first_active⟩,
            ⟨last, getElem?_concat_of_some at_last, last_active⟩, fun at_i active_i => ?_⟩
          obtain earlier | ⟨-, rfl⟩ := getElem?_concat_cases at_i
          · exact spans.between earlier active_i
          · exact absurd active_i loud

theorem Spans.unique {active : Sample → Bool} {audio : List Sample} {first last first' last' : Nat}
    (spans : Spans active audio first last) (spans' : Spans active audio first' last') :
    first = first' ∧ last = last' := by
  obtain ⟨_, at_first, first_active⟩ := spans.first_active
  obtain ⟨_, at_last, last_active⟩ := spans.last_active
  obtain ⟨_, at_first', first_active'⟩ := spans'.first_active
  obtain ⟨_, at_last', last_active'⟩ := spans'.last_active
  exact ⟨(spans.between at_first' first_active').1.antisymm
      (spans'.between at_first first_active).1,
    (spans'.between at_last last_active).2.antisymm (spans.between at_last' last_active').2⟩

theorem scan_of_spans {active : Sample → Bool} {audio : List Sample} {first last : Nat}
    (spans : Spans active audio first last) : scan active audio.length audio = ⟨first, last⟩ := by
  obtain ⟨-, quiet⟩ | ⟨-, scanned⟩ := scan_spec active audio le_rfl
  · obtain ⟨sample, at_first, first_active⟩ := spans.first_active
    exact absurd first_active (quiet sample (List.mem_of_getElem? at_first))
  · obtain ⟨same_first, same_last⟩ := scanned.unique spans
    rw [← same_first, ← same_last]

/-! ## The arithmetic -/

theorem ok_bind {α β : Type} (value : α) (next : α → Except AudioPanic β) :
    (Except.ok value >>= next) = next value := rfl

theorem checkedAdd_eq {left right : Nat} (fits : left + right < 2 ^ 64) :
    checkedAdd left right = .ok (left + right) := if_pos fits

theorem checkedSub_eq {left right : Nat} (fits : right ≤ left) :
    checkedSub left right = .ok (left - right) := if_pos fits

theorem slice_eq {audio : List Sample} {start stop : Nat} (ordered : start ≤ stop)
    (inside : stop ≤ audio.length) :
    slice audio start stop = .ok ((audio.take stop).drop start) := if_pos ⟨ordered, inside⟩

theorem discards_eq {length first last : Nat} (ordered : first ≤ last) (inside : last < length)
    (fits : length < 2 ^ 63) :
    discards length ⟨first, last⟩ = .ok (decide (last - first + 1 < minActiveSamples)) := by
  have padding : 1 < minActiveSamples := by decide
  unfold discards
  split
  · next none_or_one =>
      have narrow : last - first + 1 < minActiveSamples := by
        dsimp only at none_or_one
        omega
      rw [decide_eq_true narrow]
  · have room : last - first + 1 < 2 ^ 64 := by omega
    simp only [checkedSub_eq ordered, ok_bind, checkedAdd_eq room]
    rfl

/-! ## What is transcribed -/

section Prepare

variable {active : Sample → Bool} {audio : Samples Sample} {first last : Nat}

theorem prepareAudio_of_quiet (quiet : ∀ sample ∈ audio.samples, ¬ active sample) :
    prepareAudio active audio = .ok ([], audio.samples) := by
  obtain ⟨none_yet, -⟩ | ⟨-, spans⟩ := scan_spec active audio.samples le_rfl
  · unfold prepareAudio
    dsimp only
    split
    · rfl
    · have discarded : discards audio.samples.length
          (scan active audio.samples.length audio.samples) = .ok true := if_pos (.inl none_yet)
      rw [discarded]
      rfl
  · obtain ⟨sample, at_first, first_active⟩ := spans.first_active
    exact absurd first_active (quiet sample (List.mem_of_getElem? at_first))

theorem prepareAudio_of_short (spans : Spans active audio.samples first last)
    (short : last - first + 1 < minActiveSamples) :
    prepareAudio active audio = .ok ([], audio.samples) := by
  have fits := audio.fits
  have inside := spans.last_lt
  unfold prepareAudio
  dsimp only
  split
  · rfl
  · rw [scan_of_spans spans, discards_eq spans.first_le_last inside (by omega),
      decide_eq_true short]
    rfl

/-- The samples from the padding before the first active one to the padding after the last. -/
theorem prepareAudio_of_long (spans : Spans active audio.samples first last)
    (long : minActiveSamples ≤ last - first + 1) :
    ∃ rest, prepareAudio active audio =
      .ok ((audio.samples.take (min (last + trimPaddingSamples + 1) audio.samples.length)).drop
        (first - trimPaddingSamples), rest) := by
  have fits := audio.fits
  have inside := spans.last_lt
  have ordered := spans.first_le_last
  have padding : trimPaddingSamples = 1600 := rfl
  have some : ¬ audio.samples.isEmpty := by
    rw [List.isEmpty_iff_length_eq_zero]
    omega
  have padded : last + trimPaddingSamples < 2 ^ 64 := by omega
  have padded_one : last + trimPaddingSamples + 1 < 2 ^ 64 := by omega
  have kept : discards audio.samples.length ⟨first, last⟩ = .ok false := by
    rw [discards_eq ordered inside (by omega), decide_eq_false (by omega)]
  unfold prepareAudio
  simp only [some, Bool.false_eq_true, ↓reduceIte, scan_of_spans spans, kept, ok_bind,
    checkedAdd_eq padded, checkedAdd_eq padded_one]
  split
  · have nonempty : first - trimPaddingSamples ≤
      min (last + trimPaddingSamples + 1) audio.samples.length := by omega
    rw [checkedSub_eq nonempty, ok_bind, slice_eq nonempty (Nat.min_le_right ..)]
    exact ⟨audio.samples, rfl⟩
  · next whole =>
      have start : first - trimPaddingSamples = 0 := by omega
      have stop : min (last + trimPaddingSamples + 1) audio.samples.length =
        audio.samples.length := by omega
      rw [start, stop, List.take_length, List.drop_zero]
      exact ⟨[], rfl⟩

/-- The part is one slice of the audio.  It holds every active sample, and reaches beyond the
first and the last one by at most the padding. -/
def Cut (active : Sample → Bool) (audio part : List Sample) : Prop :=
  ∃ first last start stop, Spans active audio first last ∧ stop ≤ audio.length ∧
    part = (audio.take stop).drop start ∧
    (start ≤ first ∧ first ≤ start + trimPaddingSamples) ∧
    (last < stop ∧ stop ≤ last + 1 + trimPaddingSamples)

/-- For every buffer and every threshold, nothing panics, and what is transcribed is nothing or a
slice with every active sample and at most the padding around them. -/
theorem prepareAudio_cut (active : Sample → Bool) (audio : Samples Sample) :
    ∃ part rest, prepareAudio active audio = .ok (part, rest) ∧
      (part = [] ∨ Cut active audio.samples part) := by
  obtain ⟨-, quiet⟩ | ⟨-, spans⟩ := scan_spec active audio.samples le_rfl
  · exact ⟨[], audio.samples, prepareAudio_of_quiet quiet, .inl rfl⟩
  obtain short | long := Nat.lt_or_ge ((scan active audio.samples.length audio.samples).lastActive
    - (scan active audio.samples.length audio.samples).firstActive + 1) minActiveSamples
  · exact ⟨[], audio.samples, prepareAudio_of_short spans short, .inl rfl⟩
  · obtain ⟨rest, prepared⟩ := prepareAudio_of_long spans long
    have inside := spans.last_lt
    refine ⟨_, rest, prepared, .inr ⟨_, _, _, _, spans, Nat.min_le_right .., rfl, ?_, ?_⟩⟩ <;> omega

end Prepare

end Samples

end Core

end Typio
