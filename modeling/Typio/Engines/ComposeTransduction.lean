import Mathlib.Data.List.Find
import Typio.Engines.Basic
import Typio.Machine

/-!
# Compose sequences as a transduction

A key which begins a pair waits for the second one.  Together they are replaced by the character
of the table; if there is none, the first key is typed and the second is taken afresh.  The engine
types the second key at once even if it could begin a pair itself, and its packed word confuses a
key beyond U+FFFF with one of the table.
-/

namespace Typio

namespace Engines

/-! ## The reference -/

/-- The character which the table has for exactly this pair of code points. -/
def composed (first second : UInt32) : Option UInt32 :=
  (composePairs.find? fun pair => pair.1.val == first && pair.2.1.val == second).map (·.2.2)

/-- A pair of the table begins with the code point. -/
def startsPair (codepoint : UInt32) : Bool :=
  composePairs.any fun pair => pair.1.val == codepoint

/-- The text typed so far, and the key which waits for a second one. -/
structure Transduction where
  pending : Option UInt32
  output : List UInt32
  deriving DecidableEq

namespace Transduction

/-- A key while none waits. -/
def fresh (output : List UInt32) (key : UInt32) : Transduction :=
  if startsPair key then ⟨some key, output⟩ else ⟨none, output ++ [key]⟩

/-- One key. -/
def take (transduction : Transduction) (key : UInt32) : Transduction :=
  match transduction.pending with
  | none => fresh transduction.output key
  | some first =>
      match composed first key with
      | some result => ⟨none, transduction.output ++ [result]⟩
      | none => fresh (transduction.output ++ [first]) key

/-- The transduction of a sequence of keys. -/
def of (keys : List UInt32) : Transduction := keys.foldl take ⟨none, []⟩

@[simp] theorem of_concat (keys : List UInt32) (key : UInt32) :
    of (keys ++ [key]) = (of keys).take key := by
  simp [of]

end Transduction

/-- A key typed as it is, or a pair of keys typed as the character of the table. -/
inductive Typed
  | single (key : UInt32)
  | pair (first second result : UInt32) (exact : composed first second = some result)

namespace Typed

/-- The keys which are typed. -/
def keys : Typed → List UInt32
  | single key => [key]
  | pair first second _ _ => [first, second]

/-- The character they are typed as. -/
def text : Typed → UInt32
  | single key => key
  | pair _ _ result _ => result

end Typed

namespace Transduction

/-- The keys are cut, in order and without remainder, into single keys, exact pairs of the table
and the key which waits; the output has one character for each piece. -/
theorem of_typed (keys : List UInt32) :
    ∃ pieces : List Typed,
      keys = pieces.flatMap Typed.keys ++ (of keys).pending.toList ∧
      (of keys).output = pieces.map Typed.text := by
  induction keys using List.reverseRecOn with
  | nil => exact ⟨[], rfl, rfl⟩
  | append_singleton keys key induction =>
      obtain ⟨pieces, keys_eq, output_eq⟩ := induction
      have taken_fresh (pieces : List Typed) (whole : keys = pieces.flatMap Typed.keys)
          (transduction_eq : (of keys).take key = fresh (pieces.map Typed.text) key) :
          ∃ pieces : List Typed,
            keys ++ [key] = pieces.flatMap Typed.keys ++ ((of keys).take key).pending.toList ∧
            ((of keys).take key).output = pieces.map Typed.text := by
        rw [transduction_eq, fresh]
        split
        next starts => exact ⟨pieces, by simp [whole], rfl⟩
        next plain =>
          exact ⟨pieces ++ [.single key], by simp [whole, Typed.keys], by simp [Typed.text]⟩
      rw [of_concat]
      cases pending_eq : (of keys).pending with
      | none =>
          rw [pending_eq, Option.toList_none, List.append_nil] at keys_eq
          refine taken_fresh pieces keys_eq ?_
          simp [take, pending_eq, output_eq]
      | some first =>
          rw [pending_eq, Option.toList_some] at keys_eq
          cases composed_eq : composed first key with
          | none =>
              refine taken_fresh (pieces ++ [.single first]) (by simp [← keys_eq, Typed.keys]) ?_
              simp [take, pending_eq, composed_eq, output_eq, Typed.text]
          | some result =>
              refine ⟨pieces ++ [.pair first key result composed_eq], ?_, ?_⟩
              · conv_lhs => rw [keys_eq]
                simp [take, pending_eq, composed_eq, Typed.keys]
              · simp [take, pending_eq, composed_eq, output_eq, Typed.text]

end Transduction

/-! ## The table -/

theorem composePairs_ascii :
    ∀ pair ∈ composePairs, pair.1.val < 0x80 ∧ pair.2.1.val < 0x80 ∧ pair.2.2 < 0x10000 := by
  decide

/-- Packed words of small code points are equal only for equal pairs. -/
theorem composeKey_inj {first second first' second' : UInt32} (small : second < 0x10000)
    (small' : second' < 0x10000) (first_small : first < 0x10000) (first_small' : first' < 0x10000) :
    composeKey first second = composeKey first' second' ↔ first = first' ∧ second = second' := by
  have packed {high low : UInt32} (high_small : high < 0x10000) (low_small : low < 0x10000) :
      (composeKey high low).toNat = high.toNat * 2 ^ 16 + low.toNat := by
    have high_bound : high.toNat < 2 ^ 16 := UInt32.lt_iff_toNat_lt.mp high_small
    have low_bound : low.toNat < 2 ^ 16 := UInt32.lt_iff_toNat_lt.mp low_small
    have fits : high.toNat <<< 16 < 2 ^ 32 := by
      rw [Nat.shiftLeft_eq]
      omega
    have shifted : (high <<< 16).toNat = high.toNat <<< 16 :=
      (UInt32.toNat_shiftLeft ..).trans (Nat.mod_eq_of_lt fits)
    rw [composeKey, UInt32.toNat_or, shifted, ← Nat.shiftLeft_add_eq_or_of_lt low_bound,
      Nat.shiftLeft_eq]
  constructor
  · intro same
    have same_words := congrArg UInt32.toNat same
    rw [packed first_small small, packed first_small' small'] at same_words
    have bound : second.toNat < 2 ^ 16 := UInt32.lt_iff_toNat_lt.mp small
    have bound' : second'.toNat < 2 ^ 16 := UInt32.lt_iff_toNat_lt.mp small'
    exact ⟨UInt32.toNat_inj.mp (by omega), UInt32.toNat_inj.mp (by omega)⟩
  · rintro ⟨rfl, rfl⟩
    rfl

theorem startsPair_small {codepoint : UInt32} (starts : startsPair codepoint = true) :
    codepoint < 0x80 := by
  obtain ⟨pair, member, same⟩ := List.any_eq_true.mp starts
  rw [← beq_iff_eq.mp same]
  exact (composePairs_ascii pair member).1

theorem composed_small {first second result : UInt32}
    (exact : composed first second = some result) :
    second < 0x80 ∧ result < 0x10000 := by
  obtain ⟨pair, found, rfl⟩ := Option.map_eq_some_iff.mp exact
  have same := List.find?_some found
  simp only [Bool.and_eq_true, beq_iff_eq] at same
  obtain ⟨-, second_small, result_small⟩ :=
    composePairs_ascii pair (List.mem_of_find?_eq_some found)
  exact ⟨same.2 ▸ second_small, result_small⟩

theorem canStartCompose_eq (codepoint : UInt32) :
    canStartCompose codepoint = startsPair codepoint := by
  have high : ∀ pair ∈ composePairs,
      composeKey pair.1.val pair.2.1.val >>> 16 = pair.1.val := by decide
  rw [canStartCompose, composeRules, List.any_map, startsPair, Bool.eq_iff_iff, List.any_eq_true,
    List.any_eq_true]
  refine exists_congr fun pair => and_congr_right fun member => ?_
  simp [high pair member]

/-- The packed lookup finds the exact pair of code points which fit into half a word. -/
theorem findRule_eq {first second : UInt32} (first_small : first < 0x80)
    (second_small : second < 0x10000) :
    (findRule first second).map (·.result) = composed first second := by
  have packed : ∀ pair ∈ composePairs,
      (composeKey pair.1.val pair.2.1.val == composeKey first second) =
        (pair.1.val == first && pair.2.1.val == second) := by
    intro pair member
    obtain ⟨pair_first, pair_second, -⟩ := composePairs_ascii pair member
    have widen {codepoint : UInt32} (small : codepoint < 0x80) : codepoint < 0x10000 :=
      UInt32.lt_trans small (by decide)
    rw [Bool.eq_iff_iff, Bool.and_eq_true, beq_iff_eq, beq_iff_eq, beq_iff_eq]
    exact composeKey_inj (widen pair_second) second_small (widen pair_first) (widen first_small)
  rw [findRule, composeRules, List.find?_map, composed, Option.map_map]
  congr 1
  exact List.find?_congr packed

/-! ## Keys -/

/-- A key which types a printable code point. -/
structure PrintableKey where
  event : UnicodeKeyEvent
  press : event.isRelease = false
  plain : event.isModifierOnly = false
  unblocked : event.modifiers.hasBlocking = false
  notEscape : event.isEscape = false
  visible : 0x20 ≤ event.getUnicode
  notDelete : event.getUnicode ≠ 0x7F
  inRange : event.getUnicode ≤ 0x10FFFF

namespace PrintableKey

/-- The code point which the key types. -/
def codepoint (key : PrintableKey) : UInt32 := key.event.getUnicode

end PrintableKey

/-! ### Encoded code points -/

theorem encodeUtf8_small {codepoint : UInt32} (small : codepoint < 0x80) :
    (encodeUtf8 codepoint).length = 1 := by
  have fits : codepoint ≤ 0x7F :=
    UInt32.le_iff_toNat_le.mpr (Nat.le_of_lt_succ (UInt32.lt_iff_toNat_lt.mp small))
  simp [encodeUtf8, fits]

theorem encodeUtf8_medium {codepoint : UInt32} (medium : codepoint < 0x10000) :
    (encodeUtf8 codepoint).length ≤ 3 := by
  have fits : codepoint ≤ 0xFFFF := 
    UInt32.le_iff_toNat_le.mpr (Nat.le_of_lt_succ (UInt32.lt_iff_toNat_lt.mp medium))
  unfold encodeUtf8
  simp only [fits, if_true]
  repeat' split
  all_goals simp

theorem encodeUtf8_large {codepoint : UInt32} (large : 0x10000 ≤ codepoint)
    (inRange : codepoint ≤ 0x10FFFF) : (encodeUtf8 codepoint).length = 4 := by
  have above {bound : UInt32} (lower : bound < 0x10000) : ¬codepoint ≤ bound := by
    intro fits
    exact absurd (UInt32.lt_of_le_of_lt (UInt32.le_trans large fits) lower) (UInt32.lt_irrefl _)
  simp [encodeUtf8, @above 0x7F (by decide), @above 0x7FF (by decide),
    @above 0xFFFF (by decide), inRange]

/-! ## Runs -/

/-- The engine and its context, with the code points typed. -/
structure ComposeRun where
  host : BasicHost
  typed : List UInt32

namespace ComposeRun

/-- One key. -/
def step (run : ComposeRun) (key : PrintableKey) : ComposeRun where
  host := (run.host.processKey key.event).2
  typed := run.typed ++ [key.codepoint]

/-- The text committed after the given one is the transduction of the keys. -/
def Transduced (before : CString) (run : ComposeRun) : Prop :=
  run.host.context.committed =
    before ++ (Transduction.of run.typed).output.flatMap encodeUtf8

/-- A key which follows a waiting one forms an exact pair of the table with it, or the packed
lookup finds nothing and the key cannot begin a pair. -/
def ComposesAlone (run : ComposeRun) (key : PrintableKey) : Prop :=
  run.host.data.compose.active = true →
    (composed run.host.data.compose.first key.codepoint).isSome = true ∨
      (findRule run.host.data.compose.first key.codepoint = none ∧
        startsPair key.codepoint = false)

instance (run : ComposeRun) (key : PrintableKey) : Decidable (run.ComposesAlone key) :=
  inferInstanceAs (Decidable (_ → _))

/-- The engine waits for a second key when the transduction does. -/
structure Aligned (run : ComposeRun) : Prop where
  enabled : run.host.data.composeEnabled = true
  pending : (Transduction.of run.typed).pending =
    if run.host.data.compose.active then some run.host.data.compose.first else none
  starts : run.host.data.compose.active = true →
    startsPair run.host.data.compose.first = true

end ComposeRun

namespace BasicHost

variable {host : BasicHost}

@[simp] theorem commitCodepoint_committed (codepoint : UInt32) :
    (host.commitCodepoint codepoint).context.committed =
      host.context.committed ++ encodeUtf8 codepoint := by
  unfold commitCodepoint
  split
  next nothing => simp [nothing]
  next => rfl

@[simp] theorem commitCodepoint_data (codepoint : UInt32) :
    (host.commitCodepoint codepoint).data = host.data := by
  unfold commitCodepoint
  split <;> rfl

@[simp] theorem updatePreedit_committed :
    host.updatePreedit.context.committed = host.context.committed := by
  unfold updatePreedit
  split <;> rfl

@[simp] theorem updatePreedit_data : host.updatePreedit.data = host.data := by
  unfold updatePreedit
  split <;> rfl

/-- A printable key goes through the compose sequences when they are enabled. -/
theorem processKey_printable (enabled : host.data.composeEnabled = true) (key : PrintableKey) :
    host.processKey key.event = host.composeKeyPress key.codepoint := by
  have visible : ¬key.event.getUnicode < 0x20 := UInt32.not_lt.mpr key.visible
  have codepoint_eq : key.codepoint = key.event.getUnicode := rfl
  simp [processKey, key.press, key.plain, key.unblocked, key.notEscape, visible, key.notDelete,
    enabled, codepoint_eq]

/-- A key while none waits: held back if it can begin a pair, committed otherwise. -/
theorem composeKeyPress_idle (idle : host.data.compose.active = false) (codepoint : UInt32) :
    let next := (host.composeKeyPress codepoint).2
    next.data.composeEnabled = host.data.composeEnabled ∧
      if startsPair codepoint then
        next.data.compose.active = true ∧ next.data.compose.first = codepoint ∧
          next.context.committed = host.context.committed
      else
        next.data.compose.active = false ∧
          next.context.committed = host.context.committed ++ encodeUtf8 codepoint := by
  by_cases starts : startsPair codepoint = true
  · simp [composeKeyPress, BasicCompose.processKey, idle, canStartCompose_eq, starts, setCompose]
  · simp [composeKeyPress, BasicCompose.processKey, idle, canStartCompose_eq, starts, setCompose]

/-- A key while another waits: the rule which is found is committed, or both keys are. -/
theorem composeKeyPress_active (active : host.data.compose.active = true) (codepoint : UInt32) :
    let next := (host.composeKeyPress codepoint).2
    next.data.composeEnabled = host.data.composeEnabled ∧
      next.data.compose.active = false ∧
      next.context.committed = host.context.committed ++
        match findRule host.data.compose.first codepoint with
        | some rule => encodeUtf8 rule.result
        | none => encodeUtf8 host.data.compose.first ++ encodeUtf8 codepoint := by
  cases found : findRule host.data.compose.first codepoint <;>
    simp [composeKeyPress, BasicCompose.processKey, active, found, setCompose, clear,
      commitCodepoints]

end BasicHost

theorem findRule_result_small {first second : UInt32} {rule : ComposeRule}
    (found : findRule first second = some rule) : rule.result < 0x10000 := by
  obtain ⟨pair, member, rfl⟩ := List.mem_map.mp (List.mem_of_find?_eq_some found)
  exact (composePairs_ascii pair member).2.2

namespace ComposeRun

variable {before : CString} {run : ComposeRun}

theorem step_host (aligned : run.Aligned) (key : PrintableKey) :
    (run.step key).host = (run.host.composeKeyPress key.codepoint).2 := by
  rw [step, BasicHost.processKey_printable aligned.enabled]

theorem of_step (key : PrintableKey) :
    Transduction.of (run.step key).typed = (Transduction.of run.typed).take key.codepoint :=
  Transduction.of_concat run.typed key.codepoint

/-- While no key waits, every key is transduced. -/
theorem step_idle (aligned : run.Aligned) (transduced : run.Transduced before)
    (idle : run.host.data.compose.active = false) (key : PrintableKey) :
    (run.step key).Transduced before ∧ (run.step key).Aligned := by
  have pending_eq : (Transduction.of run.typed).pending = none := by simp [aligned.pending, idle]
  have taken : Transduction.of (run.step key).typed =
      Transduction.fresh (Transduction.of run.typed).output key.codepoint := by
    rw [of_step, Transduction.take, pending_eq]
  obtain ⟨enabled, left⟩ := BasicHost.composeKeyPress_idle idle key.codepoint
  rw [← step_host aligned] at enabled left
  by_cases starts : startsPair key.codepoint = true
  · rw [if_pos starts] at left
    obtain ⟨active, first_eq, committed_eq⟩ := left
    rw [Transduction.fresh, if_pos starts] at taken
    exact ⟨by rw [Transduced, taken, committed_eq, transduced],
      ⟨enabled.trans aligned.enabled, by simp [taken, active, first_eq],
        fun _ => first_eq ▸ starts⟩⟩
  · rw [if_neg starts] at left
    obtain ⟨inactive, committed_eq⟩ := left
    rw [Transduction.fresh, if_neg starts] at taken
    refine ⟨?_, enabled.trans aligned.enabled, by simp [taken, inactive], by simp [inactive]⟩
    rw [Transduced, taken, committed_eq, transduced]
    simp

/-- While a key waits, the next one is transduced exactly when it forms an exact pair with it, or
finds no rule and cannot begin a pair. -/
theorem step_active (aligned : run.Aligned) (transduced : run.Transduced before)
    (active : run.host.data.compose.active = true) (key : PrintableKey) :
    ((run.step key).Transduced before ↔ run.ComposesAlone key) ∧
      (run.ComposesAlone key → (run.step key).Aligned) := by
  have first_small := startsPair_small (aligned.starts active)
  have pending_eq : (Transduction.of run.typed).pending =
      some run.host.data.compose.first := by simp [aligned.pending, active]
  obtain ⟨enabled, inactive, committed_eq⟩ :=
    BasicHost.composeKeyPress_active active key.codepoint
  rw [← step_host aligned] at enabled inactive committed_eq
  have taken := @of_step run key
  rw [Transduction.take, pending_eq] at taken
  simp only [ComposesAlone, active, forall_const]
  rw [Transduced, committed_eq, transduced]
  have aligned_of (pending_eq : (Transduction.of (run.step key).typed).pending = none) :
      (run.step key).Aligned :=
    ⟨enabled.trans aligned.enabled, by simp [pending_eq, inactive], by simp [inactive]⟩
  by_cases half : key.codepoint < 0x10000
  · have exact_eq := findRule_eq first_small half
    cases found : findRule run.host.data.compose.first key.codepoint with
    | some rule =>
        rw [found, Option.map_some] at exact_eq
        simp only [← exact_eq] at taken ⊢
        exact ⟨by simp [taken], fun _ => aligned_of (by rw [taken])⟩
    | none =>
        rw [found, Option.map_none] at exact_eq
        simp only [← exact_eq] at taken ⊢
        by_cases starts : startsPair key.codepoint = true
        · rw [Transduction.fresh, if_pos starts] at taken
          have one := encodeUtf8_small (startsPair_small starts)
          have typed : encodeUtf8 key.codepoint ≠ [] := by
            intro nothing
            rw [nothing] at one
            cases one
          simp [taken, starts, typed]
        · rw [Transduction.fresh, if_neg starts] at taken
          exact ⟨by simp [taken, starts], fun _ => aligned_of (by rw [taken])⟩
  · have large : 0x10000 ≤ key.codepoint := UInt32.not_lt.mp half
    have not_small : ¬key.codepoint < 0x80 := fun small =>
      half (UInt32.lt_trans small (by decide))
    have unpaired : composed run.host.data.compose.first key.codepoint = none := by
      by_contra paired
      obtain ⟨result, exact_eq⟩ := Option.ne_none_iff_exists'.mp paired
      exact not_small (composed_small exact_eq).1
    have plain : startsPair key.codepoint = false := by
      by_contra starts
      exact not_small (startsPair_small (Bool.eq_true_of_not_eq_false starts))
    simp only [unpaired, Transduction.fresh, plain] at taken ⊢
    cases found : findRule run.host.data.compose.first key.codepoint with
    | none => exact ⟨by simp [taken], fun _ => aligned_of (by rw [taken]; rfl)⟩
    | some rule =>
        have short := encodeUtf8_medium (findRule_result_small found)
        have long := encodeUtf8_large large key.inRange
        have one := encodeUtf8_small first_small
        have differ : encodeUtf8 rule.result ≠
            encodeUtf8 run.host.data.compose.first ++ encodeUtf8 key.codepoint := by
          intro same
          have lengths := congrArg List.length same
          rw [List.length_append] at lengths
          omega
        simp [taken, differ]

/-- One key is transduced exactly when it composes alone. -/
theorem step_transduced (aligned : run.Aligned) (transduced : run.Transduced before)
    (key : PrintableKey) :
    ((run.step key).Transduced before ↔ run.ComposesAlone key) ∧
      (run.ComposesAlone key → (run.step key).Aligned) := by
  cases active : run.host.data.compose.active with
  | true => exact step_active aligned transduced active key
  | false =>
      obtain ⟨kept, still_aligned⟩ := step_idle aligned transduced active key
      exact ⟨iff_of_true kept (by simp [ComposesAlone, active]), fun _ => still_aligned⟩

/-- With compose sequences enabled, the text committed is the transduction of the keys at every
point of a sequence of printable keys if and only if each key which follows a waiting one forms an
exact pair with it, or is found by no rule and cannot begin a pair. -/
theorem always_transduced_iff (context : InputContext) (keys : List PrintableKey) :
    Machine.Always step (Transduced context.committed) ⟨.new true context, []⟩ keys ↔
      Machine.EachStep step ComposesAlone ⟨.new true context, []⟩ keys := by
  refine Machine.always_iff_eachStep Aligned ?_ ?_ ⟨rfl, rfl, by simp [BasicHost.new,
    BasicCompose.new]⟩ (by simp [Transduced, Transduction.of, BasicHost.new])
  · intro run key aligned transduced
    exact (step_transduced aligned transduced key).1
  · intro run key aligned transduced alone
    exact (step_transduced aligned transduced key).2 alone

/-- The apostrophe. -/
def apostropheKey : PrintableKey where
  event := { isRelease := false, keysym := 0x27, modifiers := 0, unicode := 0x27 }
  press := by decide
  plain := by decide
  unblocked := by decide
  notEscape := by decide
  visible := by decide
  notDelete := by decide
  inRange := by decide

/-- The quotation mark, typed with Shift. -/
def quoteKey : PrintableKey where
  event := { isRelease := false, keysym := 0x22, modifiers := Modifiers.shift, unicode := 0x22 }
  press := by decide
  plain := by decide
  unblocked := by decide
  notEscape := by decide
  visible := by decide
  notDelete := by decide
  inRange := by decide

/-- A letter beyond U+FFFF. -/
def linearKey : PrintableKey where
  event := { isRelease := false, keysym := 0x1010041, modifiers := 0, unicode := 0x10041 }
  press := by decide
  plain := by decide
  unblocked := by decide
  notEscape := by decide
  visible := by decide
  notDelete := by decide
  inRange := by decide

/-- After the apostrophe a quotation mark is typed at once, although it could begin a pair; and
U+10041 is taken for the letter A, and typed with the apostrophe as one accented letter. -/
theorem pairs_mistaken :
    ¬Machine.Always step (Transduced []) ⟨.new true .new, []⟩ [apostropheKey, quoteKey] ∧
      ¬Machine.Always step (Transduced []) ⟨.new true .new, []⟩ [apostropheKey, linearKey] := by
  constructor
  · intro always
    exact absurd always.final (by unfold Transduced; decide)
  · intro always
    exact absurd always.final (by unfold Transduced; decide)

end ComposeRun

end Engines

end Typio
