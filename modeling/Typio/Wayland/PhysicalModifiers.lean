import Typio.Wayland.ArbiterReplay

/-!
# The physical modifiers

The keyboard keeps one bit for the left and the right key of a modifier.  A press sets the bit and a
release clears it, so the bit follows the keys as long as no other key of the modifier is held when
one is released.
-/

namespace Typio

/-- The bits of the physical modifiers. -/
def Modifiers.tracked : List Modifiers :=
  [Modifiers.shift, Modifiers.ctrl, Modifiers.alt, Modifiers.super]

namespace Frontend

variable (engine : Engine) {frontend : Frontend} {keyboard : Keyboard}

/-! ## The modifiers of a dispatched key -/

theorem processKeyEvent_physical (frontend : Frontend) (event : KeyEvent) :
    (frontend.processKeyEvent engine event).keyboard.map (·.physicalModifiers) =
      frontend.keyboard.map (·.physicalModifiers) :=
  (RouteFrame.of_edits (RouteEdits.processKeyEvent engine frontend event)).physicalModifiers

theorem updateArbiter_physical (frontend : Frontend) (update : KeyArbiter → KeyArbiter) :
    (frontend.updateArbiter update).keyboard.map (·.physicalModifiers) =
      frontend.keyboard.map (·.physicalModifiers) := by
  simp [updateArbiter, Function.comp_def]

theorem arbiterReplay_physical (frontend : Frontend) (buffer : List KeyEvent) :
    (frontend.arbiterReplay engine buffer).keyboard.map (·.physicalModifiers) =
      frontend.keyboard.map (·.physicalModifiers) := by
  rw [arbiterReplay, updateArbiter_physical]
  induction buffer generalizing frontend with
  | nil => rfl
  | cons event buffer induction =>
      rw [List.foldl_cons, induction, processKeyEvent_physical]

theorem arbiterConsume_physical (frontend : Frontend) (buffer : List KeyEvent) :
    (frontend.arbiterConsume engine buffer).keyboard.map (·.physicalModifiers) =
      frontend.keyboard.map (·.physicalModifiers) := by
  have released := RouteFrame.of_edits (RouteEdits.arbiterReleaseOrphanedKeys frontend buffer)
  rw [arbiterConsume, updateArbiter_physical, ArbiterRun.nextEngine_keyboard]
  exact released.physicalModifiers

/-- However the arbiter takes an event, the physical modifiers follow the event alone. -/
theorem dispatchKey_physical (keyboard_eq : frontend.keyboard = some keyboard)
    (event : KeyEvent) :
    (frontend.dispatchKey engine event).keyboard.map (·.physicalModifiers) =
      some (keyboard.physicalAfter event) := by
  have noted : (frontend.noteKey event).keyboard.map (·.physicalModifiers) =
      some (keyboard.physicalAfter event) := by
    simp [noteKey, keyboard_eq]
  rw [dispatchKey_eq engine keyboard_eq]
  split
  next pass => rw [processKeyEvent_physical, noted]
  next start => rw [updateArbiter_physical, noted]
  next store => rw [updateArbiter_physical, noted]
  next replay => rw [processKeyEvent_physical, arbiterReplay_physical, noted]
  next consume => rw [arbiterConsume_physical, updateArbiter_physical, noted]

end Frontend

/-! ## Bits -/

namespace Modifiers

variable {bit other : Modifiers}

theorem modifierBitForKeysym_cases (keysym : Keysym) :
    modifierBitForKeysym keysym = 0 ∨ modifierBitForKeysym keysym ∈ tracked := by
  simp only [modifierBitForKeysym]
  repeat' split
  all_goals decide

/-- What is checked for every two bits holds of each two. -/
theorem of_bits (property : Modifiers → Modifiers → Bool)
    (every : ((0 :: tracked).all fun bit => tracked.all (property bit)) = true)
    (left : bit = 0 ∨ bit ∈ tracked) (right : other ∈ tracked) : property bit other = true :=
  List.all_eq_true.mp (List.all_eq_true.mp every bit (List.mem_cons.mpr left)) other right

/-- Two bits have nothing in common unless they are the same. -/
theorem and_tracked (left : bit = 0 ∨ bit ∈ tracked) (right : other ∈ tracked) :
    bit &&& other = if bit = other then other else 0 :=
  of_decide_eq_true (of_bits
    (fun bit other => decide (bit &&& other = if bit = other then other else 0)) (by decide)
    left right)

theorem complement_and_tracked (left : bit = 0 ∨ bit ∈ tracked) (right : other ∈ tracked) :
    ~~~bit &&& other = if bit = other then 0 else other :=
  of_decide_eq_true (of_bits
    (fun bit other => decide (~~~bit &&& other = if bit = other then 0 else other)) (by decide)
    left right)

theorem ne_zero_of_tracked (member : bit ∈ tracked) : bit ≠ 0 := by
  rintro rfl
  revert member
  decide

theorem or_and_distrib (left right mask : Modifiers) :
    (left ||| right) &&& mask = (left &&& mask) ||| (right &&& mask) := by
  rw [← UInt32.toNat_inj]
  simp only [UInt32.toNat_and, UInt32.toNat_or]
  exact Nat.and_or_distrib_right ..

/-- A press sets the bit of its key, and a release clears it. -/
theorem modifiersForCurrentKey_and (physical : Modifiers) (keysym : Keysym) (pressed : Bool)
    (member : bit ∈ tracked) :
    modifiersForCurrentKey physical keysym pressed &&& bit ≠ 0 ↔
      if modifierBitForKeysym keysym = bit then pressed = true else physical &&& bit ≠ 0 := by
  have known := modifierBitForKeysym_cases keysym
  have nonzero := ne_zero_of_tracked member
  cases pressed with
  | true =>
      rw [modifiersForCurrentKey, if_pos rfl, or_and_distrib, and_tracked known member]
      split
      next same => simp [nonzero]
      next different => simp
  | false =>
      rw [modifiersForCurrentKey, if_neg Bool.false_ne_true, UInt32.and_assoc,
        complement_and_tracked known member]
      split
      next same => simp
      next different => rfl

end Modifiers

/-! ## Runs -/

/-- A frontend with the modifiers its keys are held as; 0 stands for a key which is up, or which
was pressed as another key. -/
structure ModifierRun where
  frontend : Frontend
  heldAs : Nat → Modifiers

namespace ModifierRun

/-- A key event arrives which the routing guard accepts. -/
def step (engine : Engine) (run : ModifierRun) (event : KeyEvent) : ModifierRun where
  frontend := run.frontend.dispatchKey engine event
  heldAs := Function.update run.heldAs event.key
    (if event.isPress then modifierBitForKeysym event.keysym else 0)

/-- A grab has just been made. -/
def start (frontend : Frontend) (createdAtEpoch : Nat) (repeatTimer : Bool) : ModifierRun where
  frontend := { frontend with keyboard := some (Keyboard.fresh createdAtEpoch repeatTimer) }
  heldAs := fun _ => 0

/-- Each bit is set exactly while a key of its modifier is held. -/
def Tracked (run : ModifierRun) : Prop :=
  ∀ keyboard, run.frontend.keyboard = some keyboard → ∀ bit ∈ Modifiers.tracked,
    (keyboard.physicalModifiers &&& bit ≠ 0 ↔ ∃ key, run.heldAs key = bit)

/-- A key which is released is the only one held of the modifier it is released as; and a key which
is no longer held as the modifier it was held as leaves another one held as this modifier, unless it
is released as this modifier. -/
def ReleasesAlone (run : ModifierRun) (event : KeyEvent) : Prop :=
  (event.isPress = false → modifierBitForKeysym event.keysym ≠ 0 →
    ∀ other ≠ event.key, run.heldAs other ≠ modifierBitForKeysym event.keysym) ∧
  (run.heldAs event.key ≠ 0 → run.heldAs event.key ≠ modifierBitForKeysym event.keysym →
    ∃ other ≠ event.key, run.heldAs other = run.heldAs event.key)

theorem step_heldAs_self (run : ModifierRun) (engine : Engine) (event : KeyEvent) :
    (run.step engine event).heldAs event.key =
      if event.isPress then modifierBitForKeysym event.keysym else 0 :=
  Function.update_self ..

theorem step_heldAs_of_ne (run : ModifierRun) (engine : Engine) (event : KeyEvent) {key : Nat}
    (other : key ≠ event.key) : (run.step engine event).heldAs key = run.heldAs key :=
  Function.update_of_ne other ..

/-- The keyboard is there, and keys are held as modifiers which have a bit. -/
structure Sound (run : ModifierRun) : Prop where
  grabbed : run.frontend.keyboard.isSome = true
  held : ∀ key, run.heldAs key = 0 ∨ run.heldAs key ∈ Modifiers.tracked

theorem Sound.step {run : ModifierRun} (sound : run.Sound) (engine : Engine) (event : KeyEvent) :
    (run.step engine event).Sound where
  grabbed := by
    obtain ⟨keyboard, keyboard_eq⟩ := Option.isSome_iff_exists.mp sound.grabbed
    have physical := run.frontend.dispatchKey_physical engine keyboard_eq event
    obtain ⟨later, later_eq, -⟩ := Option.map_eq_some_iff.mp physical
    exact Option.isSome_iff_exists.mpr ⟨later, later_eq⟩
  held := by
    intro key
    by_cases same : key = event.key
    · rw [same, step_heldAs_self]
      split
      next pressed => exact Modifiers.modifierBitForKeysym_cases event.keysym
      next released => exact .inl rfl
    · rw [step_heldAs_of_ne run engine event same]
      exact sound.held key

/-- What holds a modifier after an event. -/
theorem exists_heldAs_step (run : ModifierRun) (engine : Engine) (event : KeyEvent)
    {bit : Modifiers} (nonzero : bit ≠ 0) :
    (∃ key, (run.step engine event).heldAs key = bit) ↔
      (event.isPress = true ∧ modifierBitForKeysym event.keysym = bit) ∨
        ∃ key ≠ event.key, run.heldAs key = bit := by
  constructor
  · rintro ⟨key, held⟩
    by_cases same : key = event.key
    · rw [same, step_heldAs_self] at held
      split at held
      next pressed => exact .inl ⟨pressed, held⟩
      next released => exact absurd held.symm nonzero
    · rw [step_heldAs_of_ne run engine event same] at held
      exact .inr ⟨key, same, held⟩
  · rintro (⟨pressed, same⟩ | ⟨key, other, held⟩)
    · refine ⟨event.key, ?_⟩
      rw [step_heldAs_self, if_pos pressed, same]
    · refine ⟨key, ?_⟩
      rw [step_heldAs_of_ne run engine event other, held]

/-- After an event, one bit still says what it should exactly under the condition on this bit. -/
theorem bit_step_iff {run : ModifierRun} {event : KeyEvent} {physical bit : Modifiers}
    (engine : Engine) (nonzero : bit ≠ 0)
    (before : physical &&& bit ≠ 0 ↔ ∃ key, run.heldAs key = bit) :
    ((if modifierBitForKeysym event.keysym = bit then event.isPress = true
        else physical &&& bit ≠ 0) ↔ ∃ key, (run.step engine event).heldAs key = bit) ↔
      (event.isPress = false → modifierBitForKeysym event.keysym = bit →
        ∀ other ≠ event.key, run.heldAs other ≠ bit) ∧
      (run.heldAs event.key = bit → bit ≠ modifierBitForKeysym event.keysym →
        ∃ other ≠ event.key, run.heldAs other = bit) := by
  rw [run.exists_heldAs_step engine event nonzero]
  by_cases same : modifierBitForKeysym event.keysym = bit
  · rw [if_pos same]
    cases event.isPress with
    | true => simp [same]
    | false => simp [same]
  · rw [if_neg same, before]
    simp only [same, and_false, false_or, false_implies, implies_true, true_and]
    constructor
    · rintro agree held -
      exact agree.mp ⟨event.key, held⟩
    · intro passed
      constructor
      · rintro ⟨key, held⟩
        by_cases own : key = event.key
        · exact passed (own ▸ held) fun equal => same equal.symm
        · exact ⟨key, own, held⟩
      · rintro ⟨key, -, held⟩
        exact ⟨key, held⟩

theorem tracked_step_iff {run : ModifierRun} (engine : Engine) (sound : run.Sound)
    (tracked : run.Tracked) (event : KeyEvent) :
    (run.step engine event).Tracked ↔ run.ReleasesAlone event := by
  obtain ⟨keyboard, keyboard_eq⟩ := Option.isSome_iff_exists.mp sound.grabbed
  have physical := run.frontend.dispatchKey_physical engine keyboard_eq event
  obtain ⟨later, later_eq, later_physical⟩ := Option.map_eq_some_iff.mp physical
  have bits : (run.step engine event).Tracked ↔ ∀ bit ∈ Modifiers.tracked,
      ((if modifierBitForKeysym event.keysym = bit then event.isPress = true
        else keyboard.physicalModifiers &&& bit ≠ 0) ↔
          ∃ key, (run.step engine event).heldAs key = bit) := by
    rw [Tracked, ModifierRun.step]
    simp only [later_eq, Option.some.injEq, forall_eq', later_physical, Keyboard.physicalAfter]
    refine forall₂_congr fun bit member => ?_
    rw [Modifiers.modifiersForCurrentKey_and _ _ _ member]
  rw [bits]
  have each : ∀ bit ∈ Modifiers.tracked, _ := fun bit member =>
    @bit_step_iff run event keyboard.physicalModifiers bit engine
      (Modifiers.ne_zero_of_tracked member) (tracked keyboard keyboard_eq bit member)
  rw [forall₂_congr each]
  constructor
  · intro passes
    refine ⟨fun released nonzero => ?_, fun nonzero other => ?_⟩
    · have member := (Modifiers.modifierBitForKeysym_cases event.keysym).resolve_left nonzero
      exact (passes _ member).1 released rfl
    · have member := (sound.held event.key).resolve_left nonzero
      exact (passes _ member).2 rfl other
  · rintro ⟨alone, passed⟩ bit member
    have nonzero := Modifiers.ne_zero_of_tracked member
    refine ⟨fun released same => ?_, fun held other => ?_⟩
    · exact same ▸ alone released (same ▸ nonzero)
    · exact held ▸ passed (held ▸ nonzero) (held ▸ other)

theorem start_tracked (frontend : Frontend) (createdAtEpoch : Nat) (repeatTimer : Bool) :
    (start frontend createdAtEpoch repeatTimer).Tracked := by
  rintro keyboard ⟨⟩ bit member
  refine iff_of_false (fun set => set ?_) ?_
  · exact UInt32.zero_and
  · rintro ⟨key, held⟩
    exact Modifiers.ne_zero_of_tracked member held.symm

/-- On every grab, the bits follow the held keys throughout exactly in the runs which release each
modifier key alone and as the modifier it was pressed as. -/
theorem tracked_iff_releasesAlone (engine : Engine) (frontend : Frontend) (createdAtEpoch : Nat)
    (repeatTimer : Bool) (events : List KeyEvent) :
    Machine.Always (step engine) Tracked (start frontend createdAtEpoch repeatTimer) events ↔
      Machine.EachStep (step engine) ReleasesAlone (start frontend createdAtEpoch repeatTimer)
        events :=
  Machine.always_iff_eachStep Sound
    (fun _ event sound tracked => tracked_step_iff engine sound tracked event)
    (fun _ event sound _ _ => sound.step engine event)
    ⟨rfl, fun _ => .inl rfl⟩ (start_tracked frontend createdAtEpoch repeatTimer)

/-- The left and the right Shift key are pressed. -/
def bothShifts : List KeyEvent :=
  [⟨true, 42, Keysym.shiftL, 0, 0, 0⟩, ⟨true, 54, Keysym.shiftR, 0, 0, 0⟩]

def releaseLeftShift : KeyEvent := ⟨false, 42, Keysym.shiftL, Modifiers.shift, 0, 0⟩

/-- The bit of Shift is cleared by the release of the left key, while the right one is held. -/
theorem released_shift_untracked :
    ¬ Machine.Always (step fun _ => ⟨true, [], none⟩) Tracked
      (start (Frontend.attended ⟨some "rime", none, false, false⟩ ShortcutConfig.defaults
        (World.obliging 1000)) 0 true) (bothShifts ++ [releaseLeftShift]) := by
  intro always
  have sound : Machine.Always (step fun _ => ⟨true, [], none⟩) Sound
      (start (Frontend.attended ⟨some "rime", none, false, false⟩ ShortcutConfig.defaults
        (World.obliging 1000)) 0 true) (bothShifts ++ [releaseLeftShift]) :=
    Machine.Always.of_preserved Sound (fun _ event sound => sound.step _ event)
      ⟨rfl, fun _ => .inl rfl⟩
  have both := List.prefix_append bothShifts [releaseLeftShift]
  have final := always.final
  rw [Machine.run_concat] at final
  have alone := (tracked_step_iff _ (sound _ both) (always _ both) releaseLeftShift).mp final
  exact alone.1 rfl (by decide) 54 (by decide) rfl

end ModifierRun

end Typio
