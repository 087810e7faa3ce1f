import Typio.Wayland.Frontend

/-!
# Virtual keyboard bridge

Keys and modifiers reach the application through the virtual keyboard, which must have been sent
the compositor keymap of the current grab generation.  Only the log levels, drop counts and
cancellation statistics of the bridge are left out.
-/

namespace Typio

/-- `TYPIO_WL_VK_KEYMAP_TIMEOUT_MS`. -/
def vkKeymapTimeoutMs : Nat := 1500

namespace Frontend

/-- `typio_wl_vk_has_current_generation_keymap`. -/
def vkHasCurrentGenerationKeymap (frontend : Frontend) : Bool :=
  frontend.tracking.activeKeyGeneration != 0 &&
    frontend.vk.keymapGeneration == frontend.tracking.activeKeyGeneration

/-- `typio_wl_vk_set_state`. -/
def vkSetState (frontend : Frontend) (state : VkState) : Frontend :=
  frontend.updateVk fun vk =>
    { vk with
      state := state
      keymapDeadlineMs :=
        if state = .ready ∨ state = .broken ∨ state = .absent then 0
        else vk.keymapDeadlineMs }

/-- `typio_wl_vk_expect_keymap`. -/
def vkExpectKeymap (frontend : Frontend) : Frontend :=
  if frontend.vk.present = false then frontend
  else
    (frontend.updateVk fun vk =>
      { vk with keymapDeadlineMs := frontend.world.now + vkKeymapTimeoutMs })
      |>.vkSetState .needsKeymap

/-- `typio_wl_vk_cancel_keymap_wait`. -/
def vkCancelKeymapWait (frontend : Frontend) : Frontend :=
  if frontend.vk.state ≠ .needsKeymap then frontend
  else if frontend.vkHasCurrentGenerationKeymap then frontend.vkSetState .ready
  else frontend.updateVk fun vk => { vk with keymapDeadlineMs := 0 }

/-- `typio_wl_vk_trigger_fail_safe`. -/
def vkTriggerFailSafe (frontend : Frontend) : Frontend :=
  if frontend.running then frontend.releaseGrab.stop else frontend

/-- The state upgrade at the start of `typio_wl_vk_is_ready`. -/
def vkUpgrade (frontend : Frontend) : Frontend :=
  if frontend.vk.present = true ∧ frontend.vk.state = .needsKeymap ∧
      frontend.vkHasCurrentGenerationKeymap = true then
    frontend.vkSetState .ready
  else frontend

/-- The answer of `typio_wl_vk_is_ready`. -/
def vkIsReady (frontend : Frontend) : Bool := decide (frontend.vkUpgrade.vk.state = .ready)

/-- `typio_wl_vk_is_ready`, and what its caller does when the answer is yes. -/
def whenVkReady (frontend : Frontend) (send : Frontend → Frontend) : Frontend :=
  let frontend := frontend.vkUpgrade
  if frontend.vk.state = .ready then send frontend
  else if frontend.vk.state = .broken then frontend.vkTriggerFailSafe
  else frontend

/-- `typio_wl_vk_health_check`. -/
def vkHealthCheck (frontend : Frontend) : Frontend :=
  if frontend.running && frontend.keyboard.any (·.grab) && frontend.vk.state == .needsKeymap &&
      frontend.vk.keymapDeadlineMs != 0 &&
      decide (frontend.vk.keymapDeadlineMs ≤ frontend.world.now) then
    frontend.vkTriggerFailSafe
  else frontend

/-- `typio_wl_vk_forward_key`. -/
def vkForwardKey (frontend : Frontend) (time key : Nat) (pressed : Bool) : Frontend :=
  frontend.whenVkReady fun frontend => frontend.log (.vkKey time key pressed)

/-- `typio_wl_vk_forward_modifiers` and `typio_wl_vk_forward_modifier_state`. -/
def vkForwardModifiers (frontend : Frontend) (depressed latched locked group : UInt32) :
    Frontend :=
  frontend.whenVkReady fun frontend =>
    frontend.log (.vkModifiers depressed latched locked group)

/-- The loop of `typio_wl_vk_release_forwarded_keys` over the keys. -/
def vkReleaseOwed (frontend : Frontend) (keys : List (Fin maxTrackedKeys)) : Frontend :=
  keys.foldl (fun frontend key =>
    if (frontend.tracking.states key).owed then
      frontend.log (.vkKey frontend.world.now key false)
    else frontend) frontend

/-- `typio_wl_vk_release_forwarded_keys`. -/
def vkReleaseForwardedKeys (frontend : Frontend) : Frontend :=
  if frontend.vk.present = false ∨ frontend.vk.state = .absent ∨ frontend.vk.state = .broken then
    frontend
  else
    (frontend.vkReleaseOwed (List.finRange maxTrackedKeys)).updateTracking
      KeyTracking.markReleasedPending

/-- `typio_wl_vk_reset_modifiers`. -/
def vkResetModifiers (frontend : Frontend) : Frontend :=
  frontend.whenVkReady fun frontend =>
    ((frontend.log (.vkModifiers 0 0 0 0)).setCarriedVkModifiers false).updateKeyboard
      fun keyboard =>
        { keyboard with
          physicalModifiers := 0, modsDepressed := 0, modsLatched := 0, modsLocked := 0,
          modsGroup := 0 }

/-- `typio_wl_vk_forward_keymap`. -/
def vkForwardKeymap (frontend : Frontend) : Frontend :=
  if frontend.vk.present = false then frontend
  else if frontend.world.duplicatesKeymap = false then frontend.vkSetState .broken
  else
    ((frontend.log .vkKeymap).updateVk fun vk =>
      { vk with keymapGeneration := frontend.tracking.activeKeyGeneration })
      |>.vkSetState .ready

/-! ## A ready virtual keyboard -/

theorem whenVkReady_of_ready {frontend : Frontend} (ready : frontend.vk.state = .ready)
    (send : Frontend → Frontend) : frontend.whenVkReady send = send frontend := by
  simp [whenVkReady, vkUpgrade, ready]

theorem vkForwardKey_of_ready {frontend : Frontend} (ready : frontend.vk.state = .ready)
    (time key : Nat) (pressed : Bool) :
    frontend.vkForwardKey time key pressed = frontend.log (.vkKey time key pressed) :=
  whenVkReady_of_ready ready _

/-- `typio_wl_vk_forward_key` sends the key when the virtual keyboard is ready. -/
theorem vkForwardKey_of_isReady {frontend : Frontend} (ready : frontend.vkIsReady = true)
    (time key : Nat) (pressed : Bool) :
    frontend.vkForwardKey time key pressed = frontend.vkUpgrade.log (.vkKey time key pressed) := by
  have upgraded : frontend.vkUpgrade.vk.state = .ready := by simpa [vkIsReady] using ready
  simp [vkForwardKey, whenVkReady, upgraded]

theorem vkIsReady_iff (frontend : Frontend) :
    frontend.vkIsReady = true ↔ frontend.vk.state = .ready ∨
      (frontend.vk.present = true ∧ frontend.vk.state = .needsKeymap ∧
        frontend.vkHasCurrentGenerationKeymap = true) := by
  unfold vkIsReady vkUpgrade
  split
  · rename_i upgrades
    simp [vkSetState, upgrades]
  · rename_i stays
    simp [stays]

/-- A key which cannot be sent is dropped; with a broken virtual keyboard the fail-safe acts. -/
theorem vkForwardKey_of_not_isReady {frontend : Frontend} (blocked : frontend.vkIsReady = false)
    (time key : Nat) (pressed : Bool) :
    frontend.vkForwardKey time key pressed =
      if frontend.vk.state = .broken then frontend.vkTriggerFailSafe else frontend := by
  have not_ready := mt frontend.vkIsReady_iff.mpr (by simp [blocked])
  rw [not_or] at not_ready
  have stays : frontend.vkUpgrade = frontend := if_neg not_ready.2
  simp [vkForwardKey, whenVkReady, stays, not_ready.1]

/-! ## What the bridge changes -/

theorem vkUpgrade_eq (frontend : Frontend) :
    frontend.vkUpgrade = frontend.updateVk fun _ => frontend.vkUpgrade.vk := by
  unfold vkUpgrade
  split <;> rfl

theorem vkCancelKeymapWait_eq (frontend : Frontend) :
    frontend.vkCancelKeymapWait = frontend.updateVk fun _ => frontend.vkCancelKeymapWait.vk := by
  unfold vkCancelKeymapWait
  repeat' split
  all_goals rfl

theorem vkExpectKeymap_eq (frontend : Frontend) :
    frontend.vkExpectKeymap = frontend.updateVk fun _ => frontend.vkExpectKeymap.vk := by
  unfold vkExpectKeymap
  split <;> rfl

/-- Passing a keymap on sends it, or nothing. -/
theorem vkForwardKeymap_eq (frontend : Frontend) :
    frontend.vkForwardKeymap = frontend.updateVk (fun _ => frontend.vkForwardKeymap.vk) ∨
      frontend.vkForwardKeymap =
        (frontend.log .vkKeymap).updateVk fun _ => frontend.vkForwardKeymap.vk := by
  unfold vkForwardKeymap
  split
  · exact .inl rfl
  · split
    · exact .inl rfl
    · exact .inr rfl

theorem vkReleaseOwed_eq (frontend : Frontend) (keys : List (Fin maxTrackedKeys)) :
    frontend.vkReleaseOwed keys =
      { frontend with trace :=
          ((keys.filter fun key => (frontend.tracking.states key).owed).map
            fun key : Fin maxTrackedKeys => Effect.vkKey frontend.world.now key false).reverse ++
          frontend.trace } := by
  induction keys generalizing frontend with
  | nil => rfl
  | cons key keys induction =>
      have unfolded : frontend.vkReleaseOwed (key :: keys) =
          (if (frontend.tracking.states key).owed then
            frontend.log (.vkKey frontend.world.now key false)
          else frontend).vkReleaseOwed keys := rfl
      rw [unfolded]
      split
      · rename_i owed
        rw [induction]
        simp [log, owed]
      · rename_i owed
        rw [induction]
        simp [owed]

/-- Releasing the forwarded keys changes the tracker and sends releases of owed keys, if the
virtual keyboard exists and is ready or awaits its keymap. -/
theorem vkReleaseForwardedKeys_eq (frontend : Frontend) :
    ∃ tracking effects,
      frontend.vkReleaseForwardedKeys =
        { frontend with tracking, trace := effects ++ frontend.trace } ∧
      (tracking = frontend.tracking ∨ tracking = frontend.tracking.markReleasedPending) ∧
      ∀ effect ∈ effects, frontend.vk.present = true ∧
        (frontend.vk.state = .ready ∨ frontend.vk.state = .needsKeymap) ∧
        ∃ key : Fin maxTrackedKeys, effect = .vkKey frontend.world.now key false ∧
          (frontend.tracking.states key).owed = true := by
  unfold vkReleaseForwardedKeys
  split
  · exact ⟨frontend.tracking, [], rfl, .inl rfl, by simp⟩
  · rename_i usable
    rw [vkReleaseOwed_eq]
    refine ⟨_, _, rfl, .inr rfl, fun effect mem => ?_⟩
    obtain ⟨key, owed, rfl⟩ := List.mem_map.mp (List.mem_reverse.mp mem)
    refine ⟨by simp_all, ?_, key, rfl, (List.mem_filter.mp owed).2⟩
    cases state_eq : frontend.vk.state <;> simp_all

end Frontend

end Typio
