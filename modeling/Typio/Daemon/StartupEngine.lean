import Typio.Daemon.ActivateEngine

/-!
# The keyboard engine at startup

The default engine is activated first.  If no keyboard engine is active after that, the engine which
was registered first is tried, of whichever kind it is, and no other one.
-/

namespace Typio

namespace Daemon

open Typio.Core

/-! ## The end of the initialization -/

/-- The engine of that name is activated, if one is named; `calls` is what the code of the engines
answers. -/
def activateNamed (calls : String → Calls) (name : Option String) (manager : EngineManager) :
    EngineManager :=
  match name with
  | none => manager
  | some name => (manager.setActive name (calls name)).1

/-- Without an active keyboard engine the first name of the list is tried. -/
def activateListed (calls : String → Calls) (manager : EngineManager) : EngineManager :=
  if (activeEngine manager .keyboard).isSome then manager
  else activateNamed calls (manager.entries.head?.map EngineEntry.name) manager

/-- The end of `typio_instance_init`, once the engines are registered.  The default engine is the
one given to the instance, or else the configured one; a given one which is no text counts as not
given. -/
def startEngines (calls : String → Calls) (given configured : Option String)
    (manager : EngineManager) : EngineManager :=
  activateListed calls (activateNamed calls (given.or configured) manager)

/-- The start of a session is the one here, with engines which all start. -/
theorem init_manager (fleet : Fleet) (order : List EngineInfo)
    (recentPrimary recentSecondary : Option String) (saved : Settings) :
    (Session.init fleet order recentPrimary recentSecondary saved).manager =
      startEngines fleet.calls none saved.defaultEngine
        (Session.register order recentPrimary recentSecondary) := rfl

/-! ## The property -/

/-- The entry belongs to the keyboard slot. -/
def ForKeyboard (entry : EngineEntry) : Prop := entry.info.map Slot.ofInfo = some .keyboard

/-- The entry is a keyboard engine which instantiates and activates. -/
def Eligible (calls : String → Calls) (entry : EngineEntry) : Prop :=
  ForKeyboard entry ∧ entry.ComesUp (calls entry.name)

/-- A keyboard engine is active if one of the registered ones is eligible, and it is the default one
if that one is. -/
structure SelectsKeyboard (calls : String → Calls) (default : Option String)
    (registered after : EngineManager) : Prop where
  some_active : ∀ entry ∈ registered.entries, Eligible calls entry →
    (activeEngine after .keyboard).isSome = true
  default_active : ∀ entry ∈ registered.entries, default = some entry.name →
    Eligible calls entry → activeEngine after .keyboard = entry.info

/-- The factory makes an engine which starts, whether or not it passes the validation. -/
def StartsUnchecked (calls : String → Calls) (entry : EngineEntry) : Prop :=
  ∃ raw ∈ (calls entry.name).made, (Engine.wrap raw).Starts (calls entry.name).init

/-- The engine which was registered first is a keyboard engine and is activated when it is tried.
If it is the default engine, it is tried a second time, and its instance is validated the first
time only. -/
def FirstServes (calls : String → Calls) (default : Option String) (registered : EngineManager) :
    Prop :=
  ∃ entry ∈ registered.entries.head?, ForKeyboard entry ∧
    (entry.ComesUp (calls entry.name) ∨
      default = some entry.name ∧ StartsUnchecked calls entry)

/-- The default engine is eligible, or no engine is, or the first one serves. -/
def StartsWell (calls : String → Calls) (default : Option String) (registered : EngineManager) :
    Prop :=
  (∃ entry ∈ registered.entries, default = some entry.name ∧ Eligible calls entry) ∨
    (∀ entry ∈ registered.entries, ¬Eligible calls entry) ∨ FirstServes calls default registered

/-! ## Registered engines -/

/-- The engines have been registered, and none has been used. -/
structure Unused (manager : EngineManager) : Prop where
  distinct : manager.names.Nodup
  fresh : ∀ entry ∈ manager.entries, ∃ info, entry = registeredEntry info
  idle : ∀ slot, manager.active slot = none

theorem Unused.register {manager : EngineManager} (unused : Unused manager) (info : EngineInfo) :
    Unused (manager.register (some info)).1 := by
  cases found : manager.findEntryIndex info.name with
  | some index =>
      rw [EngineManager.register, found]
      exact unused
  | none =>
      rw [EngineManager.register, found]
      have absent := EngineManager.findEntryIndex_eq_none found
      refine ⟨?_, fun entry listed => ?_, unused.idle⟩
      · change ((manager.entries ++ [_]).map EngineEntry.name).Nodup
        rw [List.map_append, List.nodup_append_comm]
        exact List.nodup_cons.mpr ⟨absent, unused.distinct⟩
      · obtain old | new := List.mem_append.mp listed
        · exact unused.fresh entry old
        · exact ⟨info, List.mem_singleton.mp new⟩

theorem unused_register (order : List EngineInfo) (recentPrimary recentSecondary : Option String) :
    Unused (Session.register order recentPrimary recentSecondary) := by
  have folded (manager : EngineManager) (unused : Unused manager) :
      Unused (order.foldl (fun manager info => (manager.register (some info)).1) manager) := by
    induction order generalizing manager with
    | nil => exact unused
    | cons info order induction => exact induction _ (unused.register info)
  exact folded _ ⟨List.nodup_nil, fun _ listed => (List.not_mem_nil listed).elim, fun _ => rfl⟩

theorem Unused.live {manager : EngineManager} (unused : Unused manager) : manager.Live := by
  intro slot index active
  rw [unused.idle slot] at active
  cases active

theorem isSome_activeEngine {manager : EngineManager} (live : manager.Live) (slot : Slot) :
    (activeEngine manager slot).isSome = (manager.active slot).isSome := by
  rw [activeEngine_of_live live, EngineManager.occupant]
  cases active : manager.active slot with
  | none => rfl
  | some index =>
      obtain ⟨entry, here, info, known, -⟩ := live slot index active
      rw [Option.bind_some, Option.mem_def.mp here, Option.bind_some, Option.mem_def.mp known]
      rfl

/-! ## One activation -/

section Activation

variable {manager : EngineManager} {index : Nat} {entry : EngineEntry}

/-- Activating an engine which is registered is a switch to it. -/
theorem setActive_eq (found : manager.findEntryIndex entry.name = some index)
    (here : manager.entries[index]? = some entry) {info : EngineInfo}
    (known : entry.info = some info) (calls : Calls) :
    manager.setActive entry.name calls = manager.switchTo (Slot.ofInfo info) index calls := by
  simp only [EngineManager.setActive, found, here, Option.bind_some, known]

/-- Without an active keyboard engine, an activation fills the keyboard slot exactly with a keyboard
engine which comes up. -/
theorem active_setActive (live : manager.Live) (idle : manager.active .keyboard = none)
    (found : manager.findEntryIndex entry.name = some index)
    (here : manager.entries[index]? = some entry) {info : EngineInfo}
    (known : entry.info = some info) (calls : Calls) :
    (ForKeyboard entry ∧ entry.ComesUp calls →
        (manager.setActive entry.name calls).1.active .keyboard = some index) ∧
      (¬(ForKeyboard entry ∧ entry.ComesUp calls) →
        (manager.setActive entry.name calls).1.active .keyboard = none) := by
  have kind : ForKeyboard entry ↔ Slot.ofInfo info = .keyboard := by
    rw [ForKeyboard, known, Option.map_some, Option.some.injEq]
  rw [setActive_eq found here known, kind]
  by_cases same : manager.active (Slot.ofInfo info) = some index
  · have voice : Slot.ofInfo info ≠ .keyboard := by
      intro keyboard
      rw [keyboard, idle] at same
      cases same
    rw [EngineManager.switchTo_same calls same]
    exact ⟨fun both => absurd both.1 voice, fun _ => idle⟩
  by_cases up : entry.ComesUp calls
  · obtain ⟨active, -⟩ := EngineManager.switchTo_done here same up
    rw [active]
    constructor
    · rintro ⟨keyboard, -⟩
      rw [keyboard, Function.update_self]
    · intro other
      have voice : Slot.keyboard ≠ Slot.ofInfo info := fun keyboard => other ⟨keyboard.symm, up⟩
      rw [Function.update_of_ne voice, idle]
  · have failed : (manager.switchTo (Slot.ofInfo info) index calls).2 ≠ .ok := fun succeeded =>
      ((EngineManager.switchTo_ok_iff here calls).mp succeeded).elim same up
    rw [(EngineManager.switchTo_failed live here failed).1]
    exact ⟨fun both => absurd both.2 up, fun _ => idle⟩

/-- A switch to an entry which has never been used leaves its instance there when it fails. -/
theorem switchTo_unused (unused : Unused manager) (here : manager.entries[index]? = some entry)
    {slot : Slot} {calls : Calls} (failed : ¬entry.ComesUp calls) :
    ∃ rejected, (manager.switchTo slot index calls).1.entries[index]? =
      some { entry with engine := calls.made.map Engine.wrap, rejected := rejected } := by
  obtain ⟨info, rfl⟩ := unused.fresh entry (List.mem_of_getElem? here)
  have other : manager.active slot ≠ some index := by
    rw [unused.idle slot]
    exact Option.some_ne_none index |>.symm
  rw [EngineManager.switchTo, if_neg other, unused.idle slot]
  dsimp only [EngineManager.modifyActive]
  cases made : calls.made with
  | none =>
      have missing : manager.ensureEntryInstance index none = (manager, .engineLoadFailed) := by
        simp [EngineManager.ensureEntryInstance, here, registeredEntry]
      rw [missing, if_pos (show TypioResult.engineLoadFailed ≠ .ok by decide)]
      exact ⟨false, here⟩
  | some raw =>
      have candidate : (registeredEntry info).candidate (some raw) = some (Engine.wrap raw) := rfl
      obtain ⟨rejected, there⟩ := EngineManager.ensureEntryInstance_here here candidate
      by_cases accepted : (manager.ensureEntryInstance index (some raw)).2 = .ok
      · obtain ⟨engine, found, checked⟩ :=
          (EngineManager.ensureEntryInstance_ok_iff here (some raw)).mp accepted
        have stopped : ¬(Engine.wrap raw).Starts calls.init := fun starts =>
          failed ⟨Engine.wrap raw, made ▸ candidate,
            Option.some.inj (candidate.symm.trans found) ▸ checked, starts⟩
        have idle := @EngineEntry.activate_of_not_starts
          { registeredEntry info with engine := some (Engine.wrap raw), rejected := rejected }
          calls.init fun engine cached => Option.some.inj cached ▸ stopped
        rw [if_neg (not_not.mpr accepted), EngineManager.activateEntry, there]
        dsimp only
        rw [if_pos idle.2]
        refine ⟨rejected, ?_⟩
        rw [EngineManager.getElem?_modifyEntry, if_pos rfl, there, Option.map_some, idle.1]
        rfl
      · rw [if_pos accepted]
        exact ⟨rejected, there⟩

end Activation

/-! ## The first activation -/

section First

variable {manager : EngineManager} {calls : String → Calls} {default : Option String}

/-- An entry is found under its name. -/
theorem Unused.find (unused : Unused manager) {entry : EngineEntry}
    (listed : entry ∈ manager.entries) :
    ∃ index, manager.findEntryIndex entry.name = some index ∧
      manager.entries[index]? = some entry := by
  cases found : manager.findEntryIndex entry.name with
  | none =>
      exact absurd (List.mem_map_of_mem listed) (EngineManager.findEntryIndex_eq_none found)
  | some index =>
      obtain ⟨inside, named⟩ := EngineManager.findEntryIndex_eq_some found
      have here := List.getElem?_eq_getElem inside
      refine ⟨index, rfl, here.trans (congrArg some ?_)⟩
      rw [EngineManager.names, List.getElem?_map, here] at named
      exact List.inj_on_of_nodup_map unused.distinct (List.getElem_mem inside) listed
        (Option.some.inj named)

/-- An eligible default engine is active after the first activation. -/
theorem activeEngine_of_default (unused : Unused manager) {entry : EngineEntry}
    (listed : entry ∈ manager.entries) (eligible : Eligible calls entry) :
    activeEngine (activateNamed calls (some entry.name) manager) .keyboard = entry.info := by
  obtain ⟨index, found, here⟩ := unused.find listed
  obtain ⟨info, fresh⟩ := unused.fresh entry listed
  have known : entry.info = some info := by
    rw [fresh]
    rfl
  have filled := (active_setActive unused.live (unused.idle .keyboard) found here known
    (calls entry.name)).1 eligible
  have inPlace := EngineManager.InPlace.setActive manager entry.name (calls entry.name)
  have labels := congrArg (·[index]?) inPlace.labels
  simp only [List.getElem?_map, here, Option.map_some] at labels
  obtain ⟨after, there, label⟩ := Option.map_eq_some_iff.mp labels
  rw [activateNamed, activeEngine_of_live (unused.live.setActive entry.name _),
    EngineManager.occupant, filled, Option.bind_some, there, Option.bind_some]
  exact congrArg Prod.snd label

/-- Without an eligible default engine no keyboard engine is active after the first activation. -/
theorem active_of_no_default (unused : Unused manager)
    (none_eligible : ∀ entry ∈ manager.entries, default = some entry.name → ¬Eligible calls entry) :
    (activateNamed calls default manager).active .keyboard = none := by
  cases default with
  | none => exact unused.idle .keyboard
  | some name =>
      cases found : manager.findEntryIndex name with
      | none =>
          rw [activateNamed, EngineManager.setActive, found]
          exact unused.idle .keyboard
      | some index =>
          obtain ⟨inside, named⟩ := EngineManager.findEntryIndex_eq_some found
          have here := List.getElem?_eq_getElem inside
          have listed := List.getElem_mem inside
          rw [EngineManager.names, List.getElem?_map, here] at named
          obtain rfl := Option.some.inj named
          obtain ⟨info, fresh⟩ := unused.fresh _ listed
          have known : manager.entries[index].info = some info := by
            rw [fresh]
            rfl
          exact (active_setActive unused.live (unused.idle .keyboard) found here known
            (calls _)).2 (none_eligible _ listed rfl)

/-- An entry that is not tried first is as it was registered. -/
theorem setActive_other (unused : Unused manager) {entry other : EngineEntry}
    {index place : Nat} (found : manager.findEntryIndex entry.name = some index)
    (here : manager.entries[index]? = some entry) (there : manager.entries[place]? = some other)
    (apart : place ≠ index) (calls : Calls) :
    (manager.setActive entry.name calls).1.entries[place]? = some other := by
  obtain ⟨info, fresh⟩ := unused.fresh entry (List.mem_of_getElem? here)
  have known : entry.info = some info := by
    rw [fresh]
    rfl
  have vacant : manager.active (Slot.ofInfo info) ≠ some index := by
    rw [unused.idle]
    exact (Option.some_ne_none index).symm
  rw [setActive_eq found here known]
  by_cases up : entry.ComesUp calls
  · obtain ⟨-, -, others⟩ := EngineManager.switchTo_done here vacant up
    rw [others place apart, unused.idle]
    exact there
  · have failed : (manager.switchTo (Slot.ofInfo info) index calls).2 ≠ .ok := fun succeeded =>
      ((EngineManager.switchTo_ok_iff here calls).mp succeeded).elim vacant up
    rw [(EngineManager.switchTo_failed unused.live here failed).2 place apart]
    exact there

/-- What the first entry is when it is tried in its turn: its instance is there if it was the
default engine, and then it is not validated again. -/
theorem first_afterwards (unused : Unused manager) {entry : EngineEntry} {rest : List EngineEntry}
    (listed : manager.entries = entry :: rest)
    (ineligible : default = some entry.name → ¬entry.ComesUp (calls entry.name)) :
    ∃ after, (activateNamed calls default manager).entries[0]? = some after ∧
      after.name = entry.name ∧ after.info = entry.info ∧
      (after.ComesUp (calls entry.name) ↔ entry.ComesUp (calls entry.name) ∨
        default = some entry.name ∧ StartsUnchecked calls entry) := by
  have first : manager.entries[0]? = some entry := by rw [listed]; rfl
  have found_first : manager.findEntryIndex entry.name = some 0 := by
    rw [EngineManager.findEntryIndex, listed, List.findIdx?_cons, beq_self_eq_true, if_pos rfl]
  by_cases same : default = some entry.name
  · subst same
    have failed := ineligible rfl
    obtain ⟨info, fresh⟩ := unused.fresh entry (List.mem_of_getElem? first)
    have known : entry.info = some info := by
      rw [fresh]
      rfl
    obtain ⟨rejected, there⟩ := @switchTo_unused _ _ _ unused first (Slot.ofInfo info) _ failed
    have switched : (activateNamed calls (some entry.name) manager).entries[0]? =
        some { entry with
          engine := (calls entry.name).made.map Engine.wrap, rejected := rejected } := by
      rw [activateNamed, setActive_eq found_first first known]
      exact there
    refine ⟨_, switched, rfl, rfl, ?_⟩
    rw [or_iff_right failed, and_iff_right rfl, StartsUnchecked, EngineEntry.ComesUp,
      EngineEntry.candidate]
    cases (calls entry.name).made with
    | none => simp
    | some raw => simp
  · refine ⟨entry, ?_, rfl, rfl, by simp [same]⟩
    cases default with
    | none => exact first
    | some name =>
        cases found : manager.findEntryIndex name with
        | none =>
            rw [activateNamed, EngineManager.setActive, found]
            exact first
        | some index =>
            obtain ⟨inside, named⟩ := EngineManager.findEntryIndex_eq_some found
            have here := List.getElem?_eq_getElem inside
            rw [EngineManager.names, List.getElem?_map, here] at named
            obtain rfl := Option.some.inj named
            have apart : 0 ≠ index := by
              rintro rfl
              obtain rfl := Option.some.inj (first.symm.trans here)
              exact same rfl
            exact setActive_other unused found here first apart _

theorem activateNamed_live (live : manager.Live) (name : Option String) :
    (activateNamed calls name manager).Live := by
  cases name with
  | none => exact live
  | some name => exact live.setActive name _

theorem activateNamed_inPlace (name : Option String) :
    EngineManager.InPlace manager (activateNamed calls name manager) := by
  cases name with
  | none => exact .refl manager
  | some name => exact .setActive manager name _

/-- Trying the first entry fills the empty keyboard slot exactly with a keyboard engine which comes
up. -/
theorem isSome_activeEngine_first (live : manager.Live) (idle : manager.active .keyboard = none)
    {entry : EngineEntry} (first : manager.entries[0]? = some entry) {info : EngineInfo}
    (known : entry.info = some info) :
    (activeEngine (activateNamed calls (some entry.name) manager) .keyboard).isSome = true ↔
      ForKeyboard entry ∧ entry.ComesUp (calls entry.name) := by
  have found : manager.findEntryIndex entry.name = some 0 := by
    obtain ⟨rest, listed⟩ := List.head?_eq_some_iff.mp (List.head?_eq_getElem?.trans first)
    rw [EngineManager.findEntryIndex, listed, List.findIdx?_cons, beq_self_eq_true, if_pos rfl]
  obtain ⟨filled, unfilled⟩ := active_setActive live idle found first known (calls entry.name)
  rw [isSome_activeEngine (activateNamed_live live _), activateNamed]
  by_cases serves : ForKeyboard entry ∧ entry.ComesUp (calls entry.name)
  · rw [filled serves]
    exact iff_of_true rfl serves
  · rw [unfilled serves]
    exact iff_of_false Bool.false_ne_true serves

/-- With no keyboard engine active after the first activation, one is active in the end exactly if
the first entry serves. -/
theorem isSome_activeEngine_iff (unused : Unused manager)
    (none_eligible : ∀ entry ∈ manager.entries, default = some entry.name → ¬Eligible calls entry) :
    (activeEngine (activateListed calls (activateNamed calls default manager))
      .keyboard).isSome = true ↔ FirstServes calls default manager := by
  have idle := active_of_no_default unused none_eligible
  have live : (activateNamed calls default manager).Live := activateNamed_live unused.live default
  have labels := congrArg (·[0]?) (@activateNamed_inPlace manager calls default).labels
  simp only [List.getElem?_map] at labels
  have absent : ¬(activeEngine (activateNamed calls default manager) .keyboard).isSome = true := by
    rw [isSome_activeEngine live, idle]
    exact Bool.false_ne_true
  rw [activateListed, if_neg absent, List.head?_eq_getElem?]
  cases listed : manager.entries with
  | nil =>
      rw [listed] at labels
      rw [Option.map_eq_none_iff.mp labels]
      exact iff_of_false absent fun ⟨_, first, _⟩ => by simp [listed] at first
  | cons entry rest =>
      have member : entry ∈ manager.entries := listed ▸ List.mem_cons_self
      obtain ⟨info, fresh⟩ := unused.fresh entry member
      have known : entry.info = some info := by
        rw [fresh]
        rfl
      have serves_iff : FirstServes calls default manager ↔ ForKeyboard entry ∧
          (entry.ComesUp (calls entry.name) ∨
            default = some entry.name ∧ StartsUnchecked calls entry) := by
        simp [FirstServes, listed]
      rw [listed] at labels
      obtain ⟨after, there, label⟩ := Option.map_eq_some_iff.mp labels
      obtain ⟨name, infos⟩ := Prod.mk.inj label
      have tried := @isSome_activeEngine_first _ calls live idle _ there _ (infos.trans known)
      rw [there, Option.map_some, serves_iff, tried, ForKeyboard, infos, name]
      refine and_congr_right fun keyboard => ?_
      obtain ⟨again, there', -, -, comes⟩ := first_afterwards unused listed fun same up =>
        none_eligible entry member same ⟨keyboard, up⟩
      obtain rfl := Option.some.inj (there.symm.trans there')
      exact comes

/-- A keyboard engine is selected exactly when the start goes well. -/
theorem selectsKeyboard_iff (unused : Unused manager) :
    SelectsKeyboard calls default manager
        (activateListed calls (activateNamed calls default manager)) ↔
      StartsWell calls default manager := by
  by_cases chosen : ∃ entry ∈ manager.entries, default = some entry.name ∧ Eligible calls entry
  · refine iff_of_true ?_ (.inl chosen)
    obtain ⟨entry, listed, rfl, eligible⟩ := chosen
    obtain ⟨info, fresh⟩ := unused.fresh entry listed
    have active := activeEngine_of_default unused listed eligible
    have present : (activeEngine (activateNamed calls (some entry.name) manager)
        .keyboard).isSome = true := by
      rw [active, fresh]
      rfl
    rw [activateListed, if_pos present]
    refine ⟨fun _ _ _ => present, fun other member same _ => ?_⟩
    rw [active, List.inj_on_of_nodup_map unused.distinct listed member (Option.some.inj same)]
  · have none_eligible : ∀ entry ∈ manager.entries, default = some entry.name →
        ¬Eligible calls entry := fun entry listed same eligible =>
      chosen ⟨entry, listed, same, eligible⟩
    have ends := isSome_activeEngine_iff unused none_eligible
    rw [StartsWell, or_iff_right chosen, ← ends]
    constructor
    · intro selects
      by_cases eligible : ∀ entry ∈ manager.entries, ¬Eligible calls entry
      · exact .inl eligible
      · simp only [not_forall, not_not] at eligible
        obtain ⟨entry, listed, comes⟩ := eligible
        exact .inr (selects.some_active entry listed comes)
    · intro good
      refine ⟨fun entry listed eligible => ?_, fun entry listed same eligible =>
        absurd eligible (none_eligible entry listed same)⟩
      exact good.resolve_left fun none_comes => none_comes entry listed eligible

end First

/-! ## The start -/

/-- For every list of registered engines and every setting, the initialization selects a keyboard
engine as it should if and only if the default engine is an eligible one, no engine is, or the
engine which was registered first serves. -/
theorem startEngines_selects_iff (calls : String → Calls) (order : List EngineInfo)
    (recentPrimary recentSecondary given configured : Option String) :
    SelectsKeyboard calls (given.or configured)
        (Session.register order recentPrimary recentSecondary)
        (startEngines calls given configured
          (Session.register order recentPrimary recentSecondary)) ↔
      StartsWell calls (given.or configured)
        (Session.register order recentPrimary recentSecondary) :=
  selectsKeyboard_iff (unused_register order recentPrimary recentSecondary)

/-- A voice engine is registered before a keyboard engine, both start, and there is no default. -/
theorem voice_engine_first :
    ¬SelectsKeyboard
      (fun name => { made := some { unified := true, userData := true, keyboard := name == "rime",
                                    voice := name == "whisper" }, init := .ok, restored := .ok })
      none
      (Session.register [{ name := "whisper", type := .voice }, { name := "rime", type := .keyboard }]
        none none)
      (startEngines
        (fun name => { made := some { unified := true, userData := true, keyboard := name == "rime",
                                      voice := name == "whisper" }, init := .ok, restored := .ok })
        none none
        (Session.register
          [{ name := "whisper", type := .voice }, { name := "rime", type := .keyboard }]
          none none)) := by
  intro selects
  have active := selects.some_active (registeredEntry { name := "rime", type := .keyboard })
    (by decide)
    ⟨rfl, { userData := true, keyboard := true, voice := false, initialized := false,
            active := false }, rfl, .inr rfl, rfl, .inr rfl⟩
  revert active
  decide

end Daemon

end Typio
