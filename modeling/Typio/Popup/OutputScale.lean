import Mathlib.Data.List.Nodup
import Mathlib.Data.Rat.Defs
import Typio.Machine

/-!
# The scale of the popup

The popup is drawn at the scale the compositor prefers for its surface; without such a signal at the
largest scale of the outputs it has entered, and before it has entered one at the largest of all.
The popup knows an output by the address of its object, and an address is used again after the
output is gone.
-/

namespace Typio

/-- `TypioWlOutput`.  The serial number tells outputs with one address apart; nothing reads it. -/
structure WlOutput where
  name : Nat
  output : Nat
  scale : Nat
  serial : Nat
  deriving DecidableEq, Repr

/-- What an update of the popup comes to: it is hidden, or a render is asked for, which may present
the popup. -/
inductive PopupUpdate where
  | hides
  | renders (presented : Bool)
  deriving DecidableEq, Repr

/-- The outputs of the frontend and what the popup knows of its scale.  `ctx` says whether the
session has an input context, `asked` is the scale of the last render, and `within` are the serial
numbers of the outputs the surface is on. -/
structure PopupOutputs where
  outputs : List WlOutput
  bound : Nat
  panel : Bool
  enteredOutputs : List Nat
  fractionalScale120 : Nat
  preferredBufferScale : Nat
  visible : Bool
  ctx : Bool
  asked : Option Rat
  within : List Nat
  deriving DecidableEq, Repr

namespace PopupOutputs

def initial : PopupOutputs where
  outputs := []
  bound := 0
  panel := false
  enteredOutputs := []
  fractionalScale120 := 0
  preferredBufferScale := 0
  visible := false
  ctx := false
  asked := none
  within := []

variable (popup : PopupOutputs)

def findFrontendOutput (output : Nat) : Option WlOutput :=
  popup.outputs.find? (·.output == output)

def tracksOutput (output : Nat) : Bool := popup.enteredOutputs.contains output

/-- The largest scale, or nothing without outputs. -/
def best (outputs : List WlOutput) : Nat :=
  outputs.foldl (fun best output => max best output.scale) 0

/-- The scale without any signal of the surface. -/
def initialGuess : Rat := if 0 < best popup.outputs then (best popup.outputs : Rat) else 1

/-- `render_scale`, not rounded to a float. -/
def renderScale : Rat :=
  if 0 < popup.fractionalScale120 then (popup.fractionalScale120 : Rat) / 120
  else if 0 < popup.preferredBufferScale then (popup.preferredBufferScale : Rat)
  else
    let entered := best (popup.enteredOutputs.filterMap popup.findFrontendOutput)
    if 0 < entered then (entered : Rat) else popup.initialGuess

/-! ## Updates -/

/-- `typio_wl_candidate_panel_update_content`, with a popup there. -/
def updateContent : PopupUpdate → PopupOutputs
  | .hides => { popup with visible := false }
  | .renders presented =>
      { popup with visible := popup.visible || presented, asked := some popup.renderScale }

def refreshVisible (update : PopupUpdate) : PopupOutputs :=
  if popup.visible && popup.ctx then popup.updateContent update else popup

/-- `track_output`; the reference may not be allocated. -/
def trackOutput (output : Nat) (allocates : Bool) (update : PopupUpdate) : PopupOutputs :=
  if popup.tracksOutput output || !allocates then popup
  else
    ({ popup with enteredOutputs := output :: popup.enteredOutputs } : PopupOutputs).refreshVisible
      update

def untrackOutput (output : Nat) (update : PopupUpdate) : PopupOutputs :=
  if popup.tracksOutput output then
    ({ popup with enteredOutputs := popup.enteredOutputs.erase output } :
      PopupOutputs).refreshVisible update
  else popup

/-- `typio_wl_candidate_panel_handle_output_change`. -/
def handleOutputChange (output : Nat) (update : PopupUpdate) : PopupOutputs :=
  if popup.panel && popup.tracksOutput output then
    if (popup.findFrontendOutput output).isNone then popup.untrackOutput output update
    else popup.refreshVisible update
  else popup

/-! ## Events -/

/-- `registry_handle_global`, for an output.  The object has an address no other output has. -/
def bindOutput (name output : Nat) : PopupOutputs :=
  if (popup.findFrontendOutput output).isSome then popup
  else
    { popup with
      outputs := ⟨name, output, 1, popup.bound⟩ :: popup.outputs
      bound := popup.bound + 1 }

/-- `registry_handle_global_remove`. -/
def removeOutput (name : Nat) (update : PopupUpdate) : PopupOutputs :=
  match popup.outputs.find? (·.name == name) with
  | none => popup
  | some removed =>
      ({ popup with outputs := popup.outputs.eraseP (·.name == name) } :
        PopupOutputs).handleOutputChange removed.output update

/-- The outputs after one of them has a new scale. -/
def rescaled (output : Nat) (factor : Int) : List WlOutput :=
  popup.outputs.map fun tracked =>
    if tracked.output = output then
      { tracked with scale := if 0 < factor then factor.toNat else 1 }
    else tracked

/-- `output_handle_scale`. -/
def outputScale (output : Nat) (factor : Int) (update : PopupUpdate) : PopupOutputs :=
  if (popup.findFrontendOutput output).isSome then
    ({ popup with outputs := popup.rescaled output factor } : PopupOutputs).handleOutputChange
      output update
  else popup

/-- A signal of the surface for an output, if there is a popup and the output is still there. -/
def atOutput (output : Nat) (handler : WlOutput → PopupOutputs) : PopupOutputs :=
  match popup.findFrontendOutput output with
  | none => popup
  | some tracked => if popup.panel then handler tracked else popup

/-- `on_surface_enter`. -/
def enter (output : Nat) (allocates : Bool) (update : PopupUpdate) : PopupOutputs :=
  popup.atOutput output fun entered =>
    ({ popup with within := entered.serial :: popup.within } : PopupOutputs).trackOutput output
      allocates update

/-- `on_surface_leave`. -/
def leave (output : Nat) (update : PopupUpdate) : PopupOutputs :=
  popup.atOutput output fun left =>
    ({ popup with within := popup.within.filter (· != left.serial) } : PopupOutputs).untrackOutput
      output update

/-- A preferred scale, if there is a popup and the scale is a new one. -/
def prefer (accepted : Bool) (preferring : PopupOutputs) (update : PopupUpdate) : PopupOutputs :=
  if popup.panel && accepted then preferring.refreshVisible update else popup

/-- `on_surface_preferred_buffer_scale`. -/
def preferBufferScale (factor : Int) (update : PopupUpdate) : PopupOutputs :=
  popup.prefer (0 < factor && popup.preferredBufferScale != factor.toNat)
    { popup with preferredBufferScale := factor.toNat } update

/-- `on_fractional_preferred_scale`. -/
def preferFractionalScale (scale120 : Nat) (update : PopupUpdate) : PopupOutputs :=
  popup.prefer (scale120 != 0 && popup.fractionalScale120 != scale120)
    { popup with fractionalScale120 := scale120 } update

/-- A popup which was just created, or none. -/
def setPanel (panel : Bool) : PopupOutputs :=
  { popup with
    panel
    enteredOutputs := []
    fractionalScale120 := 0
    preferredBufferScale := 0
    visible := false
    asked := none
    within := [] }

inductive Event where
  | bindOutput (name output : Nat)
  | removeOutput (name : Nat) (update : PopupUpdate)
  | outputScale (output : Nat) (factor : Int) (update : PopupUpdate)
  | createPanel
  | destroyPanel
  | enter (output : Nat) (allocates : Bool) (update : PopupUpdate)
  | leave (output : Nat) (update : PopupUpdate)
  | preferBufferScale (factor : Int) (update : PopupUpdate)
  | preferFractionalScale (scale120 : Nat) (update : PopupUpdate)
  | update (update : PopupUpdate)
  | hide
  | session (ctx : Bool)
  | disconnect
  deriving DecidableEq, Repr

def step (popup : PopupOutputs) : Event → PopupOutputs
  | .bindOutput name output => popup.bindOutput name output
  | .removeOutput name update => popup.removeOutput name update
  | .outputScale output factor update => popup.outputScale output factor update
  | .createPanel => if popup.panel then popup else popup.setPanel true
  | .destroyPanel => popup.setPanel false
  | .enter output allocates update => popup.enter output allocates update
  | .leave output update => popup.leave output update
  | .preferBufferScale factor update => popup.preferBufferScale factor update
  | .preferFractionalScale scale120 update => popup.preferFractionalScale scale120 update
  | .update update => if popup.panel then popup.updateContent update else popup
  | .hide => { popup with visible := false }
  | .session ctx => { popup with ctx }
  | .disconnect => { popup.setPanel false with outputs := [] }

/-! ## What is asked -/

/-- The popup counts an output as entered exactly if its surface is on it. -/
def KnowsOutputs : Prop :=
  ∀ output, output ∈ popup.enteredOutputs ↔
    ∃ tracked ∈ popup.outputs, tracked.output = output ∧ tracked.serial ∈ popup.within

/-- What the popup enters and does not know yet it can note. -/
def Notes (popup : PopupOutputs) : Event → Prop
  | .enter output allocates _ => popup.panel = true → (popup.findFrontendOutput output).isSome →
      output ∉ popup.enteredOutputs → allocates = true
  | _ => True

/-- A visible popup was last rendered at the scale it should have. -/
def InScale : Prop := popup.visible = true → popup.asked = some popup.renderScale

/-- The surface has said nothing of its scale. -/
def Guesses : Prop :=
  popup.fractionalScale120 = 0 ∧ popup.preferredBufferScale = 0 ∧ popup.enteredOutputs = []

/-- The render which was asked for is asked for again, if the change matters. -/
def Redrawn (popup changed : PopupOutputs) : Prop :=
  popup.ctx = true ∨ changed.renderScale = popup.renderScale

/-- The change of the outputs matters to no guess. -/
def Unnoticed (popup changed : PopupOutputs) : Prop :=
  popup.Guesses → changed.initialGuess = popup.initialGuess

/-- What an event changes is noticed: for the surface's own signals and the outputs it is on there
is a context to draw again from, and the other outputs change no guess the popup is drawn by. -/
def Follows (popup : PopupOutputs) : Event → Prop
  | .removeOutput name _ => ∀ removed ∈ popup.outputs.find? (·.name == name),
      let outputs := popup.outputs.eraseP (·.name == name)
      if removed.output ∈ popup.enteredOutputs then
        popup.Redrawn
          { popup with outputs, enteredOutputs := popup.enteredOutputs.erase removed.output }
      else popup.Unnoticed { popup with outputs }
  | .outputScale output factor _ => (popup.findFrontendOutput output).isSome →
      let outputs := popup.rescaled output factor
      if output ∈ popup.enteredOutputs then popup.Redrawn { popup with outputs }
      else popup.Unnoticed { popup with outputs }
  | .enter output allocates _ => (popup.findFrontendOutput output).isSome →
      output ∉ popup.enteredOutputs → allocates = true →
        popup.Redrawn { popup with enteredOutputs := output :: popup.enteredOutputs }
  | .leave output _ => (popup.findFrontendOutput output).isSome →
      output ∈ popup.enteredOutputs →
        popup.Redrawn { popup with enteredOutputs := popup.enteredOutputs.erase output }
  | .preferBufferScale factor _ =>
      0 < factor → popup.Redrawn { popup with preferredBufferScale := factor.toNat }
  | .preferFractionalScale scale120 _ =>
      scale120 ≠ 0 → popup.Redrawn { popup with fractionalScale120 := scale120 }
  | _ => True

/-! ## The tracking -/

/-- The outputs have different addresses and numbers and positive scales, the popup has entered some
of them, each once, and without a popup nothing is entered or visible. -/
structure Sound : Prop where
  addresses : (popup.outputs.map WlOutput.output).Nodup
  serials : (popup.outputs.map WlOutput.serial).Nodup
  numbered : ∀ tracked ∈ popup.outputs, tracked.serial < popup.bound
  scales : ∀ tracked ∈ popup.outputs, 0 < tracked.scale
  entered : popup.enteredOutputs.Nodup
  live : ∀ output ∈ popup.enteredOutputs, output ∈ popup.outputs.map WlOutput.output
  within : ∀ serial ∈ popup.within, serial < popup.bound
  panel : popup.panel = false →
    popup.enteredOutputs = [] ∧ popup.visible = false ∧ popup.within = []

variable {popup}

theorem findFrontendOutput_isSome {output : Nat} :
    (popup.findFrontendOutput output).isSome ↔ output ∈ popup.outputs.map WlOutput.output := by
  simp [findFrontendOutput]

theorem initial_sound : initial.Sound where
  addresses := List.nodup_nil
  serials := List.nodup_nil
  numbered _ member := nomatch member
  scales _ member := nomatch member
  entered := List.nodup_nil
  live _ member := nomatch member
  within _ member := nomatch member
  panel _ := ⟨rfl, rfl, rfl⟩

/-- An update changes what is drawn only, and needs a popup to show it. -/
structure Updates (before after : PopupOutputs) : Prop where
  drawn : ∃ fractionalScale120 preferredBufferScale visible ctx asked, after =
    { before with fractionalScale120, preferredBufferScale, visible, ctx, asked }
  shown : after.visible = true → before.visible = true ∨ before.panel = true

theorem Updates.sound {before after : PopupOutputs} (updates : Updates before after)
    (sound : before.Sound) : after.Sound := by
  obtain ⟨⟨_, _, _, _, _, rfl⟩, shown⟩ := updates
  refine ⟨sound.addresses, sound.serials, sound.numbered, sound.scales, sound.entered, sound.live,
    sound.within, fun without => ?_⟩
  obtain ⟨noneEntered, hidden, nowhere⟩ := sound.panel without
  refine ⟨noneEntered, ?_, nowhere⟩
  by_contra visible
  rcases shown (Bool.not_eq_false _ ▸ visible) with before | there
  · exact Bool.false_ne_true (hidden.symm.trans before)
  · exact Bool.false_ne_true (without.symm.trans there)

theorem Updates.refl (popup : PopupOutputs) : Updates popup popup :=
  ⟨⟨_, _, _, _, _, rfl⟩, .inl⟩

theorem Updates.trans {before middle after : PopupOutputs} (first : Updates before middle)
    (second : Updates middle after) : Updates before after := by
  obtain ⟨⟨_, _, _, _, _, rfl⟩, shown⟩ := first
  obtain ⟨⟨_, _, _, _, _, rfl⟩, shown'⟩ := second
  exact ⟨⟨_, _, _, _, _, rfl⟩, fun visible => (shown' visible).elim shown .inr⟩

theorem updates_updateContent (panel : popup.panel = true) (update : PopupUpdate) :
    Updates popup (popup.updateContent update) := by
  cases update <;> exact ⟨⟨_, _, _, _, _, rfl⟩, fun _ => .inr panel⟩

theorem updates_refreshVisible (popup : PopupOutputs) (update : PopupUpdate) :
    Updates popup (popup.refreshVisible update) := by
  unfold refreshVisible
  split
  · rename_i shown
    rw [Bool.and_eq_true] at shown
    cases update <;> exact ⟨⟨_, _, _, _, _, rfl⟩, fun _ => .inl shown.1⟩
  · exact .refl popup

/-- The popup knows what it knew, with an update in between. -/
theorem Updates.knows {before after : PopupOutputs} (updates : Updates before after) :
    after.KnowsOutputs ↔ before.KnowsOutputs := by
  obtain ⟨⟨_, _, _, _, _, rfl⟩, -⟩ := updates
  exact .rfl

/-- With different addresses, what stays when an output is removed are the others. -/
theorem mem_eraseP_iff {outputs : List WlOutput} {name : Nat} {removed tracked : WlOutput}
    (addresses : (outputs.map WlOutput.output).Nodup)
    (found : outputs.find? (·.name == name) = some removed) :
    tracked ∈ outputs.eraseP (·.name == name) ↔
      tracked ∈ outputs ∧ tracked.output ≠ removed.output := by
  induction outputs with
  | nil => cases found
  | cons first outputs ih =>
      rw [List.map_cons, List.nodup_cons] at addresses
      obtain ⟨firstApart, addresses⟩ := addresses
      rw [List.find?_cons] at found
      rw [List.eraseP_cons]
      split at found
      next named =>
        obtain rfl := Option.some.inj found
        rw [named, cond_true, List.mem_cons]
        constructor
        · intro member
          refine ⟨.inr member, fun same => firstApart ?_⟩
          rw [← same]
          exact List.mem_map_of_mem member
        · rintro ⟨rfl | member, differs⟩
          · exact absurd rfl differs
          · exact member
      next others =>
        rw [others, cond_false, List.mem_cons, List.mem_cons, ih addresses found]
        constructor
        · rintro (rfl | ⟨member, differs⟩)
          · refine ⟨.inl rfl, fun same => firstApart ?_⟩
            rw [same]
            exact List.mem_map_of_mem (List.mem_of_find?_eq_some found)
          · exact ⟨.inr member, differs⟩
        · rintro ⟨rfl | member, differs⟩
          · exact .inl rfl
          · exact .inr ⟨member, differs⟩

theorem Sound.removed (sound : popup.Sound) {name : Nat} {removed : WlOutput}
    (found : popup.outputs.find? (·.name == name) = some removed) :
    ({ popup with
      outputs := popup.outputs.eraseP (·.name == name)
      enteredOutputs := popup.enteredOutputs.erase removed.output } : PopupOutputs).Sound where
  addresses := sound.addresses.sublist (List.eraseP_sublist.map _)
  serials := sound.serials.sublist (List.eraseP_sublist.map _)
  numbered tracked member := sound.numbered tracked (List.mem_of_mem_eraseP member)
  scales tracked member := sound.scales tracked (List.mem_of_mem_eraseP member)
  entered := sound.entered.erase _
  live output member := by
    obtain ⟨differs, member⟩ := sound.entered.mem_erase_iff.mp member
    obtain ⟨tracked, there, rfl⟩ := List.mem_map.mp (sound.live output member)
    exact List.mem_map_of_mem ((mem_eraseP_iff sound.addresses found).mpr ⟨there, differs⟩)
  within := sound.within
  panel without := by
    obtain ⟨noneEntered, hidden, nowhere⟩ := sound.panel without
    exact ⟨by simp [noneEntered], hidden, nowhere⟩

theorem KnowsOutputs.removed (knows : popup.KnowsOutputs) (sound : popup.Sound) {name : Nat}
    {removed : WlOutput} (found : popup.outputs.find? (·.name == name) = some removed) :
    ({ popup with
      outputs := popup.outputs.eraseP (·.name == name)
      enteredOutputs := popup.enteredOutputs.erase removed.output } :
        PopupOutputs).KnowsOutputs := by
  intro output
  refine sound.entered.mem_erase_iff.trans ?_
  rw [knows output]
  constructor
  · rintro ⟨differs, tracked, member, rfl, on⟩
    exact ⟨tracked, (mem_eraseP_iff sound.addresses found).mpr ⟨member, differs⟩, rfl, on⟩
  · rintro ⟨tracked, member, rfl, on⟩
    obtain ⟨member, differs⟩ := (mem_eraseP_iff sound.addresses found).mp member
    exact ⟨differs, tracked, member, rfl, on⟩

theorem Sound.panel_of_entered (sound : popup.Sound) {output : Nat}
    (tracks : output ∈ popup.enteredOutputs) : popup.panel = true := by
  by_contra without
  rw [(sound.panel (Bool.not_eq_true _ ▸ without)).1] at tracks
  cases tracks

/-- An entered output which is removed is forgotten, and the popup is drawn without it. -/
theorem Sound.removeOutput_entered (sound : popup.Sound) {name : Nat} {removed : WlOutput}
    (found : popup.outputs.find? (·.name == name) = some removed)
    (tracks : removed.output ∈ popup.enteredOutputs) (update : PopupUpdate) :
    popup.removeOutput name update = ({ popup with
      outputs := popup.outputs.eraseP (·.name == name)
      enteredOutputs := popup.enteredOutputs.erase removed.output } :
        PopupOutputs).refreshVisible update := by
  have gone : ({ popup with outputs := popup.outputs.eraseP (·.name == name) } :
      PopupOutputs).findFrontendOutput removed.output = none := by
    rw [← Option.not_isSome_iff_eq_none, findFrontendOutput_isSome]
    intro there
    obtain ⟨tracked, member, same⟩ := List.mem_map.mp there
    exact ((mem_eraseP_iff sound.addresses found).mp member).2 same
  have contains : popup.enteredOutputs.contains removed.output = true := by simpa using tracks
  unfold removeOutput handleOutputChange
  rw [found]
  dsimp only
  rw [gone]
  simp only [sound.panel_of_entered tracks, tracksOutput, contains, Bool.and_self, if_true,
    Option.isNone_none, untrackOutput]

theorem removeOutput_other {name : Nat} {removed : WlOutput}
    (found : popup.outputs.find? (·.name == name) = some removed)
    (tracks : removed.output ∉ popup.enteredOutputs) (update : PopupUpdate) :
    popup.removeOutput name update =
      { popup with outputs := popup.outputs.eraseP (·.name == name) } := by
  have contains : popup.enteredOutputs.contains removed.output = false := by simpa using tracks
  unfold removeOutput handleOutputChange
  rw [found]
  simp only [tracksOutput, contains, Bool.and_false, Bool.false_eq_true, if_false]

/-- The output is removed from the list, and the popup forgets it if it had entered it. -/
theorem removeOutput_updates (sound : popup.Sound) {name : Nat} {removed : WlOutput}
    (found : popup.outputs.find? (·.name == name) = some removed) (update : PopupUpdate) :
    Updates { popup with
      outputs := popup.outputs.eraseP (·.name == name)
      enteredOutputs := popup.enteredOutputs.erase removed.output }
      (popup.removeOutput name update) := by
  by_cases tracks : removed.output ∈ popup.enteredOutputs
  · rw [sound.removeOutput_entered found tracks]
    exact updates_refreshVisible ..
  · rw [removeOutput_other found tracks, List.erase_of_not_mem tracks]
    exact .refl _

/-- What is not the scale of an output stays. -/
theorem rescaled_map {field : WlOutput → Nat} (popup : PopupOutputs) (output : Nat) (factor : Int)
    (kept : ∀ tracked scale, field { tracked with scale } = field tracked) :
    (popup.rescaled output factor).map field = popup.outputs.map field := by
  unfold rescaled
  rw [List.map_map]
  refine List.map_congr_left fun tracked _ => ?_
  dsimp only [Function.comp]
  split
  · exact kept ..
  · rfl

theorem rescaled_outputs (popup : PopupOutputs) (output : Nat) (factor : Int) :
    (popup.rescaled output factor).map WlOutput.output = popup.outputs.map WlOutput.output :=
  rescaled_map popup output factor fun _ _ => rfl

theorem rescaled_serials (popup : PopupOutputs) (output : Nat) (factor : Int) :
    (popup.rescaled output factor).map WlOutput.serial = popup.outputs.map WlOutput.serial :=
  rescaled_map popup output factor fun _ _ => rfl

theorem mem_rescaled {output : Nat} {factor : Int} {tracked : WlOutput}
    (member : tracked ∈ popup.rescaled output factor) :
    0 < tracked.scale ∨ tracked ∈ popup.outputs := by
  obtain ⟨before, there, rfl⟩ := List.mem_map.mp member
  split
  · left
    dsimp only
    split
    · omega
    · exact Nat.one_pos
  · exact .inr there

theorem Sound.rescaled (sound : popup.Sound) (output : Nat) (factor : Int) :
    ({ popup with outputs := popup.rescaled output factor } : PopupOutputs).Sound where
  addresses := by
    rw [rescaled_outputs]
    exact sound.addresses
  serials := by
    rw [rescaled_serials]
    exact sound.serials
  numbered tracked member := by
    have there : tracked.serial ∈ popup.outputs.map WlOutput.serial := by
      rw [← rescaled_serials popup output factor]
      exact List.mem_map_of_mem member
    obtain ⟨before, member, same⟩ := List.mem_map.mp there
    exact same ▸ sound.numbered before member
  scales tracked member := (mem_rescaled member).elim id (sound.scales tracked)
  entered := sound.entered
  live := by
    rw [rescaled_outputs]
    exact sound.live
  within := sound.within
  panel := sound.panel

theorem mem_rescaled_iff {output : Nat} {factor : Int} {tracked : WlOutput}
    (differs : tracked.output ≠ output) :
    tracked ∈ popup.rescaled output factor ↔ tracked ∈ popup.outputs := by
  constructor
  · intro member
    obtain ⟨before, there, rfl⟩ := List.mem_map.mp member
    split at differs
    · rename_i same
      exact absurd same differs
    · rename_i other
      rwa [if_neg other]
  · intro member
    refine List.mem_map.mpr ⟨tracked, member, ?_⟩
    rw [if_neg differs]

theorem KnowsOutputs.rescaled (knows : popup.KnowsOutputs) (output : Nat) (factor : Int) :
    ({ popup with outputs := popup.rescaled output factor } : PopupOutputs).KnowsOutputs := by
  intro other
  refine (knows other).trans ?_
  constructor
  · rintro ⟨tracked, member, rfl, on⟩
    refine ⟨_, List.mem_map_of_mem member, ?_⟩
    split <;> exact ⟨rfl, on⟩
  · rintro ⟨tracked, member, rfl, on⟩
    obtain ⟨before, there, rfl⟩ := List.mem_map.mp member
    refine ⟨before, there, ?_⟩
    split at on
    · rename_i same
      rw [if_pos same]
      exact ⟨rfl, on⟩
    · rename_i differs
      rw [if_neg differs]
      exact ⟨rfl, on⟩

theorem Sound.outputScale_entered (sound : popup.Sound) {output : Nat} (factor : Int)
    (tracks : output ∈ popup.enteredOutputs) (update : PopupUpdate) :
    popup.outputScale output factor update =
      ({ popup with outputs := popup.rescaled output factor } :
        PopupOutputs).refreshVisible update := by
  have there : (popup.findFrontendOutput output).isSome :=
    findFrontendOutput_isSome.mpr (sound.live output tracks)
  have still : (({ popup with outputs := popup.rescaled output factor } :
      PopupOutputs).findFrontendOutput output).isSome := by
    rw [findFrontendOutput_isSome, rescaled_outputs]
    exact sound.live output tracks
  unfold outputScale handleOutputChange
  rw [if_pos there, if_pos (by simp [sound.panel_of_entered tracks, tracksOutput, tracks]),
    if_neg (by rw [Option.isNone_iff_eq_none]; exact Option.isSome_iff_ne_none.mp still)]

theorem outputScale_other {output : Nat} (factor : Int)
    (there : (popup.findFrontendOutput output).isSome) (tracks : output ∉ popup.enteredOutputs)
    (update : PopupUpdate) :
    popup.outputScale output factor update =
      { popup with outputs := popup.rescaled output factor } := by
  have contains : popup.enteredOutputs.contains output = false := by simpa using tracks
  unfold outputScale handleOutputChange
  rw [if_pos there]
  simp only [tracksOutput, contains, Bool.and_false, Bool.false_eq_true, if_false]

theorem Sound.outputScale_updates (sound : popup.Sound) {output : Nat} (factor : Int)
    (update : PopupUpdate) (there : (popup.findFrontendOutput output).isSome) :
    Updates { popup with outputs := popup.rescaled output factor }
      (popup.outputScale output factor update) := by
  by_cases tracks : output ∈ popup.enteredOutputs
  · rw [sound.outputScale_entered factor tracks]
    exact updates_refreshVisible ..
  · rw [outputScale_other factor there tracks]
    exact .refl _

theorem Sound.entered_of_find (sound : popup.Sound) {output : Nat} {tracked : WlOutput}
    (found : popup.findFrontendOutput output = some tracked) :
    tracked ∈ popup.outputs ∧ tracked.output = output ∧
      ∀ other ∈ popup.outputs, other.output = output → other = tracked := by
  have member := List.mem_of_find?_eq_some found
  have same : tracked.output = output := by simpa using List.find?_some found
  refine ⟨member, same, fun other there sameOther => ?_⟩
  exact List.inj_on_of_nodup_map sound.addresses there member (sameOther.trans same.symm)

/-- The popup enters an output of the frontend it had not entered. -/
theorem Sound.entering (sound : popup.Sound) {output : Nat} {tracked : WlOutput}
    (found : popup.findFrontendOutput output = some tracked) (panel : popup.panel = true)
    {entered : List Nat}
    (enters : entered = popup.enteredOutputs ∨
      output ∉ popup.enteredOutputs ∧ entered = output :: popup.enteredOutputs) :
    ({ popup with
      within := tracked.serial :: popup.within
      enteredOutputs := entered } : PopupOutputs).Sound := by
  obtain ⟨member, rfl, -⟩ := sound.entered_of_find found
  refine ⟨sound.addresses, sound.serials, sound.numbered, sound.scales, ?_, ?_, ?_, ?_⟩
  · rcases enters with rfl | ⟨fresh, rfl⟩
    · exact sound.entered
    · exact List.nodup_cons.mpr ⟨fresh, sound.entered⟩
  · rcases enters with rfl | ⟨-, rfl⟩
    · exact sound.live
    · exact List.forall_mem_cons.mpr ⟨List.mem_map_of_mem member, sound.live⟩
  · exact List.forall_mem_cons.mpr ⟨sound.numbered tracked member, sound.within⟩
  · exact fun without => absurd (without.symm.trans panel) Bool.false_ne_true

theorem Sound.leaving (sound : popup.Sound) {output : Nat} (tracked : WlOutput)
    (panel : popup.panel = true) :
    ({ popup with
      within := popup.within.filter (· != tracked.serial)
      enteredOutputs := popup.enteredOutputs.erase output } : PopupOutputs).Sound where
  addresses := sound.addresses
  serials := sound.serials
  numbered := sound.numbered
  scales := sound.scales
  entered := sound.entered.erase _
  live other member := sound.live other (List.mem_of_mem_erase member)
  within serial member := sound.within serial (List.mem_filter.mp member).1
  panel without := absurd (without.symm.trans panel) Bool.false_ne_true

theorem KnowsOutputs.entering_iff (knows : popup.KnowsOutputs) (sound : popup.Sound) {output : Nat}
    {tracked : WlOutput} (found : popup.findFrontendOutput output = some tracked)
    (entered : List Nat) :
    ({ popup with
      within := tracked.serial :: popup.within
      enteredOutputs := entered } : PopupOutputs).KnowsOutputs ↔
      ∀ other, other ∈ entered ↔ other = output ∨ other ∈ popup.enteredOutputs := by
  obtain ⟨member, same, only⟩ := sound.entered_of_find found
  refine forall_congr' fun other => iff_congr .rfl ?_
  rw [knows other]
  constructor
  · rintro ⟨there, inside, rfl, on⟩
    rcases List.mem_cons.mp on with newest | before
    · left
      rw [List.inj_on_of_nodup_map sound.serials inside member newest, same]
    · exact .inr ⟨there, inside, rfl, before⟩
  · rintro (rfl | ⟨there, inside, rfl, on⟩)
    · exact ⟨tracked, member, same, List.mem_cons_self ..⟩
    · exact ⟨there, inside, rfl, List.mem_cons_of_mem _ on⟩

theorem KnowsOutputs.leaving (knows : popup.KnowsOutputs) (sound : popup.Sound) {output : Nat}
    {tracked : WlOutput} (found : popup.findFrontendOutput output = some tracked) :
    ({ popup with
      within := popup.within.filter (· != tracked.serial)
      enteredOutputs := popup.enteredOutputs.erase output } : PopupOutputs).KnowsOutputs := by
  obtain ⟨member, rfl, only⟩ := sound.entered_of_find found
  intro other
  refine sound.entered.mem_erase_iff.trans ?_
  rw [knows other]
  constructor
  · rintro ⟨differs, there, inside, rfl, on⟩
    refine ⟨there, inside, rfl, List.mem_filter.mpr ⟨on, ?_⟩⟩
    rw [bne_iff_ne]
    intro same
    exact differs (congrArg WlOutput.output
      (List.inj_on_of_nodup_map sound.serials inside member same))
  · rintro ⟨there, inside, rfl, on⟩
    obtain ⟨on, differs⟩ := List.mem_filter.mp on
    refine ⟨?_, there, inside, rfl, on⟩
    intro same
    rw [List.inj_on_of_nodup_map sound.addresses inside member same] at differs
    simp at differs

/-- Nothing happens, or there is a popup and the output. -/
theorem atOutput_cases (popup : PopupOutputs) (output : Nat) (handler : WlOutput → PopupOutputs) :
    popup.atOutput output handler = popup ∧
        ¬(popup.panel = true ∧ (popup.findFrontendOutput output).isSome) ∨
      ∃ tracked, popup.findFrontendOutput output = some tracked ∧ popup.panel = true ∧
        popup.atOutput output handler = handler tracked := by
  unfold atOutput
  cases found : popup.findFrontendOutput output with
  | none => exact .inl ⟨rfl, by simp⟩
  | some tracked =>
      by_cases panel : popup.panel = true
      · exact .inr ⟨tracked, rfl, panel, if_pos panel⟩
      · exact .inl ⟨if_neg panel, fun both => panel both.1⟩

/-- The output is not noted again, or cannot be noted. -/
theorem trackOutput_of_noted {output : Nat} {allocates : Bool}
    (noted : output ∈ popup.enteredOutputs ∨ allocates = false) (update : PopupUpdate) :
    popup.trackOutput output allocates update = popup :=
  if_pos (by simpa [tracksOutput] using noted)

theorem trackOutput_of_fresh {output : Nat} {allocates : Bool}
    (fresh : ¬(output ∈ popup.enteredOutputs ∨ allocates = false)) (update : PopupUpdate) :
    popup.trackOutput output allocates update =
      ({ popup with enteredOutputs := output :: popup.enteredOutputs } :
        PopupOutputs).refreshVisible update :=
  if_neg (by simpa [tracksOutput] using fresh)

theorem untrackOutput_of_mem {output : Nat} (tracks : output ∈ popup.enteredOutputs)
    (update : PopupUpdate) :
    popup.untrackOutput output update =
      ({ popup with enteredOutputs := popup.enteredOutputs.erase output } :
        PopupOutputs).refreshVisible update :=
  if_pos (by simpa [tracksOutput] using tracks)

theorem untrackOutput_of_not_mem {output : Nat} (tracks : output ∉ popup.enteredOutputs)
    (update : PopupUpdate) : popup.untrackOutput output update = popup :=
  if_neg (by simpa [tracksOutput] using tracks)

/-- The popup notes the output, if it can, and nothing else. -/
theorem updates_trackOutput (popup : PopupOutputs) (output : Nat) (allocates : Bool)
    (update : PopupUpdate) :
    Updates { popup with
      enteredOutputs := if output ∈ popup.enteredOutputs ∨ allocates = false then
        popup.enteredOutputs else output :: popup.enteredOutputs }
      (popup.trackOutput output allocates update) := by
  split
  next noted =>
    rw [trackOutput_of_noted noted]
    exact .refl _
  next fresh =>
    rw [trackOutput_of_fresh fresh]
    exact updates_refreshVisible ..

/-- The popup forgets the output, and nothing else. -/
theorem updates_untrackOutput (popup : PopupOutputs) (output : Nat) (update : PopupUpdate) :
    Updates { popup with enteredOutputs := popup.enteredOutputs.erase output }
      (popup.untrackOutput output update) := by
  by_cases tracks : output ∈ popup.enteredOutputs
  · rw [untrackOutput_of_mem tracks]
    exact updates_refreshVisible ..
  · rw [untrackOutput_of_not_mem tracks, List.erase_of_not_mem tracks]
    exact .refl _

theorem updates_prefer {accepted : Bool} {preferring : PopupOutputs}
    (prefers : Updates popup preferring) (update : PopupUpdate) :
    Updates popup (popup.prefer accepted preferring update) := by
  unfold prefer
  split
  · exact prefers.trans (updates_refreshVisible ..)
  · exact .refl popup

theorem Sound.setPanel (sound : popup.Sound) (panel : Bool) : (popup.setPanel panel).Sound :=
  ⟨sound.addresses, sound.serials, sound.numbered, sound.scales, List.nodup_nil, nofun, nofun,
    fun _ => ⟨rfl, rfl, rfl⟩⟩

theorem Sound.bindOutput (sound : popup.Sound) (name output : Nat) :
    (popup.bindOutput name output).Sound := by
  unfold PopupOutputs.bindOutput
  split
  · exact sound
  · rename_i fresh
    rw [findFrontendOutput_isSome] at fresh
    refine ⟨List.nodup_cons.mpr ⟨fresh, sound.addresses⟩, ?_, ?_, ?_, sound.entered, ?_, ?_,
      sound.panel⟩
    · refine List.nodup_cons.mpr ⟨fun again => ?_, sound.serials⟩
      obtain ⟨tracked, member, same⟩ := List.mem_map.mp again
      exact Nat.lt_irrefl _ (same ▸ sound.numbered tracked member)
    · exact List.forall_mem_cons.mpr ⟨Nat.lt_succ_self _,
        fun tracked member => Nat.lt_succ_of_lt (sound.numbered tracked member)⟩
    · exact List.forall_mem_cons.mpr ⟨Nat.one_pos, sound.scales⟩
    · exact fun other member => List.mem_cons_of_mem _ (sound.live other member)
    · exact fun serial member => Nat.lt_succ_of_lt (sound.within serial member)

theorem KnowsOutputs.bindOutput (knows : popup.KnowsOutputs) (sound : popup.Sound)
    (name output : Nat) : (popup.bindOutput name output).KnowsOutputs := by
  unfold PopupOutputs.bindOutput
  split
  · exact knows
  · intro other
    refine (knows other).trans ?_
    constructor
    · rintro ⟨tracked, member, rest⟩
      exact ⟨tracked, List.mem_cons_of_mem _ member, rest⟩
    · rintro ⟨tracked, member, same, on⟩
      rcases List.mem_cons.mp member with rfl | member
      · exact absurd (sound.within _ on) (Nat.lt_irrefl _)
      · exact ⟨tracked, member, same, on⟩

/-- What an event does to the tracking, apart from what is drawn. -/
inductive Moves (popup : PopupOutputs) : Event → PopupOutputs → Prop where
  | stays {event : Event} (notes : popup.Notes event) : Moves popup event popup
  | binds (name output : Nat) : Moves popup (.bindOutput name output) (popup.bindOutput name output)
  | removes {name : Nat} {removed : WlOutput} (update : PopupUpdate)
      (found : popup.outputs.find? (·.name == name) = some removed) :
      Moves popup (.removeOutput name update)
        { popup with
          outputs := popup.outputs.eraseP (·.name == name)
          enteredOutputs := popup.enteredOutputs.erase removed.output }
  | rescales (output : Nat) (factor : Int) (update : PopupUpdate) :
      Moves popup (.outputScale output factor update)
        { popup with outputs := popup.rescaled output factor }
  | enters {output : Nat} {tracked : WlOutput} (allocates : Bool) (update : PopupUpdate)
      (found : popup.findFrontendOutput output = some tracked) (panel : popup.panel = true) :
      Moves popup (.enter output allocates update)
        { popup with
          within := tracked.serial :: popup.within
          enteredOutputs := if output ∈ popup.enteredOutputs ∨ allocates = false then
            popup.enteredOutputs else output :: popup.enteredOutputs }
  | leaves {output : Nat} {tracked : WlOutput} (update : PopupUpdate)
      (found : popup.findFrontendOutput output = some tracked) (panel : popup.panel = true) :
      Moves popup (.leave output update)
        { popup with
          within := popup.within.filter (· != tracked.serial)
          enteredOutputs := popup.enteredOutputs.erase output }
  | clears {event : Event} (panel : Bool) (notes : popup.Notes event) :
      Moves popup event (popup.setPanel panel)
  | disconnects : Moves popup .disconnect { popup.setPanel false with outputs := [] }

/-- A step is a move of the tracking, and an update. -/
theorem Sound.step_moves (sound : popup.Sound) (event : Event) :
    ∃ moved, popup.Moves event moved ∧ Updates moved (popup.step event) := by
  have stays {after : PopupOutputs} (notes : popup.Notes event) (updates : Updates popup after) :
      ∃ moved, popup.Moves event moved ∧ Updates moved after := ⟨popup, .stays notes, updates⟩
  cases event with
  | bindOutput name output => exact ⟨_, .binds name output, .refl _⟩
  | removeOutput name update =>
      cases found : popup.outputs.find? (·.name == name) with
      | none =>
          rw [step, removeOutput, found]
          exact stays trivial (.refl popup)
      | some removed => exact ⟨_, .removes update found, removeOutput_updates sound found update⟩
  | outputScale output factor update =>
      by_cases there : (popup.findFrontendOutput output).isSome
      · exact ⟨_, .rescales output factor update, sound.outputScale_updates factor update there⟩
      · rw [step, outputScale, if_neg there]
        exact stays trivial (.refl popup)
  | createPanel =>
      by_cases panel : popup.panel = true
      · rw [step, if_pos panel]
        exact stays trivial (.refl popup)
      · rw [step, if_neg panel]
        exact ⟨_, .clears true trivial, .refl _⟩
  | destroyPanel => exact ⟨_, .clears false trivial, .refl _⟩
  | enter output allocates update =>
      rw [step, enter]
      rcases popup.atOutput_cases output _ with ⟨same, neither⟩ | ⟨tracked, found, panel, same⟩
      · rw [same]
        exact stays (fun panel there => absurd ⟨panel, there⟩ neither) (.refl popup)
      · rw [same]
        exact ⟨_, .enters allocates update found panel, updates_trackOutput
          { popup with within := tracked.serial :: popup.within } output allocates update⟩
  | leave output update =>
      rw [step, leave]
      rcases popup.atOutput_cases output _ with ⟨same, -⟩ | ⟨tracked, found, panel, same⟩
      · rw [same]
        exact stays trivial (.refl popup)
      · rw [same]
        exact ⟨_, .leaves update found panel, updates_untrackOutput
          { popup with within := popup.within.filter (· != tracked.serial) } output update⟩
  | preferBufferScale factor update =>
      exact stays trivial (updates_prefer ⟨⟨_, _, _, _, _, rfl⟩, .inl⟩ update)
  | preferFractionalScale scale120 update =>
      exact stays trivial (updates_prefer ⟨⟨_, _, _, _, _, rfl⟩, .inl⟩ update)
  | update update =>
      rw [step]
      split
      next panel => exact stays trivial (updates_updateContent panel update)
      next => exact stays trivial (.refl popup)
  | hide => exact stays trivial ⟨⟨_, _, _, _, _, rfl⟩, nofun⟩
  | session ctx => exact stays trivial ⟨⟨_, _, _, _, _, rfl⟩, .inl⟩
  | disconnect => exact ⟨_, .disconnects, .refl _⟩

theorem Sound.moved (sound : popup.Sound) {event : Event} {moved : PopupOutputs}
    (moves : popup.Moves event moved) : moved.Sound := by
  cases moves with
  | stays => exact sound
  | binds name output => exact sound.bindOutput name output
  | removes update found => exact sound.removed found
  | rescales output factor update => exact sound.rescaled output factor
  | enters allocates update found panel =>
      refine sound.entering found panel ?_
      split
      next => exact .inl rfl
      next fresh => exact .inr ⟨fun member => fresh (.inl member), rfl⟩
  | @leaves _ tracked _ _ panel => exact sound.leaving tracked panel
  | clears panel => exact sound.setPanel panel
  | disconnects =>
      exact ⟨List.nodup_nil, List.nodup_nil, nofun, nofun, List.nodup_nil, nofun, nofun,
        fun _ => ⟨rfl, rfl, rfl⟩⟩

theorem Sound.step (sound : popup.Sound) (event : Event) : (popup.step event).Sound := by
  obtain ⟨moved, moves, updates⟩ := sound.step_moves event
  exact updates.sound (sound.moved moves)

theorem KnowsOutputs.moved_iff (knows : popup.KnowsOutputs) (sound : popup.Sound) {event : Event}
    {moved : PopupOutputs} (moves : popup.Moves event moved) :
    moved.KnowsOutputs ↔ popup.Notes event := by
  cases moves with
  | stays notes => exact iff_of_true knows notes
  | binds name output => exact iff_of_true (knows.bindOutput sound name output) trivial
  | removes update found => exact iff_of_true (knows.removed sound found) trivial
  | rescales output factor update => exact iff_of_true (knows.rescaled output factor) trivial
  | @enters output tracked allocates update found panel =>
      rw [knows.entering_iff sound found]
      simp only [Notes, panel, found, Option.isSome_some, forall_const]
      by_cases member : output ∈ popup.enteredOutputs
      · simp only [member, true_or, if_true, not_true_eq_false, false_imp_iff, iff_true]
        intro other
        exact ⟨.inr, fun either => either.elim (fun same => same ▸ member) id⟩
      · cases allocates with
        | true => simp [member]
        | false =>
            simp only [or_true, if_true, Bool.false_eq_true, imp_false, not_not, member, iff_false]
            intro all
            exact member ((all output).mpr (.inl rfl))
  | leaves update found panel => exact iff_of_true (knows.leaving sound found) trivial
  | clears panel notes => exact iff_of_true (fun output => by simp [PopupOutputs.setPanel]) notes
  | disconnects => exact iff_of_true (fun output => by simp [PopupOutputs.setPanel]) trivial

theorem knows_step (sound : popup.Sound) (knows : popup.KnowsOutputs) (event : Event) :
    (popup.step event).KnowsOutputs ↔ popup.Notes event := by
  obtain ⟨moved, moves, updates⟩ := sound.step_moves event
  exact updates.knows.trans (knows.moved_iff sound moves)

/-- The popup counts as entered exactly the outputs its surface is on, never a later output which
has the address of an earlier one, if and only if every output it enters could be noted. -/
theorem knowsOutputs_iff_notes (events : List Event) :
    Machine.Always step KnowsOutputs initial events ↔
      Machine.EachStep step Notes initial events :=
  Machine.always_iff_eachStep Sound (fun _ event sound knows => knows_step sound knows event)
    (fun _ event sound _ _ => sound.step event) initial_sound fun output => by simp [initial]

/-! ## The scale -/

theorem foldl_best (outputs : List WlOutput) (start : Nat) :
    outputs.foldl (fun best output => max best output.scale) start = max start (best outputs) := by
  induction outputs generalizing start with
  | nil => simp [best]
  | cons first outputs ih =>
      rw [best, List.foldl_cons, List.foldl_cons, ih, ih]
      omega

theorem best_cons (first : WlOutput) (outputs : List WlOutput) :
    best (first :: outputs) = max first.scale (best outputs) := by
  rw [best, List.foldl_cons, foldl_best]
  omega

/-- Among positive scales there is a best one, unless there are none. -/
theorem best_pos {outputs : List WlOutput} (some : outputs ≠ [])
    (scales : ∀ tracked ∈ outputs, 0 < tracked.scale) : 0 < best outputs := by
  cases outputs with
  | nil => exact absurd rfl some
  | cons first outputs =>
      rw [best_cons]
      have positive := scales first (List.mem_cons_self ..)
      omega

theorem find_eq_some_iff {outputs : List WlOutput} {output : Nat} {tracked : WlOutput}
    (addresses : (outputs.map WlOutput.output).Nodup) :
    outputs.find? (·.output == output) = some tracked ↔
      tracked ∈ outputs ∧ tracked.output = output := by
  constructor
  · intro found
    exact ⟨List.mem_of_find?_eq_some found, by simpa using List.find?_some found⟩
  · rintro ⟨member, rfl⟩
    cases found : outputs.find? (·.output == tracked.output) with
    | none => exact absurd (beq_self_eq_true _) (List.find?_eq_none.mp found tracked member)
    | some other =>
        have same : other.output = tracked.output := by simpa using List.find?_some found
        rw [List.inj_on_of_nodup_map addresses (List.mem_of_find?_eq_some found) member same]

/-- A change of other outputs finds the same output at an address. -/
theorem find_congr {before after : List WlOutput} {output : Nat}
    (addressesBefore : (before.map WlOutput.output).Nodup)
    (addressesAfter : (after.map WlOutput.output).Nodup)
    (others : ∀ tracked, tracked.output = output → (tracked ∈ after ↔ tracked ∈ before)) :
    after.find? (·.output == output) = before.find? (·.output == output) := by
  refine Option.ext fun tracked => ?_
  rw [find_eq_some_iff addressesBefore, find_eq_some_iff addressesAfter]
  exact and_congr_left (others tracked)

/-- A change of outputs the popup has not entered changes its scale only if it changes a guess. -/
theorem Sound.renderScale_eq_iff (sound : popup.Sound) {outputs : List WlOutput}
    (same : ∀ output ∈ popup.enteredOutputs,
      outputs.find? (·.output == output) = popup.outputs.find? (·.output == output)) :
    ({ popup with outputs } : PopupOutputs).renderScale = popup.renderScale ↔
      popup.Unnoticed { popup with outputs } := by
  have found : popup.enteredOutputs.filterMap
      ({ popup with outputs } : PopupOutputs).findFrontendOutput =
      popup.enteredOutputs.filterMap popup.findFrontendOutput := List.filterMap_congr same
  unfold renderScale Unnoticed Guesses
  dsimp only
  rw [found]
  by_cases fractional : 0 < popup.fractionalScale120
  · simp [fractional, Nat.ne_of_gt fractional]
  by_cases buffer : 0 < popup.preferredBufferScale
  · simp [fractional, buffer, Nat.ne_of_gt buffer]
  rw [if_neg fractional, if_neg buffer, if_neg fractional, if_neg buffer]
  have silent : popup.fractionalScale120 = 0 ∧ popup.preferredBufferScale = 0 := by omega
  cases entered : popup.enteredOutputs with
  | nil => simp [silent, best]
  | cons first rest =>
      have live := sound.live first (entered ▸ List.mem_cons_self ..)
      obtain ⟨tracked, there⟩ := Option.isSome_iff_exists.mp (findFrontendOutput_isSome.mpr live)
      have positive : 0 < best ((first :: rest).filterMap popup.findFrontendOutput) := by
        refine best_pos ?_ fun tracked member => ?_
        · rw [List.filterMap_cons_some there]
          exact List.cons_ne_nil _ _
        · obtain ⟨output, -, at_⟩ := List.mem_filterMap.mp member
          exact sound.scales tracked (List.mem_of_find?_eq_some at_)
      simp [positive]

/-- With a new output nothing is drawn at another scale: it has scale one. -/
theorem Sound.renderScale_bindOutput (sound : popup.Sound) (name output : Nat) :
    (popup.bindOutput name output).renderScale = popup.renderScale := by
  unfold PopupOutputs.bindOutput
  split
  · rfl
  · rename_i fresh
    rw [findFrontendOutput_isSome] at fresh
    have same : ∀ entered ∈ popup.enteredOutputs,
        ((⟨name, output, 1, popup.bound⟩ : WlOutput) :: popup.outputs).find?
          (·.output == entered) = popup.outputs.find? (·.output == entered) := by
      intro entered member
      refine List.find?_cons_of_neg ?_
      intro reused
      have reused : output = entered := by simpa using reused
      exact fresh (reused ▸ sound.live entered member)
    refine (sound.renderScale_eq_iff same).mpr fun _ => ?_
    unfold initialGuess
    dsimp only
    rw [best_cons]
    dsimp only
    cases outputs : popup.outputs with
    | nil => rfl
    | cons first rest =>
        have positive : 0 < best popup.outputs := best_pos (by simp [outputs]) sound.scales
        rw [← outputs, Nat.max_eq_right positive]

/-- A render which is asked for again, or at a scale which stays, leaves the popup in scale. -/
theorem inScale_refreshVisible {changed : PopupOutputs} (inScale : popup.InScale)
    (visible : changed.visible = popup.visible) (ctx : changed.ctx = popup.ctx)
    (asked : changed.asked = popup.asked) (update : PopupUpdate) :
    (changed.refreshVisible update).InScale ↔ (popup.visible = true → popup.Redrawn changed) := by
  unfold refreshVisible
  rw [visible, ctx]
  by_cases shown : popup.visible = true
  · by_cases context : popup.ctx = true
    · rw [if_pos (by simp [shown, context])]
      refine iff_of_true ?_ fun _ => .inl context
      cases update with
      | hides => exact nofun
      | renders presented => exact fun _ => rfl
    · rw [if_neg (by simp [context])]
      unfold InScale Redrawn
      rw [visible, asked, inScale shown]
      simp [shown, context, eq_comm]
  · rw [if_neg (by simp [shown])]
    exact iff_of_true (fun again => absurd (visible.symm.trans again) shown) (absurd · shown)

/-- Without a render the popup stays in scale if its scale stays. -/
theorem inScale_of_kept (changed : PopupOutputs) (inScale : popup.InScale)
    (visible : changed.visible = popup.visible) (asked : changed.asked = popup.asked) :
    changed.InScale ↔ (popup.visible = true → changed.renderScale = popup.renderScale) := by
  unfold InScale
  rw [visible, asked]
  refine forall_congr' fun shown => ?_
  rw [inScale shown, Option.some.injEq, eq_comm]

theorem Sound.inScale_removeOutput (sound : popup.Sound) (inScale : popup.InScale) (name : Nat)
    (update : PopupUpdate) : (popup.removeOutput name update).InScale ↔
      (popup.visible = true → popup.Follows (.removeOutput name update)) := by
  cases found : popup.outputs.find? (·.name == name) with
  | none =>
      rw [removeOutput, found]
      refine iff_of_true inScale fun _ removed member => ?_
      rw [found] at member
      cases member
  | some removed =>
      simp only [Follows, found, Option.mem_some_iff, forall_eq']
      by_cases tracks : removed.output ∈ popup.enteredOutputs
      · rw [if_pos tracks, sound.removeOutput_entered found tracks]
        refine inScale_refreshVisible inScale ?_ ?_ ?_ update <;> rfl
      · rw [if_neg tracks, removeOutput_other found tracks,
          inScale_of_kept { popup with outputs := popup.outputs.eraseP (·.name == name) } inScale rfl rfl,
          sound.renderScale_eq_iff]
        intro output entered
        refine find_congr sound.addresses (sound.removed found).addresses fun tracked here => ?_
        refine (mem_eraseP_iff sound.addresses found).trans (and_iff_left ?_)
        rintro same
        exact tracks (same ▸ here ▸ entered)

theorem Sound.inScale_outputScale (sound : popup.Sound) (inScale : popup.InScale) (output : Nat)
    (factor : Int) (update : PopupUpdate) : (popup.outputScale output factor update).InScale ↔
      (popup.visible = true → popup.Follows (.outputScale output factor update)) := by
  unfold Follows
  by_cases there : (popup.findFrontendOutput output).isSome
  · simp only [there, forall_const]
    by_cases tracks : output ∈ popup.enteredOutputs
    · rw [if_pos tracks, sound.outputScale_entered factor tracks]
      refine inScale_refreshVisible inScale ?_ ?_ ?_ update <;> rfl
    · rw [if_neg tracks, outputScale_other factor there tracks,
        inScale_of_kept { popup with outputs := popup.rescaled output factor } inScale rfl rfl,
          sound.renderScale_eq_iff]
      intro entered member
      refine find_congr sound.addresses (sound.rescaled output factor).addresses ?_
      rintro tracked rfl
      exact mem_rescaled_iff fun same => tracks (same ▸ member)
  · rw [outputScale, if_neg there]
    exact iff_of_true inScale fun _ here => absurd here there

theorem Sound.hidden (sound : popup.Sound) (panel : popup.panel ≠ true) :
    popup.visible ≠ true := by
  rw [(sound.panel (Bool.not_eq_true _ ▸ panel)).2.1]
  exact Bool.false_ne_true

/-- Without a popup, or without the output, nothing is drawn which could be out of scale. -/
theorem Sound.inScale_atOutput (sound : popup.Sound) (inScale : popup.InScale) {output : Nat}
    {handler : WlOutput → PopupOutputs} {follows : Prop}
    (handles : ∀ tracked, popup.findFrontendOutput output = some tracked →
      ((handler tracked).InScale ↔ (popup.visible = true → follows))) :
    (popup.atOutput output handler).InScale ↔
      (popup.visible = true → (popup.findFrontendOutput output).isSome → follows) := by
  rcases popup.atOutput_cases output handler with ⟨same, neither⟩ | ⟨tracked, found, -, same⟩
  · rw [same]
    refine iff_of_true inScale fun shown there => ?_
    refine absurd shown (sound.hidden fun panel => neither ⟨panel, there⟩)
  · rw [same, handles tracked found, found]
    simp

theorem inScale_trackOutput (inScale : popup.InScale) (output : Nat) (allocates : Bool)
    (update : PopupUpdate) : (popup.trackOutput output allocates update).InScale ↔
      (popup.visible = true → output ∉ popup.enteredOutputs → allocates = true →
        popup.Redrawn { popup with enteredOutputs := output :: popup.enteredOutputs }) := by
  by_cases noted : output ∈ popup.enteredOutputs ∨ allocates = false
  · rw [trackOutput_of_noted noted]
    exact iff_of_true inScale fun _ fresh notes => absurd noted (by simp [fresh, notes])
  · obtain ⟨fresh, notes⟩ := not_or.mp noted
    rw [trackOutput_of_fresh noted]
    simp only [fresh, Bool.not_eq_false _ ▸ notes, not_false_eq_true, forall_const]
    refine inScale_refreshVisible inScale ?_ ?_ ?_ update <;> rfl

theorem inScale_untrackOutput (inScale : popup.InScale) (output : Nat) (update : PopupUpdate) :
    (popup.untrackOutput output update).InScale ↔
      (popup.visible = true → output ∈ popup.enteredOutputs →
        popup.Redrawn { popup with enteredOutputs := popup.enteredOutputs.erase output }) := by
  by_cases tracks : output ∈ popup.enteredOutputs
  · rw [untrackOutput_of_mem tracks]
    simp only [tracks, forall_const]
    refine inScale_refreshVisible inScale ?_ ?_ ?_ update <;> rfl
  · rw [untrackOutput_of_not_mem tracks]
    exact iff_of_true inScale fun _ member => absurd member tracks

theorem Sound.inScale_prefer (sound : popup.Sound) (inScale : popup.InScale) {accepted : Bool}
    {preferring : PopupOutputs} {valid : Prop} (same : preferring.visible = popup.visible ∧
      preferring.ctx = popup.ctx ∧ preferring.asked = popup.asked)
    (accepts : accepted = true → valid) (rejects : accepted = false → valid → preferring = popup)
    (update : PopupUpdate) : (popup.prefer accepted preferring update).InScale ↔
      (popup.visible = true → valid → popup.Redrawn preferring) := by
  unfold prefer
  cases accepted with
  | true =>
      by_cases panel : popup.panel = true
      · rw [if_pos (by simp [panel]), inScale_refreshVisible inScale same.1 same.2.1 same.2.2]
        simp [accepts rfl]
      · rw [if_neg (by simp [panel])]
        exact iff_of_true inScale fun shown => absurd shown (sound.hidden panel)
  | false =>
      rw [if_neg (by simp)]
      refine iff_of_true inScale fun _ ofValid => .inr ?_
      rw [rejects rfl ofValid]

theorem inScale_step (sound : popup.Sound) (inScale : popup.InScale) (event : Event) :
    (popup.step event).InScale ↔ (popup.visible = true → popup.Follows event) := by
  cases event with
  | removeOutput name update => exact sound.inScale_removeOutput inScale name update
  | outputScale output factor update => exact sound.inScale_outputScale inScale output factor update
  | enter output allocates update =>
      refine sound.inScale_atOutput inScale fun tracked _ => ?_
      exact @inScale_trackOutput { popup with within := tracked.serial :: popup.within } inScale output
        allocates update
  | leave output update =>
      refine sound.inScale_atOutput inScale fun tracked _ => ?_
      exact @inScale_untrackOutput
        { popup with within := popup.within.filter (· != tracked.serial) } inScale output update
  | preferBufferScale factor update =>
      refine sound.inScale_prefer inScale ?_ ?_ ?_ update
      · exact ⟨rfl, rfl, rfl⟩
      · simp +contextual
      · intro rejected positive
        simp only [positive, decide_true, Bool.true_and, bne_eq_false_iff_eq] at rejected
        rw [← rejected]
  | preferFractionalScale scale120 update =>
      refine sound.inScale_prefer inScale ?_ ?_ ?_ update
      · exact ⟨rfl, rfl, rfl⟩
      · simp +contextual
      · intro rejected positive
        rw [bne_iff_ne.mpr positive, Bool.true_and, bne_eq_false_iff_eq] at rejected
        rw [← rejected]
  | bindOutput name output =>
      refine iff_of_true ?_ fun _ => trivial
      intro shown
      rw [step, sound.renderScale_bindOutput]
      have kept : (popup.bindOutput name output).visible = popup.visible ∧
          (popup.bindOutput name output).asked = popup.asked := by
        unfold PopupOutputs.bindOutput
        split <;> exact ⟨rfl, rfl⟩
      rw [kept.2]
      exact inScale (kept.1.symm.trans shown)
  | createPanel =>
      refine iff_of_true ?_ fun _ => trivial
      change (if popup.panel then popup else popup.setPanel true).InScale
      split
      · exact inScale
      · exact nofun
  | update update =>
      refine iff_of_true ?_ fun _ => trivial
      change (if popup.panel then popup.updateContent update else popup).InScale
      split
      · cases update with
        | hides => exact nofun
        | renders presented => exact fun _ => rfl
      · exact inScale
  | destroyPanel => exact iff_of_true nofun fun _ => trivial
  | hide => exact iff_of_true nofun fun _ => trivial
  | session ctx => exact iff_of_true inScale fun _ => trivial
  | disconnect => exact iff_of_true nofun fun _ => trivial

/-- A visible popup was always last rendered at the scale it should have, if and only if there was a
context to draw it again from whenever its scale changed by its own signals or its own outputs, and
no other output changed a guess it was drawn by. -/
theorem inScale_iff_follows (events : List Event) :
    Machine.Always step InScale initial events ↔
      Machine.EachStep step (fun popup event => popup.visible = true → popup.Follows event)
        initial events :=
  Machine.always_iff_eachStep Sound (fun _ event sound inScale => inScale_step sound inScale event)
    (fun _ event sound _ _ => sound.step event) initial_sound nofun

end PopupOutputs

end Typio
