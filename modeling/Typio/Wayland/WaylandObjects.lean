import Typio.Machine
import Typio.Places
import Typio.Wayland.EventLoop

/-!
# The objects of the Wayland connection

Binding connects the display, takes the globals the registry announces and creates the input method,
the virtual keyboard and the popup surface; the grab comes and goes with the focus.  When the
connection is lost everything is destroyed and bound again, and each step of it may fail.  The
places are the pointers of the frontend, of its outputs, of its keyboard and of its popup.
-/

namespace Typio

namespace Connection

open Places (Store)

/-- The pointers to the objects; an output is known by the number of its `wl_output`. -/
inductive Place where
  | display
  | registry
  | imManager
  | compositor
  | shm
  | fractionalScaleManager
  | viewporter
  | vkManager
  | seat
  | output (proxy : Nat)
  | inputMethod
  | virtualKeyboard
  | grab
  | surface
  | popupSurface
  | viewport
  | fractionalScale
  | vkSurface
  deriving DecidableEq, Repr

/-- What must not outlive what: the grab and the popup surface are destroyed with the input method,
and nothing may be left of a surface which is destroyed. -/
def Place.above : Place → List Place
  | .grab => [.inputMethod]
  | .popupSurface => [.inputMethod, .surface]
  | .viewport | .fractionalScale | .vkSurface => [.surface]
  | _ => []

inductive Request where
  | getRegistry
  | roundtrip
  | bind
  | getInputMethod
  | createVirtualKeyboard
  | grabKeyboard
  | createSurface
  | getInputPopupSurface
  | getViewport
  | getFractionalScale
  | createVkSurface
  | key
  | commit
  | attach
  | setBufferScale
  | setDestination
  | present
  deriving DecidableEq, Repr

/-- The interfaces `registry_handle_global` binds. -/
inductive Global where
  | imManager
  | compositor
  | shm
  | fractionalScaleManager
  | viewporter
  | vkManager
  | seat
  | output
  deriving DecidableEq, Repr

/-- A global with its name, whether its tracking can be allocated, and whether it can be bound. -/
structure Announcement where
  global : Global
  name : Nat
  allocates : Bool
  binds : Bool
  deriving DecidableEq, Repr

/-- Whether the allocation and the objects of the popup succeed. -/
structure PanelAnswers where
  allocates : Bool
  surface : Bool
  popupSurface : Bool
  viewport : Bool
  fractionalScale : Bool
  deriving DecidableEq, Repr

/-- What an update of the popup comes to.  For drawing the device, the Vulkan surface and the
swapchain are needed, and the frame may not be presented. -/
inductive PanelContent where
  | unchanged
  | hides
  | draws (device vkSurface swapchain presented : Bool)
  deriving DecidableEq, Repr

/-- An update of the popup. -/
structure PanelUpdate where
  answers : PanelAnswers
  content : PanelContent
  deriving DecidableEq, Repr

/-- A removed output the popup was on makes it update. -/
inductive RegistryEvent where
  | global (announced : Announcement)
  | globalRemove (name : Nat) (refresh : Option PanelUpdate)
  deriving DecidableEq, Repr

/-- Which calls of one attempt to bind succeed, and what the registry announces in it. -/
structure BindAnswers where
  connects : Bool
  registry : Bool
  announced : List RegistryEvent
  roundtrip : Bool
  inputMethod : Bool
  virtualKeyboard : Bool
  backend : Bool
  panel : PanelAnswers
  deriving DecidableEq, Repr

/-- An attempt to bind again; a stop may be requested before it. -/
inductive Attempt where
  | stopped
  | tries (answers : BindAnswers)
  deriving DecidableEq, Repr

end Connection

open Connection in
/-- The pointers of the frontend to its objects, its outputs by name, whether it has a keyboard, a
text UI backend and a visible popup, and whether a forwarded key is down. -/
structure Connection where
  store : Places.Store Place Request
  outputs : List (Nat × Nat)
  keyboard : Bool
  forwarded : Bool
  backend : Bool
  visible : Bool

namespace Connection

open Places (Store)

def initial : Connection where
  store := .empty
  outputs := []
  keyboard := false
  forwarded := false
  backend := false
  visible := false

variable (conn : Connection)

def «at» (place : Place) : Option Nat := conn.store.held place

def has (place : Place) : Bool := (conn.at place).isSome

@[simps] def use (place : Place) (request : Request) : Connection :=
  { conn with store := conn.store.use place request }

@[simps] def assign (place : Place) (succeeds : Bool) : Connection :=
  { conn with store := conn.store.assign Place.above place succeeds }

@[simps] def finish (place : Place) : Connection := { conn with store := conn.store.finish place }

@[simps] def finishAll (places : List Place) : Connection :=
  { conn with store := conn.store.finishAll places }

/-! ## The popup -/

/-- `hide_surface`. -/
def hideSurface : Connection :=
  if conn.has .surface && conn.visible then { conn.use .surface .attach with visible := false }
  else conn

/-- An object of the popup is made if the global for it is there. -/
def createThrough (global place : Place) (request : Request) (succeeds : Bool) : Connection :=
  if conn.has global then (conn.use global request).assign place succeeds else conn

/-- The viewport of `typio_wl_candidate_panel_create`. -/
def createViewport (answers : PanelAnswers) : Connection :=
  conn.createThrough .viewporter .viewport .getViewport answers.viewport

/-- The fractional scale of `typio_wl_candidate_panel_create`. -/
def createFractionalScale (answers : PanelAnswers) : Connection :=
  conn.createThrough .fractionalScaleManager .fractionalScale .getFractionalScale
    answers.fractionalScale

/-- The popup surface of `typio_wl_candidate_panel_create`, and what is made with it. -/
def createPopupSurface (answers : PanelAnswers) : Connection :=
  let conn := (conn.use .inputMethod .getInputPopupSurface).assign .popupSurface
    answers.popupSurface
  if conn.has .popupSurface then (conn.createViewport answers).createFractionalScale answers
  else conn.finish .surface

/-- `typio_wl_candidate_panel_create`. -/
def candidatePanelCreate (answers : PanelAnswers) : Connection :=
  if conn.has .compositor && conn.has .inputMethod && answers.allocates then
    let conn := (conn.use .compositor .createSurface).assign .surface answers.surface
    if conn.has .surface then conn.createPopupSurface answers else conn
  else conn

/-- `typio_wl_candidate_panel_destroy`. -/
def candidatePanelDestroy : Connection :=
  conn.hideSurface.finishAll [.vkSurface, .fractionalScale, .viewport, .popupSurface, .surface]

/-- `ensure_created`. -/
def ensureCreated (answers : PanelAnswers) : Connection :=
  if conn.has .surface then conn else conn.candidatePanelCreate answers

/-- The Vulkan surface of `ensure_fx_surface`. -/
def ensureVkSurface (succeeds : Bool) : Connection :=
  if conn.has .vkSurface then conn
  else ((conn.use .display .createVkSurface).use .surface .createVkSurface).assign .vkSurface
    succeeds

/-- `ensure_fx_surface` and the presentation of `popup_render`. -/
def draw (device vkSurface swapchain presented : Bool) : Connection :=
  if device then
    let conn := conn.ensureVkSurface vkSurface
    if conn.has .vkSurface && swapchain then
      let conn := (conn.use .surface .setBufferScale).use .viewport .setDestination
      { (conn.use .vkSurface .present).use .surface .present with
        visible := conn.visible || presented }
    else conn
  else conn

/-- `typio_wl_candidate_panel_update_content`. -/
def updateContent (update : PanelUpdate) : Connection :=
  if conn.backend then
    let conn := conn.ensureCreated update.answers
    if conn.has .surface then
      match update.content with
      | .unchanged => conn
      | .hides => conn.hideSurface
      | .draws device vkSurface swapchain presented =>
          conn.draw device vkSurface swapchain presented
    else conn
  else conn

/-- `typio_wl_text_ui_backend_create`. -/
def textUiBackendCreate (allocates : Bool) (answers : PanelAnswers) : Connection :=
  if allocates then ({ conn with backend := true } : Connection).candidatePanelCreate answers
  else conn

/-- `typio_wl_text_ui_backend_destroy`. -/
def textUiBackendDestroy : Connection :=
  if conn.backend then
    let conn := if conn.has .surface then conn.candidatePanelDestroy else conn
    { conn with backend := false }
  else conn

/-! ## The keyboard -/

/-- `typio_wl_keyboard_create`; `creates` says whether its memory and its XKB context are there. -/
def keyboardCreate (creates grabs : Bool) : Connection :=
  if conn.has .inputMethod && creates then
    let conn := (conn.use .inputMethod .grabKeyboard).assign .grab grabs
    { conn with keyboard := conn.has .grab }
  else conn

/-- `typio_wl_keyboard_destroy`. -/
def keyboardDestroy : Connection :=
  if conn.keyboard then
    let conn := if conn.forwarded then conn.use .virtualKeyboard .key else conn
    { conn.finish .grab with keyboard := false, forwarded := false }
  else conn

/-- `typio_wl_keyboard_release_grab`. -/
def keyboardReleaseGrab : Connection := if conn.keyboard then conn.finish .grab else conn

/-- `rebuild_keyboard_grab`. -/
def rebuildKeyboardGrab (creates grabs : Bool) : Connection :=
  conn.keyboardDestroy.keyboardCreate creates grabs

/-- A key forwarded through the virtual keyboard. -/
def forwardKey : Connection :=
  if conn.has .virtualKeyboard then { conn.use .virtualKeyboard .key with forwarded := true }
  else conn

/-- `typio_wl_commit`. -/
def commit : Connection := conn.use .inputMethod .commit

/-! ## The registry -/

def bindGlobal (place : Place) (binds : Bool) : Connection :=
  (conn.use .registry .bind).assign place binds

/-- The pointer which is assigned for every announcement of the interface. -/
def Global.pointer : Global → Option Place
  | .imManager => some .imManager
  | .compositor => some .compositor
  | .shm => some .shm
  | .fractionalScaleManager => some .fractionalScaleManager
  | .viewporter => some .viewporter
  | .vkManager => some .vkManager
  | .seat | .output => none

/-- `registry_handle_global`. -/
def registryHandleGlobal (announced : Announcement) : Connection :=
  match announced.global with
  | .seat => if conn.has .seat then conn else conn.bindGlobal .seat announced.binds
  | .output =>
      if announced.allocates && announced.binds then
        { conn.bindGlobal (.output conn.store.made) true with
          outputs := (announced.name, conn.store.made) :: conn.outputs }
      else if announced.allocates then conn.use .registry .bind
      else conn
  | global =>
      match global.pointer with
      | none => conn
      | some place => conn.bindGlobal place announced.binds

/-- `typio_wl_candidate_panel_handle_output_change`. -/
def handleOutputChange (refresh : Option PanelUpdate) : Connection :=
  match refresh with
  | none => conn
  | some update => if conn.backend && conn.has .surface then conn.updateContent update else conn

/-- `registry_handle_global_remove`. -/
def registryHandleGlobalRemove (name : Nat) (refresh : Option PanelUpdate) : Connection :=
  match conn.outputs.find? (·.1 == name) with
  | none => conn
  | some output =>
      let conn := { conn with outputs := conn.outputs.eraseP (·.1 == name) }
      (conn.handleOutputChange refresh).finish (.output output.2)

/-- Without a registry there are no events of it. -/
def registryEvent (conn : Connection) (event : RegistryEvent) : Connection :=
  if conn.has .registry then
    match event with
    | .global announced => conn.registryHandleGlobal announced
    | .globalRemove name refresh => conn.registryHandleGlobalRemove name refresh
  else conn

/-! ## Binding -/

/-- The first part of `frontend_wayland_bind`. -/
def connect (connects registry : Bool) : Connection :=
  let conn := conn.assign .display connects
  if conn.has .display then (conn.use .display .getRegistry).assign .registry registry else conn

/-- The virtual keyboard of `frontend_wayland_bind`. -/
def createVirtualKeyboard (succeeds : Bool) : Connection :=
  if conn.has .vkManager && conn.has .seat then
    (conn.use .vkManager .createVirtualKeyboard).assign .virtualKeyboard succeeds
  else conn

/-- The last part of `frontend_wayland_bind`. -/
def createInputMethod (answers : BindAnswers) : Bool × Connection :=
  let conn := (conn.use .imManager .getInputMethod).assign .inputMethod answers.inputMethod
  if conn.has .inputMethod then
    (true, (conn.createVirtualKeyboard answers.virtualKeyboard).textUiBackendCreate answers.backend
      answers.panel)
  else (false, conn)

/-- `frontend_wayland_bind`. -/
def waylandBind (answers : BindAnswers) : Bool × Connection :=
  let conn := conn.connect answers.connects answers.registry
  if conn.has .display && conn.has .registry then
    let conn := Machine.run registryEvent (conn.use .display .roundtrip) answers.announced
    if answers.roundtrip && conn.has .imManager && conn.has .seat then
      conn.createInputMethod answers
    else (false, conn)
  else (false, conn)

/-- `frontend_wayland_unbind`. -/
def waylandUnbind : Connection :=
  let conn := conn.keyboardDestroy.textUiBackendDestroy
  let conn := conn.finishAll [.virtualKeyboard, .vkManager, .inputMethod, .imManager, .seat, .shm,
    .viewporter, .fractionalScaleManager, .compositor, .registry]
  let conn := conn.finishAll (conn.outputs.map fun output => .output output.2)
  { conn.finish .display with outputs := [] }

/-- The attempts of `typio_wl_frontend_reconnect`. -/
def reconnectAttempts (conn : Connection) : List Attempt → Connection
  | [] | .stopped :: _ => conn
  | .tries answers :: attempts =>
      let bound := conn.waylandBind answers
      if bound.1 then bound.2 else bound.2.waylandUnbind.reconnectAttempts attempts

/-- `typio_wl_frontend_reconnect`. -/
def reconnect (attempts : List Attempt) : Connection :=
  conn.waylandUnbind.reconnectAttempts (attempts.take reconnectMaxAttempts)

/-- The objects in `typio_wl_frontend_destroy`. -/
def destroy : Connection := conn.keyboardDestroy.textUiBackendDestroy.waylandUnbind

/-- The objects in `typio_wl_frontend_new`. -/
def new (answers : BindAnswers) : Connection :=
  let bound := initial.waylandBind answers
  if bound.1 then bound.2 else bound.2.destroy

inductive Event where
  | registry (event : RegistryEvent)
  | rebuildGrab (creates grabs : Bool)
  | destroyKeyboard
  | releaseGrab
  | forwardKey
  | commit
  | update (update : PanelUpdate)
  | hide
  | reconnect (attempts : List Attempt)
  | destroy
  deriving DecidableEq, Repr

def step (conn : Connection) : Event → Connection
  | .registry event => conn.registryEvent event
  | .rebuildGrab creates grabs => conn.rebuildKeyboardGrab creates grabs
  | .destroyKeyboard => conn.keyboardDestroy
  | .releaseGrab => conn.keyboardReleaseGrab
  | .forwardKey => conn.forwardKey
  | .commit => conn.commit
  | .update update => conn.updateContent update
  | .hide => conn.hideSurface
  | .reconnect attempts => conn.reconnect attempts
  | .destroy => conn.destroy

/-! ## What is asked -/

/-- Every object made has ended, or is in its place in a frontend which has a connection. -/
def Accounted : Prop :=
  ∀ object < conn.store.made, .ended object ∈ conn.store.trace ∨
    conn.has .display = true ∧ ∃ place, conn.at place = some object

/-- No pointer is assigned again which an earlier announcement assigned. -/
def AnnouncesOnce (conn : Connection) : RegistryEvent → Prop
  | .global announced =>
      conn.has .registry = true → ∀ place ∈ announced.global.pointer, conn.at place = none
  | .globalRemove _ _ => True

def BindsOnce (answers : BindAnswers) : Prop :=
  let conn := conn.connect answers.connects answers.registry
  Machine.EachStep registryEvent AnnouncesOnce (conn.use .display .roundtrip) answers.announced

def AttemptsOnce (conn : Connection) : List Attempt → Prop
  | [] | .stopped :: _ => True
  | .tries answers :: attempts =>
      conn.BindsOnce answers ∧ ((conn.waylandBind answers).1 = false →
        (conn.waylandBind answers).2.waylandUnbind.AttemptsOnce attempts)

/-- The step announces no global whose pointer is assigned. -/
def Careful (conn : Connection) : Event → Prop
  | .registry event => conn.AnnouncesOnce event
  | .reconnect attempts => conn.waylandUnbind.AttemptsOnce (attempts.take reconnectMaxAttempts)
  | _ => True

/-! ## What every step keeps -/

@[simp] theorem at_use (place : Place) (request : Request) (other : Place) :
    (conn.use place request).at other = conn.at other :=
  congrFun (Store.use_held ..) other

@[simp] theorem at_assign (place : Place) (succeeds : Bool) (other : Place) :
    (conn.assign place succeeds).at other =
      if other = place then (if succeeds then some conn.store.made else none) else conn.at other := by
  unfold Connection.at assign
  rw [Store.assign_held, Function.update_apply]

@[simp] theorem at_finish (place other : Place) :
    (conn.finish place).at other = if other = place then none else conn.at other := by
  unfold Connection.at finish
  rw [Store.finish_held, Function.update_apply]

@[simp] theorem at_finishAll (places : List Place) (other : Place) :
    (conn.finishAll places).at other = if other ∈ places then none else conn.at other :=
  Store.finishAll_held ..

theorem has_eq_true {place : Place} : conn.has place = true ↔ conn.at place ≠ none := by
  rw [has, Option.isSome_iff_ne_none]

theorem has_eq_false {place : Place} : conn.has place = false ↔ conn.at place = none := by
  rw [has, Option.isSome_eq_false_iff, Option.isNone_iff_eq_none]

theorem Place.mem_above {place child : Place} : place ∈ child.above ↔
    place = .inputMethod ∧ (child = .grab ∨ child = .popupSurface) ∨
      place = .surface ∧ (child = .popupSurface ∨ child = .viewport ∨ child = .fractionalScale ∨
        child = .vkSurface) := by
  cases child <;> simp [Place.above]

theorem Place.not_mem_above_self (place : Place) : place ∉ place.above := by
  cases place <;> simp [Place.above]

/-- The popup comes and goes as a whole, there is no grab without a keyboard, an output has the
number of its place, and without a connection there is nothing. -/
structure Shape : Prop where
  panel : conn.at .surface = none → ∀ place : Place, .surface ∈ place.above → conn.at place = none
  backend : conn.backend = false → conn.at .surface = none
  keyboard : conn.keyboard = false → conn.at .grab = none
  numbered : ∀ proxy, conn.at (.output proxy) ≠ none → proxy < conn.store.made
  unbound : conn.at .display = none → ∀ place, conn.at place = none

structure Intact : Prop where
  shape : conn.Shape
  owned : Places.Owned conn.store
  ranked : Places.Ranked Place.above conn.store

/-- Every output is in the list. -/
def Tracks : Prop := ∀ proxy, conn.at (.output proxy) ≠ none → proxy ∈ conn.outputs.map Prod.snd

/-- A connection in order, with the same outputs as before and nothing lost. -/
structure Kept (before after : Connection) : Prop where
  intact : after.Intact
  covered : Places.Covered after.store ↔ Places.Covered before.store
  outputs : after.outputs = before.outputs
  proxies : ∀ proxy, after.at (.output proxy) = before.at (.output proxy)

/-- From a connection in order to one in order, which loses nothing and leaves the outputs. -/
structure Keeps (before after : Connection) : Prop where
  kept : before.Intact → Kept before after

variable {conn}

theorem Keeps.refl (conn : Connection) : Keeps conn conn :=
  ⟨fun intact => ⟨intact, .rfl, rfl, fun _ => rfl⟩⟩

theorem Keeps.trans {before middle after : Connection} (first : Keeps before middle)
    (second : Keeps middle after) : Keeps before after := by
  refine ⟨fun intact => ?_⟩
  have kept := first.kept intact
  have kept' := second.kept kept.intact
  exact ⟨kept'.intact, kept'.covered.trans kept.covered, kept'.outputs.trans kept.outputs,
    fun proxy => (kept'.proxies proxy).trans (kept.proxies proxy)⟩

theorem Kept.tracks {before after : Connection} (kept : Kept before after)
    (tracks : before.Tracks) : after.Tracks := by
  intro proxy there
  rw [kept.proxies] at there
  rw [kept.outputs]
  exact tracks proxy there

/-- Only the flags change. -/
theorem Keeps.of_store {before after : Connection} (store : after.store = before.store)
    (outputs : after.outputs = before.outputs) (shape : before.Shape → after.Shape) :
    Keeps before after := by
  refine ⟨?_⟩
  rintro ⟨was, owned, ranked⟩
  refine ⟨⟨shape was, store ▸ owned, store ▸ ranked⟩, by rw [store], outputs, fun proxy => ?_⟩
  rw [Connection.at, Connection.at, store]

theorem keeps_use (conn : Connection) (place : Place) (request : Request) :
    Keeps conn (conn.use place request) := by
  refine ⟨?_⟩
  rintro ⟨shape, owned, ranked⟩
  refine ⟨⟨⟨?_, ?_, ?_, ?_, ?_⟩, owned.use place request, ranked.use place request⟩,
    Places.covered_use request, rfl, fun _ => at_use ..⟩
  · simpa using shape.panel
  · simpa using shape.backend
  · simpa using shape.keyboard
  · simpa using shape.numbered
  · simpa using shape.unbound

/-- A pointer which is not the display may be destroyed when nothing below it is left. -/
theorem Intact.finish (intact : conn.Intact) {place : Place} (other : place ≠ .display)
    (vacant : ∀ child : Place, place ∈ child.above → conn.at child = none) :
    (conn.finish place).Intact := by
  obtain ⟨shape, owned, ranked⟩ := intact
  refine ⟨⟨?_, ?_, ?_, ?_, ?_⟩, owned.finish place, ranked.finish owned vacant⟩
  · intro gone child isAbove
    rw [at_finish] at gone ⊢
    split
    · rfl
    · rcases eq_or_ne place .surface with rfl | differs
      · exact vacant child isAbove
      · rw [if_neg differs.symm] at gone
        exact shape.panel gone child isAbove
  · intro without
    rw [at_finish, shape.backend without, ite_self]
  · intro without
    rw [at_finish, shape.keyboard without, ite_self]
  · intro proxy there
    have below := shape.numbered proxy fun gone => there (by rw [at_finish, gone, ite_self])
    simpa using below
  · intro gone child
    rw [at_finish, if_neg other.symm] at gone
    rw [at_finish, shape.unbound gone child, ite_self]

theorem keeps_finish {place : Place} (other : place ≠ .display)
    (pointer : ∀ proxy, place ≠ .output proxy)
    (vacant : ∀ child : Place, place ∈ child.above → conn.at child = none) :
    Keeps conn (conn.finish place) :=
  ⟨fun intact => ⟨intact.finish other vacant, Places.covered_finish place, rfl,
    fun proxy => by rw [at_finish, if_neg (pointer proxy).symm]⟩⟩

/-- What is above the pointer is there, and the flag it needs is set. -/
structure Fits (conn : Connection) (place : Place) : Prop where
  pointer : ∀ proxy, place ≠ .output proxy
  connected : place ≠ .display → conn.at .display ≠ none
  keyboard : place = .grab → conn.keyboard = true
  backend : place = .surface → conn.backend = true
  surface : .surface ∈ place.above → conn.at .surface ≠ none

/-- A pointer may be assigned when what is above it is there; the surface and the display only when
they are not there. -/
theorem Shape.assign (shape : conn.Shape) {place : Place} (succeeds : Bool)
    (vacant : place = .surface ∨ place = .display → conn.at place = none)
    (fits : conn.Fits place) : (conn.assign place succeeds).Shape := by
  obtain ⟨pointer, connected, keyboard, backend, surface⟩ := fits
  refine ⟨?_, ?_, ?_, ?_, ?_⟩
  · intro gone child isAbove
    rw [at_assign] at gone ⊢
    rcases eq_or_ne place .surface with rfl | differs
    · rw [if_neg (by rintro rfl; exact Place.not_mem_above_self _ isAbove)]
      exact shape.panel (vacant (.inl rfl)) child isAbove
    · rw [if_neg differs.symm] at gone
      rw [if_neg (by rintro rfl; exact surface isAbove gone)]
      exact shape.panel gone child isAbove
  · intro without
    have differs : Place.surface ≠ place := by
      rintro rfl
      exact Bool.false_ne_true (without.symm.trans (backend rfl))
    rw [at_assign, if_neg differs]
    exact shape.backend without
  · intro without
    have differs : Place.grab ≠ place := by
      rintro rfl
      exact Bool.false_ne_true (without.symm.trans (keyboard rfl))
    rw [at_assign, if_neg differs]
    exact shape.keyboard without
  · intro proxy there
    rw [at_assign, if_neg (pointer proxy).symm] at there
    have below := shape.numbered proxy there
    unfold Connection.assign Store.assign
    split
    · exact Nat.lt_succ_of_lt below
    · exact below
  · intro gone child
    rcases eq_or_ne place .display with rfl | differs
    · rw [at_assign]
      split
      next isDisplay => rwa [at_assign, if_pos rfl] at gone
      next => exact shape.unbound (vacant (.inr rfl)) child
    · rw [at_assign, if_neg differs.symm] at gone
      exact absurd gone (connected differs)

theorem keeps_assign {place : Place} (succeeds : Bool) (vacant : conn.at place = none)
    (fits : conn.Fits place) : Keeps conn (conn.assign place succeeds) := by
  refine ⟨?_⟩
  rintro ⟨shape, owned, ranked⟩
  refine ⟨⟨?_, owned.assign _ place succeeds,
    ranked.assign owned (.inl vacant) place.not_mem_above_self succeeds⟩,
    (Places.covered_assign owned _ succeeds).trans (and_iff_left vacant), rfl, fun proxy => ?_⟩
  · exact shape.assign succeeds (fun _ => vacant) fits
  · rw [at_assign, if_neg (fits.pointer proxy).symm]

theorem Keeps.of_intact {after : Connection} (keeps : conn.Intact → Keeps conn after) :
    Keeps conn after :=
  ⟨fun intact => (keeps intact).kept intact⟩

/-- An object is made through another one. -/
theorem keeps_make (source : Place) (request : Request) {place : Place} (succeeds : Bool)
    (vacant : conn.at place = none) (fits : conn.Fits place) :
    Keeps conn ((conn.use source request).assign place succeeds) := by
  refine (keeps_use conn source request).trans (keeps_assign succeeds ?_
    ⟨fits.pointer, ?_, fits.keyboard, fits.backend, ?_⟩)
  · rwa [at_use]
  · rw [at_use]
    exact fits.connected
  · rw [at_use]
    exact fits.surface

theorem Intact.connected (intact : conn.Intact) {place : Place} (there : conn.at place ≠ none) :
    conn.at .display ≠ none :=
  fun gone => there (intact.shape.unbound gone place)

/-! ## The popup -/

theorem keeps_visible (conn : Connection) (visible : Bool) :
    Keeps conn { conn with visible := visible } :=
  .of_store rfl rfl fun shape =>
    ⟨shape.panel, shape.backend, shape.keyboard, shape.numbered, shape.unbound⟩

theorem keeps_hideSurface (conn : Connection) : Keeps conn conn.hideSurface := by
  unfold hideSurface
  split
  · exact (keeps_use ..).trans (keeps_visible ..)
  · exact .refl conn

@[simp] theorem at_hideSurface (conn : Connection) (place : Place) :
    conn.hideSurface.at place = conn.at place := by
  unfold hideSurface
  split
  · exact at_use ..
  · rfl

theorem at_createThrough (global : Place) {place other : Place} (request : Request)
    (succeeds : Bool) (differs : other ≠ place) :
    (conn.createThrough global place request succeeds).at other = conn.at other := by
  unfold createThrough
  split
  · rw [at_assign, if_neg differs, at_use]
  · rfl

theorem keeps_createThrough (global place : Place) (request : Request) (succeeds : Bool)
    (surface : conn.at .surface ≠ none) (vacant : conn.at place = none)
    (fits : conn.at .display ≠ none → conn.Fits place) :
    Keeps conn (conn.createThrough global place request succeeds) := by
  refine .of_intact fun intact => ?_
  unfold createThrough
  split
  · exact keeps_make _ _ _ vacant (fits (intact.connected surface))
  · exact .refl conn

theorem keeps_createPopupSurface (answers : PanelAnswers) (surface : conn.at .surface ≠ none)
    (vacant : ∀ place : Place, .surface ∈ place.above → conn.at place = none) :
    Keeps conn (conn.createPopupSurface answers) := by
  refine .of_intact fun intact => ?_
  unfold createPopupSurface
  have assigned : Keeps conn ((conn.use .inputMethod .getInputPopupSurface).assign .popupSurface
      answers.popupSurface) :=
    keeps_make _ _ _ (vacant _ (by simp [Place.above]))
      ⟨nofun, fun _ => intact.connected surface, nofun, nofun, fun _ => surface⟩
  refine assigned.trans ?_
  dsimp only
  split
  · have there : ((conn.use .inputMethod .getInputPopupSurface).assign .popupSurface
        answers.popupSurface).at .surface ≠ none := by simpa using surface
    refine (keeps_createThrough _ .viewport _ _ there ?_ fun connected =>
      ⟨nofun, fun _ => connected, nofun, nofun, fun _ => there⟩).trans
      (keeps_createThrough _ .fractionalScale _ _ ?_ ?_ fun connected =>
        ⟨nofun, fun _ => connected, nofun, nofun, fun _ => ?_⟩)
    · simpa using vacant .viewport (by simp [Place.above])
    · rwa [at_createThrough _ _ _ (by decide)]
    · rw [at_createThrough _ _ _ (by decide)]
      simpa using vacant .fractionalScale (by simp [Place.above])
    · rwa [at_createThrough _ _ _ (by decide)]
  · rename_i failed
    rw [Bool.not_eq_true, has_eq_false] at failed
    refine keeps_finish nofun nofun fun child isAbove => ?_
    rw [at_assign]
    split
    next isPopup => rwa [at_assign, if_pos rfl] at failed
    next => rw [at_use, vacant child isAbove]

theorem keeps_candidatePanelCreate (answers : PanelAnswers) (vacant : conn.at .surface = none)
    (backend : conn.backend = true) : Keeps conn (conn.candidatePanelCreate answers) := by
  refine .of_intact fun intact => ?_
  unfold candidatePanelCreate
  split
  · rename_i can
    simp only [Bool.and_eq_true, has_eq_true] at can
    have assigned : Keeps conn ((conn.use .compositor .createSurface).assign .surface
        answers.surface) :=
      keeps_make _ _ _ vacant
        ⟨nofun, fun _ => intact.connected can.1.1, nofun, fun _ => backend, nofun⟩
    refine assigned.trans ?_
    dsimp only
    split
    · rename_i there
      refine keeps_createPopupSurface answers ((has_eq_true _).mp there) fun child isAbove => ?_
      have differs : child ≠ .surface := by
        rintro rfl
        exact Place.not_mem_above_self _ isAbove
      rw [at_assign, if_neg differs, at_use]
      exact intact.shape.panel vacant child isAbove
    · exact .refl _
  · exact .refl conn

theorem keeps_ensureVkSurface (succeeds : Bool) (surface : conn.at .surface ≠ none) :
    Keeps conn (conn.ensureVkSurface succeeds) := by
  refine .of_intact fun intact => ?_
  unfold ensureVkSurface
  split
  · exact .refl conn
  · rename_i without
    rw [Bool.not_eq_true, has_eq_false] at without
    refine (keeps_use ..).trans (keeps_make _ _ _ ?_ ⟨nofun, ?_, nofun, nofun, ?_⟩)
    · rwa [at_use]
    · rw [at_use]
      exact fun _ => intact.connected surface
    · rw [at_use]
      exact fun _ => surface

theorem keeps_draw (device vkSurface swapchain presented : Bool)
    (surface : conn.at .surface ≠ none) :
    Keeps conn (conn.draw device vkSurface swapchain presented) := by
  unfold draw
  split
  · refine (keeps_ensureVkSurface vkSurface surface).trans ?_
    dsimp only
    split
    · exact ((((keeps_use ..).trans (keeps_use ..)).trans (keeps_use ..)).trans
        (keeps_use ..)).trans (keeps_visible ..)
    · exact .refl _
  · exact .refl conn

theorem keeps_updateContent (conn : Connection) (update : PanelUpdate) :
    Keeps conn (conn.updateContent update) := by
  unfold updateContent
  split
  · rename_i backend
    have ensured : Keeps conn (conn.ensureCreated update.answers) := by
      unfold ensureCreated
      split
      · exact .refl conn
      · rename_i without
        rw [Bool.not_eq_true, has_eq_false] at without
        exact keeps_candidatePanelCreate _ without backend
    refine ensured.trans ?_
    dsimp only
    split
    · rename_i there
      rw [has_eq_true] at there
      cases update.content with
      | unchanged => exact .refl _
      | hides => exact keeps_hideSurface _
      | draws device vkSurface swapchain presented => exact keeps_draw _ _ _ _ there
    · exact .refl _
  · exact .refl conn

theorem keeps_candidatePanelDestroy (conn : Connection) : Keeps conn conn.candidatePanelDestroy := by
  have emptied (place : Place) (places : List Place) (other : place ≠ .display)
      (pointer : ∀ proxy, place ≠ .output proxy)
      (below : ∀ child : Place, place ∈ child.above → child ∈ places) :
      Keeps (conn.hideSurface.finishAll places) ((conn.hideSurface.finishAll places).finish place) :=
    keeps_finish other pointer fun child isAbove => by
      rw [at_finishAll, if_pos (below child isAbove)]
  refine (keeps_hideSurface conn).trans ?_
  have first := emptied .vkSurface [] nofun nofun (by simp [Place.mem_above])
  have second := emptied .fractionalScale [.vkSurface] nofun nofun (by simp [Place.mem_above])
  have third := emptied .viewport [.vkSurface, .fractionalScale] nofun nofun
    (by simp [Place.mem_above])
  have fourth := emptied .popupSurface [.vkSurface, .fractionalScale, .viewport] nofun nofun
    (by simp [Place.mem_above])
  have last := emptied .surface [.vkSurface, .fractionalScale, .viewport, .popupSurface] nofun nofun
    (by simp +contextual [Place.mem_above])
  exact (((first.trans second).trans third).trans fourth).trans last

theorem at_candidatePanelDestroy (conn : Connection) (other : Place) :
    conn.candidatePanelDestroy.at other =
      if other ∈ [.vkSurface, .fractionalScale, .viewport, .popupSurface, .surface] then none
      else conn.at other := by
  rw [candidatePanelDestroy, at_finishAll, at_hideSurface]

theorem keeps_textUiBackendCreate (allocates : Bool) (answers : PanelAnswers)
    (vacant : conn.at .surface = none) :
    Keeps conn (conn.textUiBackendCreate allocates answers) := by
  unfold textUiBackendCreate
  split
  · have flagged : Keeps conn { conn with backend := true } := .of_store rfl rfl fun shape =>
      ⟨shape.panel, nofun, shape.keyboard, shape.numbered, shape.unbound⟩
    exact flagged.trans (keeps_candidatePanelCreate answers vacant rfl)
  · exact .refl conn

theorem keeps_textUiBackendDestroy (conn : Connection) : Keeps conn conn.textUiBackendDestroy := by
  unfold textUiBackendDestroy
  split
  · have gone : Keeps conn (if conn.has .surface then conn.candidatePanelDestroy else conn) := by
      split
      · exact keeps_candidatePanelDestroy conn
      · exact .refl conn
    refine gone.trans (.of_store rfl rfl fun shape =>
      ⟨shape.panel, fun _ => ?_, shape.keyboard, shape.numbered, shape.unbound⟩)
    change (if conn.has .surface then conn.candidatePanelDestroy else conn).at .surface = none
    split
    · rw [at_candidatePanelDestroy, if_pos (by simp)]
    · rename_i without
      rwa [Bool.not_eq_true, has_eq_false] at without
  · exact .refl conn

/-- Without a backend nothing of the popup is left. -/
theorem Intact.at_textUiBackendDestroy (intact : conn.Intact) {other : Place}
    (ofPanel : other = .surface ∨ .surface ∈ other.above) :
    conn.textUiBackendDestroy.at other = none := by
  have backend : conn.textUiBackendDestroy.backend = false := by
    unfold textUiBackendDestroy
    split
    · rfl
    · rename_i without
      exact Bool.not_eq_true _ ▸ without
  have shape := ((keeps_textUiBackendDestroy conn).kept intact).intact.shape
  have surface := shape.backend backend
  rcases ofPanel with rfl | below
  · exact surface
  · exact shape.panel surface other below

theorem at_textUiBackendDestroy_of_none {other : Place} (vacant : conn.at other = none) :
    conn.textUiBackendDestroy.at other = none := by
  unfold textUiBackendDestroy
  split
  · change (if conn.has .surface then conn.candidatePanelDestroy else conn).at other = none
    split
    · rw [at_candidatePanelDestroy, vacant, ite_self]
    · exact vacant
  · exact vacant

/-! ## The keyboard -/

theorem keeps_keyboardDestroy (conn : Connection) : Keeps conn conn.keyboardDestroy := by
  unfold keyboardDestroy
  split
  · have released : Keeps conn (if conn.forwarded then conn.use .virtualKeyboard .key else conn) := by
      split
      · exact keeps_use ..
      · exact .refl conn
    have finished : Keeps (if conn.forwarded then conn.use .virtualKeyboard .key else conn)
        ((if conn.forwarded then conn.use .virtualKeyboard .key else conn).finish .grab) :=
      keeps_finish nofun nofun (by simp [Place.mem_above])
    refine (released.trans finished).trans ?_
    refine .of_store rfl rfl fun shape =>
      ⟨shape.panel, shape.backend, fun _ => ?_, shape.numbered, shape.unbound⟩
    exact (at_finish ..).trans (if_pos rfl)
  · exact .refl conn

theorem keyboardDestroy_keyboard (conn : Connection) : conn.keyboardDestroy.keyboard = false := by
  unfold keyboardDestroy
  split
  · rfl
  · rename_i without
    exact Bool.not_eq_true _ ▸ without

theorem keeps_keyboardCreate (creates grabs : Bool) (without : conn.keyboard = false) :
    Keeps conn (conn.keyboardCreate creates grabs) := by
  refine .of_intact fun intact => ?_
  unfold keyboardCreate
  split
  · rename_i can
    rw [Bool.and_eq_true, has_eq_true] at can
    have flagged : Keeps conn { conn with keyboard := true } := .of_store rfl rfl fun shape =>
      ⟨shape.panel, shape.backend, nofun, shape.numbered, shape.unbound⟩
    have grabbed : Keeps { conn with keyboard := true }
        ((({ conn with keyboard := true } : Connection).use .inputMethod .grabKeyboard).assign .grab
          grabs) :=
      keeps_make _ _ _ (intact.shape.keyboard without)
        ⟨nofun, fun _ => intact.connected can.1, fun _ => rfl, nofun, nofun⟩
    refine (flagged.trans grabbed).trans (.of_store rfl rfl fun shape =>
      ⟨shape.panel, shape.backend, fun failed => ?_, shape.numbered, shape.unbound⟩)
    exact (has_eq_false _).mp failed
  · exact .refl conn

theorem keeps_keyboardReleaseGrab (conn : Connection) : Keeps conn conn.keyboardReleaseGrab := by
  unfold keyboardReleaseGrab
  split
  · exact keeps_finish nofun nofun (by simp [Place.mem_above])
  · exact .refl conn

theorem keeps_forwardKey (conn : Connection) : Keeps conn conn.forwardKey := by
  unfold forwardKey
  split
  · exact (keeps_use ..).trans (.of_store rfl rfl fun shape =>
      ⟨shape.panel, shape.backend, shape.keyboard, shape.numbered, shape.unbound⟩)
  · exact .refl conn

/-! ## The registry -/

/-- In order, and every output is in the list. -/
structure Sound (conn : Connection) : Prop where
  intact : conn.Intact
  tracks : conn.Tracks

theorem Keeps.sound {after : Connection} (keeps : Keeps conn after) (sound : conn.Sound) :
    after.Sound :=
  ⟨(keeps.kept sound.intact).intact, (keeps.kept sound.intact).tracks sound.tracks⟩

/-- A pointer which is assigned for every announcement loses what it held. -/
theorem Sound.bindGlobal (sound : conn.Sound) (connected : conn.at .display ≠ none) {global : Global}
    {place : Place} (pointer : global.pointer = some place) (binds : Bool) :
    (conn.bindGlobal place binds).Sound ∧ (Places.Covered (conn.bindGlobal place binds).store ↔
      Places.Covered conn.store ∧ conn.at place = none) := by
  obtain ⟨⟨shape, owned, ranked⟩, tracks⟩ := (keeps_use conn .registry .bind).sound sound
  have top : place.above = [] := by cases global <;> cases pointer <;> rfl
  have alone : (∀ other : Place, place ∉ other.above) ∧ place ≠ .surface ∧ place ≠ .grab ∧
      ∀ proxy, place ≠ .output proxy := by
    cases global <;> cases pointer <;> simp [Place.mem_above]
  obtain ⟨bottom, notSurface, notGrab, notOutput⟩ := alone
  have notDisplay : place ≠ .display := by
    rintro rfl
    cases global <;> cases pointer
  refine ⟨⟨⟨shape.assign binds ?_ ⟨notOutput, ?_, ?_, ?_, ?_⟩, owned.assign _ place binds,
    ranked.assign owned (.inr ⟨top, bottom⟩) place.not_mem_above_self binds⟩, ?_⟩, ?_⟩
  · rintro (isSurface | isDisplay)
    · exact absurd isSurface notSurface
    · exact absurd isDisplay notDisplay
  · rw [at_use]
    exact fun _ => connected
  · exact fun isGrab => absurd isGrab notGrab
  · exact fun isSurface => absurd isSurface notSurface
  · simp [top]
  · intro proxy there
    rw [Connection.bindGlobal, at_assign, if_neg (notOutput proxy).symm] at there
    exact tracks proxy there
  · refine (Places.covered_assign owned Place.above binds).trans ?_
    exact and_congr (Places.covered_use _) (by rw [← at_use conn .registry .bind]; rfl)

theorem Sound.bindOutput (sound : conn.Sound) (connected : conn.at .display ≠ none) (name : Nat) :
    ({ conn.bindGlobal (.output conn.store.made) true with
      outputs := (name, conn.store.made) :: conn.outputs } : Connection).Sound ∧
    (Places.Covered (conn.bindGlobal (.output conn.store.made) true).store ↔
      Places.Covered conn.store) := by
  have used := (keeps_use conn .registry .bind).sound sound
  obtain ⟨⟨shape, owned, ranked⟩, tracks⟩ := used
  have made : (conn.use .registry .bind).store.made = conn.store.made := Store.use_made ..
  have vacant : conn.at (.output conn.store.made) = none := by
    by_contra there
    exact Nat.lt_irrefl _ (sound.intact.shape.numbered _ there)
  have assigned (other : Place) : (conn.bindGlobal (.output conn.store.made) true).at other =
      if other = .output conn.store.made then some conn.store.made else conn.at other := by
    rw [Connection.bindGlobal, at_assign, at_use, made]
    rfl
  have older : ∀ other : Place, (∀ proxy, other ≠ .output proxy) →
      (conn.bindGlobal (.output conn.store.made) true).at other = conn.at other := by
    intro other differs
    rw [assigned, if_neg (differs _)]
  refine ⟨⟨⟨⟨?_, ?_, ?_, ?_, ?_⟩, owned.assign _ _ true, ranked.assign owned (.inl ?_)
    (Place.not_mem_above_self _) true⟩, ?_⟩, ?_⟩
  · intro gone child isAbove
    refine (older child ?_).trans (sound.intact.shape.panel
      ((older .surface (by simp)).symm.trans gone) child isAbove)
    rintro proxy rfl
    simp [Place.above] at isAbove
  · exact fun without => (older .surface (by simp)).trans (sound.intact.shape.backend without)
  · exact fun without => (older .grab (by simp)).trans (sound.intact.shape.keyboard without)
  · intro proxy there
    change proxy < ((conn.use .registry .bind).store.assign Place.above _ true).made
    simp only [Store.assign, if_true, made]
    by_cases newest : proxy = conn.store.made
    · exact Nat.lt_succ_of_le (Nat.le_of_eq newest)
    · refine Nat.lt_succ_of_lt (sound.intact.shape.numbered proxy fun gone => there ?_)
      exact (assigned _).trans ((if_neg (by simpa using newest)).trans gone)
  · intro gone
    exact absurd ((older .display (by simp)).symm.trans gone) connected
  · exact (at_use ..).trans vacant
  · intro proxy there
    by_cases newest : proxy = conn.store.made
    · simp [newest]
    · refine List.mem_cons_of_mem _ (sound.tracks proxy fun gone => there ?_)
      exact (assigned _).trans ((if_neg (by simpa using newest)).trans gone)
  · exact (Places.covered_assign owned Place.above true).trans
      ((and_iff_left ((at_use ..).trans vacant)).trans (Places.covered_use _))

theorem Sound.registryHandleGlobal (sound : conn.Sound) (connected : conn.at .display ≠ none)
    (announced : Announcement) : (conn.registryHandleGlobal announced).Sound ∧
      (Places.Covered (conn.registryHandleGlobal announced).store ↔ Places.Covered conn.store ∧
        ∀ place ∈ announced.global.pointer, conn.at place = none) := by
  have single {global : Global} {place : Place} (pointer : global.pointer = some place) :
      (conn.bindGlobal place announced.binds).Sound ∧
        (Places.Covered (conn.bindGlobal place announced.binds).store ↔
          Places.Covered conn.store ∧ ∀ other ∈ global.pointer, conn.at other = none) := by
    rw [pointer]
    simpa using sound.bindGlobal connected pointer announced.binds
  unfold Connection.registryHandleGlobal
  cases announced.global with
  | seat =>
      dsimp only
      split
      · exact ⟨sound, by simp [Global.pointer]⟩
      · rename_i without
        rw [Bool.not_eq_true, has_eq_false] at without
        have made : Keeps conn (conn.bindGlobal .seat announced.binds) :=
          keeps_make _ _ _ without ⟨nofun, fun _ => connected, nofun, nofun, nofun⟩
        exact ⟨made.sound sound,
          (made.kept sound.intact).covered.trans (by simp [Global.pointer])⟩
  | output =>
      dsimp only
      split
      · obtain ⟨bound, covered⟩ := sound.bindOutput connected announced.name
        exact ⟨bound, covered.trans (by simp [Global.pointer])⟩
      · split
        · have used := keeps_use conn .registry .bind
          exact ⟨used.sound sound,
            (used.kept sound.intact).covered.trans (by simp [Global.pointer])⟩
        · exact ⟨sound, by simp [Global.pointer]⟩
  | imManager => exact @single .imManager _ rfl
  | compositor => exact @single .compositor _ rfl
  | shm => exact @single .shm _ rfl
  | fractionalScaleManager => exact @single .fractionalScaleManager _ rfl
  | viewporter => exact @single .viewporter _ rfl
  | vkManager => exact @single .vkManager _ rfl

theorem keeps_handleOutputChange (conn : Connection) (refresh : Option PanelUpdate) :
    Keeps conn (conn.handleOutputChange refresh) := by
  unfold handleOutputChange
  split
  · exact .refl conn
  · split
    · exact keeps_updateContent ..
    · exact .refl conn

theorem mem_of_find {outputs : List (Nat × Nat)} {name : Nat} {output : Nat × Nat} {proxy : Nat}
    (found : outputs.find? (·.1 == name) = some output) (member : proxy ∈ outputs.map Prod.snd) :
    proxy = output.2 ∨ proxy ∈ (outputs.eraseP (·.1 == name)).map Prod.snd := by
  induction outputs with
  | nil => cases found
  | cons first outputs ih =>
      rw [List.find?_cons] at found
      rw [List.eraseP_cons]
      rw [List.map_cons, List.mem_cons] at member
      split at found
      next named =>
        obtain rfl := Option.some.inj found
        rw [named, cond_true]
        exact member
      next others =>
        rw [others, cond_false, List.map_cons, List.mem_cons]
        rcases member with rfl | later
        · exact .inr (.inl rfl)
        · exact (ih found later).imp_right .inr

theorem Sound.registryHandleGlobalRemove (sound : conn.Sound) (name : Nat)
    (refresh : Option PanelUpdate) : (conn.registryHandleGlobalRemove name refresh).Sound ∧
      (Places.Covered (conn.registryHandleGlobalRemove name refresh).store ↔
        Places.Covered conn.store) := by
  unfold Connection.registryHandleGlobalRemove
  split
  · exact ⟨sound, .rfl⟩
  · rename_i output found
    have erased : ({ conn with outputs := conn.outputs.eraseP (·.1 == name) } : Connection).Intact :=
      ⟨⟨sound.intact.shape.panel, sound.intact.shape.backend, sound.intact.shape.keyboard,
        sound.intact.shape.numbered, sound.intact.shape.unbound⟩, sound.intact.owned,
        sound.intact.ranked⟩
    obtain ⟨intact, covered, outputs, proxies⟩ := (keeps_handleOutputChange _ refresh).kept erased
    refine ⟨⟨intact.finish nofun (by simp [Place.mem_above]), ?_⟩,
      (Places.covered_finish _).trans covered⟩
    intro proxy there
    dsimp only at there ⊢
    rw [at_finish] at there
    split at there
    · exact absurd rfl there
    · rename_i differs
      rw [proxies] at there
      rw [finish_outputs, outputs]
      refine (mem_of_find found (sound.tracks proxy there)).resolve_left ?_
      rintro rfl
      exact differs rfl

theorem Sound.registryEvent (sound : conn.Sound) (event : RegistryEvent) :
    (conn.registryEvent event).Sound ∧ (Places.Covered (conn.registryEvent event).store ↔
      Places.Covered conn.store ∧ conn.AnnouncesOnce event) := by
  unfold Connection.registryEvent
  split
  · rename_i there
    cases event with
    | global announced =>
        have connected := sound.intact.connected ((has_eq_true _).mp there)
        simpa [AnnouncesOnce, there] using sound.registryHandleGlobal connected announced
    | globalRemove name refresh =>
        simpa [AnnouncesOnce] using sound.registryHandleGlobalRemove name refresh
  · rename_i without
    refine ⟨sound, (and_iff_left ?_).symm⟩
    cases event with
    | global announced => exact fun there => absurd there without
    | globalRemove name refresh => trivial

theorem Sound.registryEvents (sound : conn.Sound) (events : List RegistryEvent) :
    (Machine.run Connection.registryEvent conn events).Sound ∧
      (Places.Covered (Machine.run Connection.registryEvent conn events).store ↔
        Places.Covered conn.store ∧
          Machine.EachStep Connection.registryEvent AnnouncesOnce conn events) := by
  induction events generalizing conn with
  | nil => exact ⟨sound, by simp⟩
  | cons event events ih =>
      obtain ⟨next, covered⟩ := sound.registryEvent event
      obtain ⟨last, later⟩ := ih next
      exact ⟨last, by rw [Machine.run_cons, later, covered, Machine.eachStep_cons, and_assoc]⟩

/-- Without a backend the registry makes nothing but globals. -/
theorem registryEvent_unbacked (without : conn.backend = false) (event : RegistryEvent) :
    (conn.registryEvent event).backend = false ∧
      (conn.registryEvent event).at .inputMethod = conn.at .inputMethod ∧
      (conn.registryEvent event).at .virtualKeyboard = conn.at .virtualKeyboard := by
  unfold registryEvent
  split
  · cases event with
    | global announced =>
        dsimp only
        unfold registryHandleGlobal
        cases announced.global <;> dsimp only [Global.pointer] <;> (try split) <;> (try split) <;>
          simp [bindGlobal, without, Connection.at, Function.update]
    | globalRemove name refresh =>
        dsimp only
        unfold registryHandleGlobalRemove
        split
        · exact ⟨without, rfl, rfl⟩
        · have same : ({ conn with
              outputs := conn.outputs.eraseP (·.1 == name) } : Connection).handleOutputChange
                refresh = { conn with outputs := conn.outputs.eraseP (·.1 == name) } := by
            unfold handleOutputChange
            cases refresh <;> simp [without]
          dsimp only
          rw [same]
          refine ⟨without, ?_, ?_⟩
          · exact (at_finish ..).trans (if_neg nofun)
          · exact (at_finish ..).trans (if_neg nofun)
  · exact ⟨without, rfl, rfl⟩

/-! ## Losing the connection and binding -/

theorem Intact.finishAll (intact : conn.Intact) {places : List Place}
    (others : ∀ place ∈ places, place ≠ .display)
    (vacant : ∀ place ∈ places, ∀ child : Place, place ∈ child.above → conn.at child = none) :
    (conn.finishAll places).Intact := by
  induction places generalizing conn with
  | nil => exact intact
  | cons place places ih =>
      refine ih (intact.finish (others place (List.mem_cons_self ..))
        (vacant place (List.mem_cons_self ..)))
        (fun later member => others later (List.mem_cons_of_mem _ member)) ?_
      intro later member child isAbove
      rw [at_finish, vacant later (List.mem_cons_of_mem _ member) child isAbove, ite_self]

/-- There is no object, and no text UI backend. -/
structure Unbound (conn : Connection) : Prop where
  nothing : ∀ place, conn.at place = none
  backend : conn.backend = false

theorem initial_sound : initial.Sound where
  intact := ⟨⟨fun _ _ _ => rfl, fun _ => rfl, fun _ => rfl, fun _ there => absurd rfl there,
    fun _ _ => rfl⟩, .empty, .empty⟩
  tracks _ there := absurd rfl there

theorem initial_unbound : initial.Unbound := ⟨fun _ => rfl, rfl⟩

theorem textUiBackendDestroy_backend (conn : Connection) :
    conn.textUiBackendDestroy.backend = false := by
  unfold textUiBackendDestroy
  split
  · rfl
  · rename_i without
    exact Bool.not_eq_true _ ▸ without

/-- Unbinding destroys everything, in order, and loses nothing. -/
theorem Sound.waylandUnbind (sound : conn.Sound) :
    conn.waylandUnbind.Sound ∧ conn.waylandUnbind.Unbound ∧
      (Places.Covered conn.waylandUnbind.store ↔ Places.Covered conn.store) := by
  have destroyed : Keeps conn conn.keyboardDestroy.textUiBackendDestroy :=
    (keeps_keyboardDestroy conn).trans (keeps_textUiBackendDestroy _)
  have keyless := (keeps_keyboardDestroy conn).sound sound
  have ungrabbed := at_textUiBackendDestroy_of_none
    (keyless.intact.shape.keyboard (keyboardDestroy_keyboard conn))
  have unpopped : ∀ {other : Place}, other = .surface ∨ .surface ∈ other.above →
      conn.keyboardDestroy.textUiBackendDestroy.at other = none :=
    fun ofPanel => keyless.intact.at_textUiBackendDestroy ofPanel
  have backend := textUiBackendDestroy_backend conn.keyboardDestroy
  have covered := (destroyed.kept sound.intact).covered
  obtain ⟨intact, tracks⟩ := destroyed.sound sound
  unfold Connection.waylandUnbind
  generalize conn.keyboardDestroy.textUiBackendDestroy = bare at *
  -- nothing which has something above it is left
  have childless {place child : Place} (isAbove : place ∈ child.above) : bare.at child = none := by
    rcases Place.mem_above.mp isAbove with ⟨-, rfl | rfl⟩ | ⟨-, rfl | rfl | rfl | rfl⟩
    · exact ungrabbed
    all_goals exact unpopped (by simp [Place.above])
  let globals : List Place := [.virtualKeyboard, .vkManager, .inputMethod, .imManager, .seat, .shm,
    .viewporter, .fractionalScaleManager, .compositor, .registry]
  let outputs : List Place := bare.outputs.map fun output => .output output.2
  have emptied : ((bare.finishAll globals).finishAll outputs).Intact := by
    refine (intact.finishAll (by simp [globals]) fun _ _ child => childless).finishAll ?_ ?_
    · intro place member
      obtain ⟨output, -, rfl⟩ := List.mem_map.mp member
      exact nofun
    · intro _ _ child isAbove
      rw [at_finishAll, childless isAbove, ite_self]
  have displayOnly : ∀ other : Place, other ≠ .display →
      ((bare.finishAll globals).finishAll outputs).at other = none := by
    intro other differs
    rw [at_finishAll, at_finishAll]
    by_cases vacant : bare.at other = none
    · rw [vacant, ite_self, ite_self]
    · cases other with
      | output proxy =>
          obtain ⟨output, member, rfl⟩ := List.mem_map.mp (tracks proxy vacant)
          exact if_pos (List.mem_map.mpr ⟨output, member, rfl⟩)
      | display => exact absurd rfl differs
      | grab => exact absurd ungrabbed vacant
      | surface | popupSurface | viewport | fractionalScale | vkSurface =>
          exact absurd (unpopped (by simp [Place.above])) vacant
      | _ =>
          refine (ite_congr rfl (fun _ => rfl) fun _ => if_pos ?_).trans (ite_self _)
          simp [globals]
  have nothing : ∀ place, (((bare.finishAll globals).finishAll outputs).finish .display).at place =
      none := by
    intro place
    rw [at_finish]
    split
    · rfl
    · rename_i differs
      exact displayOnly place differs
  refine ⟨⟨⟨⟨fun _ place _ => nothing place, fun _ => nothing _, fun _ => nothing _,
    fun proxy there => absurd (nothing _) there, fun _ => nothing⟩, emptied.owned.finish _,
    emptied.ranked.finish emptied.owned (by simp [Place.mem_above])⟩,
    fun proxy there => absurd (nothing _) there⟩, ⟨nothing, backend⟩, ?_⟩
  exact (Places.covered_finish _).trans ((Places.covered_finishAll _).trans
    ((Places.covered_finishAll _).trans covered))

theorem Unbound.keeps_connect (unbound : conn.Unbound) (connects registry : Bool) :
    Keeps conn (conn.connect connects registry) := by
  unfold connect
  have connected : Keeps conn (conn.assign .display connects) :=
    keeps_assign _ (unbound.nothing _) ⟨nofun, fun other => absurd rfl other, nofun, nofun, nofun⟩
  refine connected.trans ?_
  dsimp only
  split
  · rename_i there
    refine keeps_make _ _ _ ?_ ⟨nofun, fun _ => (has_eq_true _).mp there, nofun, nofun, nofun⟩
    rw [at_assign, if_neg (by decide), unbound.nothing]
  · exact .refl _

/-- Connecting makes the display and the registry only. -/
theorem Unbound.connect (unbound : conn.Unbound) (connects registry : Bool) :
    (conn.connect connects registry).backend = false ∧
      (conn.connect connects registry).at .inputMethod = none ∧
      (conn.connect connects registry).at .virtualKeyboard = none := by
  unfold Connection.connect
  have gone := unbound.nothing
  dsimp only
  split
  · refine ⟨unbound.backend, ?_, ?_⟩ <;>
      rw [at_assign, if_neg (by decide), at_use, at_assign, if_neg (by decide), gone]
  · refine ⟨unbound.backend, ?_, ?_⟩ <;> rw [at_assign, if_neg (by decide), gone]

theorem registryEvents_unbacked (without : conn.backend = false) (events : List RegistryEvent) :
    (Machine.run registryEvent conn events).backend = false ∧
      (Machine.run registryEvent conn events).at .inputMethod = conn.at .inputMethod ∧
      (Machine.run registryEvent conn events).at .virtualKeyboard = conn.at .virtualKeyboard := by
  induction events generalizing conn with
  | nil => exact ⟨without, rfl, rfl⟩
  | cons event events ih =>
      obtain ⟨still, inputMethod, virtualKeyboard⟩ := registryEvent_unbacked without event
      obtain ⟨last, inputMethod', virtualKeyboard'⟩ := ih still
      exact ⟨last, inputMethod'.trans inputMethod, virtualKeyboard'.trans virtualKeyboard⟩

theorem keeps_createInputMethod (answers : BindAnswers) (connected : conn.at .display ≠ none)
    (without : conn.backend = false) (inputMethod : conn.at .inputMethod = none)
    (virtualKeyboard : conn.at .virtualKeyboard = none) :
    Keeps conn (conn.createInputMethod answers).2 := by
  refine .of_intact fun intact => ?_
  have made : Keeps conn ((conn.use .imManager .getInputMethod).assign .inputMethod
      answers.inputMethod) :=
    keeps_make _ _ _ inputMethod ⟨nofun, fun _ => connected, nofun, nofun, nofun⟩
  have same (other : Place) (differs : other ≠ .inputMethod) :
      ((conn.use .imManager .getInputMethod).assign .inputMethod answers.inputMethod).at other =
        conn.at other := by
    rw [at_assign, if_neg differs, at_use]
  unfold createInputMethod
  dsimp only
  split
  · refine made.trans ?_
    have forwards : Keeps ((conn.use .imManager .getInputMethod).assign .inputMethod
        answers.inputMethod) (((conn.use .imManager .getInputMethod).assign .inputMethod
          answers.inputMethod).createVirtualKeyboard answers.virtualKeyboard) := by
      unfold createVirtualKeyboard
      split
      · refine keeps_make _ _ _ ?_ ⟨nofun, fun _ => ?_, nofun, nofun, nofun⟩
        · rwa [same _ (by decide)]
        · rwa [same _ (by decide)]
      · exact .refl _
    refine forwards.trans (keeps_textUiBackendCreate _ _ ?_)
    unfold createVirtualKeyboard
    split
    · rw [at_assign, if_neg (by decide), at_use, same _ (by decide)]
      exact intact.shape.backend without
    · rw [same _ (by decide)]
      exact intact.shape.backend without
  · exact made

/-- An attempt to bind keeps the order, whatever fails, and loses something only by the registry
announcing a global again. -/
theorem Sound.waylandBind (sound : conn.Sound) (unbound : conn.Unbound) (answers : BindAnswers) :
    (conn.waylandBind answers).2.Sound ∧ (Places.Covered (conn.waylandBind answers).2.store ↔
      Places.Covered conn.store ∧ conn.BindsOnce answers) := by
  have connecting := unbound.keeps_connect answers.connects answers.registry
  have through := connecting.trans (keeps_use _ .display .roundtrip)
  obtain ⟨without, inputMethod, virtualKeyboard⟩ :=
    unbound.connect answers.connects answers.registry
  unfold Connection.waylandBind BindsOnce
  generalize conn.connect answers.connects answers.registry = connected at *
  dsimp only
  split
  · rename_i there
    rw [Bool.and_eq_true, has_eq_true, has_eq_true] at there
    obtain ⟨told, covered⟩ := (through.sound sound).registryEvents answers.announced
    have covered := covered.trans (and_congr_left' (through.kept sound.intact).covered)
    obtain ⟨without, inputMethod', virtualKeyboard'⟩ :=
      @registryEvents_unbacked (connected.use .display .roundtrip) without answers.announced
    rw [at_use, inputMethod] at inputMethod'
    rw [at_use, virtualKeyboard] at virtualKeyboard'
    generalize Machine.run Connection.registryEvent (connected.use .display .roundtrip)
      answers.announced = bound at *
    split
    · rename_i able
      simp only [Bool.and_eq_true, has_eq_true] at able
      have creating := keeps_createInputMethod answers (told.intact.connected able.2) without
        inputMethod' virtualKeyboard'
      exact ⟨creating.sound told, (creating.kept told.intact).covered.trans covered⟩
    · exact ⟨told, covered⟩
  · rename_i failed
    refine ⟨connecting.sound sound,
      (connecting.kept sound.intact).covered.trans (and_iff_left ?_).symm⟩
    -- without a display or a registry nothing is announced
    have unregistered : connected.at .registry = none := by
      by_contra there
      have display := (connecting.sound sound).intact.connected there
      exact failed (by rw [Bool.and_eq_true, has_eq_true, has_eq_true]; exact ⟨display, there⟩)
    have silent : (connected.use .display .roundtrip).has .registry = false := by
      rw [has_eq_false, at_use, unregistered]
    generalize connected.use .display .roundtrip = start at silent
    induction answers.announced with
    | nil => simp
    | cons event events ih =>
        have still : start.registryEvent event = start :=
          if_neg (by rw [silent]; exact Bool.false_ne_true)
        rw [Machine.eachStep_cons, still]
        refine ⟨?_, ih⟩
        cases event with
        | global announced => exact fun there => absurd (silent.symm.trans there) nofun
        | globalRemove name refresh => trivial

theorem Sound.reconnectAttempts (sound : conn.Sound) (unbound : conn.Unbound)
    (attempts : List Attempt) : (conn.reconnectAttempts attempts).Sound ∧
      (Places.Covered (conn.reconnectAttempts attempts).store ↔
        Places.Covered conn.store ∧ conn.AttemptsOnce attempts) := by
  induction attempts generalizing conn with
  | nil => exact ⟨sound, by simp [Connection.reconnectAttempts, AttemptsOnce]⟩
  | cons attempt attempts ih =>
      cases attempt with
      | stopped => exact ⟨sound, by simp [Connection.reconnectAttempts, AttemptsOnce]⟩
      | tries answers =>
          obtain ⟨bound, covered⟩ := sound.waylandBind unbound answers
          unfold Connection.reconnectAttempts AttemptsOnce
          dsimp only
          split
          · rename_i succeeds
            refine ⟨bound, covered.trans ?_⟩
            simp [succeeds]
          · rename_i fails
            obtain ⟨clean, empty, covered'⟩ := bound.waylandUnbind
            obtain ⟨last, later⟩ := ih clean empty
            refine ⟨last, later.trans ?_⟩
            simp [fails, covered', covered, and_assoc]

theorem Sound.destroy (sound : conn.Sound) : conn.destroy.Sound ∧
    (Places.Covered conn.destroy.store ↔ Places.Covered conn.store) := by
  have before : Keeps conn conn.keyboardDestroy.textUiBackendDestroy :=
    (keeps_keyboardDestroy conn).trans (keeps_textUiBackendDestroy _)
  obtain ⟨last, -, covered⟩ := (before.sound sound).waylandUnbind
  exact ⟨last, covered.trans (before.kept sound.intact).covered⟩

/-! ## Runs -/

theorem Sound.step (sound : conn.Sound) (event : Event) : (conn.step event).Sound ∧
    (Places.Covered (conn.step event).store ↔ Places.Covered conn.store ∧ conn.Careful event) := by
  have plain {after : Connection} (keeps : Keeps conn after) : after.Sound ∧
      (Places.Covered after.store ↔ Places.Covered conn.store ∧ True) :=
    ⟨keeps.sound sound, (keeps.kept sound.intact).covered.trans (and_iff_left trivial).symm⟩
  cases event with
  | registry event => exact sound.registryEvent event
  | rebuildGrab creates grabs =>
      exact plain ((keeps_keyboardDestroy conn).trans
        (keeps_keyboardCreate creates grabs (keyboardDestroy_keyboard conn)))
  | destroyKeyboard => exact plain (keeps_keyboardDestroy conn)
  | releaseGrab => exact plain (keeps_keyboardReleaseGrab conn)
  | forwardKey => exact plain (keeps_forwardKey conn)
  | commit => exact plain (keeps_use ..)
  | update update => exact plain (keeps_updateContent ..)
  | hide => exact plain (keeps_hideSurface conn)
  | reconnect attempts =>
      obtain ⟨clean, empty, covered⟩ := sound.waylandUnbind
      obtain ⟨last, later⟩ := clean.reconnectAttempts empty (attempts.take reconnectMaxAttempts)
      exact ⟨last, later.trans (and_congr_left' covered)⟩
  | destroy =>
      obtain ⟨last, covered⟩ := sound.destroy
      exact ⟨last, covered.trans (and_iff_left trivial).symm⟩

theorem new_sound (answers : BindAnswers) : (new answers).Sound ∧
    (Places.Covered (new answers).store ↔ initial.BindsOnce answers) := by
  obtain ⟨bound, covered⟩ := initial_sound.waylandBind initial_unbound answers
  have covered := covered.trans (and_iff_right Places.covered_empty)
  unfold new
  dsimp only
  split
  · exact ⟨bound, covered⟩
  · obtain ⟨last, covered'⟩ := bound.destroy
    exact ⟨last, covered'.trans covered⟩

theorem Sound.accounted_iff (sound : conn.Sound) : conn.Accounted ↔ Places.Covered conn.store := by
  refine forall₂_congr fun object _ => ?_
  rw [or_comm]
  refine or_congr_left ⟨And.right, ?_⟩
  rintro ⟨place, holds⟩
  have there : conn.at place ≠ none := by
    rw [Connection.at, holds]
    exact nofun
  exact ⟨(has_eq_true _).mpr (sound.intact.connected there), place, holds⟩

theorem always_sound (answers : BindAnswers) (events : List Event) :
    Machine.Always step Sound (new answers) events :=
  .of_preserved _ (fun _ event sound => (sound.step event).1) (new_sound answers).1

/-- Whatever fails while binding, however often the connection is lost and whatever comes and goes,
no object is used or destroyed after it was destroyed, and the grab and the popup are destroyed
before what they were made from. -/
theorem objects_end_in_order (answers : BindAnswers) (events : List Event) :
    Machine.Always step (fun conn => Lifetime.Sound conn.store.trace ∧
      Places.EndsFirst conn.store.parents conn.store.trace) (new answers) events :=
  (always_sound answers events).mono fun _ sound =>
    ⟨sound.intact.owned.kept.sound, sound.intact.ranked.ordered⟩

/-- Every object made is destroyed or still in its place in a connected frontend, at every moment,
exactly if no connection announces a global again whose pointer is assigned. -/
theorem accounted_iff_careful (answers : BindAnswers) (events : List Event) :
    Machine.Always step Accounted (new answers) events ↔
      initial.BindsOnce answers ∧ Machine.EachStep step Careful (new answers) events := by
  obtain ⟨start, covered⟩ := new_sound answers
  by_cases once : initial.BindsOnce answers
  · rw [and_iff_right once]
    refine Machine.always_iff_eachStep Sound ?_ (fun _ event sound _ _ => (sound.step event).1) start
      (start.accounted_iff.mpr (covered.mpr once))
    intro conn event sound accounted
    obtain ⟨next, decided⟩ := sound.step event
    rw [next.accounted_iff, decided, and_iff_right (sound.accounted_iff.mp accounted)]
  · refine iff_of_false (fun always => once ?_) fun careful => once careful.1
    exact covered.mp (start.accounted_iff.mp (always [] List.nil_prefix))

end Connection

end Typio
