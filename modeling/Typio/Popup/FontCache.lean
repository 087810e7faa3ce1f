import Typio.Fifo
import Typio.Lifetime
import Typio.Machine
import Typio.Wayland.Frontend

/-!
# The fonts of the text renderer

The renderer keeps the fonts it loaded in a queue and closes the oldest one when the queue is full.
A layout is shaped with a font of the queue and borrows its face, which is used once more when the
layout is drawn for the first time.
-/

namespace Typio

namespace Popup

open Lifetime

/-- `FontFileEntry`. -/
structure FontFileEntry where
  family : Text
  weight : Int
  path : Text
  deriving DecidableEq, Repr

/-- The path, the size and the weight which name a font.  A size need not equal itself. -/
structure FontKey (Size : Type) where
  path : Text
  size : Size
  weight : Int
  deriving DecidableEq, Repr

/-- `FontObjEntry`: the faces are told apart by `font_id`. -/
structure FontObjEntry (Size : Type) extends FontKey Size where
  face : Nat
  deriving DecidableEq, Repr

/-- `TypioTextLayout`: the glyphs, the borrowed face and `image_attempted`. -/
structure TextLayout where
  glyphs : List Nat
  face : Nat
  imageAttempted : Bool
  deriving DecidableEq, Repr

/-- What fontconfig, FreeType and HarfBuzz answer. -/
structure FontWorld (Size : Type) where
  fontMatch : Text → Int → Option Text
  fontSort : Text → Int → Option Text
  loads : FontKey Size → Bool
  shapes : FontKey Size → Text → List Nat

inductive FaceUse
  | shape
  | rasterise
  deriving DecidableEq, Repr

/-- The two caches, `next_font_id`, the layouts made so far, freed ones left blank, and what
happened to the faces.  The font which was next when the caches were last cleared is remembered. -/
structure FluxRenderer (Size : Type) where
  fontFiles : List FontFileEntry
  fontObjs : List (FontObjEntry Size)
  nextFontId : Nat
  cleared : Nat
  layouts : List (Option TextLayout)
  trace : Trace Nat FaceUse

namespace FluxRenderer

variable {Size : Type}

def start : FluxRenderer Size := ⟨[], [], 1, 1, [], []⟩

/-- `FONT_FILE_CACHE_CAP`. -/
def fontFileCacheCap : Nat := 8

/-- `FONT_OBJ_CACHE_CAP`. -/
def fontObjCacheCap : Nat := 16

/-! ## The caches -/

section Calls

variable [BEq Size] (renderer : FluxRenderer Size)

def fontFileCacheLookup (family : Text) (weight : Int) : Option Text :=
  (renderer.fontFiles.find? fun entry =>
    entry.weight == weight && entry.family == family).map FontFileEntry.path

def fontFileCacheInsert (family : Text) (weight : Int) (path : Text) : FluxRenderer Size :=
  { renderer with
    fontFiles := Fifo.push fontFileCacheCap renderer.fontFiles ⟨family, weight, path⟩ }

/-- `match_font_file`: an empty family stands for the default one. -/
def matchFontFile (world : FontWorld Size) (family : Text) (weight : Int) :
    FluxRenderer Size × Option Text :=
  match renderer.fontFileCacheLookup family weight with
  | some path => (renderer, some path)
  | none =>
      match world.fontMatch (if family = [] then "Sans".toUTF8.toList else family) weight with
      | some path => (renderer.fontFileCacheInsert family weight path, some path)
      | none => (renderer, none)

def fontObjCacheLookup (key : FontKey Size) : Option (FontObjEntry Size) :=
  renderer.fontObjs.find? fun entry =>
    entry.size == key.size && entry.weight == key.weight && entry.path == key.path

/-- `font_obj_cache_insert`, given the next identifier. -/
def fontObjCacheInsert (key : FontKey Size) : FluxRenderer Size :=
  { renderer with
    fontObjs := Fifo.push fontObjCacheCap renderer.fontObjs ⟨key, renderer.nextFontId⟩
    nextFontId := renderer.nextFontId + 1
    trace := renderer.trace ++
      ((Fifo.evicted fontObjCacheCap renderer.fontObjs).map FontObjEntry.face).toList.map
        .ended }

/-- `get_or_create_font`. -/
def getOrCreateFont (world : FontWorld Size) (key : FontKey Size) :
    FluxRenderer Size × Option (FontObjEntry Size) :=
  match renderer.fontObjCacheLookup key with
  | some entry => (renderer, some entry)
  | none =>
      if world.loads key then
        let inserted := renderer.fontObjCacheInsert key
        (inserted, inserted.fontObjCacheLookup key)
      else (renderer, none)

/-! ## Layouts -/

def textHasNonAscii (text : Text) : Bool := text.any (127 < ·)

/-- `find_fallback_font`, which looks for a file that has every character of the text. -/
def findFallbackFont (world : FontWorld Size) (text : Option Text) (weight : Int) : Option Text :=
  match text with
  | some text => if textHasNonAscii text then world.fontSort text weight else none
  | none => none

/-- `layout_has_missing_glyphs`: HarfBuzz gives a missing glyph the number zero. -/
def TextLayout.hasMissingGlyphs (layout : TextLayout) : Bool := layout.glyphs.contains 0

/-- `flux_shape_text`: the metrics are read off the face, and the font shapes the text. -/
def shapeText (world : FontWorld Size) (font : FontObjEntry Size) (text : Option Text) :
    FluxRenderer Size × TextLayout :=
  ({ renderer with trace := renderer.trace ++ [.used font.face .shape] },
    ⟨world.shapes font.toFontKey (text.getD []), font.face, false⟩)

/-- The part of `flux_create_layout` which tries a second font for the glyphs the first one
lacks. -/
def withFallback (world : FontWorld Size) (text : Option Text) (key : FontKey Size)
    (layout : TextLayout) : FluxRenderer Size × TextLayout :=
  if TextLayout.hasMissingGlyphs layout then
    match findFallbackFont world text key.weight with
    | none => (renderer, layout)
    | some path =>
        if path = key.path then (renderer, layout)
        else
          match renderer.getOrCreateFont world { key with path } with
          | (found, none) => (found, layout)
          | (found, some font) =>
              let (shaped, second) := found.shapeText world font text
              if TextLayout.hasMissingGlyphs second then (shaped, layout) else (shaped, second)
  else (renderer, layout)

/-- `flux_create_layout`, from the family, the size and the weight which `parse_font_desc` reads. -/
def createLayout (world : FontWorld Size) (text : Option Text) (family : Text) (size : Size)
    (weight : Int) : FluxRenderer Size × Option TextLayout :=
  match renderer.matchFontFile world family weight with
  | (matched, none) => (matched, none)
  | (matched, some path) =>
      match matched.getOrCreateFont world ⟨path, size, weight⟩ with
      | (found, none) => (found, none)
      | (found, some font) =>
          let (shaped, layout) := found.shapeText world font text
          let (final, layout) := shaped.withFallback world text ⟨path, size, weight⟩ layout
          (final, some layout)

/-- `build_layout_image`: without glyphs or without a device nothing is rasterised. -/
def buildLayoutImage (layout : TextLayout) (device : Bool) : FluxRenderer Size × TextLayout :=
  let attempted := { layout with imageAttempted := true }
  if layout.glyphs = [] then (renderer, attempted)
  else if device then
    ({ renderer with trace := renderer.trace ++ [.used layout.face .rasterise] }, attempted)
  else (renderer, attempted)

/-- `font_obj_cache_clear` and `font_file_cache_clear`. -/
def clearCaches : FluxRenderer Size :=
  { renderer with
    fontFiles := []
    fontObjs := []
    cleared := renderer.nextFontId
    trace := renderer.trace ++ (renderer.fontObjs.map FontObjEntry.face).map .ended }

/-! ## Runs -/

/-- What the panel asks of the renderer.  A layout is named by the number of layouts made before
it. -/
inductive RenderCall (Size : Type)
  | createLayout (world : FontWorld Size) (text : Option Text) (family : Text) (size : Size)
      (weight : Int)
  | fillLayout (index : Nat) (canvas device : Bool)
  | freeLayout (index : Nat)
  | engineDestroy

/-- `typio_flux_fill_layout`. -/
def fillLayout (index : Nat) (canvas device : Bool) : FluxRenderer Size :=
  match renderer.layouts[index]? with
  | some (some layout) =>
      if canvas && !layout.imageAttempted then
        let (built, attempted) := renderer.buildLayoutImage layout device
        { built with layouts := built.layouts.set index (some attempted) }
      else renderer
  | _ => renderer

def step : RenderCall Size → FluxRenderer Size
  | .createLayout world text family size weight =>
      match renderer.createLayout world text family size weight with
      | (made, none) => made
      | (made, some layout) => { made with layouts := made.layouts ++ [some layout] }
  | .fillLayout index canvas device => renderer.fillLayout index canvas device
  | .freeLayout index => { renderer with layouts := renderer.layouts.set index none }
  | .engineDestroy => renderer.clearCaches

/-- The face with which a call draws a layout for the first time. -/
def rasterises : RenderCall Size → Option Nat
  | .fillLayout index canvas device =>
      match renderer.layouts[index]? with
      | some (some layout) =>
          if canvas && !layout.imageAttempted && device && layout.glyphs != [] then
            some layout.face
          else none
      | _ => none
  | _ => none

end Calls

/-! ## The faces which are closed -/

variable {renderer : FluxRenderer Size}

/-- The face was opened, and closed again. -/
def Closed (renderer : FluxRenderer Size) (face : Nat) : Prop :=
  0 < face ∧ face < renderer.nextFontId ∧
    (renderer.cleared ≤ face → face + fontObjCacheCap < renderer.nextFontId)

/-- The queue is the window of the fonts loaded last, and the other faces are closed. -/
structure Tracks (renderer : FluxRenderer Size) : Prop where
  window : Fifo.Window fontObjCacheCap FontObjEntry.face renderer.fontObjs renderer.cleared
    renderer.nextFontId
  positive : 0 < renderer.cleared
  ended : ∀ face, .ended face ∈ renderer.trace ↔ renderer.Closed face

theorem Tracks.open_iff (tracks : renderer.Tracks) (face : Nat) :
    face ∈ renderer.fontObjs.map FontObjEntry.face ↔
      0 < face ∧ face < renderer.nextFontId ∧ ¬renderer.Closed face := by
  have positive := tracks.positive
  rw [tracks.window.mem_numbers, Closed]
  omega

theorem start_tracks : (start : FluxRenderer Size).Tracks where
  window := Fifo.Window.cleared_nil 1
  positive := Nat.one_pos
  ended face := by
    refine ⟨fun ended => absurd ended List.not_mem_nil, ?_⟩
    rintro ⟨positive, opened, left⟩
    have first : face < 1 := opened
    omega

/-- Open faces may be closed, once each. -/
theorem Tracks.sound_closing (tracks : renderer.Tracks) {faces : List Nat} (once : faces.Nodup)
    (opened : ∀ face ∈ faces, face ∈ renderer.fontObjs.map FontObjEntry.face) :
    Sound (renderer.trace ++ faces.map .ended) ↔ Sound renderer.trace := by
  refine sound_append_ended once fun face member => ?_
  rw [tracks.ended]
  exact ((tracks.open_iff face).mp (opened face member)).2.2

theorem Tracks.ended_closing (tracks : renderer.Tracks) (faces : List Nat) (face : Nat) :
    .ended face ∈ renderer.trace ++ faces.map .ended ↔ renderer.Closed face ∨ face ∈ faces := by
  rw [List.mem_append, tracks.ended, List.mem_map]
  simp only [Entry.ended.injEq, exists_eq_right]

/-- Fonts may be loaded and used, and the layouts stay; only open faces are used, and a face is
closed once. -/
structure Grown (before after : FluxRenderer Size) : Prop where
  tracks : before.Tracks → after.Tracks
  sound : before.Tracks → (Sound after.trace ↔ Sound before.trace)
  le : before.nextFontId ≤ after.nextFontId
  layouts : after.layouts = before.layouts

theorem Grown.refl (renderer : FluxRenderer Size) : renderer.Grown renderer :=
  ⟨id, fun _ => Iff.rfl, le_rfl, rfl⟩

theorem Grown.trans {first second third : FluxRenderer Size} (left : first.Grown second)
    (right : second.Grown third) : first.Grown third where
  tracks tracks := right.tracks (left.tracks tracks)
  sound tracks := (right.sound (left.tracks tracks)).trans (left.sound tracks)
  le := left.le.trans right.le
  layouts := right.layouts.trans left.layouts

theorem Tracks.used (tracks : renderer.Tracks) (face : Nat) (use : FaceUse) :
    ({ renderer with trace := renderer.trace ++ [.used face use] } : FluxRenderer Size).Tracks where
  window := tracks.window
  positive := tracks.positive
  ended other := by
    rw [List.mem_append, tracks.ended]
    simp [Closed]

theorem Tracks.sound_used (tracks : renderer.Tracks) (face : Nat) (use : FaceUse) :
    Sound (renderer.trace ++ [.used face use]) ↔ Sound renderer.trace ∧ ¬renderer.Closed face := by
  rw [sound_concat, tracks.ended]
  rfl

theorem used_grown {face : Nat} (use : FaceUse)
    (opened : renderer.Tracks → face ∈ renderer.fontObjs.map FontObjEntry.face) :
    renderer.Grown { renderer with trace := renderer.trace ++ [.used face use] } where
  tracks tracks := tracks.used face use
  sound tracks := by
    rw [tracks.sound_used]
    exact and_iff_left ((tracks.open_iff face).mp (opened tracks)).2.2
  le := le_rfl
  layouts := rfl

theorem matchFontFile_grown (world : FontWorld Size) (family : Text) (weight : Int) :
    renderer.Grown (renderer.matchFontFile world family weight).1 := by
  unfold matchFontFile
  split
  · exact .refl renderer
  · split
    · exact ⟨fun tracks => ⟨tracks.window, tracks.positive, tracks.ended⟩, fun _ => Iff.rfl, le_rfl,
        rfl⟩
    · exact .refl renderer

theorem fontObjCacheInsert_grown (key : FontKey Size) :
    renderer.Grown (renderer.fontObjCacheInsert key) where
  tracks tracks := by
    refine ⟨tracks.window.push (by decide) rfl, tracks.positive, fun face => ?_⟩
    have leaves := tracks.window.evicted_iff (by decide) face
    have before := tracks.window.cleared_le
    have cap : 0 < fontObjCacheCap := by decide
    have positive := tracks.positive
    refine (tracks.ended_closing _ face).trans ?_
    rw [Option.mem_toList, leaves]
    unfold Closed fontObjCacheInsert
    dsimp only
    omega
  sound tracks := by
    refine tracks.sound_closing (by cases Option.map _ _ <;> simp) fun face member => ?_
    rw [Option.mem_toList, tracks.window.evicted_iff (by decide)] at member
    rw [tracks.window.mem_numbers]
    have cap : 0 < fontObjCacheCap := by decide
    omega
  le := Nat.le_succ _
  layouts := rfl

theorem clearCaches_grown : renderer.Grown renderer.clearCaches where
  tracks tracks := by
    have positive := tracks.positive
    have before := tracks.window.cleared_le
    refine ⟨Fifo.Window.cleared_nil _, lt_of_lt_of_le positive before, fun face => ?_⟩
    refine (tracks.ended_closing _ face).trans ?_
    rw [tracks.open_iff]
    unfold Closed clearCaches
    dsimp only
    omega
  sound tracks := tracks.sound_closing tracks.window.nodup fun _ member => member
  le := le_rfl
  layouts := rfl

/-- The layout's face was opened at some time. -/
def Opened (renderer : FluxRenderer Size) (layout : TextLayout) : Prop :=
  0 < layout.face ∧ layout.face < renderer.nextFontId

theorem shapeText_grown (world : FontWorld Size) {font : FontObjEntry Size}
    (member : font ∈ renderer.fontObjs) (text : Option Text) :
    renderer.Grown (renderer.shapeText world font text).1 :=
  used_grown .shape fun _ => List.mem_map_of_mem member

theorem shapeText_opened (world : FontWorld Size) {font : FontObjEntry Size}
    (member : font ∈ renderer.fontObjs) (text : Option Text) (tracks : renderer.Tracks) :
    (renderer.shapeText world font text).1.Opened (renderer.shapeText world font text).2 :=
  have face := (tracks.open_iff font.face).mp (List.mem_map_of_mem member)
  ⟨face.1, face.2.1⟩

theorem Grown.opened {after : FluxRenderer Size} (grown : renderer.Grown after)
    {layout : TextLayout} (opened : renderer.Opened layout) : after.Opened layout :=
  ⟨opened.1, lt_of_lt_of_le opened.2 grown.le⟩

/-- The faces are tracked, and those of the layouts have been opened. -/
structure Invariant (renderer : FluxRenderer Size) : Prop where
  tracks : renderer.Tracks
  opened : ∀ layout, some layout ∈ renderer.layouts → renderer.Opened layout

theorem Invariant.grown {after : FluxRenderer Size} (invariant : renderer.Invariant)
    (grown : renderer.Grown after) : after.Invariant where
  tracks := grown.tracks invariant.tracks
  opened layout member := by
    rw [grown.layouts] at member
    exact grown.opened (invariant.opened layout member)

/-- The layouts may be exchanged for others whose faces have been opened. -/
theorem Invariant.layouts (invariant : renderer.Invariant) {layouts : List (Option TextLayout)}
    (opened : ∀ layout, some layout ∈ layouts → renderer.Opened layout) :
    ({ renderer with layouts } : FluxRenderer Size).Invariant :=
  ⟨⟨invariant.tracks.window, invariant.tracks.positive, invariant.tracks.ended⟩, opened⟩

/-- A layout which was drawn takes the place of one with the same face. -/
theorem Invariant.redrawn (invariant : renderer.Invariant) {layout : TextLayout}
    (opened : renderer.Opened layout) (index : Nat) :
    ({ renderer with
      layouts := renderer.layouts.set index (some { layout with imageAttempted := true }) } :
        FluxRenderer Size).Invariant := by
  refine invariant.layouts fun drawn member => ?_
  rcases List.mem_or_eq_of_mem_set member with old | same
  · exact invariant.opened drawn old
  · obtain rfl := Option.some.inj same
    exact opened

theorem Invariant.freed (invariant : renderer.Invariant) (index : Nat) :
    ({ renderer with layouts := renderer.layouts.set index none } :
      FluxRenderer Size).Invariant := by
  refine invariant.layouts fun layout member => ?_
  rcases List.mem_or_eq_of_mem_set member with old | gone
  · exact invariant.opened layout old
  · cases gone

theorem Invariant.made (invariant : renderer.Invariant) {layout : TextLayout}
    (opened : renderer.Opened layout) :
    ({ renderer with layouts := renderer.layouts ++ [some layout] } :
      FluxRenderer Size).Invariant := by
  refine invariant.layouts fun other member => ?_
  rcases List.mem_append.mp member with old | new
  · exact invariant.opened other old
  · obtain rfl : other = layout := by simpa using new
    exact opened

/-- A layout is drawn with a face which has been opened. -/
theorem rasterises_opened (invariant : renderer.Invariant) {call : RenderCall Size} {face : Nat}
    (draws : face ∈ renderer.rasterises call) : 0 < face ∧ face < renderer.nextFontId := by
  cases call with
  | fillLayout index canvas device =>
      simp only [rasterises] at draws
      split at draws
      · rename_i layout found
        split at draws
        · obtain rfl := Option.some.inj draws
          exact invariant.opened layout (List.mem_of_getElem? found)
        · cases draws
      · cases draws
  | _ => cases draws

variable [BEq Size]

theorem getOrCreateFont_grown (world : FontWorld Size) (key : FontKey Size) :
    renderer.Grown (renderer.getOrCreateFont world key).1 := by
  unfold getOrCreateFont
  split
  · exact .refl renderer
  · split
    · exact fontObjCacheInsert_grown key
    · exact .refl renderer

/-- The font handed out is one of the queue. -/
theorem getOrCreateFont_mem {world : FontWorld Size} {key : FontKey Size}
    {found : FluxRenderer Size} {font : FontObjEntry Size}
    (gets : renderer.getOrCreateFont world key = (found, some font)) : font ∈ found.fontObjs := by
  unfold getOrCreateFont at gets
  split at gets
  · rename_i entry cached
    obtain ⟨rfl, same⟩ := Prod.ext_iff.mp gets
    obtain rfl : entry = font := Option.some.inj same
    exact List.mem_of_find?_eq_some cached
  · split at gets
    · obtain ⟨rfl, found⟩ := Prod.ext_iff.mp gets
      exact List.mem_of_find?_eq_some found
    · simp at gets

theorem getOrCreateFont_some {world : FontWorld Size} {key : FontKey Size}
    {found : FluxRenderer Size} {font : FontObjEntry Size}
    (gets : renderer.getOrCreateFont world key = (found, some font)) :
    renderer.Grown found ∧ font ∈ found.fontObjs := by
  have grown : renderer.Grown (renderer.getOrCreateFont world key).1 :=
    getOrCreateFont_grown world key
  rw [gets] at grown
  exact ⟨grown, getOrCreateFont_mem gets⟩

/-! ## Creating a layout -/

theorem withFallback_spec (world : FontWorld Size) (text : Option Text) (key : FontKey Size)
    {layout : TextLayout} (tracks : renderer.Tracks) (opened : renderer.Opened layout) :
    renderer.Grown (renderer.withFallback world text key layout).1 ∧
      (renderer.withFallback world text key layout).1.Opened
        (renderer.withFallback world text key layout).2 := by
  unfold withFallback
  split
  · split
    · exact ⟨.refl renderer, opened⟩
    · rename_i path _
      split
      · exact ⟨.refl renderer, opened⟩
      · split
        · rename_i found missed
          have grown : renderer.Grown (renderer.getOrCreateFont world { key with path }).1 :=
            getOrCreateFont_grown world { key with path }
          rw [missed] at grown
          exact ⟨grown, grown.opened opened⟩
        · rename_i found font gets
          obtain ⟨grown, member⟩ := getOrCreateFont_some gets
          have shaped := grown.trans (shapeText_grown world member text)
          dsimp only
          split
          · exact ⟨shaped, shaped.opened opened⟩
          · exact ⟨shaped, shapeText_opened world member text (grown.tracks tracks)⟩
  · exact ⟨.refl renderer, opened⟩

theorem createLayout_grown (world : FontWorld Size) (text : Option Text) (family : Text)
    (size : Size) (weight : Int) (tracks : renderer.Tracks) :
    renderer.Grown (renderer.createLayout world text family size weight).1 ∧
      ∀ layout ∈ (renderer.createLayout world text family size weight).2,
        (renderer.createLayout world text family size weight).1.Opened layout := by
  have matching : renderer.Grown (renderer.matchFontFile world family weight).1 :=
    matchFontFile_grown world family weight
  unfold createLayout
  split
  · rename_i matched missed
    rw [missed] at matching
    exact ⟨matching, by simp⟩
  · rename_i matched path named
    rw [named] at matching
    have creating : matched.Grown (matched.getOrCreateFont world ⟨path, size, weight⟩).1 :=
      getOrCreateFont_grown world ⟨path, size, weight⟩
    split
    · rename_i found missed
      rw [missed] at creating
      exact ⟨matching.trans creating, by simp⟩
    · rename_i found font gets
      obtain ⟨grown, member⟩ := getOrCreateFont_some gets
      have shaping := (matching.trans grown).trans (shapeText_grown world member text)
      have opened := shapeText_opened world member text (grown.tracks (matching.tracks tracks))
      obtain ⟨falling, final⟩ :=
        withFallback_spec world text ⟨path, size, weight⟩ (shaping.tracks tracks) opened
      exact ⟨shaping.trans falling, by simpa using final⟩

/-! ## Runs -/

/-- A face may be closed when a layout is drawn with it for the first time, and no call but that
one uses it then. -/
theorem fillLayout_spec (invariant : renderer.Invariant) (index : Nat) (canvas device : Bool) :
    (renderer.step (.fillLayout index canvas device)).Invariant ∧
      (Sound (renderer.step (.fillLayout index canvas device)).trace ↔
        Sound renderer.trace ∧
          ∀ face ∈ renderer.rasterises (.fillLayout index canvas device),
            ¬renderer.Closed face) := by
  have unchanged : renderer.Invariant ∧ (Sound renderer.trace ↔
      Sound renderer.trace ∧ ∀ face ∈ (none : Option Nat), ¬renderer.Closed face) :=
    ⟨invariant, by simp⟩
  simp only [step, fillLayout, rasterises]
  split
  · rename_i layout found
    have opened := invariant.opened layout (List.mem_of_getElem? found)
    have redrawn := invariant.redrawn opened index
    rcases Bool.eq_false_or_eq_true (canvas && !layout.imageAttempted) with draws | skips
    · rw [if_pos draws, draws]
      unfold buildLayoutImage
      by_cases empty : layout.glyphs = []
      · simp only [empty, if_true, bne_self_eq_false, Bool.and_false, Bool.false_eq_true, if_false]
          at redrawn ⊢
        exact ⟨redrawn, by simp⟩
      · cases device with
        | false => simpa [empty] using redrawn
        | true =>
            have used := redrawn.tracks.used layout.face .rasterise
            have sound := invariant.tracks.sound_used layout.face .rasterise
            simp only [empty, if_true, if_false]
            exact ⟨⟨used, redrawn.opened⟩, by simpa [empty] using sound⟩
    · rw [if_neg (by simp [skips]), skips]
      exact unchanged
  · exact unchanged

theorem step_spec (invariant : renderer.Invariant) (call : RenderCall Size) :
    (renderer.step call).Invariant ∧
      (Sound (renderer.step call).trace ↔
        Sound renderer.trace ∧ ∀ face ∈ renderer.rasterises call, ¬renderer.Closed face) := by
  cases call with
  | createLayout world text family size weight =>
      obtain ⟨grown, opened⟩ :=
        createLayout_grown world text family size weight invariant.tracks
      have after := invariant.grown grown
      have sound := grown.sound invariant.tracks
      simp only [step, rasterises]
      split
      · rename_i made missed
        rw [missed] at after sound
        exact ⟨after, by simpa using sound⟩
      · rename_i made layout creates
        rw [creates] at after sound opened
        exact ⟨after.made (opened layout rfl), by simpa using sound⟩
  | fillLayout index canvas device => exact fillLayout_spec invariant index canvas device
  | freeLayout index => exact ⟨invariant.freed index, by simp [step, rasterises]⟩
  | engineDestroy =>
      have sound := clearCaches_grown.sound invariant.tracks
      exact ⟨invariant.grown clearCaches_grown, by simpa [step, rasterises] using sound⟩

theorem run_invariant (calls : List (RenderCall Size)) :
    (Machine.run step start calls).Invariant := by
  induction calls using List.reverseRecOn with
  | nil => exact ⟨start_tracks, by simp [start]⟩
  | append_singleton calls call ih =>
      rw [Machine.run_concat]
      exact (step_spec ih call).1

/-- The face is still open: no font cache was cleared since it was opened, and fewer than sixteen
fonts were loaded after it. -/
def Holds (renderer : FluxRenderer Size) (face : Nat) : Prop :=
  renderer.cleared ≤ face ∧ renderer.nextFontId ≤ face + fontObjCacheCap

instance (face : Nat) : Decidable (renderer.Holds face) := inferInstanceAs (Decidable (_ ∧ _))

/-- Nothing happens to a face after it is closed if and only if each layout is drawn for the first
time while its face is still open. -/
theorem faces_used_while_open (calls : List (RenderCall Size)) :
    Sound (Machine.run step start calls).trace ↔
      Machine.EachStep step
        (fun renderer call => ∀ face ∈ renderer.rasterises call, renderer.Holds face)
        start calls := by
  induction calls using List.reverseRecOn with
  | nil => simpa [start] using sound_nil
  | append_singleton calls call ih =>
      have invariant := run_invariant calls
      rw [Machine.run_concat, Machine.eachStep_concat, (step_spec invariant call).2, ih]
      refine and_congr_right fun _ => forall₂_congr fun face draws => ?_
      have opened := rasterises_opened invariant draws
      unfold Closed Holds
      omega

/-- Each family is a file of its own, the fallback is a file without any glyph. -/
def oneFilePerFamily : FontWorld Nat where
  fontMatch family _ := some family
  fontSort _ _ := some []
  loads _ := true
  shapes key text := if key.path = [] then [0] else text.map fun byte => byte.toNat % 128

/-- Sixteen layouts in fonts of their own. -/
def sixteenFonts : List (RenderCall Nat) :=
  (List.range 16).map fun family =>
    .createLayout oneFilePerFamily (some [97]) [UInt8.ofNat family] 16 400

/-- A seventeenth font closes the face of a layout which is not drawn yet. -/
example : ¬Sound (Machine.run step start (sixteenFonts ++
    [.createLayout oneFilePerFamily (some [97]) [16] 16 400, .fillLayout 0 true true])).trace := by
  decide +kernel

/-- The fallback of a layout may close the layout's own face before the layout is handed out. -/
example : ¬Sound (Machine.run step start (sixteenFonts ++
    [.createLayout oneFilePerFamily (some [128]) [0] 16 400, .fillLayout 16 true true])).trace := by
  decide +kernel

end FluxRenderer

end Popup

end Typio
