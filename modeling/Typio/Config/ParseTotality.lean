import Typio.Config.Config

/-!
# Loading never panics, unless a value is a lone quote

Every slice of the INI parser is in range but one: the text between the quotes of a value which is a
single quote character.
-/

namespace Typio

namespace Config

open StrSlice

/-- The computation does not panic. -/
def Returns {α : Type} (result : Except Panic α) : Prop := ∃ value, result = .ok value

/-- The value, or an item of it, is a single quote character. -/
inductive LoneQuote : Str → Prop where
  | double {value : Str} : trim value = ['"'] → LoneQuote value
  | single {value : Str} : trim value = ['\''] → LoneQuote value
  | item {value inner item : Str} : trim value = '[' :: inner ++ [']'] →
      item ∈ inner.splitOn ',' → LoneQuote (trim item) → LoneQuote value

/-- The line assigns a key, and this is the text of its value. -/
def Assigns (line value : Str) : Prop :=
  trim line ≠ [] ∧ startsWith (trim line) '#' = false ∧ startsWith (trim line) ';' = false ∧
    isBracketed (trim line) = false ∧ ∃ key, trim line = key ++ '=' :: value ∧ '=' ∉ key

/-- A line of the text assigns a lone quote. -/
def AssignsLoneQuote (content : Str) : Prop :=
  ∃ line ∈ lines content, ∃ value, Assigns line value ∧ LoneQuote (trim value)

/-! ## Computations which may panic -/

section Returns

variable {α β : Type}

theorem returns_ok (value : α) : Returns (.ok value : Except Panic α) := ⟨value, rfl⟩

theorem not_returns_error (panic : Panic) : ¬ Returns (.error panic : Except Panic α) := by
  rintro ⟨value, impossible⟩
  cases impossible

theorem returns_map_iff (function : α → β) (result : Except Panic α) :
    Returns (function <$> result) ↔ Returns result := by
  cases result with
  | ok value => exact iff_of_true (returns_ok _) (returns_ok _)
  | error panic => exact iff_of_false (not_returns_error _) (not_returns_error _)

theorem returns_mapM_iff (function : α → Except Panic β) (items : List α) :
    Returns (items.mapM function) ↔ ∀ item ∈ items, Returns (function item) := by
  induction items with
  | nil => exact iff_of_true (returns_ok []) (List.forall_mem_nil _)
  | cons item items induction =>
      rw [List.mapM_cons, List.forall_mem_cons, ← induction]
      cases function item with
      | error panic =>
          exact iff_of_false (not_returns_error panic) fun each =>
            not_returns_error panic each.1
      | ok value =>
          rw [and_iff_right (returns_ok value)]
          exact returns_map_iff (value :: ·) _

theorem attach_mapM_eq (function : α → Except Panic β) (items : List α) :
    (items.attach.mapM fun item => function item.val) = items.mapM function := by
  have mapped : items.attach.mapM (function ∘ Subtype.val) = items.mapM function := by
    rw [← List.mapM_map, List.attach_map_subtype_val]
  exact mapped

/-- A fold returns if no step panics, whatever came before; a step which panics whatever came
before makes it panic. -/
theorem returns_foldlM_iff {step : β → α → Except Panic β} {good : α → Prop}
    (step_iff : ∀ state item, Returns (step state item) ↔ good item) (items : List α)
    (state : β) : Returns (items.foldlM step state) ↔ ∀ item ∈ items, good item := by
  induction items generalizing state with
  | nil => exact iff_of_true (returns_ok state) (List.forall_mem_nil _)
  | cons item items induction =>
      rw [List.foldlM_cons, List.forall_mem_cons]
      cases stepped : step state item with
      | error panic =>
          have bad : ¬ good item := fun holds => by
            obtain ⟨value, impossible⟩ := (step_iff state item).mpr holds
            rw [stepped] at impossible
            cases impossible
          exact iff_of_false (not_returns_error panic) fun each => bad each.1
      | ok next =>
          have fine : good item := (step_iff state item).mp ⟨next, stepped⟩
          rw [and_iff_right fine, ← induction next]
          rfl

end Returns

/-! ## Values -/

theorem startsWith_iff {text : Str} {char : Char} :
    startsWith text char = true ↔ ∃ rest, text = char :: rest := by
  cases text with
  | nil => simp [startsWith]
  | cons first rest =>
      rw [startsWith, List.head?_cons, beq_iff_eq, Option.some.injEq]
      constructor
      · rintro rfl
        exact ⟨rest, rfl⟩
      · rintro ⟨rest, same⟩
        exact (List.cons.inj same).1

theorem endsWith_iff {text : Str} {char : Char} :
    endsWith text char = true ↔ ∃ rest, text = rest ++ [char] := by
  rw [endsWith, beq_iff_eq, List.getLast?_eq_some_iff]

/-- A text between two characters is the one character for both, or something in between. -/
theorem startsWith_endsWith_iff {text : Str} {first last : Char} :
    (startsWith text first && endsWith text last) = true ↔
      (first = last ∧ text = [first]) ∨ ∃ inner, text = first :: inner ++ [last] := by
  rw [Bool.and_eq_true, startsWith_iff, endsWith_iff]
  constructor
  · rintro ⟨⟨rest, rfl⟩, front, ends⟩
    cases front with
    | nil =>
        obtain ⟨rfl, rfl⟩ := List.cons.inj ends
        exact .inl ⟨rfl, rfl⟩
    | cons head inner =>
        obtain ⟨rfl, rfl⟩ := List.cons.inj ends
        exact .inr ⟨inner, rfl⟩
  · rintro (⟨rfl, rfl⟩ | ⟨inner, rfl⟩)
    · exact ⟨⟨[], rfl⟩, [], rfl⟩
    · exact ⟨⟨inner ++ [last], rfl⟩, first :: inner, rfl⟩

theorem isBracketed_iff {text : Str} :
    isBracketed text = true ↔ ∃ inner, text = '[' :: inner ++ [']'] := by
  rw [isBracketed, startsWith_endsWith_iff]
  simp

theorem stripEnds_bracketed (inner : Str) : stripEnds ('[' :: inner ++ [']']) = .ok inner :=
  slice_between (by decide) (by decide) inner

/-- The text between two quotes can be taken unless the two are one. -/
theorem returns_stripEnds_quoted_iff {quote : Char} (one_byte : quote.utf8Size = 1) {text : Str}
    (quoted : isQuotedBy quote text = true) : Returns (stripEnds text) ↔ text ≠ [quote] := by
  rcases startsWith_endsWith_iff.mp quoted with ⟨-, rfl⟩ | ⟨inner, rfl⟩
  · refine iff_of_false ?_ (fun different => different rfl)
    rw [stripEnds, slice_single one_byte]
    exact not_returns_error _
  · refine iff_of_true ⟨inner, slice_between one_byte one_byte inner⟩ ?_
    intro same
    have lengths := congrArg List.length same
    simp at lengths

section Ini

variable {Float : Type} (parseF64 : Str → Option Float)

theorem parseIniValue_array {value inner : Str} (array : trim value = '[' :: inner ++ [']']) :
    parseIniValue parseF64 value =
      .array <$> (inner.splitOn ',').mapM fun item => parseIniValue parseF64 (trim item) := by
  rw [parseIniValue, if_pos (isBracketed_iff.mpr ⟨inner, array⟩)]
  split
  next panic failed =>
    rw [array, stripEnds_bracketed] at failed
    cases failed
  next rest stripped =>
    rw [array, stripEnds_bracketed] at stripped
    obtain rfl := Except.ok.inj stripped
    rw [attach_mapM_eq fun item => parseIniValue parseF64 (trim item)]
    rfl

theorem loneQuote_plain_iff {value : Str} (plain : ¬ isBracketed (trim value) = true) :
    LoneQuote value ↔ trim value = ['"'] ∨ trim value = ['\''] := by
  constructor
  · intro lone
    cases lone with
    | double same => exact .inl same
    | single same => exact .inr same
    | item array _ _ => exact absurd (isBracketed_iff.mpr ⟨_, array⟩) plain
  · rintro (same | same)
    · exact .double same
    · exact .single same

/-- A value which reads as a word is no quote. -/
theorem not_loneQuote_of_word {value : Str} {word : String} (long : word.length ≠ 1)
    (plain : ¬ isBracketed (trim value) = true)
    (same : (trim value).map Char.toLower = word.toList) : ¬ LoneQuote value := by
  rw [loneQuote_plain_iff plain]
  have lengths := congrArg List.length same
  rw [List.length_map, String.length_toList] at lengths
  rintro (quote | quote)
  · exact long (lengths.symm.trans (by rw [quote]; rfl))
  · exact long (lengths.symm.trans (by rw [quote]; rfl))

theorem loneQuote_array_iff {value inner : Str} (array : trim value = '[' :: inner ++ [']']) :
    LoneQuote value ↔ ∃ item ∈ inner.splitOn ',', LoneQuote (trim item) := by
  constructor
  · intro lone
    cases lone with
    | double same =>
        rw [array] at same
        cases same
    | single same =>
        rw [array] at same
        cases same
    | item other member lone =>
        rw [array] at other
        obtain rfl := List.append_cancel_right (List.cons.inj other).2
        exact ⟨_, member, lone⟩
  · rintro ⟨item, member, lone⟩
    exact .item array member lone

theorem returns_parseIniValue_iff (value : Str) :
    Returns (parseIniValue parseF64 value) ↔ ¬ LoneQuote value := by
  induction value using parseIniValue.induct with
  | case1 value trimmed bracketed panic failed =>
      obtain ⟨inner, array⟩ := isBracketed_iff.mp bracketed
      rw [array, stripEnds_bracketed] at failed
      cases failed
  | case2 value trimmed bracketed inner stripped induction =>
      obtain ⟨inner, array⟩ := isBracketed_iff.mp bracketed
      rw [array, stripEnds_bracketed] at stripped
      obtain rfl := Except.ok.inj stripped
      rw [parseIniValue_array parseF64 array, returns_map_iff, returns_mapM_iff,
        loneQuote_array_iff array]
      simp only [not_exists, not_and]
      exact forall₂_congr fun item member => induction ⟨item, member⟩
  | case3 value trimmed plain same =>
      rw [parseIniValue, if_neg plain, if_pos same]
      refine iff_of_true (returns_ok _) (not_loneQuote_of_word ?_ plain same)
      decide
  | case4 value trimmed plain differs same =>
      rw [parseIniValue, if_neg plain, if_neg differs, if_pos same]
      refine iff_of_true (returns_ok _) (not_loneQuote_of_word ?_ plain same)
      decide
  | case5 value trimmed plain not_true not_false quoted =>
      rw [parseIniValue, if_neg plain, if_neg not_true, if_neg not_false, if_pos quoted]
      refine (returns_map_iff _ _).trans ?_
      rw [loneQuote_plain_iff plain]
      rcases Bool.or_eq_true_iff.mp quoted with double | single
      · rw [returns_stripEnds_quoted_iff (by decide) double]
        obtain ⟨rest, first⟩ := startsWith_iff.mp (Bool.and_eq_true_iff.mp double).1
        refine not_congr ⟨.inl, fun lone => lone.resolve_right fun same => ?_⟩
        exact absurd (List.cons.inj (first.symm.trans same)).1 (by decide)
      · rw [returns_stripEnds_quoted_iff (by decide) single]
        obtain ⟨rest, first⟩ := startsWith_iff.mp (Bool.and_eq_true_iff.mp single).1
        refine not_congr ⟨.inr, fun lone => lone.resolve_left fun same => ?_⟩
        exact absurd (List.cons.inj (first.symm.trans same)).1 (by decide)
  | case6 value trimmed plain not_true not_false unquoted =>
      rw [parseIniValue, if_neg plain, if_neg not_true, if_neg not_false, if_neg unquoted]
      refine iff_of_true (returns_ok _) ?_
      rw [loneQuote_plain_iff plain]
      rintro (same | same)
      · have quote : trimmed = ['"'] := same
        rw [quote] at unquoted
        exact unquoted (by decide)
      · have quote : trimmed = ['\''] := same
        rw [quote] at unquoted
        exact unquoted (by decide)

/-! ## Lines -/

/-- A line which assigns a key is read for the key. -/
theorem parseIniLine_assigns {line key value : Str} (nonempty : trim line ≠ [])
    (no_hash : startsWith (trim line) '#' = false)
    (no_semicolon : startsWith (trim line) ';' = false)
    (plain : isBracketed (trim line) = false) (cut : trim line = key ++ '=' :: value)
    (no_equals : '=' ∉ key) (state : Str × Entries Float) :
    parseIniLine parseF64 state line =
      (fun parsed => (state.1, insert state.2 (fullKey state.1 (trim key)) parsed)) <$>
        parseIniValue parseF64 (trim value) := by
  have found : find '=' (trim line) = some (byteLength key) := by
    rw [cut]
    exact find_append_cons no_equals value
  have key_read : slice (trim line) 0 (byteLength key) = .ok key := by
    rw [cut]
    exact slice_to key ('=' :: value)
  have value_read : slice (trim line) (byteLength key + 1) (byteLength (trim line)) =
      .ok value := by
    have rest := slice_from (key ++ ['=']) value
    have equals : byteLength (key ++ ['=']) = byteLength key + 1 := by
      rw [byteLength_append]
      rfl
    rw [equals, List.append_assoc] at rest
    rw [cut]
    exact rest
  rw [parseIniLine]
  simp only [nonempty, no_hash, no_semicolon, plain, decide_false, Bool.or_false,
    Bool.false_eq_true, if_false, found, key_read, value_read]
  rfl

/-- A line is read unless it assigns a lone quote. -/
theorem returns_parseIniLine_iff (state : Str × Entries Float) (line : Str) :
    Returns (parseIniLine parseF64 state line) ↔
      ¬ ∃ value, Assigns line value ∧ LoneQuote (trim value) := by
  by_cases assigned : ∃ value, Assigns line value
  · obtain ⟨value, nonempty, no_hash, no_semicolon, plain, key, cut, no_equals⟩ := assigned
    have assigns_iff : ∀ other, Assigns line other ↔ other = value := by
      intro other
      constructor
      · rintro ⟨-, -, -, -, key', cut', no_equals'⟩
        exact (cut_unique no_equals' no_equals (cut'.symm.trans cut)).2
      · rintro rfl
        exact ⟨nonempty, no_hash, no_semicolon, plain, key, cut, no_equals⟩
    rw [parseIniLine_assigns parseF64 nonempty no_hash no_semicolon plain cut no_equals]
    refine (returns_map_iff (fun parsed =>
      (state.1, insert state.2 (fullKey state.1 (trim key)) parsed)) _).trans ?_
    rw [returns_parseIniValue_iff]
    simp only [assigns_iff, exists_eq_left]
  · refine iff_of_true ?_ fun ⟨value, assigns, _⟩ => assigned ⟨value, assigns⟩
    rw [parseIniLine]
    split
    next skipped => exact returns_ok _
    next kept =>
      split
      next bracketed =>
        obtain ⟨inner, brackets⟩ := isBracketed_iff.mp bracketed
        rw [brackets, stripEnds_bracketed]
        exact returns_ok _
      next plain =>
        split
        next absent => exact returns_ok _
        next eqPos found =>
          obtain ⟨key, value, cut, no_equals, rfl⟩ := find_eq_some found
          simp only [Bool.or_eq_true, not_or, Bool.not_eq_true, decide_eq_true_eq] at kept plain
          exact absurd ⟨value, kept.1.1, kept.1.2, kept.2, plain, key, cut, no_equals⟩ assigned

/-- A text is read as an INI file exactly if no line of it assigns a lone quote. -/
theorem returns_parseIniLike_iff (content : Str) :
    Returns (parseIniLike parseF64 content) ↔ ¬ AssignsLoneQuote content := by
  rw [parseIniLike, returns_map_iff,
    returns_foldlM_iff (returns_parseIniLine_iff parseF64), AssignsLoneQuote]
  simp only [not_exists, not_and]

/-- Loading returns exactly if there is no text, the text is TOML, or no line of it assigns a
lone quote. -/
theorem returns_loadString_iff (toml : Str → Option (TomlValue Float)) (content : Option Str) :
    Returns (loadString toml parseF64 content) ↔
      ∀ text ∈ content, (toml text).isSome = true ∨ ¬ AssignsLoneQuote text := by
  cases content with
  | none => exact iff_of_true (returns_ok none) nofun
  | some text =>
      simp only [loadString, Option.mem_def, Option.some.injEq, forall_eq']
      cases toml text with
      | some parsed => simpa using returns_ok _
      | none =>
          simp only [Option.isSome_none, Bool.false_eq_true, false_or]
          exact (returns_map_iff _ _).trans (returns_parseIniLike_iff parseF64 text)

end Ini

/-- A line whose value is one quote character is not TOML, and makes the loader panic. -/
theorem lone_quote_panics :
    ¬ Returns (loadString (fun _ => (none : Option (TomlValue Unit))) (fun _ => none)
      (some "theme = \"".toList)) := by
  intro returns
  have read := (returns_map_iff some _).mp returns
  refine (returns_parseIniLike_iff _ _).mp read ⟨"theme = \"".toList, by decide +kernel,
    " \"".toList, ⟨by decide +kernel, by decide +kernel, by decide +kernel, by decide +kernel,
      "theme ".toList, by decide +kernel, by decide +kernel⟩, .double (by decide +kernel)⟩

end Config

end Typio
