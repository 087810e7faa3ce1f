import Typio.StrSlice

/-!
# Tags in a transcription

Speech models mark what is not speech with bracketed tags.  The filter takes each closed tag out,
with the spaces after it, and separates what stood before it from what stands behind.  A bracket
which is never closed is kept, but the search for its end has consumed the rest of the text, which
is lost.
-/

namespace Typio

namespace Core

open StrSlice

/-! ## The filter -/

/-- The characters after the first `]`. -/
def closeTag : Str → Option Str
  | [] => none
  | char :: chars => if char = ']' then some chars else closeTag chars

/-- The text after the spaces at its start. -/
def skipSpaces (text : Str) : Str := text.dropWhile (· == ' ')

theorem length_of_closeTag {text rest : Str} (closed : closeTag text = some rest) :
    rest.length < text.length := by
  induction text with
  | nil => cases closed
  | cons char text induction =>
      rw [closeTag] at closed
      split at closed
      · obtain rfl := Option.some.inj closed
        exact Nat.lt_succ_self _
      · exact (induction closed).trans (Nat.lt_succ_self _)

theorem length_skipSpaces_le (text : Str) : (skipSpaces text).length ≤ text.length :=
  List.length_dropWhile_le ..

/-- The result after a tag: a space is put behind it when it neither is empty nor ends with one, and
when there is more to come. -/
def separate (result chars : Str) : Str :=
  if result ≠ [] ∧ chars ≠ [] ∧ ¬ endsWith result ' ' then result ++ [' '] else result

/-- The loop of `filter_tags`: the result so far, and the characters to come. -/
def filterLoop (result : Str) : Str → Str
  | [] => result
  | char :: chars =>
      if char = '[' then
        match _closed : closeTag chars with
        | some rest => filterLoop (separate result (skipSpaces rest)) (skipSpaces rest)
        -- The search has run to the end of the text.
        | none => filterLoop (result ++ [char]) []
      else filterLoop (result ++ [char]) chars
termination_by text => text.length
decreasing_by
  · have shorter := length_of_closeTag _closed
    have skipped := length_skipSpaces_le rest
    simp only [List.length_cons]
    omega
  · simp
  · simp

/-- `filter_tags`. -/
def filterTags (text : Str) : Str := filterLoop [] text

/-! ## What the filter is for -/

/-- Each closed tag is replaced, together with the spaces which follow it, by at most one space,
and every other character is kept. -/
inductive Filtered : Str → Str → Prop where
  | nil : Filtered [] []
  | kept {char : Char} {text out : Str} (single : char = '[' → ']' ∉ text) :
      Filtered text out → Filtered (char :: text) (char :: out)
  | tag {inner spaces text out separator : Str} (closed : ']' ∉ inner)
      (gap : ∀ char ∈ spaces, char = ' ') (whole : text.head? ≠ some ' ')
      (one : separator = [] ∨ separator = [' ']) :
      Filtered text out → Filtered ('[' :: inner ++ ']' :: (spaces ++ text)) (separator ++ out)

/-- The text behind a bracket which is never closed. -/
def lost : Str → Str
  | [] => []
  | char :: chars =>
      if char = '[' then
        match _closed : closeTag chars with
        | some rest => lost (skipSpaces rest)
        | none => chars
      else lost chars
termination_by text => text.length
decreasing_by
  · have shorter := length_of_closeTag _closed
    have skipped := length_skipSpaces_le rest
    simp only [List.length_cons]
    omega
  · simp

/-! ## Closed tags -/

theorem closeTag_eq_none {text : Str} : closeTag text = none ↔ ']' ∉ text := by
  induction text with
  | nil => simp [closeTag]
  | cons char text induction =>
      rw [closeTag, List.mem_cons, not_or]
      split
      next same => simp [same]
      next other => rw [induction, and_iff_right (Ne.symm other)]

theorem closeTag_eq_some {text rest : Str} :
    closeTag text = some rest ↔ ∃ inner, ']' ∉ inner ∧ text = inner ++ ']' :: rest := by
  induction text with
  | nil => simp [closeTag]
  | cons char text induction =>
      rw [closeTag]
      split
      next same =>
        subst same
        rw [Option.some.injEq]
        constructor
        · rintro rfl
          exact ⟨[], List.not_mem_nil, rfl⟩
        · rintro ⟨inner, clean, split⟩
          cases inner with
          | nil => exact (List.cons.inj split).2
          | cons first inner =>
              obtain ⟨rfl, -⟩ := List.cons.inj split
              exact absurd List.mem_cons_self clean
      next other =>
        rw [induction]
        constructor
        · rintro ⟨inner, clean, rfl⟩
          refine ⟨char :: inner, ?_, rfl⟩
          rw [List.mem_cons, not_or]
          exact ⟨Ne.symm other, clean⟩
        · rintro ⟨inner, clean, split⟩
          cases inner with
          | nil => exact absurd (List.cons.inj split).1 other
          | cons first inner =>
              obtain ⟨rfl, rfl⟩ := List.cons.inj split
              exact ⟨inner, fun member => clean (List.mem_cons_of_mem _ member), rfl⟩

theorem skipSpaces_split (text : Str) :
    ∃ spaces, (∀ char ∈ spaces, char = ' ') ∧ text = spaces ++ skipSpaces text ∧
      (skipSpaces text).head? ≠ some ' ' := by
  refine ⟨text.takeWhile (· == ' '), fun char member => ?_,
    (List.takeWhile_append_dropWhile ..).symm, fun head => ?_⟩
  · simpa using List.mem_takeWhile_imp member
  · have first := List.head?_dropWhile_not (· == ' ') text
    rw [skipSpaces] at head
    simp [head] at first

theorem skipSpaces_append {spaces text : Str} (gap : ∀ char ∈ spaces, char = ' ')
    (whole : text.head? ≠ some ' ') : skipSpaces (spaces ++ text) = text := by
  have skipped : (spaces ++ text).dropWhile (· == ' ') = text.dropWhile (· == ' ') :=
    List.dropWhile_append_of_pos (by simpa using gap)
  rw [skipSpaces, skipped]
  cases text with
  | nil => rfl
  | cons char text => exact List.dropWhile_cons_of_neg (by simpa using whole)

theorem skipSpaces_length_lt {text rest : Str} (closed : closeTag text = some rest) :
    (skipSpaces rest).length < text.length :=
  (length_skipSpaces_le rest).trans_lt (length_of_closeTag closed)

theorem separate_eq (result chars : Str) :
    ∃ separator, (separator = [] ∨ separator = [' ']) ∧
      separate result chars = result ++ separator := by
  unfold separate
  split
  · exact ⟨[' '], .inr rfl, rfl⟩
  · exact ⟨[], .inl rfl, (List.append_nil _).symm⟩

theorem filterLoop_tag {chars rest : Str} (closed : closeTag chars = some rest) (result : Str) :
    filterLoop result ('[' :: chars) =
      filterLoop (separate result (skipSpaces rest)) (skipSpaces rest) := by
  rw [filterLoop, if_pos rfl]
  split
  next other found => rw [Option.some.inj (closed.symm.trans found)]
  next open_only => rw [closed] at open_only; cases open_only

theorem filterLoop_open {chars : Str} (open_only : closeTag chars = none) (result : Str) :
    filterLoop result ('[' :: chars) = result ++ ['['] := by
  rw [filterLoop, if_pos rfl]
  split
  next other found => rw [open_only] at found; cases found
  next => rw [filterLoop]

theorem filterLoop_kept {char : Char} (other : char ≠ '[') (result chars : Str) :
    filterLoop result (char :: chars) = filterLoop (result ++ [char]) chars := by
  rw [filterLoop, if_neg other]

@[simp] theorem lost_nil : lost [] = [] := by rw [lost]

theorem lost_tag {chars rest : Str} (closed : closeTag chars = some rest) :
    lost ('[' :: chars) = lost (skipSpaces rest) := by
  rw [lost, if_pos rfl]
  split
  next other found => rw [Option.some.inj (closed.symm.trans found)]
  next open_only => rw [closed] at open_only; cases open_only

theorem lost_open {chars : Str} (open_only : closeTag chars = none) :
    lost ('[' :: chars) = chars := by
  rw [lost, if_pos rfl]
  split
  next other found => rw [open_only] at found; cases found
  next => rfl

theorem lost_kept {char : Char} (other : char ≠ '[') (chars : Str) :
    lost (char :: chars) = lost chars := by rw [lost, if_neg other]

/-! ## What the filter keeps -/

theorem Filtered.of_tag {chars rest out separator : Str} (closed : closeTag chars = some rest)
    (one : separator = [] ∨ separator = [' ']) (filtered : Filtered (skipSpaces rest) out) :
    Filtered ('[' :: chars) (separator ++ out) := by
  obtain ⟨inner, clean, rfl⟩ := closeTag_eq_some.mp closed
  obtain ⟨spaces, gap, split, whole⟩ := skipSpaces_split rest
  have tagged := Filtered.tag clean gap whole one filtered
  rwa [← split] at tagged

theorem Filtered.tag_inv {chars rest out : Str} (filtered : Filtered ('[' :: chars) out)
    (closed : closeTag chars = some rest) :
    ∃ separator later, (separator = [] ∨ separator = [' ']) ∧ out = separator ++ later ∧
      Filtered (skipSpaces rest) later := by
  generalize opened : '[' :: chars = text at filtered
  cases filtered with
  | nil => cases opened
  | kept single filtered =>
      obtain ⟨rfl, rfl⟩ := List.cons.inj opened
      rw [closeTag_eq_none.mpr (single rfl)] at closed
      cases closed
  | tag clean gap whole one filtered =>
      obtain ⟨-, rfl⟩ := List.cons.inj opened
      have same := (closeTag_eq_some.mpr ⟨_, clean, rfl⟩).symm.trans closed
      obtain rfl := Option.some.inj same
      exact ⟨_, _, one, rfl, by rwa [skipSpaces_append gap whole]⟩

theorem Filtered.kept_inv {char : Char} {chars out : Str} (filtered : Filtered (char :: chars) out)
    (single : char = '[' → ']' ∉ chars) : ∃ later, out = char :: later ∧ Filtered chars later := by
  generalize opened : char :: chars = text at filtered
  cases filtered with
  | nil => cases opened
  | kept _ filtered =>
      obtain ⟨rfl, rfl⟩ := List.cons.inj opened
      exact ⟨_, rfl, filtered⟩
  | tag clean gap whole one filtered =>
      obtain ⟨rfl, rfl⟩ := List.cons.inj opened
      exact absurd (List.mem_append_right _ List.mem_cons_self) (single rfl)

theorem filtered_self {text : Str} (open_only : ']' ∉ text) : Filtered text text := by
  induction text with
  | nil => exact .nil
  | cons char text induction =>
      rw [List.mem_cons, not_or] at open_only
      exact .kept (fun _ => open_only.2) (induction open_only.2)

/-- With the lost text put back, the result is what the filter is for. -/
theorem filterLoop_filtered (result text : Str) :
    ∃ out, filterLoop result text = result ++ out ∧ Filtered text (out ++ lost text) := by
  fun_induction filterLoop result text with
  | case1 result => exact ⟨[], (List.append_nil _).symm, by simpa [lost] using Filtered.nil⟩
  | case2 result chars rest closed induction =>
      obtain ⟨out, same, filtered⟩ := induction
      obtain ⟨separator, one, separated⟩ := separate_eq result (skipSpaces rest)
      refine ⟨separator ++ out, ?_, ?_⟩
      · rw [same, separated, List.append_assoc]
      · rw [lost_tag closed, List.append_assoc]
        exact .of_tag closed one filtered
  | case3 result chars open_only induction =>
      refine ⟨['['], by rw [filterLoop], ?_⟩
      rw [lost_open open_only]
      have single := closeTag_eq_none.mp open_only
      exact .kept (fun _ => single) (filtered_self single)
  | case4 result char chars other induction =>
      obtain ⟨out, same, filtered⟩ := induction
      refine ⟨char :: out, by rw [same, List.append_assoc]; rfl, ?_⟩
      rw [lost_kept other]
      exact .kept (fun same => absurd same other) filtered

/-! ## Visible characters -/

/-- The characters which are not whitespace. -/
def visible (text : Str) : Str := text.filter fun char => !isWhitespace char

@[simp] theorem visible_append (left right : Str) :
    visible (left ++ right) = visible left ++ visible right := List.filter_append ..

theorem visible_eq_nil {text : Str} : visible text = [] ↔ ∀ char ∈ text, isWhitespace char := by
  simp [visible, List.filter_eq_nil_iff]

theorem visible_dropWhile (text : Str) : visible (text.dropWhile isWhitespace) = visible text := by
  have blank : visible (text.takeWhile isWhitespace) = [] :=
    visible_eq_nil.mpr fun char member => List.mem_takeWhile_imp member
  conv_rhs => rw [← List.takeWhile_append_dropWhile (p := isWhitespace) (l := text)]
  rw [visible_append, blank, List.nil_append]

theorem visible_reverse (text : Str) : visible text.reverse = (visible text).reverse :=
  List.filter_reverse ..

theorem visible_trim (text : Str) : visible (trim text) = visible text := by
  rw [trim, List.rdropWhile, visible_reverse, visible_dropWhile, visible_reverse,
    List.reverse_reverse, visible_dropWhile]

theorem trim_append_blank {text blank : Str} (whitespace : ∀ char ∈ blank, isWhitespace char) :
    trim (text ++ blank) = trim text := by
  have right (left : Str) :
      (left ++ blank).rdropWhile isWhitespace = left.rdropWhile isWhitespace := by
    rw [List.rdropWhile, List.reverse_append,
      List.dropWhile_append_of_pos fun char member => whitespace char (List.mem_reverse.mp member),
      List.rdropWhile]
  rw [trim, trim, List.dropWhile_append]
  split
  next empty =>
    have gone : text.dropWhile isWhitespace = [] := List.isEmpty_iff.mp empty
    have blank_gone : blank.dropWhile isWhitespace = [] := List.dropWhile_eq_nil_iff.mpr whitespace
    rw [gone, blank_gone]
  next => exact right _

/-- What is visible of a filtered text is determined by the text. -/
theorem Filtered.visible_unique {text left right : Str} (one : Filtered text left)
    (other : Filtered text right) : visible left = visible right := by
  induction h : text.length using Nat.strong_induction_on generalizing text left right with
  | _ length induction =>
      cases text with
      | nil =>
          cases one
          cases other
          rfl
      | cons char chars =>
          rw [List.length_cons] at h
          by_cases tag : char = '[' ∧ ∃ rest, closeTag chars = some rest
          · obtain ⟨rfl, rest, closed⟩ := tag
            obtain ⟨first, left, space, rfl, oneRest⟩ := one.tag_inv closed
            obtain ⟨second, right, space', rfl, otherRest⟩ := other.tag_inv closed
            have blank {separator : Str} (space : separator = [] ∨ separator = [' ']) :
                visible separator = [] := by obtain rfl | rfl := space <;> decide
            have shorter := skipSpaces_length_lt closed
            have same := induction _ (by omega) oneRest otherRest rfl
            rw [visible_append, visible_append, blank space, blank space', same]
          · have single : char = '[' → ']' ∉ chars := fun opens =>
              closeTag_eq_none.mp (Option.eq_none_iff_forall_ne_some.mpr fun rest closed =>
                tag ⟨opens, rest, closed⟩)
            obtain ⟨left, rfl, oneRest⟩ := one.kept_inv single
            obtain ⟨right, rfl, otherRest⟩ := other.kept_inv single
            have same := induction _ (by omega) oneRest otherRest rfl
            rw [← List.singleton_append, visible_append, same, ← visible_append,
              List.singleton_append]

/-- Apart from the whitespace around the text, the filter does what it is for exactly when the text
it loses is whitespace. -/
theorem filterTags_iff_lost (text : Str) :
    (∃ out, Filtered text out ∧ trim out = trim (filterTags text)) ↔
      ∀ char ∈ lost text, isWhitespace char := by
  obtain ⟨result, same, filtered⟩ := filterLoop_filtered [] text
  rw [List.nil_append] at same
  rw [filterTags, same]
  constructor
  · rintro ⟨out, whole, trimmed⟩
    have shown := filtered.visible_unique whole
    rw [← visible_trim out, trimmed, visible_trim, visible_append] at shown
    have gone : visible (lost text) = [] := List.append_right_eq_self.mp shown
    exact visible_eq_nil.mp gone
  · intro blank
    exact ⟨_, filtered, trim_append_blank blank⟩

/-! ## Where text is lost -/

theorem lost_spec (text : Str) :
    lost text = [] ∨ ∃ before, text = before ++ '[' :: lost text ∧ ']' ∉ lost text := by
  fun_induction lost text with
  | case1 => exact .inl rfl
  | case2 chars rest closed induction =>
      refine induction.imp_right fun ⟨before, split, single⟩ => ?_
      obtain ⟨inner, -, rfl⟩ := closeTag_eq_some.mp closed
      obtain ⟨spaces, -, gap, -⟩ := skipSpaces_split rest
      refine ⟨'[' :: inner ++ ']' :: spaces ++ before, ?_, single⟩
      conv_lhs => rw [gap, split]
      simp
  | case3 chars open_only => exact .inr ⟨[], rfl, closeTag_eq_none.mp open_only⟩
  | case4 char chars other induction =>
      refine induction.imp_right fun ⟨before, split, single⟩ => ⟨char :: before, ?_, single⟩
      rw [List.cons_append, ← split]

/-- A bracket with no end behind it stands behind every end. -/
theorem behind_end {front rest before after : Str}
    (split : front ++ ']' :: rest = before ++ '[' :: after) (single : ']' ∉ after) :
    ∃ between, rest = between ++ '[' :: after := by
  obtain ⟨between, -, tail⟩ | ⟨between, -, tail⟩ := List.append_eq_append_iff.mp split
  · cases between with
    | nil => exact absurd (List.cons.inj tail).1 (by decide)
    | cons _ between => exact ⟨between, (List.cons.inj tail).2⟩
  · cases between with
    | nil => exact absurd (List.cons.inj tail).1 (by decide)
    | cons _ between =>
        rw [(List.cons.inj tail).2] at single
        exact absurd (List.mem_append_right _ List.mem_cons_self) single

theorem behind_spaces {spaces rest before after : Str} (gap : ∀ char ∈ spaces, char = ' ')
    (split : spaces ++ rest = before ++ '[' :: after) :
    ∃ between, rest = between ++ '[' :: after := by
  obtain ⟨between, -, tail⟩ | ⟨between, front, tail⟩ := List.append_eq_append_iff.mp split
  · exact ⟨between, tail⟩
  · cases between with
    | nil => exact ⟨[], tail.symm⟩
    | cons first between =>
        obtain ⟨rfl, -⟩ := List.cons.inj tail
        rw [front] at gap
        exact absurd (gap '[' (List.mem_append_right _ List.mem_cons_self)) (by decide)

/-- What follows a bracket which is never closed is lost. -/
theorem suffix_lost {text before after : Str} (split : text = before ++ '[' :: after)
    (single : ']' ∉ after) : after <:+ lost text := by
  fun_induction lost text generalizing before with
  | case1 => simp at split
  | case2 chars rest closed induction =>
      obtain ⟨inner, -, rfl⟩ := closeTag_eq_some.mp closed
      obtain ⟨spaces, gap, parted, -⟩ := skipSpaces_split rest
      obtain ⟨between, ended⟩ := @behind_end ('[' :: inner) rest before after split single
      rw [parted] at ended
      obtain ⟨_, skipped⟩ := behind_spaces gap ended
      exact induction skipped
  | case3 chars open_only =>
      cases before with
      | nil => exact (List.cons.inj split).2 ▸ List.suffix_refl _
      | cons first before =>
          obtain ⟨-, rfl⟩ := List.cons.inj split
          exact ⟨before ++ ['['], by simp⟩
  | case4 char chars other induction =>
      cases before with
      | nil => exact absurd (List.cons.inj split).1 other
      | cons first before => exact induction (List.cons.inj split).2

/-- For every text the filter replaces the closed tags and keeps everything else, apart from the
whitespace around the text, exactly when nothing but whitespace follows a bracket that is never
closed. -/
theorem filterTags_keeps_iff (text : Str) :
    (∃ out, Filtered text out ∧ trim out = trim (filterTags text)) ↔
      ∀ before after, text = before ++ '[' :: after → ']' ∉ after →
        ∀ char ∈ after, isWhitespace char := by
  rw [filterTags_iff_lost]
  constructor
  · intro blank before after split single char member
    exact blank char ((suffix_lost split single).mem member)
  · intro blank
    obtain none | ⟨before, split, single⟩ := lost_spec text
    · simp [none]
    · exact blank before (lost text) split single

/-- The text behind an opening bracket is lost. -/
theorem open_bracket_loses_text :
    ¬ ∃ out, Filtered "see [note".toList out ∧
      trim out = trim (filterTags "see [note".toList) := by
  have behind : lost "see [note".toList = "note".toList := by
    simp [lost, closeTag]
  rw [filterTags_iff_lost, behind]
  intro blank
  exact absurd (blank 'n' List.mem_cons_self) (by decide)

end Core

end Typio
