import Mathlib.Algebra.Group.Int.Defs
import Mathlib.Algebra.Group.Nat.Defs
import Mathlib.Algebra.GroupWithZero.Nat
import Mathlib.Data.List.DropRight

/-!
# String slices

A string is a sequence of characters which is addressed by byte offsets into its UTF-8 encoding.
Taking a slice panics when an offset is out of range, lies inside a character, or the offsets are
in the wrong order.
-/

namespace StrSlice

abbrev Str := List Char

inductive Panic where
  | slice
  deriving DecidableEq, Repr

def byteLength (text : Str) : Nat := (text.map Char.utf8Size).sum

/-- The string from a byte offset on. -/
def dropBytes : Nat → Str → Option Str
  | 0, text => some text
  | _ + 1, [] => none
  | offset + 1, char :: text =>
      if char.utf8Size ≤ offset + 1 then dropBytes (offset + 1 - char.utf8Size) text else none

/-- The string up to a byte offset. -/
def takeBytes : Nat → Str → Option Str
  | 0, _ => some []
  | _ + 1, [] => none
  | offset + 1, char :: text =>
      if char.utf8Size ≤ offset + 1 then
        (takeBytes (offset + 1 - char.utf8Size) text).map (char :: ·)
      else none

/-- `&text[start..stop]`. -/
def slice (text : Str) (start stop : Nat) : Except Panic Str :=
  if start ≤ stop then
    match (takeBytes stop text).bind (dropBytes start) with
    | some part => .ok part
    | none => .error .slice
  else .error .slice

/-- `text.find(char)`. -/
def find (char : Char) : Str → Option Nat
  | [] => none
  | first :: text =>
      if first = char then some 0 else (find char text).map (first.utf8Size + ·)

def startsWith (text : Str) (char : Char) : Bool := text.head? == some char

def endsWith (text : Str) (char : Char) : Bool := text.getLast? == some char

/-- `char::is_whitespace`: the Unicode property `White_Space`. -/
def isWhitespace (char : Char) : Bool :=
  let code := char.toNat
  decide (0x9 ≤ code ∧ code ≤ 0xd) || code == 0x20 || code == 0x85 || code == 0xa0 ||
    code == 0x1680 || decide (0x2000 ≤ code ∧ code ≤ 0x200a) || code == 0x2028 ||
    code == 0x2029 || code == 0x202f || code == 0x205f || code == 0x3000

def trim (text : Str) : Str := (text.dropWhile isWhitespace).rdropWhile isWhitespace

/-- A line without the carriage return before its line feed. -/
def stripReturn (line : Str) : Str := if endsWith line '\r' then line.dropLast else line

/-- `text.lines()`; what follows the last line feed is a line unless it is empty. -/
def lines (text : Str) : List Str :=
  let pieces := text.splitOn '\n'
  pieces.dropLast.map stripReturn ++ (pieces.getLast?.toList.filter (· ≠ []))

def isAsciiDigit (char : Char) : Bool := decide ('0' ≤ char ∧ char ≤ '9')

def digitsValue (digits : Str) : Nat :=
  digits.foldl (fun value digit => value * 10 + (digit.toNat - '0'.toNat)) 0

/-- The digits of a decimal number, without its sign. -/
def parseDigits (digits : Str) : Option Nat :=
  if digits ≠ [] ∧ digits.all isAsciiDigit then some (digitsValue digits) else none

/-- `text.parse::<i32>()`. -/
def parseI32 (text : Str) : Option Int :=
  let value : Option Int :=
    match text with
    | '-' :: digits => (parseDigits digits).map fun value => -(value : Int)
    | '+' :: digits => (parseDigits digits).map fun value => (value : Int)
    | digits => (parseDigits digits).map fun value => (value : Int)
  value.filter fun value => decide (-2 ^ 31 ≤ value ∧ value < 2 ^ 31)

/-! ## Offsets -/

@[simp] theorem byteLength_nil : byteLength [] = 0 := rfl

@[simp] theorem byteLength_cons (char : Char) (text : Str) :
    byteLength (char :: text) = char.utf8Size + byteLength text := rfl

@[simp] theorem byteLength_append (left right : Str) :
    byteLength (left ++ right) = byteLength left + byteLength right := by
  simp [byteLength]

@[simp] theorem dropBytes_zero (text : Str) : dropBytes 0 text = some text := by
  cases text <;> rfl

@[simp] theorem takeBytes_zero (text : Str) : takeBytes 0 text = some [] := by
  cases text <;> rfl

/-- Dropping the bytes of a character drops the character. -/
theorem dropBytes_cons (char : Char) (text : Str) (offset : Nat) :
    dropBytes (char.utf8Size + offset) (char :: text) = dropBytes offset text := by
  obtain ⟨size, size_eq⟩ := Nat.exists_eq_succ_of_ne_zero (Char.utf8Size_pos char).ne'
  rw [size_eq, Nat.succ_add, dropBytes, if_pos (by omega), size_eq]
  congr 1
  omega

theorem takeBytes_cons (char : Char) (text : Str) (offset : Nat) :
    takeBytes (char.utf8Size + offset) (char :: text) =
      (takeBytes offset text).map (char :: ·) := by
  obtain ⟨size, size_eq⟩ := Nat.exists_eq_succ_of_ne_zero (Char.utf8Size_pos char).ne'
  rw [size_eq, Nat.succ_add, takeBytes, if_pos (by omega), size_eq]
  congr 2
  omega

theorem dropBytes_append (left right : Str) :
    dropBytes (byteLength left) (left ++ right) = some right := by
  induction left with
  | nil => simp
  | cons char left induction => rw [byteLength_cons, List.cons_append, dropBytes_cons, induction]

theorem takeBytes_append (left right : Str) :
    takeBytes (byteLength left) (left ++ right) = some left := by
  induction left with
  | nil => simp
  | cons char left induction =>
      rw [byteLength_cons, List.cons_append, takeBytes_cons, induction, Option.map_some]

/-- A slice between two offsets which lie between characters. -/
theorem slice_append (left middle right : Str) :
    slice (left ++ middle ++ right) (byteLength left) (byteLength (left ++ middle)) =
      .ok middle := by
  rw [slice, if_pos (by simp), takeBytes_append, Option.bind_some, dropBytes_append]

theorem slice_to (left right : Str) : slice (left ++ right) 0 (byteLength left) = .ok left :=
  slice_append [] left right

theorem slice_from (left right : Str) :
    slice (left ++ right) (byteLength left) (byteLength (left ++ right)) = .ok right := by
  have whole := slice_append left right []
  rwa [List.append_nil] at whole

/-- What stands between two characters of one byte. -/
theorem slice_between {first last : Char} (first_byte : first.utf8Size = 1)
    (last_byte : last.utf8Size = 1) (inner : Str) :
    slice (first :: inner ++ [last]) 1 (byteLength (first :: inner ++ [last]) - 1) =
      .ok inner := by
  have between := slice_append [first] inner [last]
  have start : byteLength [first] = 1 := by simp [first_byte]
  have stop : byteLength (first :: inner ++ [last]) - 1 = byteLength ([first] ++ inner) := by
    simp [last_byte]
  rw [stop, ← start]
  exact between

/-- A single character of one byte has nothing between its first and its last byte. -/
theorem slice_single {char : Char} (one_byte : char.utf8Size = 1) :
    slice [char] 1 (byteLength [char] - 1) = .error .slice := by
  simp [slice, one_byte]

theorem length_lt_of_dropBytes {offset : Nat} {text part : Str}
    (dropped : dropBytes (offset + 1) text = some part) : part.length < text.length := by
  induction text generalizing offset with
  | nil => cases dropped
  | cons char text induction =>
      rw [dropBytes] at dropped
      split at dropped
      next fits =>
        cases rest : offset + 1 - char.utf8Size with
        | zero =>
            rw [rest, dropBytes_zero] at dropped
            obtain rfl := Option.some.inj dropped
            exact Nat.lt_succ_self _
        | succ offset =>
            rw [rest] at dropped
            exact Nat.lt_succ_of_lt (induction dropped)
      next splits => cases dropped

theorem length_le_of_takeBytes {offset : Nat} {text part : Str}
    (taken : takeBytes offset text = some part) : part.length ≤ text.length := by
  induction text generalizing offset part with
  | nil =>
      cases offset with
      | zero =>
          obtain rfl := Option.some.inj taken
          exact Nat.le_refl _
      | succ offset => cases taken
  | cons char text induction =>
      cases offset with
      | zero =>
          obtain rfl := Option.some.inj taken
          exact Nat.zero_le _
      | succ offset =>
          rw [takeBytes] at taken
          split at taken
          next fits =>
            obtain ⟨rest, rest_taken, rfl⟩ := Option.map_eq_some_iff.mp taken
            exact Nat.succ_le_succ (induction rest_taken)
          next splits => cases taken

/-- A slice which leaves out the first bytes is shorter. -/
theorem length_lt_of_slice {text part : Str} {start stop : Nat}
    (sliced : slice text (start + 1) stop = .ok part) : part.length < text.length := by
  rw [slice] at sliced
  split at sliced
  next ordered =>
    cases taken : takeBytes stop text with
    | none => simp [taken] at sliced
    | some front =>
        cases dropped : dropBytes (start + 1) front with
        | none => simp [taken, dropped] at sliced
        | some back =>
            obtain rfl : back = part := by simpa [taken, dropped] using sliced
            exact (length_lt_of_dropBytes dropped).trans_le (length_le_of_takeBytes taken)
  next disordered => cases sliced

/-! ## Searching -/

theorem find_eq_none_iff {char : Char} {text : Str} : find char text = none ↔ char ∉ text := by
  induction text with
  | nil => simp [find]
  | cons first text induction =>
      rw [find]
      split
      next same => simp [same]
      next other => simp [induction, Ne.symm other]

theorem find_append_cons {char : Char} {left : Str} (absent : char ∉ left) (right : Str) :
    find char (left ++ char :: right) = some (byteLength left) := by
  induction left with
  | nil => simp [find]
  | cons first left induction =>
      obtain ⟨other, rest⟩ := not_or.mp (List.mem_cons.not.mp absent)
      rw [List.cons_append, find, if_neg (Ne.symm other), induction rest]
      rfl

/-- The first occurrence of a character cuts the text in two. -/
theorem find_eq_some {char : Char} {text : Str} {offset : Nat}
    (found : find char text = some offset) :
    ∃ left right, text = left ++ char :: right ∧ char ∉ left ∧ offset = byteLength left := by
  have present : char ∈ text := by
    by_contra absent
    rw [find_eq_none_iff.mpr absent] at found
    cases found
  obtain ⟨left, right, rfl, absent⟩ := List.eq_append_cons_of_mem present
  rw [find_append_cons absent] at found
  exact ⟨left, right, rfl, absent, (Option.some.inj found).symm⟩

/-- A text is cut at the first occurrence of a character in one way. -/
theorem cut_unique {char : Char} {left right left' right' : Str} (absent : char ∉ left)
    (absent' : char ∉ left') (same : left ++ char :: right = left' ++ char :: right') :
    left = left' ∧ right = right' := by
  induction left generalizing left' with
  | nil =>
      cases left' with
      | nil => exact ⟨rfl, (List.cons.inj same).2⟩
      | cons first left' => exact absurd ((List.cons.inj same).1 ▸ List.mem_cons_self) absent'
  | cons first left induction =>
      cases left' with
      | nil => exact absurd ((List.cons.inj same).1 ▸ List.mem_cons_self) absent
      | cons first' left' =>
          obtain ⟨rfl, rest⟩ := List.cons.inj same
          obtain ⟨rfl, rfl⟩ := induction (List.not_mem_of_not_mem_cons absent)
            (List.not_mem_of_not_mem_cons absent') rest
          exact ⟨rfl, rfl⟩

theorem length_trim_le (text : Str) : (trim text).length ≤ text.length :=
  (List.rdropWhile_prefix isWhitespace _).length_le.trans
    (List.dropWhile_sublist isWhitespace).length_le

theorem length_le_of_mem_splitOn {char : Char} {text piece : Str}
    (member : piece ∈ text.splitOn char) : piece.length ≤ text.length := by
  induction text generalizing piece with
  | nil =>
      obtain rfl : piece = [] := by simpa using member
      exact Nat.le_refl _
  | cons first text induction =>
      rw [List.splitOn_cons_eq_if_modifyHead] at member
      obtain ⟨head, tail, pieces⟩ :=
        List.exists_cons_of_ne_nil (List.splitOn_ne_nil char text)
      split at member
      next cut =>
        rcases List.mem_cons.mp member with rfl | later
        · exact Nat.zero_le _
        · exact Nat.le_succ_of_le (induction later)
      next uncut =>
        rw [pieces, List.modifyHead_cons] at member
        rcases List.mem_cons.mp member with rfl | later
        · exact Nat.succ_le_succ (induction (pieces ▸ List.mem_cons_self))
        · exact Nat.le_succ_of_le (induction (pieces ▸ List.mem_cons_of_mem _ later))

theorem forall_of_all {text : Str} {good : Char → Prop} [DecidablePred good]
    (all : text.all (fun char => decide (good char)) = true) : ∀ char ∈ text, good char := by
  simpa using all

/-! ## Joining -/

theorem intercalate_cons_eq (separator first : Str) (texts : List Str) :
    separator.intercalate (first :: texts) = first ++ texts.flatMap (separator ++ ·) := by
  induction texts generalizing first with
  | nil => simp
  | cons second texts induction =>
      rw [List.intercalate_cons_cons, induction, List.flatMap_cons]
      simp

theorem intercalate_append {separator : Str} {front back : List Str} (front_some : front ≠ [])
    (back_some : back ≠ []) : separator.intercalate (front ++ back) =
      separator.intercalate front ++ separator ++ separator.intercalate back := by
  obtain ⟨first, front, rfl⟩ := List.exists_cons_of_ne_nil front_some
  obtain ⟨second, back, rfl⟩ := List.exists_cons_of_ne_nil back_some
  rw [List.cons_append, intercalate_cons_eq, intercalate_cons_eq, intercalate_cons_eq]
  simp

/-- A text which is split has the characters of its pieces. -/
theorem mem_splitOn {separator char : Char} {text : Str} (member : char ∈ text) :
    char = separator ∨ ∃ piece ∈ text.splitOn separator, char ∈ piece := by
  obtain ⟨first, rest, pieces⟩ := List.exists_cons_of_ne_nil (List.splitOn_ne_nil separator text)
  have joined : text = [separator].intercalate (first :: rest) := by
    rw [← pieces, List.intercalate_splitOn]
  rw [joined, intercalate_cons_eq, List.mem_append, List.mem_flatMap] at member
  rw [pieces]
  obtain here | ⟨piece, there, inside⟩ := member
  · exact .inr ⟨first, List.mem_cons_self, here⟩
  · obtain rfl | inside := List.mem_cons.mp inside
    · exact .inl rfl
    · exact .inr ⟨piece, List.mem_cons_of_mem _ there, inside⟩

/-! ## Trimming and lines -/

/-- No white space at either end. -/
structure Edged (text : Str) : Prop where
  first : ∀ char ∈ text.head?, isWhitespace char = false
  last : ∀ char ∈ text.getLast?, isWhitespace char = false

theorem dropWhile_of_edged {text : Str} (edged : Edged text) :
    text.dropWhile isWhitespace = text := by
  cases text with
  | nil => rfl
  | cons first text => exact List.dropWhile_cons_of_neg (by simp [edged.first first rfl])

theorem rdropWhile_of_edged {text : Str} (edged : Edged text) :
    text.rdropWhile isWhitespace = text := by
  rw [List.rdropWhile_eq_self_iff]
  intro nonempty
  simp [edged.last _ (List.getLast?_eq_some_getLast nonempty)]

theorem trim_of_edged {text : Str} (edged : Edged text) : trim text = text := by
  rw [trim, dropWhile_of_edged edged, rdropWhile_of_edged edged]

theorem trim_cons {char : Char} (white : isWhitespace char = true) (text : Str) :
    trim (char :: text) = trim text := by
  rw [trim, List.dropWhile_cons_of_pos white, trim]

theorem trim_concat {char : Char} (white : isWhitespace char = true) {text : Str}
    (edged : Edged text) (nonempty : text ≠ []) : trim (text ++ [char]) = text := by
  obtain ⟨first, rest, rfl⟩ := List.exists_cons_of_ne_nil nonempty
  rw [trim, List.cons_append, List.dropWhile_cons_of_neg (by simp [edged.first first rfl]),
    ← List.cons_append, List.rdropWhile_concat_pos _ _ _ white, rdropWhile_of_edged edged]

/-- A text which is put together from lines has these lines. -/
theorem lines_flatMap {pieces : List Str} (unbroken : ∀ piece ∈ pieces, '\n' ∉ piece)
    (no_return : ∀ piece ∈ pieces, endsWith piece '\r' = false) :
    lines (pieces.flatMap (· ++ ['\n'])) = pieces := by
  have split : (pieces.flatMap (· ++ ['\n'])).splitOn '\n' = pieces ++ [[]] := by
    clear no_return
    induction pieces with
    | nil => rfl
    | cons piece pieces induction =>
        obtain ⟨here, later⟩ := List.forall_mem_cons.mp unbroken
        rw [List.flatMap_cons, List.append_assoc, List.singleton_append,
          List.splitOn_append_cons_self_of_not_mem here, induction later, List.cons_append]
  have kept : pieces.map stripReturn = pieces.map id := by
    refine List.map_congr_left fun piece member => ?_
    rw [stripReturn, no_return piece member]
    rfl
  rw [lines, split, List.dropLast_concat, kept, List.map_id, List.getLast?_concat]
  simp

end StrSlice
