import Mathlib.Algebra.Group.Int.Defs
import Mathlib.Algebra.Group.Nat.Defs
import Typio.JsonText

/-!
# The hand-written JSON helpers

Members are found by searching the text for the quoted name, never by parsing; what follows the
first occurrence is scanned in place.  The builder appends to a growing buffer and escapes what it
is given.  A C string is the list of its bytes before the terminator, none of them zero.
-/

namespace Typio

namespace TipJson

open JsonText

abbrev CString := List UInt8

/-! ## Searching -/

/-- The text from the first occurrence of the pattern on. -/
def strstr (text pattern : CString) : Option CString :=
  match text with
  | [] => if pattern = [] then some [] else none
  | byte :: rest =>
      if pattern.isPrefixOf (byte :: rest) then some (byte :: rest) else strstr rest pattern

/-- `before` ends where the pattern occurs first in the text. -/
structure FirstAt (text pattern before after : CString) : Prop where
  splits : text = before ++ after
  here : pattern <+: after
  nowhereBefore : ∀ start later, before = start ++ later → later ≠ [] → ¬ pattern <+: later ++ after

theorem strstr_eq_some {text pattern after : CString} :
    strstr text pattern = some after ↔ ∃ before, FirstAt text pattern before after := by
  induction text with
  | nil =>
      simp only [strstr]
      constructor
      · intro found
        split at found
        · next empty =>
            obtain rfl := Option.some.inj found
            exact ⟨[], rfl, by simp [empty], by simp⟩
        · simp at found
      · rintro ⟨before, splits, here, -⟩
        obtain ⟨rfl, rfl⟩ := List.append_eq_nil_iff.mp splits.symm
        simpa using here
  | cons byte rest ih =>
      simp only [strstr]
      split
      · next starts =>
          rw [List.isPrefixOf_iff_prefix] at starts
          constructor
          · intro found
            obtain rfl := Option.some.inj found
            exact ⟨[], rfl, starts, by simp⟩
          · rintro ⟨before, splits, here, nowhere⟩
            cases before with
            | nil => rw [splits, List.nil_append]
            | cons first before =>
                exact absurd (splits ▸ starts) (nowhere [] (first :: before) rfl (by simp))
      · next elsewhere =>
          rw [List.isPrefixOf_iff_prefix] at elsewhere
          rw [ih]
          constructor
          · rintro ⟨before, splits, here, nowhere⟩
            refine ⟨byte :: before, by rw [splits, List.cons_append], here, ?_⟩
            intro start later parts nonempty
            cases start with
            | nil =>
                rw [List.nil_append] at parts
                rwa [← parts, List.cons_append, ← splits]
            | cons first start =>
                exact nowhere start later (List.tail_eq_of_cons_eq parts) nonempty
          · rintro ⟨before, splits, here, nowhere⟩
            cases before with
            | nil => exact absurd (splits ▸ here) elsewhere
            | cons first before =>
                obtain ⟨rfl, rfl⟩ := List.cons.inj splits
                exact ⟨before, rfl, here, fun start later parts =>
                  nowhere (byte :: start) later (by rw [parts, List.cons_append])⟩

theorem FirstAt.unique {text pattern before before' after after' : CString}
    (first : FirstAt text pattern before after) (second : FirstAt text pattern before' after') :
    before = before' ∧ after = after' := by
  have found := strstr_eq_some.mpr ⟨before, first⟩
  rw [strstr_eq_some.mpr ⟨before', second⟩, Option.some.injEq] at found
  subst found
  exact ⟨List.append_cancel_right (first.splits.symm.trans second.splits), rfl⟩

/-! ## Reading -/

def isspace (byte : UInt8) : Bool := byte = 32 || (9 ≤ byte.toNat && byte.toNat ≤ 13)

def skipWs (text : CString) : CString := text.dropWhile isspace

/-- The name between quotes. -/
def quoted (key : CString) : CString := quote :: key ++ [quote]

/-- What follows the first quoted occurrence of the name, a colon and white space. -/
def memberValue (json key : CString) : Option CString :=
  match strstr json (quoted key) with
  | none => none
  | some found =>
      match skipWs (found.drop (quoted key).length) with
      | [] => none
      | byte :: rest => if byte = colon then some (skipWs rest) else none

/-- The bytes up to the quote that closes a string; a byte after a backslash is passed over. -/
def scanString (escaped : Bool) : CString → Option CString
  | [] => none
  | byte :: rest =>
      if byte = quote && !escaped then some []
      else (scanString (byte = backslash && !escaped) rest).map (byte :: ·)

def extractString (json key : CString) : Option CString :=
  if 100 < key.length then none
  else
    match memberValue json key with
    | none => none
    | some [] => none
    | some (byte :: content) => if byte = quote then scanString false content else none

def isdigit (byte : UInt8) : Bool := 48 ≤ byte.toNat && byte.toNat < 58

def magnitude (text : CString) : Nat :=
  (text.takeWhile isdigit).foldl (fun value byte => value * 10 + (byte.toNat - 48)) 0

/-- Base ten, saturating at the ends of a 64-bit `long`. -/
def strtol : CString → Int
  | 45 :: rest => max (-2 ^ 63) (-magnitude rest)
  | 43 :: rest => min (2 ^ 63 - 1) (magnitude rest)
  | text => min (2 ^ 63 - 1) (magnitude text)

/-- The value is narrowed to an `int`. -/
def extractId (json : CString) : Option Int :=
  (memberValue json (ascii "id")).map fun value => (strtol value).bmod (2 ^ 32)

/-- The bytes passed over until the braces balance.  Inside a string `last` is the byte before the
cursor, and a quote closes the string unless that byte is a backslash. -/
def scanObject (depth : Nat) (last : Option UInt8) : CString → CString
  | [] => []
  | byte :: rest =>
      match last with
      | some before =>
          byte :: scanObject depth
            (if byte = quote ∧ before ≠ backslash then none else some byte) rest
      | none =>
          if depth = 0 then []
          else if byte = quote then byte :: scanObject depth (some byte) rest
          else if byte = leftBrace then byte :: scanObject (depth + 1) none rest
          else if byte = rightBrace then byte :: scanObject (depth - 1) none rest
          else byte :: scanObject depth none rest

inductive Params where
  | malformed
  | absent
  | found (slice : CString)
  deriving DecidableEq, Repr

def scanValue (value : CString) : CString :=
  match value with
  | [] => []
  | byte :: rest =>
      if byte = leftBrace then byte :: scanObject 1 none rest
      else value.takeWhile fun byte => byte ≠ comma && byte ≠ rightBrace

def extractParams (json : CString) : Params :=
  if (strstr json (quoted (ascii "params"))).isNone then .absent
  else
    match memberValue json (ascii "params") with
    | none => .malformed
    | some value => .found (scanValue value)

/-! ## Writing -/

def hexDigit (value : Nat) : UInt8 := UInt8.ofNat (if value < 10 then 48 + value else 87 + value)

def escapeByte (byte : UInt8) : CString :=
  match byte with
  | 34 => [backslash, quote]
  | 92 => [backslash, backslash]
  | 8 => [backslash, 98]
  | 12 => [backslash, 102]
  | 10 => [backslash, 110]
  | 13 => [backslash, 114]
  | 9 => [backslash, 116]
  | byte =>
      if byte.toNat < 32 then
        [backslash, 117, 48, 48, hexDigit (byte.toNat / 16), hexDigit (byte.toNat % 16)]
      else [byte]

def appendString (text : CString) : CString := quote :: text.flatMap escapeByte ++ [quote]

def appendInt (value : Int) : CString := (NumberText.ofInt value).render

def appendBool (value : Bool) : CString := if value then ascii "true" else ascii "false"

def appendNull : CString := ascii "null"

def appendKey (key : CString) : CString := appendString key ++ [colon]

/-! ## Messages -/

def buildResponse (id : Int) (result : Option CString) : CString :=
  ascii "\x7b\"jsonrpc\":\"2.0\",\"id\":" ++ appendInt id ++ ascii ",\"result\":" ++
    result.getD (ascii "null") ++ ascii "\x7d"

def buildError (id code : Int) (message : CString) : CString :=
  ascii "\x7b\"jsonrpc\":\"2.0\",\"id\":" ++ appendInt id ++ ascii ",\"error\":\x7b\"code\":" ++
    appendInt code ++ ascii ",\"message\":" ++ appendString message ++ ascii "\x7d\x7d"

def buildNotify (method : CString) (params : Option CString) : CString :=
  ascii "\x7b\"jsonrpc\":\"2.0\",\"method\":" ++ appendString method ++ ascii ",\"params\":" ++
    params.getD (ascii "\x7b\x7d") ++ ascii "\x7d"

end TipJson

end Typio
