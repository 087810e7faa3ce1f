import Typio.StrSlice
import Typio.Utf8Scan

/-!
# Expanding paths

The list of schemas and the engine which loads them expand the configured directories each on its
own: one character by character, the other byte by byte.  Both replace a home directory at the start
and variables anywhere, and leave what they cannot replace as it is.
-/

namespace Typio

namespace Engines

open StrSlice Utf8Scan

/-- `getenv`. -/
abbrev Environment := List UInt8 → Option (List UInt8)

/-- `char::is_alphanumeric`, of which only what it says about ASCII characters is used. -/
structure Alphanumeric where
  holds : Char → Bool
  ascii : ∀ char, char.toNat < 0x80 → holds char = char.isAlphanum

/-! ## The list of schemas -/

section SchemaList

variable (alphanumeric : Alphanumeric) (env : Environment)

/-- `env::var`: a value which is not UTF-8 counts as none. -/
def envVar (name : Str) : Option Str := (env (encode name)).bind decode

/-- The value of a variable, or else the token. -/
def variableText (name token : Str) : Str := (envVar env name).getD token

def isNameChar (char : Char) : Bool := alphanumeric.holds char || char == '_'

/-- The loop of `expand_path`. -/
def expandVariables : Str → Str
  | [] => []
  | '$' :: '{' :: rest =>
      match _found : rest.dropWhile (· ≠ '}') with
      | _ :: after =>
          variableText env (rest.takeWhile (· ≠ '}'))
            ('$' :: '{' :: rest.takeWhile (· ≠ '}') ++ ['}']) ++ expandVariables after
      | [] => '$' :: expandVariables ('{' :: rest)
  | '$' :: rest =>
      if rest.takeWhile (isNameChar alphanumeric) = [] then '$' :: expandVariables rest
      else
        variableText env (rest.takeWhile (isNameChar alphanumeric))
          ('$' :: rest.takeWhile (isNameChar alphanumeric)) ++
            expandVariables (rest.dropWhile (isNameChar alphanumeric))
  | char :: rest => char :: expandVariables rest
termination_by path => path.length
decreasing_by
  · have shorter := (List.dropWhile_sublist (· ≠ '}') (l := rest)).length_le
    rw [_found] at shorter
    simp only [List.length_cons] at *
    omega
  · simp
  · simp
  · have shorter := (List.dropWhile_sublist (isNameChar alphanumeric) (l := rest)).length_le
    simp only [List.length_cons]
    omega
  · simp

/-- `expand_path`. -/
def expandPath : Str → Str
  | '~' :: remaining =>
      if remaining.head? = some '/' ∨ remaining = [] then
        variableText env "HOME".toList ['~'] ++ expandVariables alphanumeric env remaining
      else '~' :: expandVariables alphanumeric env remaining
  | remaining => expandVariables alphanumeric env remaining

end SchemaList

/-! ## The engine -/

section Engine

variable (env : Environment)

/-- The value of a variable if it is set and not empty, or else the token. -/
def variableBytes (name token : List UInt8) : List UInt8 := ((env name).filter (· ≠ [])).getD token

def isVarStart (byte : UInt8) : Bool :=
  (0x41 ≤ byte.toNat && byte.toNat ≤ 0x5a) || (0x61 ≤ byte.toNat && byte.toNat ≤ 0x7a) ||
    byte == 0x5f

def isVarChar (byte : UInt8) : Bool :=
  isVarStart byte || (0x30 ≤ byte.toNat && byte.toNat ≤ 0x39)

/-- The loop of `typio_rime_expand_path`; `0x24`, `0x7b` and `0x7d` are `$` and the braces. -/
def rimeExpandVariables : List UInt8 → List UInt8
  | [] => []
  | byte :: rest =>
      if byte ≠ 0x24 then byte :: rimeExpandVariables rest
      else if rest.head? = some 0x7b then
        match _found : rest.tail.dropWhile (· ≠ 0x7d) with
        | _ :: after =>
            variableBytes env (rest.tail.takeWhile (· ≠ 0x7d))
              (0x24 :: 0x7b :: rest.tail.takeWhile (· ≠ 0x7d) ++ [0x7d]) ++
                rimeExpandVariables after
        | [] => byte :: rimeExpandVariables rest
      else if rest.head?.any isVarStart then
        variableBytes env (rest.takeWhile isVarChar) (0x24 :: rest.takeWhile isVarChar) ++
          rimeExpandVariables (rest.dropWhile isVarChar)
      else byte :: rimeExpandVariables rest
termination_by path => path.length
decreasing_by
  · simp
  · have shorter := (List.dropWhile_sublist (· ≠ 0x7d) (l := rest.tail)).length_le
    rw [_found] at shorter
    simp only [List.length_cons, List.length_tail] at *
    omega
  · simp
  · have shorter := (List.dropWhile_sublist isVarChar (l := rest)).length_le
    simp only [List.length_cons]
    omega
  · simp

/-- `typio_rime_expand_path` on a path which is there; memory does not run out. -/
def rimeExpandPath (path : List UInt8) : List UInt8 :=
  match path with
  | 0x7e :: rest =>
      if rest.head? = some 0x2f ∨ rest = [] then
        match (env (encode "HOME".toList)).filter (· ≠ []) with
        | some home => home ++ rimeExpandVariables env rest
        | none => rimeExpandVariables env path
      else rimeExpandVariables env path
  | _ => rimeExpandVariables env path

end Engine

end Engines

end Typio
