import Typio.Engines.PathExpand

/-!
# The two expansions of a path

A path is cut into characters, variables and a home directory, and both expansions put a text for
each of these.  The texts are the same unless a variable is empty or not UTF-8, or its name is cut
differently: a name may start with a digit and go on with letters outside of ASCII for one of them
only.
-/

namespace Typio

namespace Engines

open StrSlice Utf8Scan

/-! ## Texts put together from pieces -/

/-- The texts are put together from pieces, and so many of them differ. -/
inductive Spelled : List UInt8 → List UInt8 → Nat → Prop where
  | nil : Spelled [] [] 0
  | same (piece : List UInt8) {text other : List UInt8} {count : Nat} :
      Spelled text other count → Spelled (piece ++ text) (piece ++ other) count
  | differ {piece instead : List UInt8} (different : piece ≠ instead) {text other : List UInt8}
      {count : Nat} : Spelled text other count →
        Spelled (piece ++ text) (instead ++ other) (count + 1)

theorem Spelled.eq_of_zero {text other : List UInt8} (spelled : Spelled text other 0) :
    text = other := by
  generalize zero : 0 = count at spelled
  induction spelled with
  | nil => rfl
  | same piece _ induction => rw [induction zero]
  | differ => cases zero

/-- A single piece makes a difference. -/
theorem Spelled.ne_of_one {text other : List UInt8} (spelled : Spelled text other 1) :
    text ≠ other := by
  generalize one : 1 = count at spelled
  induction spelled with
  | nil => cases one
  | same piece _ induction => exact fun equal => induction one (List.append_cancel_left equal)
  | differ different rest _ =>
      obtain rfl := Nat.succ.inj one
      intro equal
      rw [rest.eq_of_zero] at equal
      exact different (List.append_cancel_right equal)

theorem Spelled.piece {piece instead text other : List UInt8} {count : Nat}
    (spelled : Spelled text other count) {alike : Prop} [Decidable alike]
    (alike_iff : piece = instead ↔ alike) :
    Spelled (piece ++ text) (instead ++ other) ((if alike then 0 else 1) + count) := by
  split
  next holds =>
    rw [alike_iff.mpr holds, Nat.zero_add]
    exact .same _ spelled
  next fails =>
    rw [Nat.add_comm]
    exact .differ (fun equal => fails (alike_iff.mp equal)) spelled

/-! ## What is read alike -/

/-- The variable is not set, or has a value which is neither empty nor malformed. -/
def Usable (value : Option (List UInt8)) : Prop :=
  ∀ bytes ∈ value, bytes ≠ [] ∧ (decode bytes).isSome = true

instance (value : Option (List UInt8)) : Decidable (Usable value) :=
  match value with
  | none => isTrue nofun
  | some bytes => decidable_of_iff (bytes ≠ [] ∧ (decode bytes).isSome = true) (by simp [Usable])

def isAsciiNameStart (char : Char) : Bool := char.isAlpha || char == '_'

def isAsciiNameChar (char : Char) : Bool := char.isAlphanum || char == '_'

/-- A name which both expansions read. -/
def IsVarName (name : Str) : Prop :=
  name.head?.any isAsciiNameStart = true ∧ name.all isAsciiNameChar = true

instance (name : Str) : Decidable (IsVarName name) := inferInstanceAs (Decidable (_ ∧ _))

section Alike

variable (env : Environment)

/-- What the engine puts for a dollar sign and the name behind it: the value of the part of the name
which is ASCII, and the rest of the name. -/
def nameBytes (name : Str) : List UInt8 :=
  if name.head?.any isAsciiNameStart then
    variableBytes env (encode (name.takeWhile isAsciiNameChar))
      (encode ('$' :: name.takeWhile isAsciiNameChar)) ++ encode (name.dropWhile isAsciiNameChar)
  else encode ('$' :: name)

/-- A name behind a dollar sign is read alike: its value is usable, or, where the name is not one of
ASCII letters, digits and underscores, the value happens to be the text which the engine puts. -/
def NameAlike (name : Str) : Prop :=
  if IsVarName name then Usable (env (encode name))
  else encode (variableText env name ('$' :: name)) = nameBytes env name

instance (name : Str) : Decidable (NameAlike env name) :=
  inferInstanceAs (Decidable (if IsVarName name then Usable (env (encode name)) else _ = _))

variable (alphanumeric : Alphanumeric)

/-- The variables of a path which are not read alike. -/
def differences : Str → Nat
  | [] => 0
  | '$' :: '{' :: rest =>
      match _found : rest.dropWhile (· ≠ '}') with
      | _ :: after =>
          (if Usable (env (encode (rest.takeWhile (· ≠ '}')))) then 0 else 1) + differences after
      | [] => differences ('{' :: rest)
  | '$' :: rest =>
      if rest.takeWhile (isNameChar alphanumeric) = [] then differences rest
      else
        (if NameAlike env (rest.takeWhile (isNameChar alphanumeric)) then 0 else 1) +
          differences (rest.dropWhile (isNameChar alphanumeric))
  | _ :: rest => differences rest
termination_by path => path.length
decreasing_by
  · have shorter := (List.dropWhile_sublist (· ≠ '}') (l := rest)).length_le
    rw [_found] at shorter
    simp only [List.length_cons] at *
    omega
  · simp
  · simp
  · have shorter := (List.dropWhile_sublist (isNameChar alphanumeric) (l := rest)).length_le
    simp only [List.length_cons]
    omega
  · simp

end Alike

/-! ## The engine on the bytes of a text -/

section Engine

variable (env : Environment)

theorem scans_brace : Scans (fun byte => decide (byte ≠ 0x7d)) (fun char => decide (char ≠ '}')) :=
  scans_ne (by decide) rfl

/-- The codes with which a name starts. -/
def IsNameStartCode (code : Nat) : Prop :=
  (0x41 ≤ code ∧ code ≤ 0x5a) ∨ (0x61 ≤ code ∧ code ≤ 0x7a) ∨ code = 0x5f

def IsNameCode (code : Nat) : Prop := IsNameStartCode code ∨ (0x30 ≤ code ∧ code ≤ 0x39)

theorem isVarStart_iff {byte : UInt8} : isVarStart byte = true ↔ IsNameStartCode byte.toNat := by
  simp only [isVarStart, IsNameStartCode, Bool.or_eq_true, Bool.and_eq_true, decide_eq_true_eq,
    beq_iff_eq, ← UInt8.toNat_inj, or_assoc]
  rfl

theorem isVarChar_iff {byte : UInt8} : isVarChar byte = true ↔ IsNameCode byte.toNat := by
  simp only [isVarChar, IsNameCode, Bool.or_eq_true, isVarStart_iff, Bool.and_eq_true,
    decide_eq_true_eq]

theorem isAsciiNameStart_iff {char : Char} :
    isAsciiNameStart char = true ↔ IsNameStartCode char.toNat := by
  unfold isAsciiNameStart
  delta Char.isAlpha Char.isUpper Char.isLower
  simp only [IsNameStartCode, Bool.or_eq_true, Bool.and_eq_true, decide_eq_true_eq,
    UInt32.le_iff_toNat_le, ge_iff_le, beq_iff_eq, ← Char.toNat_inj, or_assoc]
  rfl

theorem isAsciiNameChar_iff {char : Char} :
    isAsciiNameChar char = true ↔ IsNameCode char.toNat := by
  have start := @isAsciiNameStart_iff char
  simp only [isAsciiNameStart, Bool.or_eq_true] at start
  simp only [isAsciiNameChar, IsNameCode, Char.isAlphanum, Char.isDigit, Bool.or_eq_true, ← start,
    Bool.and_eq_true, decide_eq_true_eq, UInt32.le_iff_toNat_le, ge_iff_le]
  exact or_right_comm

/-- Classes of bytes and of characters that are given by the same ASCII codes. -/
theorem scans_codes {wantsByte : UInt8 → Bool} {wants : Char → Bool} {codes : Nat → Prop}
    (byte_iff : ∀ byte, wantsByte byte = true ↔ codes byte.toNat)
    (char_iff : ∀ char, wants char = true ↔ codes char.toNat)
    (ascii : ∀ code, codes code → code < 0x80) : Scans wantsByte wants := by
  refine scans_ascii (fun char low => ?_) (fun char high => ?_) fun byte high => ?_
  · have code : (UInt8.ofNat char.toNat).toNat = char.toNat := by
      rw [UInt8.toNat_ofNat']
      exact Nat.mod_eq_of_lt (by omega)
    rw [Bool.eq_iff_iff, byte_iff, char_iff, code]
  · rw [← Bool.not_eq_true, char_iff]
    exact fun member => absurd (ascii _ member) (Nat.not_lt.mpr high)
  · rw [← Bool.not_eq_true, byte_iff]
    exact fun member => absurd (ascii _ member) (Nat.not_lt.mpr high)

theorem scans_nameStart : Scans isVarStart isAsciiNameStart := by
  refine scans_codes (fun _ => isVarStart_iff) (fun _ => isAsciiNameStart_iff) fun code member => ?_
  rw [IsNameStartCode] at member
  omega

theorem scans_name : Scans isVarChar isAsciiNameChar := by
  refine scans_codes (fun _ => isVarChar_iff) (fun _ => isAsciiNameChar_iff) fun code member => ?_
  rw [IsNameCode, IsNameStartCode] at member
  omega

/-- What has no dollar sign is copied. -/
theorem rimeExpandVariables_copied {bytes : List UInt8} (plain : ∀ byte ∈ bytes, byte ≠ 0x24)
    (rest : List UInt8) :
    rimeExpandVariables env (bytes ++ rest) = bytes ++ rimeExpandVariables env rest := by
  induction bytes with
  | nil => rfl
  | cons byte bytes induction =>
      obtain ⟨here, later⟩ := List.forall_mem_cons.mp plain
      rw [List.cons_append, rimeExpandVariables, if_pos here, induction later, List.cons_append]

theorem plain_encode {text : Str} (plain : '$' ∉ text) : ∀ byte ∈ encode text, byte ≠ 0x24 := by
  intro byte member
  obtain ⟨char, there, inside⟩ := List.mem_flatMap.mp member
  exact encodeChar_ne (by decide) (ne_of_mem_of_not_mem there plain) byte inside

/-! `0x24`, `0x7b` and `0x7d` are `$`, `{` and `}`, here as in the engine. -/

theorem encode_dollar (text : Str) : encode ('$' :: text) = 0x24 :: encode text := rfl

theorem encode_brace (text : Str) : encode ('{' :: text) = 0x7b :: encode text := rfl

theorem rimeExpandVariables_braced {rest : Str} {brace : Char} {after : Str}
    (closed : rest.dropWhile (· ≠ '}') = brace :: after) :
    rimeExpandVariables env (encode ('$' :: '{' :: rest)) =
      variableBytes env (encode (rest.takeWhile (· ≠ '}')))
        (encode ('$' :: '{' :: rest.takeWhile (· ≠ '}') ++ ['}'])) ++
          rimeExpandVariables env (encode after) := by
  obtain rfl : brace = '}' := by
    have stopped := List.head?_dropWhile_not (· ≠ '}') rest
    rw [closed] at stopped
    simpa using stopped
  have bytes : (encode rest).dropWhile (fun byte => decide (byte ≠ 0x7d)) =
      0x7d :: encode after := by
    rw [scans_brace.dropWhile, closed]
    rfl
  rw [encode_dollar, encode_brace, rimeExpandVariables, if_neg (by simp),
    if_pos List.head?_cons]
  simp only [List.tail_cons, scans_brace.takeWhile]
  split
  next byte left found =>
    obtain ⟨-, rfl⟩ := List.cons.inj (found.symm.trans bytes)
    rw [encode_append]
    rfl
  next found => exact absurd (found.symm.trans bytes) (List.cons_ne_nil _ _).symm

theorem rimeExpandVariables_unclosed {rest : Str} (unclosed : rest.dropWhile (· ≠ '}') = []) :
    rimeExpandVariables env (encode ('$' :: '{' :: rest)) =
      encode ['$'] ++ rimeExpandVariables env (encode ('{' :: rest)) := by
  have bytes : (encode rest).dropWhile (fun byte => decide (byte ≠ 0x7d)) = [] := by
    rw [scans_brace.dropWhile, unclosed, encode_nil]
  rw [encode_dollar, encode_brace, rimeExpandVariables, if_neg (by simp),
    if_pos List.head?_cons]
  simp only [List.tail_cons]
  split
  next found => exact absurd (found.symm.trans bytes) (List.cons_ne_nil _ _)
  next => rfl

theorem rimeExpandVariables_named {rest : Str} (unbraced : rest.head? ≠ some '{') :
    rimeExpandVariables env (encode ('$' :: rest)) =
      if rest.head?.any isAsciiNameStart then
        variableBytes env (encode (rest.takeWhile isAsciiNameChar))
          (encode ('$' :: rest.takeWhile isAsciiNameChar)) ++
            rimeExpandVariables env (encode (rest.dropWhile isAsciiNameChar))
      else encode ['$'] ++ rimeExpandVariables env (encode rest) := by
  have other : (encode rest).head? ≠ some 0x7b := fun first =>
    unbraced ((head?_encode_iff (by decide)).mp first)
  rw [encode_dollar, rimeExpandVariables, if_neg (by simp), if_neg other, scans_nameStart.head,
    scans_name.takeWhile, scans_name.dropWhile]
  rfl

end Engine

/-! ## Piece by piece -/

section Pieces

variable (env : Environment)

theorem variableText_unset {name : Str} (unset : env (encode name) = none) (token : Str) :
    variableText env name token = token := by rw [variableText, envVar, unset]; rfl

theorem variableText_set {name : Str} {bytes : List UInt8} (set : env (encode name) = some bytes)
    (token : Str) : variableText env name token = (decode bytes).getD token := by
  rw [variableText, envVar, set]
  rfl

theorem variableBytes_unset {name : List UInt8} (unset : env name = none) (token : List UInt8) :
    variableBytes env name token = token := by rw [variableBytes, unset]; rfl

theorem variableBytes_set {name bytes : List UInt8} (set : env name = some bytes)
    (token : List UInt8) :
    variableBytes env name token = if bytes = [] then token else bytes := by
  rw [variableBytes, set, Option.filter_some]
  by_cases empty : bytes = [] <;> simp [empty]

theorem usable_some {bytes : List UInt8} :
    Usable (some bytes) ↔ bytes ≠ [] ∧ (decode bytes).isSome = true :=
  ⟨fun usable => usable bytes rfl, fun holds _ member => Option.some.inj member ▸ holds⟩

/-- Both put the same for a variable whose value is usable, and only then: a token is never empty
and never malformed. -/
theorem variableText_eq_iff {name token : Str} (there : token ≠ []) :
    encode (variableText env name token) = variableBytes env (encode name) (encode token) ↔
      Usable (env (encode name)) := by
  have nonempty : encode token ≠ [] := fun none => there (encode_injective none)
  cases value : env (encode name) with
  | none =>
      rw [variableText_unset env value, variableBytes_unset env value]
      exact iff_of_true rfl nofun
  | some bytes =>
      rw [variableText_set env value, variableBytes_set env value, usable_some]
      by_cases empty : bytes = []
      · subst empty
        have read : decode [] = some [] := decode_encode []
        rw [read, if_pos rfl]
        exact iff_of_false nonempty.symm fun usable => usable.1 rfl
      rw [if_neg empty]
      cases read : decode bytes with
      | none =>
          refine iff_of_false ?_ (by simp)
          rintro rfl
          rw [Option.getD_none, decode_encode] at read
          cases read
      | some text => exact iff_of_true (encode_of_decode read) ⟨empty, rfl⟩

theorem IsVarName.takeWhile {name : Str} (isName : IsVarName name) :
    name.takeWhile isAsciiNameChar = name :=
  List.takeWhile_eq_self_iff.mpr (List.all_eq_true.mp isName.2)

theorem IsVarName.dropWhile {name : Str} (isName : IsVarName name) :
    name.dropWhile isAsciiNameChar = [] :=
  List.dropWhile_eq_nil_iff.mpr (List.all_eq_true.mp isName.2)

theorem nameAlike_iff {name : Str} :
    encode (variableText env name ('$' :: name)) = nameBytes env name ↔ NameAlike env name := by
  rw [NameAlike]
  split
  next isName =>
    rw [nameBytes, if_pos isName.1, isName.takeWhile, isName.dropWhile, encode_nil,
      List.append_nil]
    exact variableText_eq_iff env (List.cons_ne_nil _ _)
  next => rfl

variable (alphanumeric : Alphanumeric)

theorem isNameChar_of_ascii {char : Char} (ascii : isAsciiNameChar char = true) :
    isNameChar alphanumeric char = true := by
  have low : char.toNat < 0x80 := by
    have code := isAsciiNameChar_iff.mp ascii
    rw [IsNameCode, IsNameStartCode] at code
    omega
  rw [isNameChar, alphanumeric.ascii char low]
  exact ascii

theorem not_isNameChar_dollar : isNameChar alphanumeric '$' = false := by
  rw [isNameChar, alphanumeric.ascii '$' (by decide)]
  decide

/-- The ASCII part of a name ends within the name. -/
theorem takeWhile_ascii (text : Str) :
    text.takeWhile isAsciiNameChar =
      (text.takeWhile (isNameChar alphanumeric)).takeWhile isAsciiNameChar := by
  induction text with
  | nil => rfl
  | cons char text induction =>
      by_cases ascii : isAsciiNameChar char = true
      · rw [List.takeWhile_cons_of_pos ascii,
          List.takeWhile_cons_of_pos (isNameChar_of_ascii alphanumeric ascii),
          List.takeWhile_cons_of_pos ascii, induction]
      · rw [List.takeWhile_cons_of_neg ascii]
        by_cases named : isNameChar alphanumeric char = true
        · rw [List.takeWhile_cons_of_pos named, List.takeWhile_cons_of_neg ascii]
        · rw [List.takeWhile_cons_of_neg named, List.takeWhile_nil]

theorem dropWhile_ascii (text : Str) :
    text.dropWhile isAsciiNameChar =
      (text.takeWhile (isNameChar alphanumeric)).dropWhile isAsciiNameChar ++
        text.dropWhile (isNameChar alphanumeric) := by
  refine List.append_cancel_left (?_ : text.takeWhile isAsciiNameChar ++ _ = _)
  rw [List.takeWhile_append_dropWhile, takeWhile_ascii alphanumeric, ← List.append_assoc,
    List.takeWhile_append_dropWhile, List.takeWhile_append_dropWhile]

theorem plain_name (text : Str) : '$' ∉ text.takeWhile (isNameChar alphanumeric) := by
  intro member
  have named := List.mem_takeWhile_imp member
  rw [not_isNameChar_dollar] at named
  cases named

/-- The engine puts its text for a dollar sign and a name, and goes on behind the name. -/
theorem rimeExpandVariables_name {rest : Str} (unbraced : rest.head? ≠ some '{')
    (named : rest.takeWhile (isNameChar alphanumeric) ≠ []) :
    rimeExpandVariables env (encode ('$' :: rest)) =
      nameBytes env (rest.takeWhile (isNameChar alphanumeric)) ++
        rimeExpandVariables env (encode (rest.dropWhile (isNameChar alphanumeric))) := by
  have plain := plain_name alphanumeric rest
  have parts : rest.takeWhile (isNameChar alphanumeric) ++
      rest.dropWhile (isNameChar alphanumeric) = rest := List.takeWhile_append_dropWhile
  have first : (rest.takeWhile (isNameChar alphanumeric)).head? = rest.head? := by
    rw [← parts, List.head?_append_of_ne_nil _ named, parts]
  rw [rimeExpandVariables_named env unbraced, nameBytes, first]
  split
  · have rest_plain : '$' ∉ (rest.takeWhile (isNameChar alphanumeric)).dropWhile isAsciiNameChar :=
      fun member => plain ((List.dropWhile_sublist _).mem member)
    rw [dropWhile_ascii alphanumeric, encode_append,
      rimeExpandVariables_copied env (plain_encode rest_plain), takeWhile_ascii alphanumeric,
      List.append_assoc]
  · conv_lhs => rw [← parts, encode_append, rimeExpandVariables_copied env (plain_encode plain)]
    rw [encode_dollar, List.cons_append]
    rfl

theorem rimeExpandVariables_unnamed {rest : Str} (unbraced : rest.head? ≠ some '{')
    (unnamed : rest.takeWhile (isNameChar alphanumeric) = []) :
    rimeExpandVariables env (encode ('$' :: rest)) =
      encode ['$'] ++ rimeExpandVariables env (encode rest) := by
  rw [rimeExpandVariables_named env unbraced, if_neg]
  cases rest with
  | nil => nofun
  | cons char rest =>
      intro start
      have ascii : isAsciiNameChar char = true :=
        isAsciiNameChar_iff.mpr (Or.inl (isAsciiNameStart_iff.mp start))
      rw [List.takeWhile_cons_of_pos (isNameChar_of_ascii alphanumeric ascii)] at unnamed
      cases unnamed

theorem head?_ne_brace {rest : Str} (unbraced : ∀ after, rest = '{' :: after → False) :
    rest.head? ≠ some '{' := by
  intro first
  obtain ⟨after, braced⟩ := List.head?_eq_some_iff.mp first
  exact unbraced after braced

section Equations

variable {env alphanumeric} {rest : Str}

theorem expandVariables_braced {brace : Char} {after : Str}
    (closed : rest.dropWhile (· ≠ '}') = brace :: after) :
    expandVariables alphanumeric env ('$' :: '{' :: rest) =
      variableText env (rest.takeWhile (· ≠ '}'))
        ('$' :: '{' :: rest.takeWhile (· ≠ '}') ++ ['}']) ++
          expandVariables alphanumeric env after := by
  rw [expandVariables]
  split
  next _ left found =>
    obtain ⟨-, rfl⟩ := List.cons.inj (found.symm.trans closed)
    rfl
  next found => exact absurd (found.symm.trans closed) (List.cons_ne_nil _ _).symm

theorem differences_braced {brace : Char} {after : Str}
    (closed : rest.dropWhile (· ≠ '}') = brace :: after) :
    differences env alphanumeric ('$' :: '{' :: rest) =
      (if Usable (env (encode (rest.takeWhile (· ≠ '}')))) then 0 else 1) +
        differences env alphanumeric after := by
  rw [differences]
  split
  next _ left found =>
    obtain ⟨-, rfl⟩ := List.cons.inj (found.symm.trans closed)
    rfl
  next found => exact absurd (found.symm.trans closed) (List.cons_ne_nil _ _).symm

theorem expandVariables_unclosed (unclosed : rest.dropWhile (· ≠ '}') = []) :
    expandVariables alphanumeric env ('$' :: '{' :: rest) =
      '$' :: expandVariables alphanumeric env ('{' :: rest) := by
  rw [expandVariables]
  split
  next found => exact absurd (found.symm.trans unclosed) (List.cons_ne_nil _ _)
  next => rfl

theorem differences_unclosed (unclosed : rest.dropWhile (· ≠ '}') = []) :
    differences env alphanumeric ('$' :: '{' :: rest) =
      differences env alphanumeric ('{' :: rest) := by
  rw [differences]
  split
  next found => exact absurd (found.symm.trans unclosed) (List.cons_ne_nil _ _)
  next => rfl

theorem expandVariables_dollar (unbraced : rest.head? ≠ some '{') :
    expandVariables alphanumeric env ('$' :: rest) =
      if rest.takeWhile (isNameChar alphanumeric) = [] then
        '$' :: expandVariables alphanumeric env rest
      else
        variableText env (rest.takeWhile (isNameChar alphanumeric))
          ('$' :: rest.takeWhile (isNameChar alphanumeric)) ++
            expandVariables alphanumeric env (rest.dropWhile (isNameChar alphanumeric)) := by
  rw [expandVariables]
  rintro after rfl
  exact unbraced rfl

theorem differences_dollar (unbraced : rest.head? ≠ some '{') :
    differences env alphanumeric ('$' :: rest) =
      if rest.takeWhile (isNameChar alphanumeric) = [] then differences env alphanumeric rest
      else
        (if NameAlike env (rest.takeWhile (isNameChar alphanumeric)) then 0 else 1) +
          differences env alphanumeric (rest.dropWhile (isNameChar alphanumeric)) := by
  rw [differences]
  rintro after rfl
  exact unbraced rfl

theorem expandVariables_other {char : Char} (other : char ≠ '$') :
    expandVariables alphanumeric env (char :: rest) =
      char :: expandVariables alphanumeric env rest := by
  rw [expandVariables]
  · exact fun _ dollar => absurd dollar other
  · exact other

theorem expandVariables_plain (plain : '$' ∉ rest) :
    expandVariables alphanumeric env rest = rest := by
  induction rest with
  | nil => rw [expandVariables]
  | cons char rest induction =>
      obtain ⟨other, later⟩ := not_or.mp (List.mem_cons.not.mp plain)
      rw [expandVariables_other (Ne.symm other), induction later]

theorem differences_other {char : Char} (other : char ≠ '$') :
    differences env alphanumeric (char :: rest) = differences env alphanumeric rest := by
  rw [differences]
  · exact fun _ dollar => absurd dollar other
  · exact other

end Equations

theorem spelled_expandVariables (path : Str) :
    Spelled (encode (expandVariables alphanumeric env path)) (rimeExpandVariables env (encode path))
      (differences env alphanumeric path) := by
  induction path using expandVariables.induct alphanumeric with
  | case1 =>
      rw [expandVariables, differences, encode_nil, rimeExpandVariables]
      exact .nil
  | case2 rest brace after closed induction =>
      rw [expandVariables_braced closed, differences_braced closed,
        rimeExpandVariables_braced env closed, encode_append]
      exact induction.piece (variableText_eq_iff env (List.cons_ne_nil _ _))
  | case3 rest unclosed induction =>
      rw [expandVariables_unclosed unclosed, differences_unclosed unclosed,
        rimeExpandVariables_unclosed env unclosed]
      exact .same (encode ['$']) induction
  | case4 rest unbraced unnamed induction =>
      have other := head?_ne_brace unbraced
      rw [expandVariables_dollar other, differences_dollar other, if_pos unnamed, if_pos unnamed,
        rimeExpandVariables_unnamed env alphanumeric other unnamed]
      exact .same (encode ['$']) induction
  | case5 rest unbraced named induction =>
      have other := head?_ne_brace unbraced
      rw [expandVariables_dollar other, differences_dollar other, if_neg named, if_neg named,
        rimeExpandVariables_name env alphanumeric other named, encode_append]
      exact induction.piece (nameAlike_iff env)
  | case6 char rest unbraced other induction =>
      rw [expandVariables_other other, differences_other other, encode_cons, encode_cons,
        rimeExpandVariables_copied env (encodeChar_ne (by decide) other)]
      exact .same _ induction

end Pieces

/-! ## Whole paths -/

/-- The path is in the home directory. -/
def AtHome : Str → Prop
  | '~' :: rest => rest.head? = some '/' ∨ rest = []
  | _ => False

instance (path : Str) : Decidable (AtHome path) := by
  unfold AtHome
  split <;> infer_instance

section Paths

variable (alphanumeric : Alphanumeric) (env : Environment)

/-- The variables of a path which are not read alike, with that of the home directory. -/
def pathDifferences (path : Str) : Nat :=
  (if AtHome path → Usable (env (encode "HOME".toList)) then 0 else 1) +
    differences env alphanumeric path

/-- The list of schemas and the engine take the path for the same one. -/
def ExpandAlike (path : Str) : Prop :=
  encode (expandPath alphanumeric env path) = rimeExpandPath env (encode path)

instance (path : Str) : Decidable (ExpandAlike alphanumeric env path) :=
  inferInstanceAs (Decidable (_ = _))

theorem expandPath_home {rest : Str} (atHome : AtHome ('~' :: rest)) :
    expandPath alphanumeric env ('~' :: rest) =
      variableText env "HOME".toList ['~'] ++ expandVariables alphanumeric env rest := by
  rw [expandPath]
  exact if_pos atHome

theorem expandPath_other {path : Str} (elsewhere : ¬ AtHome path) :
    expandPath alphanumeric env path = expandVariables alphanumeric env path := by
  unfold expandPath
  split
  next rest =>
    rw [expandVariables_other (by decide)]
    exact if_neg elsewhere
  next => rfl

theorem encode_tilde (text : Str) : encode ('~' :: text) = 0x7e :: encode text := rfl

theorem encode_atHome {rest : Str} :
    (encode rest).head? = some 0x2f ∨ encode rest = [] ↔ AtHome ('~' :: rest) := by
  have slash : (encode rest).head? = some 0x2f ↔ rest.head? = some '/' :=
    head?_encode_iff (show '/'.toNat < 0x80 by decide)
  have empty : encode rest = [] ↔ rest = [] :=
    ⟨fun none => encode_injective none, fun none => none ▸ rfl⟩
  rw [slash, empty]
  rfl

theorem rimeExpandPath_home {rest : Str} (atHome : AtHome ('~' :: rest)) :
    rimeExpandPath env (encode ('~' :: rest)) =
      variableBytes env (encode "HOME".toList) (encode ['~']) ++
        rimeExpandVariables env (encode rest) := by
  rw [encode_tilde, rimeExpandPath, if_pos (encode_atHome.mpr atHome), variableBytes]
  cases (env (encode "HOME".toList)).filter (· ≠ []) with
  | some home => rfl
  | none =>
      have tilde : ∀ byte ∈ ([0x7e] : List UInt8), byte ≠ 0x24 :=
        List.forall_mem_singleton.mpr (by decide)
      exact rimeExpandVariables_copied env tilde (encode rest)

theorem rimeExpandPath_other {path : Str} (elsewhere : ¬ AtHome path) :
    rimeExpandPath env (encode path) = rimeExpandVariables env (encode path) := by
  unfold rimeExpandPath
  split
  next bytes same =>
    have tilde : path.head? = some '~' := by
      refine (head?_encode_iff (show '~'.toNat < 0x80 by decide)).mp ?_
      rw [same]
      rfl
    obtain ⟨rest, rfl⟩ := List.head?_eq_some_iff.mp tilde
    obtain rfl : encode rest = bytes := (List.cons.inj same).2
    exact if_neg (encode_atHome.not.mpr elsewhere)
  next => rfl

theorem spelled_expandPath (path : Str) :
    Spelled (encode (expandPath alphanumeric env path)) (rimeExpandPath env (encode path))
      (pathDifferences alphanumeric env path) := by
  rw [pathDifferences]
  by_cases atHome : AtHome path
  · obtain ⟨rest, rfl⟩ : ∃ rest, path = '~' :: rest := by
      unfold AtHome at atHome
      split at atHome
      next rest => exact ⟨rest, rfl⟩
      next => exact atHome.elim
    rw [expandPath_home alphanumeric env atHome, rimeExpandPath_home env atHome, encode_append,
      differences_other (by decide)]
    simp only [atHome, true_implies]
    exact (spelled_expandVariables env alphanumeric rest).piece
      (variableText_eq_iff env (List.cons_ne_nil _ _))
  · rw [expandPath_other alphanumeric env atHome, rimeExpandPath_other env atHome,
      if_pos fun here => absurd here atHome, Nat.zero_add]
    exact spelled_expandVariables env alphanumeric path

/-- A path with a variable which is not read alike ends with a path with just one. -/
theorem exists_single {path : Str} (several : differences env alphanumeric path ≠ 0) :
    ∃ token, token.head? = some '$' ∧ differences env alphanumeric token = 1 := by
  induction path using expandVariables.induct alphanumeric with
  | case1 => exact absurd (by rw [differences]) several
  | case2 rest brace after closed induction =>
      by_cases last : differences env alphanumeric after = 0
      · refine ⟨'$' :: '{' :: rest, rfl, ?_⟩
        rw [differences_braced closed, last, Nat.add_zero] at several ⊢
        exact if_neg fun usable => several (if_pos usable)
      · exact induction last
  | case3 rest unclosed induction =>
      rw [differences_unclosed unclosed] at several
      exact induction several
  | case4 rest unbraced unnamed induction =>
      rw [differences_dollar (head?_ne_brace unbraced), if_pos unnamed] at several
      exact induction several
  | case5 rest unbraced named induction =>
      by_cases last : differences env alphanumeric (rest.dropWhile (isNameChar alphanumeric)) = 0
      · refine ⟨'$' :: rest, rfl, ?_⟩
        rw [differences_dollar (head?_ne_brace unbraced), if_neg named, last,
          Nat.add_zero] at several ⊢
        exact if_neg fun alike => several (if_pos alike)
      · exact induction last
  | case6 char rest unbraced other induction =>
      rw [differences_other other] at several
      exact induction several

/-- The list of schemas takes a path for the same one as the engine does if all its variables are
read alike, and for another one if just one of them is not. -/
theorem expandAlike :
    (∀ path, pathDifferences alphanumeric env path = 0 → ExpandAlike alphanumeric env path) ∧
      (∀ path, pathDifferences alphanumeric env path = 1 → ¬ ExpandAlike alphanumeric env path) ∧
        ((∀ path, ExpandAlike alphanumeric env path) ↔
          ∀ path, pathDifferences alphanumeric env path = 0) := by
  have same : ∀ path, pathDifferences alphanumeric env path = 0 →
      ExpandAlike alphanumeric env path := fun path none =>
    Spelled.eq_of_zero (none ▸ spelled_expandPath alphanumeric env path)
  have different : ∀ path, pathDifferences alphanumeric env path = 1 →
      ¬ ExpandAlike alphanumeric env path := fun path one =>
    Spelled.ne_of_one (one ▸ spelled_expandPath alphanumeric env path)
  refine ⟨same, different, fun alike path => ?_, fun none path => same path (none path)⟩
  by_contra several
  by_cases read_alike : differences env alphanumeric path = 0
  · refine different path ?_ (alike path)
    rw [pathDifferences, read_alike, Nat.add_zero] at several ⊢
    exact if_neg fun usable => several (if_pos usable)
  · obtain ⟨token, dollar, single⟩ := exists_single alphanumeric env read_alike
    have elsewhere : ¬ AtHome token := by
      obtain ⟨rest, rfl⟩ := List.head?_eq_some_iff.mp dollar
      exact not_false
    refine different token ?_ (alike token)
    rw [pathDifferences, single, if_pos fun here => absurd here elsewhere]

end Paths

/-! A home directory which is set to nothing: the list of schemas looks into the root directory. -/

/-- Letters outside of ASCII are left out. -/
def asciiOnly : Alphanumeric where
  holds := Char.isAlphanum
  ascii _ _ := rfl

/-- The home directory is set to nothing, and nothing else is set. -/
def emptyHome : Environment := fun name => if name = encode "HOME".toList then some [] else none

theorem emptyHome_home : emptyHome (encode "HOME".toList) = some [] := if_pos rfl

theorem emptyHome_differs :
    expandPath asciiOnly emptyHome "~/rime".toList = "/rime".toList ∧
      rimeExpandPath emptyHome (encode "~/rime".toList) = encode "~/rime".toList ∧
        ¬ ExpandAlike asciiOnly emptyHome "~/rime".toList := by
  have list : expandPath asciiOnly emptyHome "~/rime".toList = "/rime".toList := by
    rw [show "~/rime".toList = '~' :: "/rime".toList from rfl, expandPath_home _ _ (Or.inl rfl),
      variableText_set _ emptyHome_home, expandVariables_plain (by decide)]
    rfl
  have engine : rimeExpandPath emptyHome (encode "~/rime".toList) = encode "~/rime".toList := by
    rw [show "~/rime".toList = '~' :: "/rime".toList from rfl, rimeExpandPath_home _ (Or.inl rfl),
      variableBytes_set _ emptyHome_home, if_pos rfl,
      ← List.append_nil (encode "/rime".toList),
      rimeExpandVariables_copied _ (plain_encode (by decide)), rimeExpandVariables]
    rfl
  refine ⟨list, engine, ?_⟩
  rw [ExpandAlike, list, engine]
  decide

/-! Two differences may make up for each other: the list of schemas drops the first variable and
finds its text in the second. -/

/-- One variable is set to nothing, and another one to the text which is expanded here. -/
def makingUp : Environment := fun name =>
  if name = encode ['E'] then some []
  else if name = encode ['1'] then some (encode "$E$1".toList)
  else none

theorem makingUp_alike : pathDifferences asciiOnly makingUp "$E$1".toList = 2 ∧
    ExpandAlike asciiOnly makingUp "$E$1".toList := by
  constructor
  · have first : differences makingUp asciiOnly "$E$1".toList =
        (if NameAlike makingUp ['E'] then 0 else 1) + differences makingUp asciiOnly "$1".toList :=
      (differences_dollar (by decide)).trans (if_neg (by decide))
    have second : differences makingUp asciiOnly "$1".toList =
        (if NameAlike makingUp ['1'] then 0 else 1) + differences makingUp asciiOnly [] :=
      (differences_dollar (by decide)).trans (if_neg (by decide))
    rw [pathDifferences, first, second, differences]
    decide
  · have first : expandVariables asciiOnly makingUp "$E$1".toList =
        variableText makingUp ['E'] "$E".toList ++ expandVariables asciiOnly makingUp "$1".toList :=
      (expandVariables_dollar (by decide)).trans (if_neg (by decide))
    have second : expandVariables asciiOnly makingUp "$1".toList =
        variableText makingUp ['1'] "$1".toList ++ expandVariables asciiOnly makingUp [] :=
      (expandVariables_dollar (by decide)).trans (if_neg (by decide))
    have list : expandPath asciiOnly makingUp "$E$1".toList = "$E$1".toList := by
      rw [expandPath_other asciiOnly makingUp (by decide), first, second, expandVariables]
      rfl
    have afterFirst : rimeExpandVariables makingUp (encode "$E$1".toList) =
        nameBytes makingUp ['E'] ++ rimeExpandVariables makingUp (encode "$1".toList) :=
      rimeExpandVariables_name makingUp asciiOnly (by decide) (by decide)
    have afterSecond : rimeExpandVariables makingUp (encode "$1".toList) =
        nameBytes makingUp ['1'] ++ rimeExpandVariables makingUp (encode []) :=
      rimeExpandVariables_name makingUp asciiOnly (by decide) (by decide)
    have engine : rimeExpandPath makingUp (encode "$E$1".toList) = encode "$E$1".toList := by
      rw [rimeExpandPath_other makingUp (by decide), afterFirst, afterSecond, encode_nil,
        rimeExpandVariables]
      rfl
    rw [ExpandAlike, list, engine]

end Engines

end Typio
