import Typio.Config.IniValues
import Typio.Config.TomlReading

/-!
# Writing a configuration and loading it again

A configuration made by the setters is written and read back as it was, unless its text is not TOML
and is taken for an INI file.  That happens when a key lies below another one, or when a string has
a control character, for which there is no escape.
-/

namespace Typio

namespace Config

open StrSlice

variable {Float : Type}

/-- The text of the configuration is loaded with the same keys and values. -/
def RoundTrips (toml : Str → Option (TomlValue Float)) (parseF64 : Str → Option Float)
    (floatText : Float → Str) (order entries : Entries Float) : Prop :=
  ∃ text loaded, configToString floatText order = some text ∧
    loadString toml parseF64 (some text) = .ok (some loaded) ∧
      ∀ key, get loaded key = get entries key

/-- The configuration is kept by a TOML file: no key lies below another one, and the strings are
UTF-8 without control characters other than the tab, the line feed and the carriage return. -/
def KeptByToml (entries : Entries Float) : Prop :=
  KeysApart entries ∧
    ∀ entry ∈ entries, ∀ text ∈ stringsOf entry.2, text.IsUtf8 ∧ text.TomlSafe

/-- The configuration is kept by an INI file: no character of a string is escaped, and every array
has an item and no commas inside of items. -/
def KeptByIni (entries : Entries Float) : Prop := ∀ entry ∈ entries, IniSafe entry.2

section Written

variable {toml : Str → Option (TomlValue Float)} {parseF64 : Str → Option Float}
  {floatText : Float → Str} {order entries : Entries Float}

theorem configToString_plain (plain : Plain order) :
    configToString floatText order = some (configToStringInternal floatText order) :=
  if_neg (terminated_configToString floatText plain)

theorem roundTrips_plain_iff (plain : Plain order) :
    RoundTrips toml parseF64 floatText order entries ↔
      ∃ loaded, loadString toml parseF64 (some (configToStringInternal floatText order)) =
        .ok (some loaded) ∧ ∀ key, get loaded key = get entries key := by
  rw [RoundTrips, configToString_plain plain]
  simp only [Option.some.injEq, exists_and_left, exists_eq_left']

/-- A text which is TOML keeps the strings which are UTF-8. -/
theorem roundTrips_toml_iff (plain : Plain order) (same : order.Perm entries)
    (reads : ReadsToml toml (document floatText order)) (apart : KeysApart order)
    (safe : TomlSafe order) :
    RoundTrips toml parseF64 floatText order entries ↔
      ∀ entry ∈ order, ∀ text ∈ stringsOf entry.2, text.IsUtf8 := by
  obtain ⟨parsed, read, loaded⟩ := toml_accepts plain reads apart safe
  rw [roundTrips_plain_iff plain, loadString, read]
  simp only [Except.ok.injEq, Option.some.injEq, exists_eq_left', loaded,
    ← get_of_perm same plain.distinct]
  constructor
  · intro kept entry member
    have found := (get_eq_some_iff plain.distinct).mpr member
    have here := kept entry.1
    rw [found] at here
    exact (reread_eq_iff (plain.values entry member)).mp (Option.some.inj here)
  · intro utf8 key
    cases found : get order key with
    | none => rfl
    | some value =>
        have member := (get_eq_some_iff plain.distinct).mp found
        rw [Option.map_some, (reread_eq_iff (plain.values _ member)).mpr (utf8 _ member)]

/-- A text which is not TOML keeps what an INI file keeps. -/
theorem roundTrips_ini_iff (plain : Plain order) (same : order.Perm entries)
    (rejected : toml (configToStringInternal floatText order) = none) :
    RoundTrips toml parseF64 floatText order entries ↔ KeptByIni order := by
  have written := arrange_entries order
  have arranged := plain.of_perm written.symm
  have values := readEntries_iff floatText parseF64 arranged.distinct
  rw [roundTrips_plain_iff plain, loadString, rejected, parseIniLike_configToString _ _ plain,
    KeptByIni]
  simp only [← get_of_perm (written.trans same) arranged.distinct]
  calc
    _ ↔ ∃ loaded, readEntries floatText parseF64 [] (arrange order).entries = .ok loaded ∧
          ∀ key, get loaded key = get (arrange order).entries key := by
      cases readEntries floatText parseF64 [] (arrange order).entries with
      | error panic =>
          refine iff_of_false ?_ ?_
          · rintro ⟨loaded, read, -⟩
            cases read
          · rintro ⟨loaded, read, -⟩
            cases read
      | ok loaded => simp
    _ ↔ ∀ entry ∈ (arrange order).entries, IniSafe entry.2 :=
      values.trans (forall₂_congr fun entry member =>
        parseIniValue_iff parseF64 floatText (arranged.values entry member))
    _ ↔ _ := by simp only [written.mem_iff]

end Written

/-- A configuration made by the setters is loaded as it was written exactly if a TOML file or an INI
file keeps it. -/
theorem roundTrips_iff (toml : Str → Option (TomlValue Float)) (parseF64 : Str → Option Float)
    (floatText : Float → Str) {calls : List SetCall}
    (wellFormed : ∀ call ∈ calls, call.WellFormed) {order : Entries Float}
    (iterated : order.Perm (SetCall.run calls))
    (reads : ReadsToml toml (document floatText order)) :
    RoundTrips toml parseF64 floatText order (SetCall.run calls) ↔
      KeptByToml (SetCall.run calls : Entries Float) ∨
        KeptByIni (SetCall.run calls : Entries Float) := by
  have plain := (plain_run wellFormed).of_perm iterated.symm
  have toml_iff : KeptByToml (SetCall.run calls : Entries Float) ↔ KeptByToml order := by
    simp only [KeptByToml, KeysApart, iterated.mem_iff]
  have ini_iff : KeptByIni (SetCall.run calls : Entries Float) ↔ KeptByIni order := by
    simp only [KeptByIni, iterated.mem_iff]
  rw [toml_iff, ini_iff]
  by_cases accepted : KeysApart order ∧ TomlSafe order
  · obtain ⟨apart, safe⟩ := accepted
    rw [roundTrips_toml_iff plain iterated reads apart safe]
    constructor
    · exact fun utf8 => .inl ⟨apart, fun entry member text there =>
        ⟨utf8 entry member text there, safe entry member text there⟩⟩
    · rintro (⟨-, kept⟩ | kept) entry member text there
      · exact (kept entry member text there).1
      · exact (kept entry member).isUtf8 there
  · rw [roundTrips_ini_iff plain iterated (toml_rejects plain reads accepted)]
    refine (or_iff_right ?_).symm
    rintro ⟨apart, kept⟩
    exact accepted ⟨apart, fun entry member text there => (kept entry member text there).2⟩

/-! ## Two configurations -/

/-- A string with an escape character and a quote. -/
def escapeAndQuote : List SetCall := [.setString ['a'] (some (.utf8 ['\x1b', '"']))]

/-- A section with a quoted word, and a number. -/
def labelAndVolume : List SetCall :=
  [.setString "ui.label".toList (some (.utf8 "say \"hi\"".toList)), .setInt "volume".toList 3]

theorem wellFormed_escapeAndQuote : ∀ call ∈ escapeAndQuote, call.WellFormed := by
  rw [escapeAndQuote, List.forall_mem_singleton]
  refine ⟨by decide, ?_⟩
  rw [SetCall.strings, List.forall_mem_singleton]
  exact (by decide : '\x00' ∉ ['\x1b', '"'])

theorem wellFormed_labelAndVolume : ∀ call ∈ labelAndVolume, call.WellFormed := by
  rw [labelAndVolume, List.forall_mem_cons, List.forall_mem_singleton]
  refine ⟨⟨by decide, ?_⟩, ⟨by decide, List.forall_mem_nil _⟩⟩
  rw [SetCall.strings, List.forall_mem_singleton]
  exact (by decide : '\x00' ∉ "say \"hi\"".toList)

section Examples

def noFloat (_ : Unit) : Str := []

def noF64 (_ : Str) : Option Unit := none

def noToml (_ : Str) : Option (TomlValue Unit) := none

/-- The tables which are read for the label and the volume. -/
def labelTables : List (Str × TomlValue Unit) :=
  [("volume".toList, .integer 3),
    ("ui".toList, .table [("label".toList, .string "say \"hi\"".toList)])]

def labelToml (_ : Str) : Option (TomlValue Unit) := some (.table labelTables)

theorem tomlLeaves_labelTables :
    tomlLeaves labelTables = (SetCall.run labelAndVolume).map tomlEntry := by
  have written : (SetCall.run labelAndVolume : Entries Unit).map tomlEntry =
      [(["volume".toList], .integer 3),
        (["ui".toList, "label".toList], .string "say \"hi\"".toList)] := rfl
  rw [written, labelTables]
  simp [tomlLeaves]

/-- A quoted word in a section comes back. -/
theorem labelAndVolume_roundTrips :
    RoundTrips labelToml noF64 noFloat (SetCall.run labelAndVolume)
      (SetCall.run labelAndVolume) := by
  have plain : Plain (SetCall.run labelAndVolume : Entries Unit) :=
    plain_run wellFormed_labelAndVolume
  have apart : KeysApart (SetCall.run labelAndVolume : Entries Unit) := by decide
  have safe : TomlSafe (SetCall.run labelAndVolume : Entries Unit) := by decide
  have reads : ReadsToml labelToml (document noFloat (SetCall.run labelAndVolume)) :=
    readsToml_of_leaves plain apart safe rfl (.of_eq tomlLeaves_labelTables)
  refine (roundTrips_iff labelToml noF64 noFloat wellFormed_labelAndVolume (.refl _) reads).mpr
    (.inl ⟨apart, fun entry member text there => ⟨?_, safe entry member text there⟩⟩)
  have utf8 : ∀ entry ∈ (SetCall.run labelAndVolume : Entries Unit),
      ∀ text ∈ stringsOf entry.2, text.IsUtf8 := by decide
  exact utf8 entry member text there

/-- An escape character makes the text an INI file, where the backslash before the quote stays. -/
theorem escapeAndQuote_lost :
    (∀ call ∈ escapeAndQuote, call.WellFormed) ∧
      ReadsToml noToml (document noFloat (SetCall.run escapeAndQuote)) ∧
        ¬ RoundTrips noToml noF64 noFloat (SetCall.run escapeAndQuote)
          (SetCall.run escapeAndQuote) := by
  have plain : Plain (SetCall.run escapeAndQuote : Entries Unit) :=
    plain_run wellFormed_escapeAndQuote
  have control : ¬ TomlSafe (SetCall.run escapeAndQuote : Entries Unit) := by decide
  refine ⟨wellFormed_escapeAndQuote, ⟨fun _ _ => rfl, fun _ table defined => ?_⟩, fun kept => ?_⟩
  · rw [document_rejected plain fun accepted => control accepted.2] at defined
    cases defined
  · have ini := (roundTrips_ini_iff plain (.refl _) rfl).mp kept
    have safe := ini _ List.mem_cons_self
    exact safe.2 '"' (by decide) (by decide)

end Examples

end Config

end Typio
