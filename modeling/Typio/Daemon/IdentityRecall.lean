import Typio.Daemon.IdentityFile
import Typio.Daemon.IdentityRestore

/-!
# What the state file recalls

Every store reads the file, changes the entries of one application and writes the file again, with
the entries in any order.  After any stores the file holds, for each application, the memory which
its own stores make up.
-/

namespace Typio

namespace Daemon

open StrSlice Config

/-! ## The memory of one application -/

namespace IdentityMemory

def empty : IdentityMemory := ⟨none, none, none, none⟩

theorem storeEngine_loadEngine (memory : IdentityMemory) {name : String} (named : name ≠ "") :
    (memory.storeEngine name).loadEngine = some name := by
  rw [storeEngine, if_neg named]
  split <;> simp [loadEngine, Option.filter_some, named]

/-- An engine which is stored keeps a mode of its own only. -/
theorem storeEngine_loadMode (memory : IdentityMemory) {name : String} (named : name ≠ "") :
    (memory.storeEngine name).loadMode = memory.loadMode.filter (·.1 = name) := by
  obtain ⟨engine, legacyEngine, modeEngine, modeId⟩ := memory
  rw [storeEngine, if_neg named]
  cases modeEngine with
  | none => rfl
  | some stored =>
      by_cases empty : stored = ""
      · subst empty
        rfl
      by_cases same : stored = name
      · subst same
        rw [if_neg (by simp)]
        simp only [loadMode, Option.filter_some, empty, ne_eq, not_false_eq_true, decide_true,
          if_true]
        cases modeId.filter (· ≠ "") <;> simp [Option.filter_some]
      · rw [if_pos (by simp [empty, same])]
        simp only [loadMode, Option.filter_some, empty, ne_eq, not_false_eq_true, decide_true,
          if_true]
        cases modeId.filter (· ≠ "") <;> simp [Option.filter_some, same]

end IdentityMemory

/-! ## Stores -/

/-- The name of an engine, or of a mode: without control characters, quotes and backslashes. -/
structure Name where
  text : String
  clean : IsCleanText text.toList

inductive Store where
  | engine (appId : List UInt8) (engineName : Name)
  | mode (appId : List UInt8) (engineName modeId : Name)

namespace Store

def appId : Store → List UInt8
  | .engine appId _ => appId
  | .mode appId _ _ => appId

/-- A store without a name does nothing. -/
def IsKept : Store → Prop
  | .engine _ engineName => engineName.text ≠ ""
  | .mode _ engineName modeId => engineName.text ≠ "" ∧ modeId.text ≠ ""

def remember (memory : IdentityMemory) : Store → IdentityMemory
  | .engine _ engineName => memory.storeEngine engineName.text
  | .mode _ engineName modeId => memory.storeMode engineName.text modeId.text

end Store

/-- The memory which the stores of an application make up. -/
def recalled (stores : List Store) (appId : List UInt8) : IdentityMemory :=
  (stores.filter (·.appId = appId)).foldl Store.remember .empty

theorem recalled_append (stores : List Store) (store : Store) (appId : List UInt8) :
    recalled (stores ++ [store]) appId =
      if store.appId = appId then store.remember (recalled stores appId)
      else recalled stores appId := by
  rw [recalled, List.filter_append, List.foldl_append]
  by_cases same : store.appId = appId <;> simp [same, recalled]

/-- The engine which was stored last for an application. -/
def IsLastEngine (stores : List Store) (appId : List UInt8) (name : String) : Prop :=
  ∃ before engineName after, stores = before ++ .engine appId engineName :: after ∧
    engineName.text = name ∧ name ≠ "" ∧
      ∀ later ∈ after, later.IsKept → ∀ other, later ≠ .engine appId other

/-- The mode which was stored last for an application, of an engine which no engine stored later
differs from. -/
def IsLastMode (stores : List Store) (appId : List UInt8) (engine modeId : String) : Prop :=
  ∃ before engineName mode after, stores = before ++ .mode appId engineName mode :: after ∧
    engineName.text = engine ∧ mode.text = modeId ∧ engine ≠ "" ∧ modeId ≠ "" ∧
      ∀ later ∈ after, later.IsKept → later.appId = appId →
        ∃ name, later = .engine appId name ∧ name.text = engine

/-- Some element is one that is looked for, and none after it takes that back. -/
def LastSuch {α : Type*} (found keeps : α → Prop) (items : List α) : Prop :=
  ∃ before item after, items = before ++ item :: after ∧ found item ∧ ∀ later ∈ after, keeps later

/-- The last element is the one, or it keeps the one before it. -/
theorem lastSuch_append_iff {α : Type*} {found keeps : α → Prop} {items : List α} {last : α} :
    LastSuch found keeps (items ++ [last]) ↔
      found last ∨ LastSuch found keeps items ∧ keeps last := by
  constructor
  · rintro ⟨before, item, after, same, such, kept⟩
    obtain rfl | ⟨rest, end_item, rfl⟩ := List.eq_nil_or_concat' after
    · obtain ⟨-, ends⟩ := List.append_inj' same rfl
      obtain rfl := (List.cons.inj ends).1
      exact .inl such
    · rw [← List.cons_append, ← List.append_assoc] at same
      obtain ⟨parts, ends⟩ := List.append_inj' same rfl
      obtain rfl := (List.cons.inj ends).1
      rw [List.forall_mem_append, List.forall_mem_singleton] at kept
      exact .inr ⟨⟨before, item, rest, parts, such, kept.1⟩, kept.2⟩
  · rintro (such | ⟨⟨before, item, rest, rfl, such, kept⟩, keeps⟩)
    · exact ⟨items, last, [], rfl, such, List.forall_mem_nil _⟩
    · refine ⟨before, item, rest ++ [last], by simp, such, ?_⟩
      rw [List.forall_mem_append, List.forall_mem_singleton]
      exact ⟨kept, keeps⟩

section Last

variable {stores : List Store} {store : Store} {appId : List UInt8} {name engine modeId : String}

theorem isLastEngine_iff : IsLastEngine stores appId name ↔
    LastSuch
      (fun store => ∃ engineName, store = .engine appId engineName ∧ engineName.text = name ∧
        name ≠ "")
      (fun later => later.IsKept → ∀ other, later ≠ .engine appId other) stores := by
  constructor
  · rintro ⟨before, engineName, after, same, text, named, later⟩
    exact ⟨before, _, after, same, ⟨engineName, rfl, text, named⟩, later⟩
  · rintro ⟨before, _, after, same, ⟨engineName, rfl, text, named⟩, later⟩
    exact ⟨before, engineName, after, same, text, named, later⟩

theorem isLastMode_iff : IsLastMode stores appId engine modeId ↔
    LastSuch
      (fun store => ∃ engineName mode, store = .mode appId engineName mode ∧
        engineName.text = engine ∧ mode.text = modeId ∧ engine ≠ "" ∧ modeId ≠ "")
      (fun later => later.IsKept → later.appId = appId →
        ∃ name, later = .engine appId name ∧ name.text = engine) stores := by
  constructor
  · rintro ⟨before, engineName, mode, after, same, text, text', named, named', later⟩
    exact ⟨before, _, after, same, ⟨engineName, mode, rfl, text, text', named, named'⟩, later⟩
  · rintro ⟨before, _, after, same, ⟨engineName, mode, rfl, text, text', named, named'⟩, later⟩
    exact ⟨before, engineName, mode, after, same, text, text', named, named', later⟩

theorem isLastEngine_append_iff : IsLastEngine (stores ++ [store]) appId name ↔
    (∃ engineName, store = .engine appId engineName ∧ engineName.text = name ∧ name ≠ "") ∨
      IsLastEngine stores appId name ∧
        (store.IsKept → ∀ other, store ≠ .engine appId other) := by
  rw [isLastEngine_iff, lastSuch_append_iff, ← isLastEngine_iff]

theorem isLastMode_append_iff : IsLastMode (stores ++ [store]) appId engine modeId ↔
    (∃ engineName mode, store = .mode appId engineName mode ∧ engineName.text = engine ∧
      mode.text = modeId ∧ engine ≠ "" ∧ modeId ≠ "") ∨
      IsLastMode stores appId engine modeId ∧ (store.IsKept → store.appId = appId →
        ∃ name, store = .engine appId name ∧ name.text = engine) := by
  rw [isLastMode_iff, lastSuch_append_iff, ← isLastMode_iff]

end Last

/-- A store which is not kept changes nothing. -/
theorem Store.remember_of_not_kept {store : Store} (unkept : ¬ store.IsKept)
    (memory : IdentityMemory) : store.remember memory = memory := by
  cases store with
  | engine appId engineName =>
      rw [remember, IdentityMemory.storeEngine, if_pos (not_not.mp unkept)]
  | mode appId engineName modeId =>
      rw [remember, IdentityMemory.storeMode, if_pos (by simpa only [IsKept, not_and_or, not_not]
        using unkept)]

theorem loadEngine_recalled_iff (stores : List Store) (appId : List UInt8) (name : String) :
    (recalled stores appId).loadEngine = some name ↔ IsLastEngine stores appId name := by
  induction stores using List.reverseRecOn with
  | nil =>
      refine iff_of_false nofun ?_
      rintro ⟨before, engineName, after, same, -⟩
      simp at same
  | append_singleton stores store ih =>
      rw [recalled_append, isLastEngine_append_iff, ← ih]
      by_cases kept : store.IsKept
      · cases store with
        | engine storeId engineName =>
            by_cases same : storeId = appId
            · subst same
              rw [Store.appId, if_pos rfl, Store.remember,
                IdentityMemory.storeEngine_loadEngine _ kept]
              have named : engineName.text ≠ "" := kept
              constructor
              · rintro ⟨⟩
                exact .inl ⟨engineName, rfl, rfl, named⟩
              · rintro (⟨other, same, rfl, -⟩ | ⟨-, differs⟩)
                · cases same
                  rfl
                · exact absurd rfl (differs kept engineName)
            · rw [Store.appId, if_neg same]
              simp [same]
        | mode storeId engineName modeId =>
            have loads : (if storeId = appId then
                Store.remember (recalled stores appId) (.mode storeId engineName modeId)
                else recalled stores appId).loadEngine = (recalled stores appId).loadEngine := by
              split
              · exact IdentityMemory.storeMode_loadEngine _ _ _
              · rfl
            rw [Store.appId, loads]
            simp
      · rw [Store.remember_of_not_kept kept, ite_self]
        constructor
        · exact fun loads => .inr ⟨loads, fun there => absurd there kept⟩
        · rintro (⟨engineName, rfl, rfl, named⟩ | ⟨loads, -⟩)
          · exact absurd named kept
          · exact loads

theorem loadMode_recalled_iff (stores : List Store) (appId : List UInt8) (engine modeId : String) :
    (recalled stores appId).loadMode = some (engine, modeId) ↔
      IsLastMode stores appId engine modeId := by
  induction stores using List.reverseRecOn with
  | nil =>
      refine iff_of_false nofun ?_
      rintro ⟨before, engineName, mode, after, same, -⟩
      simp at same
  | append_singleton stores store ih =>
      rw [recalled_append, isLastMode_append_iff, ← ih]
      by_cases kept : store.IsKept
      · by_cases same : store.appId = appId
        · rw [if_pos same]
          cases store with
          | engine storeId engineName =>
              obtain rfl : storeId = appId := same
              rw [Store.remember, IdentityMemory.storeEngine_loadMode _ kept,
                Option.filter_eq_some_iff]
              simp [kept, eq_comm, Store.appId]
          | mode storeId engineName mode =>
              obtain rfl : storeId = appId := same
              rw [Store.remember, IdentityMemory.storeMode_loadMode _ kept.1 kept.2]
              constructor
              · rintro ⟨⟩
                exact .inl ⟨engineName, mode, rfl, rfl, rfl, kept.1, kept.2⟩
              · rintro (⟨other, other', same, rfl, rfl, -⟩ | ⟨-, later⟩)
                · cases same
                  rfl
                · obtain ⟨name, differs, -⟩ := later kept rfl
                  cases differs
        · rw [if_neg same]
          constructor
          · exact fun loads => .inr ⟨loads, fun _ there => absurd there same⟩
          · rintro (⟨engineName, mode, rfl, -⟩ | ⟨loads, -⟩)
            · exact absurd rfl same
            · exact loads
      · rw [Store.remember_of_not_kept kept, ite_self]
        constructor
        · exact fun loads => .inr ⟨loads, fun there => absurd there kept⟩
        · rintro (⟨engineName, mode, rfl, rfl, rfl, named⟩ | ⟨loads, -⟩)
          · exact absurd named kept
          · exact loads

/-! ## The file after any stores -/

section File

variable {Float : Type} (toml : Str → Option (TomlValue Float)) (parseF64 : Str → Option Float)
  (floatText : Float → Str)

/-- The configuration which a store saves. -/
def Store.saves (file : Option Str) : Store → Except Panic (Option (Entries Float))
  | .engine appId engineName =>
      memoryStoreEngine toml parseF64 file (stableKeyOf appId) (cString engineName.text)
  | .mode appId engineName modeId =>
      memoryStoreMode toml parseF64 file (stableKeyOf appId) (cString engineName.text)
        (cString modeId.text)

/-- The file after some stores; there is none at first.  The entries are written in the order in
which the hash map yields them, and what is written is read by the `toml` crate as TOML says. -/
inductive Stored : List Store → Option Str → Prop
  | absent : Stored [] none
  | unsaved {stores : List Store} {file : Option Str} {store : Store} :
      Stored stores file → store.saves toml parseF64 file = .ok none →
      Stored (stores ++ [store]) file
  | saved {stores : List Store} {file : Option Str} {store : Store}
      {entries order : Entries Float} :
      Stored stores file → store.saves toml parseF64 file = .ok (some entries) →
      order.Perm entries → ReadsToml toml (document floatText order) →
      Stored (stores ++ [store]) (some (configToStringInternal floatText order))

/-- What is loaded from a file: clean strings under dotted keys, which are the memory of each
application. -/
structure Remembers (config : Entries Float) (stores : List Store) : Prop where
  plain : Plain config
  clean : AllClean config
  memory : ∀ appId, memoryOf config appId = recalled stores appId

variable {toml parseF64 floatText} {stores : List Store} {file : Option Str}

theorem remembers_nil : Remembers ([] : Entries Float) [] where
  plain := ⟨List.nodup_nil, List.forall_mem_nil _, List.forall_mem_nil _⟩
  clean := List.forall_mem_nil _
  memory _ := rfl

theorem Remembers.perm {config other : Entries Float} (holds : Remembers config stores)
    (same : config.Perm other) : Remembers other stores where
  plain := holds.plain.of_perm same
  clean entry member := holds.clean entry (same.mem_iff.mpr member)
  memory appId := (memoryOf_perm same holds.plain.distinct appId).symm.trans (holds.memory appId)

theorem Name.plain (name : Name) :
    IsPlain (.string (cString name.text) : ConfigValue Float) := .string name.clean.terminated

theorem Remembers.withEngine {config : Entries Float} (holds : Remembers config stores)
    (appId : List UInt8) (engineName : Name) (named : engineName.text ≠ "") :
    Remembers (withEngine config appId engineName.text) (stores ++ [.engine appId engineName]) where
  plain := by
    have changed := (holds.plain.insert (fieldKey_dotted appId .engine) engineName.plain).insert
      (fieldKey_dotted appId .legacy) engineName.plain
    rw [Daemon.withEngine]
    split
    · exact (changed.remove _).remove _
    · exact changed
  clean := by
    have changed := (holds.clean.insert (fieldKey appId .engine) engineName.clean).insert
      (fieldKey appId .legacy) engineName.clean
    rw [Daemon.withEngine]
    split
    · exact (changed.remove _).remove _
    · exact changed
  memory other := by
    rw [memoryOf_withEngine config appId other named, recalled_append, holds.memory other]
    rfl

theorem Remembers.withMode {config : Entries Float} (holds : Remembers config stores)
    (appId : List UInt8) (engineName modeId : Name)
    (named : ¬ (engineName.text = "" ∨ modeId.text = "")) :
    Remembers (withMode config appId engineName.text modeId.text)
      (stores ++ [.mode appId engineName modeId]) where
  plain := (holds.plain.insert (fieldKey_dotted appId .modeEngine) engineName.plain).insert
    (fieldKey_dotted appId .modeId) modeId.plain
  clean := (holds.clean.insert (fieldKey appId .modeEngine) engineName.clean).insert
    (fieldKey appId .modeId) modeId.clean
  memory other := by
    rw [memoryOf_withMode config appId other named, recalled_append, holds.memory other]
    rfl

/-- What a store saves holds the memory with the store. -/
theorem Store.saves_holds {loaded : Option (Entries Float)}
    (read : loadFile toml parseF64 file = .ok loaded) (holds : Remembers (loaded.getD []) stores)
    (store : Store) :
    (store.saves toml parseF64 file = .ok none ∧ ¬ store.IsKept) ∨
      ∃ entries, store.saves toml parseF64 file = .ok (some entries) ∧
        Remembers entries (stores ++ [store]) := by
  cases store with
  | engine appId engineName =>
      by_cases named : engineName.text = ""
      · refine .inl ⟨?_, fun kept => kept named⟩
        rw [saves, memoryStoreEngine, if_pos (cString_eq_empty.mpr named)]
      · refine .inr ⟨_, ?_, holds.withEngine appId engineName named⟩
        rw [saves, memoryStoreEngine, if_neg (cString_eq_empty.not.mpr named),
          identityConfigSubkey_eq appId (by decide), identityConfigKey_eq,
          identityConfigSubkey_eq appId (by decide), identityConfigSubkey_eq appId (by decide)]
        have differs : ((nonEmpty (getString (loaded.getD []) (fieldKey appId .modeEngine) none)).any
            (· ≠ cString engineName.text)) =
              (memoryOf (loaded.getD []) appId).modeEngine.any fun engine =>
                engine ≠ "" ∧ engine ≠ engineName.text := by
          rw [getString_clean holds.clean, nonEmpty_cString, memoryOf]
          cases textOf (loaded.getD []) (fieldKey appId .modeEngine) with
          | none => rfl
          | some stored =>
              by_cases empty : stored = "" <;> simp [Option.filter_some, empty, cString_inj]
        simp only [bind, Except.bind, read, differs]
        rfl
  | mode appId engineName modeId =>
      by_cases named : engineName.text = "" ∨ modeId.text = ""
      · refine .inl ⟨?_, fun kept => named.elim kept.1 kept.2⟩
        rw [saves, memoryStoreMode, if_pos (by simpa only [cString_eq_empty] using named)]
      · refine .inr ⟨_, ?_, holds.withMode appId engineName modeId named⟩
        rw [saves, memoryStoreMode, if_neg (by simpa only [cString_eq_empty] using named),
          identityConfigSubkey_eq appId (by decide), identityConfigSubkey_eq appId (by decide)]
        simp only [bind, Except.bind, read]
        rfl

theorem recalled_unkept {store : Store} (unkept : ¬ store.IsKept) (appId : List UInt8) :
    recalled (stores ++ [store]) appId = recalled stores appId := by
  rw [recalled_append, Store.remember_of_not_kept unkept, ite_self]

/-- Whatever was stored, the file is loaded, and it holds the memory. -/
theorem Stored.holds (stored : Stored toml parseF64 floatText stores file) :
    ∃ loaded, loadFile toml parseF64 file = .ok loaded ∧ Remembers (loaded.getD []) stores := by
  induction stored with
  | absent => exact ⟨none, rfl, remembers_nil⟩
  | @unsaved stores file store _ saves ih =>
      obtain ⟨loaded, read, holds⟩ := ih
      refine ⟨loaded, read, holds.plain, holds.clean, fun appId => ?_⟩
      obtain ⟨-, unkept⟩ | ⟨entries, saved, -⟩ := store.saves_holds read holds
      · rw [recalled_unkept unkept, holds.memory]
      · rw [saves] at saved
        cases saved
  | @saved stores file store entries order _ saves same reads ih =>
      obtain ⟨loaded, read, holds⟩ := ih
      obtain ⟨nothing, -⟩ | ⟨entries', saved, after⟩ := store.saves_holds read holds
      · rw [saves] at nothing
        cases nothing
      · obtain rfl := Option.some.inj (Except.ok.inj (saves.symm.trans saved))
        have written := after.perm same.symm
        obtain ⟨loaded', read', back⟩ :=
          @loadFile_saved _ toml parseF64 floatText order written.plain written.clean reads
        exact ⟨some loaded', read', written.perm back.symm⟩

theorem Stored.loadEngine (stored : Stored toml parseF64 floatText stores file)
    (appId : List UInt8) : memoryLoadEngine toml parseF64 file (stableKeyOf appId) =
      .ok ((recalled stores appId).loadEngine.map cString) := by
  obtain ⟨loaded, read, holds⟩ := stored.holds
  rw [memoryLoadEngine, identityConfigSubkey_eq appId (by decide), identityConfigKey_eq]
  simp only [bind, Except.bind, read]
  rw [← holds.memory appId]
  cases loaded with
  | none => rfl
  | some config =>
      have clean : AllClean config := holds.clean
      change Except.ok ((nonEmpty (getString config (fieldKey appId .engine) none)).or
        (nonEmpty (getString config (fieldKey appId .legacy) none))) = _
      rw [getString_clean clean, getString_clean clean, nonEmpty_cString, nonEmpty_cString,
        IdentityMemory.loadEngine, ← Option.map_or]
      rfl

theorem Stored.loadMode (stored : Stored toml parseF64 floatText stores file)
    (appId : List UInt8) : memoryLoadMode toml parseF64 file (stableKeyOf appId) =
      .ok ((recalled stores appId).loadMode.map fun mode => (cString mode.1, cString mode.2)) := by
  obtain ⟨loaded, read, holds⟩ := stored.holds
  rw [memoryLoadMode, identityConfigSubkey_eq appId (by decide),
    identityConfigSubkey_eq appId (by decide)]
  simp only [bind, Except.bind, read]
  rw [← holds.memory appId]
  cases loaded with
  | none => rfl
  | some config =>
      have clean : AllClean config := holds.clean
      simp only [Option.bind_some, Option.getD_some, getString_clean clean, nonEmpty_cString,
        IdentityMemory.loadMode, memoryOf]
      cases (textOf config (fieldKey appId .modeEngine)).filter (· ≠ "") with
      | none => rfl
      | some engine => cases (textOf config (fieldKey appId .modeId)).filter (· ≠ "") <;> rfl

/-- After any stores each application has the engine and the mode which were stored last for it, and
what is stored for other applications makes no difference. -/
theorem Stored.recalls (stored : Stored toml parseF64 floatText stores file)
    (appId : List UInt8) :
    (∃ engine : Option String,
      memoryLoadEngine toml parseF64 file (stableKeyOf appId) = .ok (engine.map cString) ∧
        ∀ name, engine = some name ↔ IsLastEngine stores appId name) ∧
    (∃ mode : Option (String × String),
      memoryLoadMode toml parseF64 file (stableKeyOf appId) =
        .ok (mode.map fun mode => (cString mode.1, cString mode.2)) ∧
        ∀ engine modeId, mode = some (engine, modeId) ↔ IsLastMode stores appId engine modeId) ∧
    ∀ others file', Stored toml parseF64 floatText others file' →
      others.filter (·.appId = appId) = stores.filter (·.appId = appId) →
        memoryLoadEngine toml parseF64 file' (stableKeyOf appId) =
          memoryLoadEngine toml parseF64 file (stableKeyOf appId) ∧
        memoryLoadMode toml parseF64 file' (stableKeyOf appId) =
          memoryLoadMode toml parseF64 file (stableKeyOf appId) := by
  refine ⟨⟨_, stored.loadEngine appId, loadEngine_recalled_iff stores appId⟩,
    ⟨_, stored.loadMode appId, loadMode_recalled_iff stores appId⟩, ?_⟩
  intro others file' stored' own
  have same : recalled others appId = recalled stores appId := by rw [recalled, own, recalled]
  rw [stored'.loadEngine, stored.loadEngine, stored'.loadMode, stored.loadMode, same]
  exact ⟨rfl, rfl⟩

/-! ## Files which are not TOML -/

theorem mem_of_textOf {config : Entries Float} {key : Str} {text : String}
    (found : textOf config key = some text) : ∃ entry ∈ config, entry.1 = key := by
  cases there : get config key with
  | none => simp [textOf, getString, there] at found
  | some value =>
      obtain ⟨entry, here, -⟩ := Option.map_eq_some_iff.mp there
      exact ⟨entry, List.mem_of_find?_eq_some here, by simpa using List.find?_some here⟩

/-- Once an engine is stored, a key of the file lies below another one. -/
theorem Remembers.not_apart {config : Entries Float} (remembers : Remembers config stores)
    {appId : List UInt8} {name legacy : String} (engine : (recalled stores appId).engine = some name)
    (legacyEngine : (recalled stores appId).legacyEngine = some legacy) : ¬ KeysApart config := by
  rw [← remembers.memory appId] at engine legacyEngine
  obtain ⟨entry, member, key⟩ := mem_of_textOf engine
  obtain ⟨above, member', key'⟩ := mem_of_textOf legacyEngine
  intro apart
  refine apart above member' entry member ?_
  rw [key, key']
  exact ⟨['e', 'n', 'g', 'i', 'n', 'e'], by simp [fieldKey, Field.suffix]⟩

end File

/-- Another store, when an engine is stored by then. -/
theorem Stored.extend {stores : List Store} {file : Option Str} {store : Store}
    (stored : Stored noToml noF64 noFloat stores file) {appId : List UInt8} {name legacy : String}
    (engine : (recalled (stores ++ [store]) appId).engine = some name)
    (legacyEngine : (recalled (stores ++ [store]) appId).legacyEngine = some legacy) :
    ∃ file', Stored noToml noF64 noFloat (stores ++ [store]) file' := by
  obtain ⟨loaded, read, remembers⟩ := stored.holds
  obtain ⟨nothing, -⟩ | ⟨entries, saved, after⟩ := store.saves_holds read remembers
  · exact ⟨file, stored.unsaved nothing⟩
  · have apart := after.not_apart engine legacyEngine
    refine ⟨_, stored.saved saved (.refl _) ⟨fun _ _ => rfl, fun _ table defined => ?_⟩⟩
    rw [document_rejected after.plain fun accepted => apart accepted.1] at defined
    cases defined

def rime : Name := ⟨"rime", by decide +kernel⟩

def mozc : Name := ⟨"mozc", by decide +kernel⟩

def halfWidth : Name := ⟨"ascii", by decide +kernel⟩

/-- A terminal whose engine and mode are stored, and then a browser's. -/
theorem terminal_and_browser :
    let terminal := JsonText.ascii "foot"
    let browser := JsonText.ascii "firefox"
    ∃ file, Stored noToml noF64 noFloat [.engine terminal rime, .mode terminal rime halfWidth,
        .engine browser mozc] file ∧
      memoryLoadEngine noToml noF64 file (stableKeyOf terminal) = .ok (some (cString "rime")) ∧
      memoryLoadMode noToml noF64 file (stableKeyOf terminal) =
        .ok (some (cString "rime", cString "ascii")) := by
  intro terminal browser
  have start : Stored noToml noF64 noFloat [] none := .absent
  obtain ⟨first, stored⟩ := @Stored.extend _ _ (.engine terminal rime) start terminal _ _ rfl rfl
  obtain ⟨second, stored⟩ :=
    @Stored.extend _ _ (.mode terminal rime halfWidth) stored terminal _ _ rfl rfl
  obtain ⟨file, stored⟩ := @Stored.extend _ _ (.engine browser mozc) stored terminal _ _ rfl rfl
  have apart : browser ≠ terminal := by decide +kernel
  obtain ⟨⟨engine, loads, last⟩, ⟨mode, loads', lastMode⟩, -⟩ := stored.recalls terminal
  have isRime : engine = some "rime" := by
    refine (last "rime").mpr ⟨[], rime, [.mode terminal rime halfWidth, .engine browser mozc], rfl,
      rfl, by decide, ?_⟩
    simp [apart]
  have isAscii : mode = some ("rime", "ascii") := by
    refine (lastMode "rime" "ascii").mpr ⟨[.engine terminal rime], rime, halfWidth,
      [.engine browser mozc], rfl, rfl, rfl, by decide, by decide, ?_⟩
    simp [Store.appId, apart]
  rw [isRime] at loads
  rw [isAscii] at loads'
  exact ⟨file, stored, loads, loads'⟩

end Daemon

end Typio
