import Mathlib.Data.List.InsertIdx
import Typio.Core.EngineRegistry

/-!
# The order of the keyboards

The ordered list of keyboards is the configured order without the names that are not keyboards and
without repetitions, followed by the keyboards it leaves out, in the order of the registry.  In
every run the registry holds a name once, so the list is a permutation of the keyboards.
-/

namespace Typio

namespace Core

/-! ## Lists without repetitions -/

section FirstOccurrences

variable {α : Type*} [BEq α] [LawfulBEq α]

theorem eraseDups_nodup (items : List α) : items.eraseDups.Nodup := by
  induction h : items.length using Nat.strong_induction_on generalizing items with
  | _ length induction =>
      cases items with
      | nil => exact List.nodup_nil
      | cons item items =>
          rw [List.eraseDups_cons, List.nodup_cons]
          refine ⟨by simp, induction _ ?_ _ rfl⟩
          rw [← h, List.length_cons]
          exact Nat.lt_succ_of_le (List.length_filter_le ..)

theorem eraseDups_of_nodup {items : List α} (nodup : items.Nodup) : items.eraseDups = items := by
  induction items with
  | nil => rfl
  | cons item items induction =>
      obtain ⟨fresh, rest⟩ := List.nodup_cons.mp nodup
      have kept : (items.filter fun other => !other == item) = items := by
        rw [List.filter_eq_self]
        intro other member
        simpa using fun same : other = item => fresh (same ▸ member)
      rw [List.eraseDups_cons, kept, induction rest]

end FirstOccurrences

/-- Adding the items one by one, each unless it is there already, adds their first occurrences. -/
theorem foldl_insert_eq {α : Type*} [DecidableEq α] (items start : List α) :
    items.foldl (fun names name => if name ∈ names then names else names ++ [name]) start =
      start ++ (items.removeAll start).eraseDups := by
  induction items generalizing start with
  | nil => simp
  | cons item items induction =>
      rw [List.foldl_cons]
      by_cases there : item ∈ start
      · have skipped : (item :: items).removeAll start = items.removeAll start := by
          simp [List.removeAll, there]
        rw [if_pos there, induction, skipped]
      · have added : (item :: items).removeAll start = item :: items.removeAll start := by
          simp [List.removeAll, there]
        have later : items.removeAll (start ++ [item]) =
            (items.removeAll start).filter fun other => !other == item := by
          simp only [List.removeAll, List.filter_filter]
          refine List.filter_congr fun other _ => ?_
          simp [Bool.and_comm, Bool.beq_eq_decide_eq]
        rw [if_neg there, induction, added, List.eraseDups_cons, later, List.append_assoc]
        rfl

namespace EngineManager

/-! ## The keyboards of the registry -/

/-- The names of the registered keyboards, in the order of their registration. -/
def keyboards (manager : EngineManager) : List String :=
  (manager.entries.filter EngineEntry.isKeyboard).map EngineEntry.name

theorem Integrity.keyboards_nodup {manager : EngineManager} (intact : manager.Integrity) :
    manager.keyboards.Nodup :=
  intact.unique.sublist (List.filter_sublist.map EngineEntry.name)

theorem Integrity.entry_unique {manager : EngineManager} (intact : manager.Integrity)
    {entry other : EngineEntry} (here : entry ∈ manager.entries) (there : other ∈ manager.entries)
    (same : entry.name = other.name) : entry = other :=
  List.inj_on_of_nodup_map intact.unique here there same

theorem Integrity.find_named {manager : EngineManager} (intact : manager.Integrity)
    {entry : EngineEntry} (member : entry ∈ manager.entries) :
    manager.entries.find? (·.name == entry.name) = some entry := by
  cases found : manager.entries.find? (·.name == entry.name) with
  | none => simpa using List.find?_eq_none.mp found entry member
  | some other =>
      have named : other.name = entry.name := by simpa using List.find?_some found
      rw [intact.entry_unique (List.mem_of_find?_eq_some found) member named]

theorem Integrity.nameIsKeyboard_iff {manager : EngineManager} (intact : manager.Integrity)
    (name : String) : manager.nameIsKeyboard name = true ↔ name ∈ manager.keyboards := by
  rw [nameIsKeyboard, Option.any_eq_true, keyboards, List.mem_map]
  constructor
  · rintro ⟨entry, found, keyboard⟩
    have named : entry.name = name := by simpa using List.find?_some found
    exact ⟨entry, List.mem_filter.mpr ⟨List.mem_of_find?_eq_some found, keyboard⟩, named⟩
  · rintro ⟨entry, member, rfl⟩
    obtain ⟨registered, keyboard⟩ := List.mem_filter.mp member
    exact ⟨entry, intact.find_named registered, keyboard⟩

/-! ## The ordered list -/

theorem listOrderedKeyboards_eq {manager : EngineManager} (intact : manager.Integrity)
    (order : List String) :
    manager.listOrderedKeyboards order =
      (order.filter (· ∈ manager.keyboards)).eraseDups ++
        manager.keyboards.filter (· ∉ order) := by
  have listed : order.filter manager.nameIsKeyboard = order.filter (· ∈ manager.keyboards) := by
    refine List.filter_congr fun name _ => ?_
    rw [Bool.eq_iff_iff, intact.nameIsKeyboard_iff, decide_eq_true_iff]
  have unlisted : manager.keyboards.removeAll (order.filter (· ∈ manager.keyboards)) =
      manager.keyboards.filter (· ∉ order) := by
    refine List.filter_congr fun name member => ?_
    simp [member]
  rw [listOrderedKeyboards, foldl_insert_eq, List.nil_append, List.removeAll_nil, listed,
    List.eraseDups_append]
  change _ ++ (manager.keyboards.removeAll _).eraseDups = _
  rw [unlisted, eraseDups_of_nodup (intact.keyboards_nodup.filter _)]

theorem mem_listOrderedKeyboards {manager : EngineManager} (intact : manager.Integrity)
    (order : List String) (name : String) :
    name ∈ manager.listOrderedKeyboards order ↔ name ∈ manager.keyboards := by
  simp only [listOrderedKeyboards_eq intact, List.mem_append, List.mem_eraseDups, List.mem_filter,
    decide_eq_true_iff]
  tauto

theorem listOrderedKeyboards_nodup {manager : EngineManager} (intact : manager.Integrity)
    (order : List String) : (manager.listOrderedKeyboards order).Nodup := by
  rw [listOrderedKeyboards_eq intact]
  refine List.nodup_append.mpr ⟨eraseDups_nodup _, intact.keyboards_nodup.filter _, ?_⟩
  rintro name listed other unlisted rfl
  rw [List.mem_eraseDups, List.mem_filter] at listed
  rw [List.mem_filter, decide_eq_true_iff] at unlisted
  exact unlisted.2 listed.1

theorem listOrderedKeyboards_perm {manager : EngineManager} (intact : manager.Integrity)
    (order : List String) : (manager.listOrderedKeyboards order).Perm manager.keyboards :=
  (List.perm_ext_iff_of_nodup (listOrderedKeyboards_nodup intact order)
    intact.keyboards_nodup).mpr (mem_listOrderedKeyboards intact order)

/-- An operation leaves the registered names alone, takes one out, or puts a new one behind the
others. -/
theorem names_registryStep (manager : EngineManager) (operation : RegistryOperation) :
    (manager.registryStep operation).names = manager.names ∨
      (∃ index, (manager.registryStep operation).names = manager.names.eraseIdx index) ∨
      ∃ name ∉ manager.names, operation.engineName = some name ∧
        (manager.registryStep operation).names = manager.names ++ [name] := by
  have registered (info : Option EngineInfo) : (manager.register info).1.names = manager.names ∨
      ∃ name ∉ manager.names, info.map EngineInfo.name = some name ∧
        (manager.register info).1.names = manager.names ++ [name] := by
    unfold EngineManager.register
    split
    · exact .inl rfl
    next info =>
      split
      · exact .inl rfl
      next fresh =>
        exact .inr ⟨info.name, findEntryIndex_eq_none (Option.not_isSome_iff_eq_none.mp fresh),
          rfl, by simp [names]⟩
  have kept {after : EngineManager} (inPlace : InPlace manager after) :
      after.names = manager.names := inPlace.names
  cases operation with
  | load library =>
      obtain refused | ⟨info, declared, entered⟩ := manager.load_cases library
      · exact .inl (congrArg names refused)
      · obtain same | added := registered (some info)
        · exact .inl ((congrArg names entered).trans same)
        · obtain ⟨name, fresh, named, last⟩ := added
          exact .inr (.inr ⟨name, fresh, declared.trans named, (congrArg names entered).trans last⟩)
  | operation operation =>
      cases operation with
      | register info => exact (registered info).imp_right .inr
      | unload name =>
          change (manager.unload name).1.names = _ ∨ (∃ _, (manager.unload name).1.names = _) ∨ _
          cases found : manager.findEntryIndex name with
          | none => exact .inl (by simp [EngineManager.unload, found])
          | some index =>
              refine .inr (.inl ⟨index, ?_⟩)
              rw [names, unload_entries found]
              exact (List.eraseIdx_map ..).symm
      | setActive name calls => exact .inl (kept (.setActive manager name calls))
      | setActiveVoice name calls => exact .inl (kept (.setActiveVoice manager name calls))
      | getEngine name made => exact .inl (kept (.getEngine manager name made))
      | cycle forward stable order calls =>
          exact .inl (kept (.cycle manager forward stable order calls))
      | notifyCommit => exact .inl (kept (.notifyCommit manager))

/-- After every history of the registry and for every configured order, the list holds each
registered keyboard once: those which the order names, in that order, then the others as they were
registered. -/
theorem listOrderedKeyboards_of_run (recentPrimary recentSecondary : Option String)
    (operations : List RegistryOperation) (order : List String) :
    let manager := Machine.run registryStep (new recentPrimary recentSecondary) operations
    (manager.listOrderedKeyboards order).Nodup ∧
      (manager.listOrderedKeyboards order).Perm manager.keyboards ∧
      manager.listOrderedKeyboards order =
        (order.filter (· ∈ manager.keyboards)).eraseDups ++
          manager.keyboards.filter (· ∉ order) := by
  intro manager
  have intact : manager.Integrity :=
    (Machine.Always.of_preserved Integrity
      (fun _ operation intact => intact.registryStep operation)
      (new_integrity recentPrimary recentSecondary)).final
  exact ⟨listOrderedKeyboards_nodup intact order, listOrderedKeyboards_perm intact order,
    listOrderedKeyboards_eq intact order⟩

end EngineManager

end Core

end Typio
