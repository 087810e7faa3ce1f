import Mathlib.Data.List.Infix
import Mathlib.Data.List.Perm.Basic

/-!
# Nested tables addressed by paths

A table maps keys to values and to further tables, and a path of keys leads to a value.  Setting a
value at a path makes the tables on the way; it fails when there is something at the path already,
or a value on the way.  So a list of values can be set one after the other exactly when no path is
the beginning of another one.
-/

namespace PathTree

variable {κ α : Type*}

inductive Node (κ α : Type*) where
  | leaf (value : α)
  | table (entries : List (κ × Node κ α))

abbrev Table (κ α : Type*) := List (κ × Node κ α)

/-! ## The values of a table -/

mutual

/-- The values below a node, with the paths that lead to them. -/
def Node.leaves : Node κ α → List (List κ × α)
  | .leaf value => [([], value)]
  | .table entries => leaves entries

/-- The values in a table, with their paths. -/
def leaves : Table κ α → List (List κ × α)
  | [] => []
  | (key, node) :: entries =>
      node.leaves.map (fun below => (key :: below.1, below.2)) ++ leaves entries

end

mutual

/-- No key is there twice, and no table below is empty. -/
def Node.Sound : Node κ α → Prop
  | .leaf _ => True
  | .table entries => entries ≠ [] ∧ Sound entries

def Sound : Table κ α → Prop
  | [] => True
  | (key, node) :: entries => key ∉ entries.map Prod.fst ∧ node.Sound ∧ Sound entries

end

/-- One path is the beginning of the other. -/
def Clash (path other : List κ) : Prop := path <+: other ∨ other <+: path

theorem clash_cons_iff {key other : κ} {path rest : List κ} :
    Clash (key :: path) (other :: rest) ↔ key = other ∧ Clash path rest := by
  simp only [Clash, List.cons_prefix_cons]
  constructor
  · rintro (⟨same, shorter⟩ | ⟨same, longer⟩)
    · exact ⟨same, .inl shorter⟩
    · exact ⟨same.symm, .inr longer⟩
  · rintro ⟨same, shorter | longer⟩
    · exact .inl ⟨same, shorter⟩
    · exact .inr ⟨same.symm, longer⟩

theorem Clash.symm {path other : List κ} (clash : Clash path other) : Clash other path :=
  Or.symm clash

/-! ## Setting a value -/

/-- The node that has only this value. -/
def fresh : List κ → α → Node κ α
  | [], value => .leaf value
  | key :: path, value => .table [(key, fresh path value)]

@[simp] theorem leaves_fresh (path : List κ) (value : α) :
    (fresh path value).leaves = [(path, value)] := by
  induction path with
  | nil => rw [fresh, Node.leaves]
  | cons key path induction => simp [fresh, Node.leaves, leaves, induction]

theorem sound_fresh (path : List κ) (value : α) : (fresh path value).Sound := by
  induction path with
  | nil => rw [fresh, Node.Sound]; trivial
  | cons key path induction => simp [fresh, Node.Sound, Sound, induction]

section Insert

variable [DecidableEq κ]

/-- The table with the node at a key changed, or made when there is none. -/
def alter (key : κ) (change : Option (Node κ α) → Option (Node κ α)) :
    Table κ α → Option (Table κ α)
  | [] => (change none).map fun node => [(key, node)]
  | (first, node) :: entries =>
      if first = key then (change (some node)).map fun node => (first, node) :: entries
      else (alter key change entries).map ((first, node) :: ·)

/-- The table with a value set at a path. -/
def insertAt : List κ → α → Table κ α → Option (Table κ α)
  | [], _, _ => none
  | key :: path, value, entries =>
      alter key (fun
        | none => some (fresh path value)
        | some (.table inner) => (insertAt path value inner).map .table
        | some (.leaf _) => none) entries

theorem mem_keys_of_alter {key : κ} {change : Option (Node κ α) → Option (Node κ α)}
    {entries after : Table κ α} (altered : alter key change entries = some after) (other : κ) :
    other ∈ after.map Prod.fst ↔ other = key ∨ other ∈ entries.map Prod.fst := by
  induction entries generalizing after with
  | nil =>
      obtain ⟨node, -, rfl⟩ := Option.map_eq_some_iff.mp altered
      simp
  | cons entry entries induction =>
      obtain ⟨first, node⟩ := entry
      rw [alter] at altered
      split at altered
      next same =>
        obtain ⟨node, -, rfl⟩ := Option.map_eq_some_iff.mp altered
        subst same
        simp
      next differs =>
        obtain ⟨rest, later, rfl⟩ := Option.map_eq_some_iff.mp altered
        simp only [List.map_cons, List.mem_cons, induction later]
        tauto

section Equations

variable (key : κ) (path : List κ) (value : α) (entries : Table κ α)

theorem insertAt_nil : insertAt (key :: path) value [] = some [(key, fresh path value)] := rfl

theorem insertAt_leaf (there : α) :
    insertAt (key :: path) value ((key, .leaf there) :: entries) = none := by
  simp [insertAt, alter]

theorem insertAt_table (inner : Table κ α) :
    insertAt (key :: path) value ((key, .table inner) :: entries) =
      (insertAt path value inner).map fun after => (key, .table after) :: entries := by
  simp [insertAt, alter]
  rfl

theorem insertAt_other {first : κ} (differs : first ≠ key) (node : Node κ α) :
    insertAt (key :: path) value ((first, node) :: entries) =
      (insertAt (key :: path) value entries).map ((first, node) :: ·) := by
  simp [insertAt, alter, differs]

end Equations

theorem mem_keys_of_insertAt {key : κ} {path : List κ} {value : α} {entries after : Table κ α}
    (inserted : insertAt (key :: path) value entries = some after) (other : κ) :
    other ∈ after.map Prod.fst ↔ other = key ∨ other ∈ entries.map Prod.fst :=
  mem_keys_of_alter inserted other

theorem ne_nil_of_insertAt {path : List κ} {value : α} {entries after : Table κ α}
    (inserted : insertAt path value entries = some after) : after ≠ [] := by
  rintro rfl
  cases path with
  | nil => cases inserted
  | cons key path =>
      have there := (mem_keys_of_insertAt inserted key).mpr (.inl rfl)
      cases there

end Insert

theorem leaves_ne_nil {entries : Table κ α} (sound : Sound entries) (some : entries ≠ []) :
    leaves entries ≠ [] := by
  match entries, some with
  | (key, .leaf value) :: entries, _ => simp [leaves, Node.leaves]
  | (key, .table inner) :: entries, _ =>
      rw [Sound, Node.Sound] at sound
      have below := leaves_ne_nil sound.2.1.2 sound.2.1.1
      simp [leaves, Node.leaves, below]

/-- A path in a table begins with a key of the table. -/
theorem head_of_mem_leaves {entries : Table κ α} {path : List κ} {value : α}
    (member : (path, value) ∈ leaves entries) :
    ∃ key below, path = key :: below ∧ key ∈ entries.map Prod.fst := by
  induction entries with
  | nil => simp [leaves] at member
  | cons entry entries induction =>
      obtain ⟨first, node⟩ := entry
      rw [leaves, List.mem_append] at member
      obtain here | later := member
      · obtain ⟨below, -, same⟩ := List.mem_map.mp here
        obtain ⟨rfl, -⟩ := Prod.mk.inj same
        exact ⟨first, below.1, rfl, by simp⟩
      · obtain ⟨key, below, rfl, there⟩ := induction later
        exact ⟨key, below, rfl, List.mem_cons_of_mem _ there⟩

/-- Some path in the table clashes with the path. -/
def Taken (entries : Table κ α) (path : List κ) : Prop :=
  ∃ leaf ∈ leaves entries, Clash leaf.1 path

theorem taken_cons_iff {first key : κ} {path : List κ} {node : Node κ α} {entries : Table κ α} :
    Taken ((first, node) :: entries) (key :: path) ↔
      (first = key ∧ ∃ leaf ∈ node.leaves, Clash leaf.1 path) ∨ Taken entries (key :: path) := by
  simp only [Taken, leaves, List.mem_append, List.mem_map]
  constructor
  · rintro ⟨leaf, ⟨below, member, rfl⟩ | later, clash⟩
    · obtain ⟨same, clash⟩ := clash_cons_iff.mp clash
      exact .inl ⟨same, below, member, clash⟩
    · exact .inr ⟨leaf, later, clash⟩
  · rintro (⟨same, below, member, clash⟩ | ⟨leaf, later, clash⟩)
    · exact ⟨_, .inl ⟨below, member, rfl⟩, clash_cons_iff.mpr ⟨same, clash⟩⟩
    · exact ⟨leaf, .inr later, clash⟩

theorem not_taken_of_absent {key : κ} {path : List κ} {entries : Table κ α}
    (absent : key ∉ entries.map Prod.fst) : ¬ Taken entries (key :: path) := by
  rintro ⟨⟨other, value⟩, member, clash⟩
  obtain ⟨first, below, rfl, there⟩ := head_of_mem_leaves member
  obtain ⟨rfl, -⟩ := clash_cons_iff.mp clash
  exact absent there

/-- What setting a value does. -/
structure Inserted (path : List κ) (value : α) (entries after : Table κ α) : Prop where
  sound : Sound after
  leaves : (leaves after).Perm ((path, value) :: leaves entries)

/-- The paths have a key each, and none is the beginning of another one. -/
def Separate (paths : List (List κ)) : Prop :=
  [] ∉ paths ∧ paths.Pairwise fun path other => ¬ Clash path other

theorem separate_cons_iff {path : List κ} {paths : List (List κ)} :
    Separate (path :: paths) ↔
      path ≠ [] ∧ (∀ other ∈ paths, ¬ Clash path other) ∧ Separate paths := by
  simp only [Separate, List.mem_cons, not_or, List.pairwise_cons, ne_comm]
  tauto

theorem taken_of_inserted_iff {path other : List κ} {value : α} {entries after : Table κ α}
    (inserted : Inserted path value entries after) :
    Taken after other ↔ Clash path other ∨ Taken entries other := by
  simp only [Taken, inserted.leaves.mem_iff, List.mem_cons, or_and_right, exists_or, exists_eq_left]

section Insert

variable [DecidableEq κ]

/-- A value can be set at a path unless a path in the table clashes with it. -/
theorem insertAt_spec (path : List κ) (value : α) {entries : Table κ α} (sound : Sound entries) :
    (insertAt path value entries = none ↔ path = [] ∨ Taken entries path) ∧
      ∀ after, insertAt path value entries = some after → Inserted path value entries after := by
  induction path generalizing entries with
  | nil => simp [insertAt]
  | cons key path induction =>
      simp only [reduceCtorEq, false_or]
      induction entries with
      | nil =>
          refine ⟨by simp [insertAt_nil, Taken, leaves], fun after inserted => ?_⟩
          obtain rfl := Option.some.inj inserted
          exact ⟨by simp [Sound, sound_fresh], by simp [leaves]⟩
      | cons entry entries entries_induction =>
          obtain ⟨first, node⟩ := entry
          rw [Sound] at sound
          obtain ⟨absent, node_sound, rest_sound⟩ := sound
          by_cases same : first = key
          · subst same
            have behind : ¬ Taken entries (first :: path) := not_taken_of_absent absent
            cases node with
            | leaf there =>
                rw [insertAt_leaf, taken_cons_iff]
                simp [Node.leaves, Clash]
            | table inner =>
                rw [Node.Sound] at node_sound
                obtain ⟨none_iff, some_spec⟩ := induction node_sound.2
                rw [insertAt_table, taken_cons_iff, Option.map_eq_none_iff, none_iff, Node.leaves]
                refine ⟨?_, fun after inserted => ?_⟩
                · constructor
                  · rintro (rfl | below)
                    · have some_leaf := leaves_ne_nil node_sound.2 node_sound.1
                      obtain ⟨leaf, member⟩ := List.exists_mem_of_ne_nil _ some_leaf
                      exact .inl ⟨rfl, leaf, member, .inr List.nil_prefix⟩
                    · exact .inl ⟨rfl, below⟩
                  · rintro (⟨-, below⟩ | later)
                    · exact .inr below
                    · exact absurd later behind
                · obtain ⟨table, below, rfl⟩ := Option.map_eq_some_iff.mp inserted
                  have here := some_spec table below
                  refine ⟨?_, ?_⟩
                  · rw [Sound, Node.Sound]
                    exact ⟨absent, ⟨ne_nil_of_insertAt below, here.sound⟩, rest_sound⟩
                  · rw [PathTree.leaves, PathTree.leaves, Node.leaves, Node.leaves]
                    exact (here.leaves.map _).append_right _
          · obtain ⟨none_iff, some_spec⟩ := entries_induction rest_sound
            rw [insertAt_other _ _ _ _ same, taken_cons_iff, Option.map_eq_none_iff, none_iff]
            refine ⟨by simp [same], fun after inserted => ?_⟩
            obtain ⟨rest, later, rfl⟩ := Option.map_eq_some_iff.mp inserted
            have there := some_spec rest later
            refine ⟨?_, ?_⟩
            · rw [Sound, mem_keys_of_insertAt later]
              exact ⟨not_or.mpr ⟨same, absent⟩, node_sound, there.sound⟩
            · rw [PathTree.leaves, PathTree.leaves]
              exact (there.leaves.append_left _).trans List.perm_middle

/-! ## Setting many values -/

/-- The table of the values set one after the other. -/
def insertAll (entries : Table κ α) (pairs : List (List κ × α)) : Option (Table κ α) :=
  pairs.foldlM (fun entries pair => insertAt pair.1 pair.2 entries) entries

/-- The values are set unless their paths clash, with each other or with what is there. -/
theorem insertAll_spec (pairs : List (List κ × α)) {entries : Table κ α} (sound : Sound entries) :
    (insertAll entries pairs = none ↔
      ¬ (Separate (pairs.map Prod.fst) ∧ ∀ pair ∈ pairs, ¬ Taken entries pair.1)) ∧
    ∀ after, insertAll entries pairs = some after →
      (leaves after).Perm (pairs ++ leaves entries) := by
  induction pairs generalizing entries with
  | nil =>
      refine ⟨by simp [insertAll, Separate], fun after inserted => ?_⟩
      obtain rfl := Option.some.inj inserted
      exact .refl _
  | cons pair pairs induction =>
      obtain ⟨path, value⟩ := pair
      obtain ⟨none_iff, some_spec⟩ := insertAt_spec path value sound
      rw [insertAll, List.foldlM_cons]
      simp only [List.map_cons, separate_cons_iff, List.forall_mem_cons]
      cases inserted : insertAt path value entries with
      | none =>
          have blocked := none_iff.mp inserted
          refine ⟨iff_of_true rfl ?_, nofun⟩
          rintro ⟨⟨nonempty, -⟩, free, -⟩
          exact blocked.elim nonempty free
      | some next =>
          have free := not_or.mp (none_iff.not.mp (by rw [inserted]; nofun))
          have here := some_spec next inserted
          obtain ⟨rest_none_iff, rest_spec⟩ := induction here.sound
          rw [Option.bind_eq_bind, Option.bind_some]
          refine ⟨rest_none_iff.trans (not_congr ?_), fun after all => ?_⟩
          · simp only [taken_of_inserted_iff here, not_or, List.forall_mem_map]
            constructor
            · rintro ⟨separate, apart⟩
              exact ⟨⟨free.1, fun pair member => (apart pair member).1, separate⟩, free.2,
                fun pair member => (apart pair member).2⟩
            · rintro ⟨⟨-, apart, separate⟩, -, untaken⟩
              exact ⟨separate, fun pair member => ⟨apart pair member, untaken pair member⟩⟩
          · have moved := here.leaves.append_left pairs
            exact (rest_spec after all).trans (moved.trans List.perm_middle)

/-- A table of values exists exactly if no path is the beginning of another one. -/
theorem insertAll_nil_eq_none_iff {pairs : List (List κ × α)} :
    insertAll [] pairs = none ↔ ¬ Separate (pairs.map Prod.fst) := by
  rw [(insertAll_spec pairs (by rw [Sound]; trivial)).1]
  simp [Taken, leaves]

theorem leaves_insertAll_nil {pairs : List (List κ × α)} {table : Table κ α}
    (inserted : insertAll [] pairs = some table) : (leaves table).Perm pairs := by
  have all := (insertAll_spec pairs (by rw [Sound]; trivial)).2 table inserted
  rwa [leaves, List.append_nil] at all

end Insert

end PathTree
