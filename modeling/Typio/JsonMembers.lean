import Mathlib.Data.List.Nodup
import Typio.JsonCompact

/-!
# The members of an object

A member of an object has a place in its text: what stands before its name, and what follows its
value.  When the names are distinct, the member of a name is the one the object's value has under
that name.
-/

namespace JsonText

/-- A member with the text around it. -/
structure Member where
  before : List UInt8
  key : List Piece
  beforeColon : List Space
  afterColon : List Space
  value : JsonText
  after : List UInt8

namespace Member

/-- What follows the name. -/
def onward (member : Member) : List UInt8 :=
  renderSpaces member.beforeColon ++ colon :: (renderSpaces member.afterColon ++
    (member.value.render ++ member.after))

def render (member : Member) : List UInt8 :=
  member.before ++ (renderString member.key ++ member.onward)

/-- White space, and the next member if there is one. -/
def Ends (member : Member) : Prop :=
  ∃ spaces, member.after = renderSpaces spaces ∨
    ∃ later, member.after = renderSpaces spaces ++ comma :: later

end Member

/-- The first member whose name decodes to the given one. -/
def findMember (name : List UInt8) : MembersText → Option Member
  | .last before key beforeColon afterColon value after =>
      if decodePieces key = name then
        some { before := renderSpaces before, key, beforeColon, afterColon, value
               after := renderSpaces after }
      else none
  | .more before key beforeColon afterColon value after later =>
      if decodePieces key = name then
        some { before := renderSpaces before, key, beforeColon, afterColon, value
               after := renderSpaces after ++ comma :: renderMembers later }
      else
        (findMember name later).map fun found =>
          { found with
            before := renderSpaces before ++ renderString key ++ renderSpaces beforeColon ++
              colon :: renderSpaces afterColon ++ value.render ++ renderSpaces after ++
              comma :: found.before }

theorem findMember_spec {name : List UInt8} : ∀ {members : MembersText} {found : Member},
    findMember name members = some found →
      renderMembers members = found.render ∧ decodePieces found.key = name ∧
        (name, found.value.value) ∈ memberValues members ∧ found.Ends
  | .last before key beforeColon afterColon value after, found, search => by
      rw [findMember] at search
      split at search
      · next same =>
          obtain rfl := Option.some.inj search
          refine ⟨?_, same, by simp [memberValues, same], after, .inl rfl⟩
          simp [renderMembers, Member.render, Member.onward]
      · simp at search
  | .more before key beforeColon afterColon value after later, found, search => by
      rw [findMember] at search
      split at search
      · next same =>
          obtain rfl := Option.some.inj search
          refine ⟨?_, same, by simp [memberValues, same], after, .inr ⟨_, rfl⟩⟩
          simp [renderMembers, Member.render, Member.onward]
      · obtain ⟨inner, within, rfl⟩ := Option.map_eq_some_iff.mp search
        obtain ⟨text, same, listed, ends⟩ := findMember_spec within
        refine ⟨?_, same, by simp [memberValues, listed], ends⟩
        rw [renderMembers, text]
        simp [Member.render, Member.onward]

theorem findMember_eq_none {name : List UInt8} : ∀ {members : MembersText},
    findMember name members = none → name ∉ (memberValues members).map Prod.fst
  | .last before key beforeColon afterColon value after, search => by
      rw [findMember] at search
      split at search
      · simp at search
      · next other => simpa [memberValues, eq_comm] using other
  | .more before key beforeColon afterColon value after later, search => by
      rw [findMember] at search
      split at search
      · simp at search
      · next other =>
          have absent := findMember_eq_none (Option.map_eq_none_iff.mp search)
          simp only [memberValues, List.map_cons, List.mem_cons, not_or]
          exact ⟨fun same => other same.symm, absent⟩

theorem get?_of_mem {name : List UInt8} {members : List (List UInt8 × Json)} {value : Json}
    (distinct : (members.map Prod.fst).Nodup) (listed : (name, value) ∈ members) :
    (Json.object members).get? name = some value := by
  obtain ⟨before, after, rfl⟩ := List.append_of_mem listed
  refine List.lookup_eq_some_iff.mpr ⟨after.reverse, before.reverse, by simp, ?_⟩
  simp only [List.map_append, List.map_cons] at distinct
  intro other member
  have absent := (List.nodup_cons.mp (List.nodup_append.mp distinct).2.1).1
  rw [bne_iff_ne]
  rintro rfl
  exact absent (List.mem_map_of_mem (List.mem_reverse.mp member))

/-- The value has under a name what the member of that name has. -/
theorem get?_eq_findMember {members : MembersText}
    (distinct : ((memberValues members).map Prod.fst).Nodup) (name : List UInt8) :
    (Json.object (memberValues members)).get? name =
      (findMember name members).map fun found => found.value.value := by
  cases search : findMember name members with
  | some found =>
      obtain ⟨-, -, listed, -⟩ := findMember_spec search
      exact get?_of_mem distinct listed
  | none =>
      rw [Option.map_none, Json.get?, List.lookup_eq_none_iff]
      intro other member
      rw [bne_iff_ne]
      rintro rfl
      exact findMember_eq_none search (List.mem_map_of_mem (List.mem_reverse.mp member))

end JsonText
