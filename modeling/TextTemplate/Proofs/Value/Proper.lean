import TextTemplate.Value.Basic
import Mathlib.Data.List.Nodup
/-! # Values of the data model

The whole numbers of the data model are the integers of 64 bits, signed or unsigned, and an object
has at most one member under a key. Inserting members one by one keeps keys apart, and gives back
members whose keys are apart already.
-/

namespace TextTemplate

/-- Whether a number is of the data model: a whole one is an integer of 64 bits, signed or
unsigned. -/
def Number.Fits : Number → Prop
  | .int n => -9223372036854775808 ≤ n ∧ n ≤ 18446744073709551615
  | .float _ => True

namespace Value

/-- The keys of the members of an object. -/
def keys (members : List (String × Value)) : List String := members.map Prod.fst

/-- A value of the data model with at most `depth` arrays and objects inside each other: its numbers
fit, and no object repeats a key. -/
def ProperWithin : Nat → Value → Prop
  | _, .null => True
  | _, .bool _ => True
  | _, .number n => n.Fits
  | _, .string _ => True
  | 0, .array _ => False
  | 0, .object _ => False
  | depth + 1, .array items => ∀ item ∈ items, item.ProperWithin depth
  | depth + 1, .object members =>
    (keys members).Nodup ∧ ∀ member ∈ members, member.2.ProperWithin depth

/-- A value of the data model, nested to any depth. -/
def Proper (value : Value) : Prop := ∃ depth, value.ProperWithin depth

@[simp] theorem properWithin_null (depth : Nat) : Value.null.ProperWithin depth := by
  cases depth <;> trivial

@[simp] theorem properWithin_bool (depth : Nat) (b : Bool) : (Value.bool b).ProperWithin depth := by
  cases depth <;> trivial

@[simp] theorem properWithin_string (depth : Nat) (s : String) :
    (Value.string s).ProperWithin depth := by
  cases depth <;> trivial

@[simp] theorem properWithin_number {depth : Nat} {n : Number} :
    (Value.number n).ProperWithin depth ↔ n.Fits := by
  cases depth <;> rfl

theorem Proper.fits {n : Number} (h : (Value.number n).Proper) : n.Fits := by
  obtain ⟨depth, h⟩ := h
  exact properWithin_number.mp h

theorem Proper.of_mem {items : List Value} {item : Value} (h : (Value.array items).Proper)
    (hmem : item ∈ items) : item.Proper := by
  obtain ⟨_ | depth, h⟩ := h
  · exact h.elim
  · exact ⟨depth, h item hmem⟩

theorem Proper.nodup_keys {members : List (String × Value)} (h : (Value.object members).Proper) :
    (keys members).Nodup := by
  obtain ⟨_ | depth, h⟩ := h
  · exact h.elim
  · exact h.1

theorem Proper.of_mem_members {members : List (String × Value)} {key : String} {value : Value}
    (h : (Value.object members).Proper) (hmem : (key, value) ∈ members) : value.Proper := by
  obtain ⟨_ | depth, h⟩ := h
  · exact h.elim
  · exact ⟨depth, h.2 (key, value) hmem⟩

/-! ## Members -/

/-- A member that is inserted adds its key. -/
theorem mem_keys_insertMember {key name : String} {value : Value}
    {members : List (String × Value)} :
    name ∈ keys (insertMember key value members) ↔ name = key ∨ name ∈ keys members := by
  induction members with
  | nil => simp [insertMember, keys]
  | cons member rest ih =>
      simp only [insertMember]
      split
      next h => simp [keys, ← h]
      next => simp only [keys, List.map_cons, List.mem_cons] at ih ⊢; tauto

/-- Inserting keeps the keys distinct. -/
theorem nodup_keys_insertMember {key : String} {value : Value} {members : List (String × Value)}
    (h : (keys members).Nodup) : (keys (insertMember key value members)).Nodup := by
  induction members with
  | nil => simp [insertMember, keys]
  | cons member rest ih =>
      obtain ⟨hhead, hrest⟩ := List.nodup_cons.mp h
      simp only [insertMember]
      split
      next => exact h
      next hne =>
        refine List.nodup_cons.mpr ⟨fun hmem => ?_, ih hrest⟩
        rcases mem_keys_insertMember.mp hmem with heq | hmem
        · exact hne heq
        · exact hhead hmem

/-- What is in the object behind an insertion is the new value, or was there before. -/
theorem mem_insertMember {key : String} {value : Value} {members : List (String × Value)}
    {member : String × Value} (h : member ∈ insertMember key value members) :
    member.2 = value ∨ member ∈ members := by
  induction members with
  | nil =>
      rw [insertMember, List.mem_singleton] at h
      exact .inl (h ▸ rfl)
  | cons first rest ih =>
      simp only [insertMember] at h
      split at h
      next =>
        rcases List.mem_cons.mp h with rfl | h
        · exact .inl rfl
        · exact .inr (List.mem_cons_of_mem first h)
      next =>
        rcases List.mem_cons.mp h with rfl | h
        · exact .inr List.mem_cons_self
        · exact (ih h).imp_right (List.mem_cons_of_mem first)

/-- No key is repeated among members that were inserted one by one. -/
theorem nodup_keys_ofEntries (entries : List (String × Value)) :
    (keys (ofEntries entries)).Nodup := by
  have hall : ∀ members, (keys members).Nodup →
      (keys (entries.foldl (fun members entry => insertMember entry.1 entry.2 members)
        members)).Nodup := by
    induction entries with
    | nil => exact fun _ h => h
    | cons entry entries ih => exact fun members h => ih _ (nodup_keys_insertMember h)
  exact hall [] List.nodup_nil

/-- Inserted members have the values of the entries. -/
theorem forall_mem_ofEntries {P : Value → Prop} {entries : List (String × Value)}
    (h : ∀ entry ∈ entries, P entry.2) : ∀ member ∈ ofEntries entries, P member.2 := by
  have hall : ∀ members : List (String × Value), (∀ member ∈ members, P member.2) →
      ∀ member ∈ entries.foldl (fun members entry => insertMember entry.1 entry.2 members)
        members, P member.2 := by
    induction entries with
    | nil => exact fun _ h => h
    | cons entry entries ih =>
        intro members hmembers
        refine ih (fun other hmem => h other (List.mem_cons_of_mem entry hmem)) _ ?_
        intro member hmem
        rcases mem_insertMember hmem with heq | hmem
        · exact heq ▸ h entry List.mem_cons_self
        · exact hmembers member hmem
  exact hall [] fun _ hmem => nomatch hmem

/-- A new key is added at the end. -/
theorem insertMember_of_not_mem {key : String} {value : Value} {members : List (String × Value)}
    (h : key ∉ keys members) : insertMember key value members = members ++ [(key, value)] := by
  induction members with
  | nil => rfl
  | cons member rest ih =>
      simp only [keys, List.map_cons, List.mem_cons, not_or] at h
      simp [insertMember, Ne.symm h.1, ih h.2]

/-- Members whose keys are apart are inserted as they stand. -/
theorem ofEntries_of_nodup {members : List (String × Value)} (h : (keys members).Nodup) :
    ofEntries members = members := by
  have hall : ∀ before, (keys (before ++ members)).Nodup →
      members.foldl (fun members entry => insertMember entry.1 entry.2 members) before =
        before ++ members := by
    clear h
    induction members with
    | nil => exact fun before _ => (List.append_nil before).symm
    | cons member rest ih =>
        intro before hnodup
        have hnot : member.1 ∉ keys before := by
          simp only [keys, List.map_append, List.map_cons, List.nodup_append, List.mem_cons]
            at hnodup
          exact fun hmem => hnodup.2.2 _ hmem _ (.inl rfl) rfl
        rw [List.foldl_cons, insertMember_of_not_mem hnot, ih]
        · simp
        · simpa using hnodup
  exact hall [] h

end Value

end TextTemplate
