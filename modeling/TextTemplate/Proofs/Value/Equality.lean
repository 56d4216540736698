import Mathlib.Data.List.Perm.Subperm
import TextTemplate.Proofs.Render.Case
import TextTemplate.Proofs.Value.Proper
/-! # Equality

Two numbers are equal if their values are. Inside arrays and objects their kinds count as well: a
whole number there equals no floating-point value. So arrays are equal if they are place by place,
objects if they are key by key, unless numbers of different kinds meet.
-/

namespace TextTemplate

namespace Number

/-- Whether two numbers are both whole or both floating-point values. -/
def SameKind : Number → Number → Prop
  | .int _, .int _ => True
  | .float _, .float _ => True
  | _, _ => False

/-- Whether the values of two numbers are equal. -/
def SameValue (m n : Number) : Prop := m.order n = some .eq

theorem identical_iff {m n : Number} : m.identical n = true ↔ m.SameValue n ∧ m.SameKind n := by
  cases m <;> cases n <;> simp [identical, SameValue, order, SameKind, toBinary64]

end Number

namespace Value

/-- Whether two values are not a whole number and a floating-point value. -/
def Unmixed : Value → Value → Prop
  | .number m, .number n => m.SameKind n
  | _, _ => True

/-- Whether two lists of members have the same keys, and under each key related values. -/
def RelatedMembers (related : Value → Value → Prop) (as bs : List (String × Value)) : Prop :=
  (∀ key, key ∈ keys as ↔ key ∈ keys bs) ∧
    ∀ key a b, member? key as = some a → member? key bs = some b → related a b

/-- Structural equality, with numbers compared in a given way wherever they stand. -/
inductive Congruent (same : Number → Number → Prop) : Value → Value → Prop
  | null : Congruent same .null .null
  | bool (b : Bool) : Congruent same (.bool b) (.bool b)
  | number {m n : Number} : same m n → Congruent same (.number m) (.number n)
  | string (s : String) : Congruent same (.string s) (.string s)
  | array {as bs : List Value} : as.length = bs.length →
      (∀ a b, (a, b) ∈ as.zip bs → Congruent same a b) → Congruent same (.array as) (.array bs)
  | object {as bs : List (String × Value)} : (∀ key, key ∈ keys as ↔ key ∈ keys bs) →
      (∀ key a b, member? key as = some a → member? key bs = some b → Congruent same a b) →
      Congruent same (.object as) (.object bs)

variable {a b : Value} {same : Number → Number → Prop}

/-! ## Members by key -/

/-- A member that is found is among the members. -/
theorem mem_of_member? {key : String} {value : Value} {members : List (String × Value)}
    (h : member? key members = some value) : (key, value) ∈ members := by
  induction members with
  | nil => cases h
  | cons member rest ih =>
      obtain ⟨name, first⟩ := member
      simp only [member?] at h
      split at h
      next heq =>
        cases h
        exact heq ▸ List.mem_cons_self
      next => exact List.mem_cons_of_mem _ (ih h)

/-- With distinct keys, each member is the one that is found. -/
theorem member?_of_mem {key : String} {value : Value} {members : List (String × Value)}
    (hnodup : (keys members).Nodup) (h : (key, value) ∈ members) :
    member? key members = some value := by
  induction members with
  | nil => cases h
  | cons member rest ih =>
      obtain ⟨hfirst, hrest⟩ := List.nodup_cons.mp hnodup
      rcases List.mem_cons.mp h with rfl | h
      · simp [member?]
      · have hne : member.1 ≠ key := by
          rintro rfl
          exact hfirst (List.mem_map.mpr ⟨_, h, rfl⟩)
        rw [member?, if_neg hne, ih hrest h]

theorem mem_keys_iff {key : String} {members : List (String × Value)} :
    key ∈ keys members ↔ ∃ value, member? key members = some value := by
  induction members with
  | nil => simp [keys, member?]
  | cons member rest ih =>
      by_cases h : member.1 = key
      · simp [keys, member?, h]
      · simpa [keys, member?, h, Ne.symm h] using ih

/-! ## Equality of parts -/

/-- Identity is equality without numbers of two kinds. -/
theorem identical_iff_equal : a.identical b = true ↔ a.equal b = true ∧ a.Unmixed b := by
  cases a <;> cases b <;> simp [identical, equal, Unmixed, Number.identical_iff, Number.SameValue]

theorem identicalItems_iff {as bs : List Value} :
    identicalItems as bs = true ↔ List.Forall₂ (fun a b => a.identical b = true) as bs := by
  induction as generalizing bs with
  | nil => cases bs <;> simp [identicalItems]
  | cons a as ih => cases bs <;> simp [identicalItems, ih]

theorem identicalMembers_iff {as bs : List (String × Value)} :
    identicalMembers as bs = true ↔
      ∀ member ∈ as, ∃ b, member? member.1 bs = some b ∧ member.2.identical b = true := by
  induction as with
  | nil => simp [identicalMembers]
  | cons member rest ih =>
      simp only [identicalMembers, Bool.and_eq_true, ih, List.forall_mem_cons]
      cases member? member.1 bs <;> simp

/-- Objects are identical if they have the same keys with identical values, in any order. -/
theorem identical_object_iff {as bs : List (String × Value)} (ha : (keys as).Nodup)
    (hb : (keys bs).Nodup) :
    (Value.object as).identical (.object bs) = true ↔
      RelatedMembers (fun a b => a.identical b = true) as bs := by
  simp only [identical, Bool.and_eq_true, beq_iff_eq, identicalMembers_iff]
  constructor
  · rintro ⟨hlength, hmembers⟩
    have hsubset : keys as ⊆ keys bs := by
      intro key hkey
      obtain ⟨a, ha⟩ := mem_keys_iff.mp hkey
      obtain ⟨b, hb, -⟩ := hmembers _ (mem_of_member? ha)
      exact mem_keys_iff.mpr ⟨b, hb⟩
    have hperm : (keys as).Perm (keys bs) :=
      (List.subperm_of_subset ha hsubset).perm_of_length_le (by simp [keys, hlength])
    refine ⟨fun key => hperm.mem_iff, fun key a b ha hb => ?_⟩
    obtain ⟨other, hother, hidentical⟩ := hmembers _ (mem_of_member? ha)
    rw [hb] at hother
    cases hother
    exact hidentical
  · rintro ⟨hkeys, hmembers⟩
    have hperm : (keys as).Perm (keys bs) := (List.perm_ext_iff_of_nodup ha hb).mpr hkeys
    refine ⟨by simpa [keys] using hperm.length_eq, fun member hmem => ?_⟩
    obtain ⟨b, hb⟩ := mem_keys_iff.mp ((hkeys member.1).mp (List.mem_map_of_mem hmem))
    exact ⟨b, hb, hmembers _ _ _ (member?_of_mem ha hmem) hb⟩

/-! ## Structural equality -/

theorem congruent_number {m n : Number} :
    (Value.number m).Congruent same (.number n) ↔ same m n :=
  ⟨fun h => by cases h; assumption, .number⟩

theorem congruent_array {as bs : List Value} :
    (Value.array as).Congruent same (.array bs) ↔ List.Forall₂ (Congruent same) as bs := by
  rw [List.forall₂_iff_zip]
  constructor
  · intro h
    cases h with
    | array hlength hitems => exact ⟨hlength, fun {a b} => hitems a b⟩
  · rintro ⟨hlength, hitems⟩
    exact .array hlength fun a b => hitems

/-- Objects are congruent if they have the same keys with congruent values. -/
theorem congruent_object {as bs : List (String × Value)} :
    (Value.object as).Congruent same (.object bs) ↔ RelatedMembers (Congruent same) as bs := by
  constructor
  · intro h
    cases h with
    | object hkeys hmembers => exact ⟨hkeys, hmembers⟩
  · rintro ⟨hkeys, hmembers⟩
    exact .object hkeys hmembers

theorem Congruent.rank_eq (h : a.Congruent same b) : a.rank = b.rank := by
  cases h <;> rfl

/-- Values that are congruent stay so where more numbers are alike. -/
theorem Congruent.mono {other : Number → Number → Prop} (h : a.Congruent same b)
    (himp : ∀ m n, same m n → other m n) : a.Congruent other b := by
  induction h with
  | null => exact .null
  | bool b => exact .bool b
  | number h => exact .number (himp _ _ h)
  | string s => exact .string s
  | array hlength _ ih => exact .array hlength ih
  | object hkeys _ ih => exact .object hkeys ih

theorem rank_eq_of_identical (h : a.identical b = true) : a.rank = b.rank := by
  cases a <;> cases b <;> first | rfl | cases h

/-- Values that are structurally equal in two ways are so in both at once. -/
theorem congruent_and {first second : Number → Number → Prop} :
    a.Congruent (fun m n => first m n ∧ second m n) b ↔
      a.Congruent first b ∧ a.Congruent second b := by
  constructor
  · intro h
    exact ⟨h.mono fun _ _ => And.left, h.mono fun _ _ => And.right⟩
  · rintro ⟨hfirst, hsecond⟩
    induction hfirst with
    | null => exact .null
    | bool b => exact .bool b
    | string s => exact .string s
    | number hfirst => exact .number ⟨hfirst, congruent_number.mp hsecond⟩
    | array hlength hitems ih =>
        cases hsecond with
        | array _ hsecond => exact .array hlength fun a b hmem => ih a b hmem (hsecond a b hmem)
    | object hkeys hmembers ih =>
        cases hsecond with
        | object _ hsecond =>
            exact .object hkeys fun key a b ha hb => ih key a b ha hb (hsecond key a b ha hb)

/-- Equality of parts is structural equality, with the kinds of numbers compared. -/
theorem identical_iff_congruent {depth : Nat} {a b : Value} (ha : a.ProperWithin depth)
    (hb : b.Proper) :
    a.identical b = true ↔ a.Congruent (fun m n => m.SameValue n ∧ m.SameKind n) b := by
  by_cases hrank : a.rank = b.rank
  · cases a with
    | null =>
        cases b <;> cases hrank
        exact iff_of_true rfl .null
    | bool x =>
        cases b <;> cases hrank
        next y =>
        simp only [identical, beq_iff_eq]
        exact ⟨fun h => h ▸ .bool x, fun h => by cases h; rfl⟩
    | number m =>
        cases b <;> cases hrank
        next n =>
        rw [congruent_number, identical, Number.identical_iff]
    | string s =>
        cases b <;> cases hrank
        next t =>
        simp only [identical, beq_iff_eq]
        exact ⟨fun h => h ▸ .string s, fun h => by cases h; rfl⟩
    | array as =>
        cases b <;> cases hrank
        next bs =>
        cases depth with
        | zero => exact ha.elim
        | succ depth =>
            rw [identical, identicalItems_iff, congruent_array, List.forall₂_iff_zip,
              List.forall₂_iff_zip]
            refine and_congr_right fun _ => forall₃_congr fun a b hmem => ?_
            obtain ⟨hmemA, hmemB⟩ := List.of_mem_zip hmem
            exact identical_iff_congruent (ha a hmemA) (hb.of_mem hmemB)
    | object as =>
        cases b <;> cases hrank
        next bs =>
        cases depth with
        | zero => exact ha.elim
        | succ depth =>
            rw [identical_object_iff ha.1 hb.nodup_keys, congruent_object]
            refine and_congr_right fun _ => forall_congr' fun key => forall₄_congr ?_
            intro a b hkeyA hkeyB
            exact identical_iff_congruent (ha.2 _ (mem_of_member? hkeyA))
              (hb.of_mem_members (mem_of_member? hkeyB))
  · exact iff_of_false (fun h => hrank (rank_eq_of_identical h)) fun h => hrank h.rank_eq

/-! ## Equality by parts -/

/-- Other values than numbers are compared by identity. -/
theorem equal_of_not_number (h : ¬ ∃ n, a = .number n) : a.equal b = a.identical b := by
  cases a with
  | number n => exact absurd ⟨n, rfl⟩ h
  | _ => rfl

/-- Equal values are structurally equal with numbers compared by value at every depth, and unless
they are numbers themselves also with numbers compared by kind. -/
theorem equal_iff_congruent (ha : a.Proper) (hb : b.Proper) :
    a.equal b = true ↔
      a.Congruent Number.SameValue b ∧
        ((∃ n, a = .number n) ∨ a.Congruent Number.SameKind b) := by
  by_cases hnumber : ∃ n, a = .number n
  · obtain ⟨m, rfl⟩ := hnumber
    have htop : (Value.number m).equal b = true ↔
        (Value.number m).Congruent Number.SameValue b := by
      cases b with
      | number n => simp [equal, congruent_number, Number.SameValue]
      | _ => exact iff_of_false nofun nofun
    rw [htop]
    exact (and_iff_left (.inl ⟨m, rfl⟩)).symm
  · obtain ⟨depth, ha⟩ := ha
    rw [equal_of_not_number hnumber, identical_iff_congruent ha hb, congruent_and,
      or_iff_right hnumber]

/-- Arrays are equal if they are so element by element, and no number is of another kind than its
counterpart. -/
theorem equal_array_iff {as bs : List Value} :
    (Value.array as).equal (.array bs) = true ↔
      List.Forall₂ (fun a b => a.equal b = true ∧ a.Unmixed b) as bs := by
  simp only [equal, identical, identicalItems_iff, identical_iff_equal]

theorem equal_object_iff {as bs : List (String × Value)} (ha : (Value.object as).Proper)
    (hb : (Value.object bs).Proper) :
    (Value.object as).equal (.object bs) = true ↔
      RelatedMembers (fun a b => a.equal b = true ∧ a.Unmixed b) as bs := by
  simp only [equal, identical_object_iff ha.nodup_keys hb.nodup_keys, identical_iff_equal]

end Value

/-! ## Elements without repetitions -/

namespace Filter

/-- What is left are some of the items, in their order. -/
theorem distinctFrom_sublist (seen items : List Value) :
    (distinctFrom seen items).Sublist items := by
  induction items generalizing seen with
  | nil => exact .slnil
  | cons item rest ih =>
      simp only [distinctFrom]
      split
      · exact (ih seen).cons item
      · exact (ih _).cons_cons item

/-- No element that is kept equals one that was seen before. -/
theorem equal_eq_false_of_mem_distinctFrom {seen items : List Value} {value item : Value}
    (hseen : value ∈ seen) (h : item ∈ distinctFrom seen items) : value.equal item = false := by
  induction items generalizing seen with
  | nil => cases h
  | cons first rest ih =>
      simp only [distinctFrom] at h
      split at h
      next => exact ih hseen h
      next hnew =>
        rcases List.mem_cons.mp h with rfl | h
        · simpa using fun heq => hnew (List.any_eq_true.mpr ⟨value, hseen, heq⟩)
        · exact ih (List.mem_append_left _ hseen) h

/-- No two of the items that are left are equal. -/
theorem pairwise_distinctFrom (seen items : List Value) :
    (distinctFrom seen items).Pairwise fun a b => a.equal b = false := by
  induction items generalizing seen with
  | nil => exact .nil
  | cons item rest ih =>
      simp only [distinctFrom]
      split
      · exact ih seen
      · refine List.pairwise_cons.mpr ⟨fun other hmem => ?_, ih _⟩
        exact equal_eq_false_of_mem_distinctFrom (by simp) hmem

/-- An element that is not kept equals one that was seen before or is kept. -/
theorem mem_distinctFrom_or {seen items : List Value} {item : Value} (h : item ∈ items) :
    item ∈ distinctFrom seen items ∨
      ∃ other ∈ seen ++ distinctFrom seen items, other.equal item = true := by
  induction items generalizing seen with
  | nil => cases h
  | cons first rest ih =>
      simp only [distinctFrom]
      split
      next hold =>
        rcases List.mem_cons.mp h with rfl | h
        · obtain ⟨other, hmem, heq⟩ := List.any_eq_true.mp hold
          exact .inr ⟨other, List.mem_append_left _ hmem, heq⟩
        · exact ih h
      next =>
        rcases List.mem_cons.mp h with rfl | h
        · exact .inl List.mem_cons_self
        · obtain h | ⟨other, hmem, heq⟩ := ih h
          · exact .inl (List.mem_cons_of_mem first h)
          · exact .inr ⟨other, by simpa using hmem, heq⟩

end Filter

namespace Value

/-- Numbers are equal by value. Arrays and objects are equal if they are part by part and no whole
number stands where the other has a floating-point value; so to any depth. The operator `==`,
`contains` on arrays, `uniq` and the arms of a `case` go by this equality. -/
theorem equal_by_parts {a b : Value} (as bs : List Value) {firsts seconds : List (String × Value)}
    (ha : a.Proper) (hb : b.Proper) (hfirsts : (Value.object firsts).Proper)
    (hseconds : (Value.object seconds).Proper) :
    (a.equal b = true ↔
      a.Congruent Number.SameValue b ∧
        ((∃ n, a = .number n) ∨ a.Congruent Number.SameKind b)) ∧
    ((Value.array as).equal (.array bs) = true ↔
      List.Forall₂ (fun a b => a.equal b = true ∧ a.Unmixed b) as bs) ∧
    ((Value.object firsts).equal (.object seconds) = true ↔
      RelatedMembers (fun a b => a.equal b = true ∧ a.Unmixed b) firsts seconds) ∧
    (∀ (context : Context) left right, context.evaluate left = .ok a →
      context.evaluate right = .ok b →
        context.evaluate (.binary .eq left right) = .ok (.bool (a.equal b))) ∧
    ((Value.array as).contains b = true ↔ ∃ item ∈ as, item.equal b = true) ∧
    (∀ args, ∃ kept, Filter.apply .uniq (.array as) args = .array kept ∧
      kept.Sublist as ∧ (kept.Pairwise fun a b => a.equal b = false) ∧
        ∀ item ∈ as, item ∈ kept ∨ ∃ other ∈ kept, other.equal item = true) ∧
    (∀ (context : Context) subject (arm : WhenArm), context.evaluate subject = .ok a →
      context.holds (arm.lowered subject).condition = arm.values.anyM fun expr => do
        let other ← context.evaluate expr
        pure (a.equal other)) := by
  refine ⟨equal_iff_congruent ha hb, equal_array_iff, equal_object_iff hfirsts hseconds,
    fun context left right hleft hright => ?_, List.any_eq_true, fun args => ?_,
    fun context subject arm h => Context.holds_lowered h arm⟩
  · simp only [Context.evaluate, hleft, hright]
    rfl
  · refine ⟨Filter.distinct as, rfl, Filter.distinctFrom_sublist [] as,
      Filter.pairwise_distinctFrom [] as, fun item hmem => ?_⟩
    exact Filter.mem_distinctFrom_or hmem

/-- The whole number and the floating-point value are equal as they stand, and not as parts. -/
theorem equal_by_parts_zero :
    let whole := Value.number (.int 0)
    let floating := Value.number (.float (Finite64.zero false))
    whole.equal floating = true ∧ (Value.array [whole]).equal (.array [floating]) = false ∧
      (Value.object [("n", whole)]).equal (.object [("n", floating)]) = false := by
  intro whole floating
  have hmixed : ¬ whole.Unmixed floating := id
  have hwhole : whole.ProperWithin 0 := by simp [whole, Number.Fits]
  have hfloating : floating.ProperWithin 0 := by simp [floating, Number.Fits]
  have hproper : ∀ value : Value, value.ProperWithin 0 → (Value.object [("n", value)]).Proper :=
    fun value h => ⟨1, by simpa [ProperWithin, keys] using h⟩
  obtain ⟨hdeep, harray, hobject, -⟩ :=
    equal_by_parts [whole] [floating] ⟨0, hwhole⟩ ⟨0, hfloating⟩
      (hproper whole hwhole) (hproper floating hfloating)
  refine ⟨hdeep.mpr ⟨.number rfl, .inl ⟨_, rfl⟩⟩, ?_, ?_⟩
  · rw [← Bool.not_eq_true, harray]
    intro h
    cases h with
    | cons hpair _ => exact hmixed hpair.2
  · rw [← Bool.not_eq_true, hobject]
    rintro ⟨-, h⟩
    exact hmixed (h "n" whole floating rfl rfl).2

end Value

end TextTemplate
