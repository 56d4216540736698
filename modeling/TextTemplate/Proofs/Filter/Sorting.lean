import TextTemplate.Filter.Apply
import TextTemplate.Proofs.Sorting.Runs
import TextTemplate.Proofs.Value.Order
/-! # Sorting

An array whose elements are preordered comes out of the `sort` filter in order, and equal elements
keep their places among themselves. The elements of an array of the data model are preordered unless
a floating-point value stands between two whole numbers that are rounded to it. If there are such
elements, a short array is put in some order by insertion, and sorting a long one may break down.
-/

namespace TextTemplate

namespace Filter

/-- Whether the order is a preorder on the elements of an array. -/
structure Preordered (items : List Value) : Prop where
  swap : ∀ a ∈ items, ∀ b ∈ items, b.sortOrder a = (a.sortOrder b).swap
  trans : ∀ a ∈ items, ∀ b ∈ items, ∀ c ∈ items,
    a.sortOrder b ≠ .gt → b.sortOrder c ≠ .gt → a.sortOrder c ≠ .gt

/-- The elements of a list that equal a value in the order. -/
def peers (value : Value) (items : List Value) : List Value :=
  items.filter fun item => item.sortOrder value == .eq

/-- A rearrangement in which no element is greater than a later one, and the elements that equal
any given element stand in the order that they had. -/
structure StablySorted (items sorted : List Value) : Prop where
  perm : sorted.Perm items
  ordered : sorted.Pairwise fun a b => a.sortOrder b ≠ .gt
  stable : ∀ value ∈ items, peers value sorted = peers value items

namespace Preordered

variable {items : List Value} {a b c : Value} (h : Preordered items)

include h

/-- On the items of a preordered list, not less one way is not greater the other way. -/
theorem ne_lt_iff (ha : a ∈ items) (hb : b ∈ items) :
    a.sortOrder b ≠ .lt ↔ b.sortOrder a ≠ .gt := by
  rw [h.swap a ha b hb]
  cases a.sortOrder b <;> decide

/-- What comes after an element is not equal to an element before it. -/
theorem ne_eq_of_lt (ha : a ∈ items) (hb : b ∈ items) (hc : c ∈ items) (hab : a.sortOrder b = .lt)
    (hac : a.sortOrder c = .eq) : b.sortOrder c ≠ .eq := by
  intro hbc
  have hca : c.sortOrder a ≠ .gt := by rw [h.swap a ha c hc, hac]; decide
  have hba : b.sortOrder a ≠ .gt := h.trans b hb c hc a ha (by rw [hbc]; decide) hca
  rw [h.swap a ha b hb, hab] at hba
  exact hba rfl

end Preordered

/-! ## Consistent orders -/

/-- On preordered elements the comparison of sorting is consistent. -/
theorem Preordered.weakOrder {items : List Value} (h : Preordered items) :
    Sorting.WeakOrder sortsBefore items where
  asymm a ha b hb hab := by
    rw [sortsBefore, beq_iff_eq] at hab
    simp [sortsBefore, h.swap a ha b hb, hab]
  trans a ha b hb c hc hba hcb := by
    rw [sortsBefore, beq_eq_false_iff_ne] at hba hcb ⊢
    exact (h.ne_lt_iff hc ha).mpr
      (h.trans a ha b hb c hc ((h.ne_lt_iff hb ha).mp hba) ((h.ne_lt_iff hc hb).mp hcb))

/-- Exchanges of neighbours that are strictly out of order keep equal elements in their order. -/
theorem peers_of_sifts {items first second : List Value} (h : Preordered items)
    (hsifts : Sorting.Sifts sortsBefore first second) (hmem : ∀ item ∈ first, item ∈ items)
    {value : Value} (hvalue : value ∈ items) : peers value second = peers value first := by
  induction hsifts with
  | refl => rfl
  | cons item _ ih =>
      have hrest := ih fun other hother => hmem other (List.mem_cons_of_mem item hother)
      simp only [peers, List.filter_cons] at hrest ⊢
      rw [hrest]
  | @exchange greater less rest hless =>
      rw [sortsBefore, beq_iff_eq] at hless
      -- At most one of the two equals the value.
      have hne : less.sortOrder value = .eq → greater.sortOrder value ≠ .eq :=
        h.ne_eq_of_lt (hmem less (by simp)) (hmem greater (by simp)) hvalue hless
      by_cases heq : less.sortOrder value = .eq
      · simp [peers, heq, hne heq]
      · simp [peers, List.filter_cons, heq]
  | trans hfirst _ ihFirst ihSecond =>
      rw [ihSecond fun item hitem => hmem item (hfirst.mem_iff.mpr hitem), ihFirst hmem]

/-- What a sort of preordered items leaves is in order, and keeps the order of peers. -/
theorem StablySorted.of_sorts {items sorted : List Value} (h : Preordered items)
    (hsorts : Sorting.Sorts sortsBefore items sorted) : StablySorted items sorted where
  perm := hsorts.sifts.perm.symm
  ordered := by
    refine hsorts.ordered.imp_of_mem fun {a b} ha hb hle => ?_
    rw [sortsBefore, beq_eq_false_iff_ne] at hle
    exact (h.ne_lt_iff (hsorts.sifts.mem_iff.mpr hb) (hsorts.sifts.mem_iff.mpr ha)).mp hle
  stable value hvalue := peers_of_sifts h hsorts.sifts (fun _ hitem => hitem) hvalue

/-- Preordered elements are sorted, and sorted stably. -/
theorem exists_sorted? {items : List Value} (h : Preordered items) :
    ∃ sorted, sorted? items = some sorted ∧ StablySorted items sorted := by
  obtain ⟨sorted, hsorted, hsorts⟩ := Sorting.sortsConsistent_sort? items h.weakOrder
  exact ⟨sorted, hsorted, .of_sorts h hsorts⟩

/-- Sorting breaks down only on more than a few elements that are not preordered. -/
theorem not_preordered_of_sorted?_eq_none {items : List Value} (h : sorted? items = none) :
    Sorting.insertionLimit < items.length ∧ ¬ Preordered items := by
  constructor
  · by_contra hle
    rw [sorted?, Sorting.sort?_of_length_le (not_lt.mp hle)] at h
    cases h
  · intro hpreordered
    obtain ⟨sorted, hsorted, -⟩ := exists_sorted? hpreordered
    rw [h] at hsorted
    cases hsorted

/-! ## Arrays of the data model -/

section Proper

variable {items : List Value}

/-- Only a blurred triple keeps proper values from being preordered. -/
theorem preordered_of_not_blurred (hproper : ∀ item ∈ items, item.Proper)
    (h : ∀ a ∈ items, ∀ b ∈ items, ∀ c ∈ items, ¬ Value.Blurred a b c) : Preordered items where
  swap a ha b hb := Value.sortOrder_swap (hproper a ha) (hproper b hb)
  trans a ha b hb c hc hab hbc hac :=
    h a ha b hb c hc
      ((Value.sortOrder_trans_iff (hproper a ha) (hproper b hb) (hproper c hc)).mp ⟨hab, hbc, hac⟩)

/-- Proper values that are not preordered have a blurred triple among them. -/
theorem exists_blurred_of_not_preordered (hproper : ∀ item ∈ items, item.Proper)
    (h : ¬ Preordered items) : ∃ a ∈ items, ∃ b ∈ items, ∃ c ∈ items, Value.Blurred a b c := by
  by_contra hnone
  push Not at hnone
  exact h (preordered_of_not_blurred hproper hnone)

/-- No arrangement is stable if a greater whole number stood in front of a smaller one and a
floating-point value among the elements equals both: as its equals the two keep their order. -/
theorem StablySorted.not_blurred {sorted : List Value} {a b c : Value}
    (h : StablySorted items sorted) (hproper : ∀ item ∈ items, item.Proper)
    (hac : [a, c].Sublist items) (hb : b ∈ items) : ¬ Value.Blurred a b c := by
  intro hblurred
  have ha : a ∈ items := hac.mem (by simp)
  have hc : c ∈ items := hac.mem (by simp)
  obtain ⟨-, -, hgt⟩ :=
    (Value.sortOrder_trans_iff (hproper a ha) (hproper b hb) (hproper c hc)).mpr hblurred
  obtain ⟨_, _, _, _, _, _, _, hab, hbc⟩ := hblurred
  have hcb : c.sortOrder b = .eq := by
    rw [Value.sortOrder_swap (hproper b hb) (hproper c hc), hbc]
    rfl
  have hpeers : [a, c].Sublist (peers b sorted) := by
    rw [h.stable b hb]
    simpa [peers, hab, hcb] using hac.filter fun item => item.sortOrder b == .eq
  have hordered := h.ordered.sublist (hpeers.trans List.filter_sublist)
  exact List.rel_of_pairwise_cons hordered (List.mem_singleton_self c) hgt

/-- Two elements can be moved to the front. -/
theorem exists_perm_cons_cons {a c : Value} (ha : a ∈ items) (hc : c ∈ items) (hne : a ≠ c) :
    ∃ rest, (a :: c :: rest).Perm items := by
  obtain ⟨before, after, rfl⟩ := List.append_of_mem ha
  have hmem : c ∈ before ++ after := by
    simpa [Ne.symm hne] using hc
  obtain ⟨first, last, heq⟩ := List.append_of_mem hmem
  refine ⟨first ++ last, List.Perm.trans ?_ List.perm_middle.symm⟩
  rw [heq]
  exact List.perm_middle.symm.cons a

end Proper

/-- On values of the data model (all that documents hold, by `properWithin_of_readDocument`) the
order used for sorting is reversed when its sides change places, and transitive but for a
floating-point value between two whole numbers that are rounded to it. An array sorts stably in
every arrangement of its elements exactly if there are no three such elements. -/
theorem stablySorted_sort_iff {a b c : Value} {items : List Value} (ha : a.Proper) (hb : b.Proper)
    (hc : c.Proper) (h : (Value.array items).Proper) (args : List Value) :
    b.sortOrder a = (a.sortOrder b).swap ∧
      ((a.sortOrder b ≠ .gt ∧ b.sortOrder c ≠ .gt ∧ a.sortOrder c = .gt) ↔
        Value.Blurred a b c) ∧
      ((∀ other : List Value, other.Perm items → ∃ sorted,
          apply .sort (.array other) args = .array sorted ∧ StablySorted other sorted) ↔
        ∀ a ∈ items, ∀ b ∈ items, ∀ c ∈ items, ¬ Value.Blurred a b c) := by
  refine ⟨Value.sortOrder_swap ha hb, Value.sortOrder_trans_iff ha hb hc, ?_⟩
  have hproper : ∀ item ∈ items, item.Proper := fun _ => h.of_mem
  constructor
  · intro hsorts a ha b hb c hc hblurred
    obtain ⟨m, x, n, rfl, rfl, rfl, hlt, -⟩ := id hblurred
    obtain ⟨rest, hperm⟩ := exists_perm_cons_cons ha hc (by simpa using Int.ne_of_gt hlt)
    obtain ⟨sorted, -, hstable⟩ := hsorts _ hperm
    exact hstable.not_blurred (fun item hmem => hproper item (hperm.mem_iff.mp hmem))
      (by simp) (hperm.mem_iff.mpr hb) hblurred
  · intro hnot other hperm
    simp only [← hperm.mem_iff] at hproper hnot
    obtain ⟨sorted, hsorted, hstable⟩ := exists_sorted? (preordered_of_not_blurred hproper hnot)
    refine ⟨sorted, ?_, hstable⟩
    rw [apply, sortItems?, hsorted]
    rfl

/-- The two zeros are equal in the order and keep their places. -/
theorem stablySorted_sort_zeros :
    let zero := Value.number (.float (Finite64.zero true))
    let items := [.string "b", .number (.int 0), .null, zero, .bool true]
    let ordered := [.null, .bool true, .number (.int 0), zero, .string "b"]
    (Value.array items).Proper ∧
      (∀ a ∈ items, ∀ b ∈ items, ∀ c ∈ items, ¬ Value.Blurred a b c) ∧
      apply .sort (.array items) [] = .array ordered ∧ StablySorted items ordered := by
  intro zero items ordered
  have hproper : (Value.array items).Proper := by
    refine ⟨1, fun item hmem => ?_⟩
    simp only [items, List.mem_cons, List.not_mem_nil, or_false] at hmem
    obtain rfl | rfl | rfl | rfl | rfl := hmem <;> simp [zero, Number.Fits]
  have hnot : ∀ a ∈ items, ∀ b ∈ items, ∀ c ∈ items, ¬ Value.Blurred a b c := by
    rintro a ha b - c hc ⟨m, x, n, rfl, -, rfl, hlt, -⟩
    simp [items, zero] at ha hc
    omega
  have hsort : apply .sort (.array items) [] = .array ordered := rfl
  have hfirst : (Value.string "b").Proper := hproper.of_mem (by simp [items])
  have hzero : zero.Proper := hproper.of_mem (by simp [items])
  have hnull : Value.null.Proper := hproper.of_mem (by simp [items])
  obtain ⟨-, -, hiff⟩ := stablySorted_sort_iff hfirst hzero hnull hproper []
  obtain ⟨sorted, heq, hsorted⟩ := hiff.mpr hnot items (.refl items)
  rw [hsort, Value.array.injEq] at heq
  exact ⟨hproper, hnot, hsort, heq ▸ hsorted⟩

end Filter

end TextTemplate
