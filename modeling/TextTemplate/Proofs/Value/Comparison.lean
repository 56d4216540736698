import TextTemplate.Eval
import TextTemplate.Proofs.Value.Equality
import TextTemplate.Proofs.Value.Order
/-! # The comparison operators

Equality and order are told by different functions: equality goes into arrays and objects, order
knows only numbers and texts. Main statement: the operators made of the two fit together, for all
values of the data model.
-/

namespace TextTemplate

namespace Number

/-- The order is reversed when its sides change places, also where there is none. -/
theorem order_swap (m n : Number) : n.order m = (m.order n).map Ordering.swap := by
  have hvalues : ∀ x y : Finite64, y.order x = (x.order y).swap := fun x y => by
    rw [Finite64.order, Finite64.order]
    exact Std.OrientedOrd.eq_swap
  cases m with
  | int m =>
      cases n with
      | int n => exact congrArg some Std.OrientedOrd.eq_swap
      | float y => cases hm : Binary64.ofInt m <;> simp [order, toBinary64, hm, hvalues y]
  | float x =>
      cases n with
      | int n => cases hn : Binary64.ofInt n <;> simp [order, toBinary64, hn, hvalues x]
      | float y => simp [order, toBinary64, hvalues x y]

theorem SameValue.symm {m n : Number} (h : m.SameValue n) : n.SameValue m := by
  rw [SameValue, order_swap, h]
  rfl

theorem sameValue_self {n : Number} (h : n.Fits) : n.SameValue n := by
  rw [SameValue, order_eq h h]
  cases n <;> exact congrArg some (compare_eq_iff_eq.mpr rfl)

theorem SameKind.symm {m n : Number} (h : m.SameKind n) : n.SameKind m := by
  cases m <;> cases n <;> exact h

theorem sameKind_self (n : Number) : n.SameKind n := by
  cases n <;> trivial

end Number

namespace Value

variable {a b : Value} {same : Number → Number → Prop}

/-! ## Equality -/

/-- A value is congruent to itself if its numbers are alike to themselves. -/
theorem congruent_self (hsame : ∀ n : Number, n.Fits → same n n) {depth : Nat} {value : Value}
    (h : value.ProperWithin depth) : value.Congruent same value := by
  cases value with
  | null => exact .null
  | bool b => exact .bool b
  | number n => exact .number (hsame n (properWithin_number.mp h))
  | string s => exact .string s
  | array items =>
      cases depth with
      | zero => exact h.elim
      | succ depth =>
          refine congruent_array.mpr (List.forall₂_same.mpr fun item hmem => ?_)
          exact congruent_self hsame (h item hmem)
  | object members =>
      cases depth with
      | zero => exact h.elim
      | succ depth =>
          refine .object (fun _ => Iff.rfl) fun key first second hfirst hsecond => ?_
          obtain rfl : first = second := Option.some.inj (hfirst.symm.trans hsecond)
          exact congruent_self hsame (h.2 _ (mem_of_member? hfirst))

/-- Congruence is symmetric if alikeness of numbers is. -/
theorem Congruent.symm (hsame : ∀ m n, same m n → same n m) (h : a.Congruent same b) :
    b.Congruent same a := by
  induction h with
  | null => exact .null
  | bool b => exact .bool b
  | number h => exact .number (hsame _ _ h)
  | string s => exact .string s
  | @array as bs hlength hitems ih =>
      refine congruent_array.mpr (List.Forall₂.flip ?_)
      exact List.forall₂_iff_zip.mpr ⟨hlength, fun hmem => ih _ _ hmem⟩
  | object hkeys hmembers ih =>
      exact .object (fun key => (hkeys key).symm) fun key b a hb ha => ih key a b ha hb

/-- A value of the data model equals itself. -/
theorem equal_self (ha : a.Proper) : a.equal a = true := by
  have ⟨depth, hdepth⟩ := ha
  rw [equal_iff_congruent ha ha]
  refine ⟨congruent_self (fun _ => Number.sameValue_self) hdepth, .inr ?_⟩
  exact congruent_self (fun n _ => n.sameKind_self) hdepth

/-- Equality of proper values is symmetric. -/
theorem equal_symm (ha : a.Proper) (hb : b.Proper) (h : a.equal b = true) : b.equal a = true := by
  obtain ⟨hvalue, hkind⟩ := (equal_iff_congruent ha hb).mp h
  refine (equal_iff_congruent hb ha).mpr ⟨hvalue.symm fun _ _ => Number.SameValue.symm, ?_⟩
  rcases hkind with ⟨n, rfl⟩ | hkind
  · cases hvalue with
    | number _ => exact .inl ⟨_, rfl⟩
  · exact .inr (hkind.symm fun _ _ => Number.SameKind.symm)

theorem equal_comm (ha : a.Proper) (hb : b.Proper) : a.equal b = b.equal a :=
  Bool.eq_iff_iff.mpr ⟨equal_symm ha hb, equal_symm hb ha⟩

/-! ## Order -/

/-- The pairs of values that have an order: two numbers, or two texts. -/
inductive Ordered : Value → Value → Prop
  | numbers (m n : Number) : Ordered (.number m) (.number n)
  | texts (s t : String) : Ordered (.string s) (.string t)

theorem not_ordered_number_string (n : Number) (s : String) :
    ¬ (Value.number n).Ordered (.string s) := by
  intro h
  cases h

/-- The order of two values the other way round is the other order. -/
theorem order?_swap (a b : Value) : b.order? a = (a.order? b).map Ordering.swap := by
  cases a with
  | number m =>
      cases b with
      | number n => exact Number.order_swap m n
      | _ => rfl
  | string s =>
      cases b with
      | string t => exact congrArg some (compareOfLessAndEq_swap s.toList t.toList)
      | _ => rfl
  | _ => cases b <;> rfl

/-- Only two numbers and two texts have an order. -/
theorem order?_of_not_ordered (h : ¬ a.Ordered b) : a.order? b = none := by
  cases a with
  | number m =>
      cases b with
      | number n => exact absurd (.numbers m n) h
      | _ => rfl
  | string s =>
      cases b with
      | string t => exact absurd (.texts s t) h
      | _ => rfl
  | _ => rfl

/-- The order of two numbers or two texts is the one used for sorting, and tells whether they are
equal. -/
theorem order?_of_ordered (ha : a.Proper) (hb : b.Proper) (h : a.Ordered b) :
    a.order? b = some (a.sortOrder b) ∧ (a.equal b = true ↔ a.sortOrder b = .eq) := by
  cases h with
  | numbers m n =>
      have horder : m.order n = some (m.comparison n) := Number.order_eq ha.fits hb.fits
      rw [sortOrder_number ha.fits hb.fits]
      exact ⟨horder, by simp [equal, horder]⟩
  | texts s t =>
      refine ⟨rfl, ?_⟩
      simp only [equal, identical, beq_iff_eq, sortOrder, order?]
      rw [compareOfLessAndEq_eq_eq le_refl not_le, String.toList_inj]

end Value

namespace BinaryOp

open Value

variable {a b : Value}

/-- The comparison that an order makes true. -/
def ofOrdering : Ordering → BinaryOp
  | .lt => .lt
  | .eq => .eq
  | .gt => .gt

/-- A comparison holds if the order of sorting is the one it asks for. -/
theorem compare_ofOrdering (ha : a.Proper) (hb : b.Proper) (h : a.Ordered b) (o : Ordering) :
    (ofOrdering o).compare a b = true ↔ a.sortOrder b = o := by
  obtain ⟨horder, hequal⟩ := order?_of_ordered ha hb h
  cases o with
  | lt => simp [ofOrdering, compare, horder]
  | eq => exact hequal
  | gt => simp [ofOrdering, compare, horder]

/-- At most is less or equal. -/
theorem compare_le_eq (ha : a.Proper) (hb : b.Proper) (h : a.Ordered b) :
    BinaryOp.le.compare a b = (BinaryOp.lt.compare a b || BinaryOp.eq.compare a b) := by
  obtain ⟨horder, hequal⟩ := order?_of_ordered ha hb h
  have hsame : (some (a.sortOrder b) == some .eq) = a.equal b := by
    rw [Bool.eq_iff_iff, hequal, beq_iff_eq, Option.some.injEq]
  simp only [compare, horder, hsame]

/-- Equality does not depend on the sides, and `!=` is its negation; the other operators turn into
each other when the sides change places. Of two numbers or two texts one is less, or they are equal,
or one is greater, as sorting has it. No other two values are less or greater. -/
theorem compare_coherent (ha : a.Proper) (hb : b.Proper) :
    BinaryOp.eq.compare a a = true ∧
    BinaryOp.eq.compare a b = BinaryOp.eq.compare b a ∧
    BinaryOp.ne.compare a b = !BinaryOp.eq.compare a b ∧
    BinaryOp.lt.compare a b = BinaryOp.gt.compare b a ∧
    BinaryOp.le.compare a b = BinaryOp.ge.compare b a ∧
    (a.Ordered b →
      (∃! op, op ∈ [BinaryOp.lt, .eq, .gt] ∧ op.compare a b = true) ∧
      BinaryOp.le.compare a b = (BinaryOp.lt.compare a b || BinaryOp.eq.compare a b) ∧
      (BinaryOp.lt.compare a b = true ↔ a.sortOrder b = .lt) ∧
      (BinaryOp.eq.compare a b = true ↔ a.sortOrder b = .eq) ∧
      (BinaryOp.gt.compare a b = true ↔ a.sortOrder b = .gt)) ∧
    (¬ a.Ordered b → ∀ op ∈ [BinaryOp.lt, .gt, .le, .ge], op.compare a b = false) := by
  refine ⟨equal_self ha, equal_comm ha hb, rfl, ?_, ?_, fun h => ?_, fun h => ?_⟩
  · simp only [compare, order?_swap a b]
    rcases a.order? b with _ | _ | _ | _ <;> rfl
  · simp only [compare, order?_swap a b]
    rcases a.order? b with _ | _ | _ | _ <;> rfl
  · have hsigns := compare_ofOrdering ha hb h
    refine ⟨⟨ofOrdering (a.sortOrder b), ⟨?_, (hsigns _).mpr rfl⟩, ?_⟩, compare_le_eq ha hb h,
      hsigns .lt, hsigns .eq, hsigns .gt⟩
    · cases a.sortOrder b <;> simp [ofOrdering]
    · rintro op ⟨hmem, hop⟩
      have hsign : ∃ o, ofOrdering o = op := by
        simp only [List.mem_cons, List.not_mem_nil, or_false] at hmem
        rcases hmem with rfl | rfl | rfl
        · exact ⟨.lt, rfl⟩
        · exact ⟨.eq, rfl⟩
        · exact ⟨.gt, rfl⟩
      obtain ⟨o, rfl⟩ := hsign
      rw [(hsigns o).mp hop]
  · simp [compare, order?_of_not_ordered h]

/-- The whole number `2 ^ 53 + 1` is rounded to the floating-point value `2 ^ 53`, so the two are
equal; a text is neither less nor greater than a number. -/
theorem compare_coherent_rounded :
    let whole := Value.number (.int 9007199254740993)
    let rounded := Value.number (.float ⟨false, 4503599627370496, 1⟩)
    BinaryOp.eq.compare whole rounded = true ∧ BinaryOp.eq.compare rounded whole = true ∧
      BinaryOp.le.compare whole rounded = true ∧ BinaryOp.ge.compare rounded whole = true ∧
      BinaryOp.lt.compare whole (.string "1") = false := by
  intro whole rounded
  have hwhole : whole.Proper := ⟨0, by simp [whole, Number.Fits]⟩
  have hrounded : rounded.Proper := ⟨0, by simp [rounded, Number.Fits]⟩
  have htext : (Value.string "1").Proper := ⟨0, by simp⟩
  have hsort : whole.sortOrder rounded = .eq := by decide +kernel
  obtain ⟨-, hsides, -, -, hturned, hordered, -⟩ := compare_coherent hwhole hrounded
  obtain ⟨-, hle, -, heq, -⟩ := hordered (.numbers _ _)
  obtain ⟨-, -, -, -, -, -, hunordered⟩ := compare_coherent hwhole htext
  have hequal : BinaryOp.eq.compare whole rounded = true := heq.mpr hsort
  have hless : BinaryOp.le.compare whole rounded = true := by rw [hle, hequal, Bool.or_true]
  exact ⟨hequal, hsides ▸ hequal, hless, hturned ▸ hless,
    hunordered (not_ordered_number_string _ _) .lt List.mem_cons_self⟩

end BinaryOp

end TextTemplate
