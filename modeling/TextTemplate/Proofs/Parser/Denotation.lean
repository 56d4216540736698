import TextTemplate.Parser.Expression
import TextTemplate.Proofs.Node.UnknownFilter
import TextTemplate.Proofs.Number.Reading
/-! # What the parts of expressions denote

The signs of comparisons, the numbers, the steps that brackets stand for and the trees that chains
are kept as, each written out without the parser. The parser takes each of them for what it denotes
and for nothing else: there is one such lemma for each relation.
-/

namespace TextTemplate

namespace Grammar

/-- The seven signs between operands. Two of them say that the operands differ. -/
inductive Sign : String → BinaryOp → Prop
  | eq : Sign "==" .eq
  | ne : Sign "!=" .ne
  | unequal : Sign "<>" .ne
  | lt : Sign "<" .lt
  | gt : Sign ">" .gt
  | le : Sign "<=" .le
  | ge : Sign ">=" .ge

/-- The texts of integers of 64 bits. -/
structure WritesInt64 (text : List Char) (n : Int) : Prop where
  written : Numeral.WritesInt text n
  low : -2 ^ 63 ≤ n
  high : n < 2 ^ 63

/-- The number that a text stands for: an integer of 64 bits where the text is one, and otherwise a
finite floating-point value. -/
inductive DenotesNumber (text : List Char) : Number → Prop
  | int {n : Int} (written : WritesInt64 text n) : DenotesNumber text (.int n)
  | float {x : Finite64} (not_int : ∀ n, ¬ WritesInt64 text n)
      (written : Numeral.Writes text (.finite x)) : DenotesNumber text (.float x)

/-- The step that an expression in brackets stands for. A text that is written out is the name of a
member and an integer an index; any other expression has to be looked up. -/
inductive DenotesStep : Expr → Segment → Prop
  | field (name : String) : DenotesStep (.literal (.string name)) (.field name)
  | index (i : Int) : DenotesStep (.literal (.number (.int i))) (.index i)
  | lookup {key : Expr} (not_name : ∀ name, key ≠ .literal (.string name))
      (not_index : ∀ i, key ≠ .literal (.number (.int i))) : DenotesStep key (.lookup key)

/-- The balanced tree of an operator over operands in their order. A single operand stands for
itself; more are halved, and an odd one belongs to the second half. -/
inductive Balanced (op : BinaryOp) : List Expr → Expr → Prop
  | operand (operand : Expr) : Balanced op [operand] operand
  | halves {lefts rights : List Expr} {left right : Expr} (first : Balanced op lefts left)
      (second : Balanced op rights right)
      (half : rights.length = lefts.length ∨ rights.length = lefts.length + 1) :
      Balanced op (lefts ++ rights) (.binary op left right)

end Grammar

open Grammar Numeral

/-- A sign is read as its operator. -/
theorem BinaryOp.ofSigns?_eq_some_iff {text : String} {op : BinaryOp} :
    ofSigns? text = some op ↔ Sign text op := by
  constructor
  · intro h
    unfold ofSigns? at h
    split at h
    next hother =>
      cases h
      exact hother ▸ .unequal
    next =>
      have hmem := List.mem_of_find?_eq_some h
      obtain rfl : op.symbol = text := by simpa using List.find?_some h
      simp only [List.mem_cons, List.not_mem_nil, or_false] at hmem
      rcases hmem with rfl | rfl | rfl | rfl | rfl | rfl <;> constructor
  · intro h
    cases h <;> rfl

namespace Parser

/-- An index is read if its text writes an integer of 64 bits. -/
theorem readInt64?_eq_some_iff_writes {text : List Char} {n : Int} :
    readInt64? text = some n ↔ WritesInt64 text n := by
  rw [readInt64?_eq_some_iff, fitsInt64_iff]
  constructor
  · rintro ⟨hwritten, hlow, hhigh⟩
    exact ⟨hwritten, hlow, hhigh⟩
  · rintro ⟨hwritten, hlow, hhigh⟩
    exact ⟨hwritten, hlow, hhigh⟩

/-- No integer is read exactly from the texts that write none in 64 bits. -/
theorem readInt64?_eq_none_iff {text : List Char} :
    readInt64? text = none ↔ ∀ n, ¬ WritesInt64 text n := by
  simp only [Option.eq_none_iff_forall_ne_some, ne_eq, readInt64?_eq_some_iff_writes]

/-- A number is read as what it denotes. -/
theorem numberValue?_eq_some_iff {text : String} {value : Value} :
    numberValue? text = some value ↔
      ∃ number, value = .number number ∧ DenotesNumber text.toList number := by
  constructor
  · intro h
    unfold numberValue? at h
    split at h
    next n hn =>
      cases h
      exact ⟨.int n, rfl, .int (readInt64?_eq_some_iff_writes.mp hn)⟩
    next hnone =>
      split at h
      next x hx =>
        cases h
        exact ⟨.float x, rfl,
          .float (readInt64?_eq_none_iff.mp hnone) (readBinary64?_eq_some_iff.mp hx)⟩
      next => cases h
  · rintro ⟨number, rfl, hnumber⟩
    unfold numberValue?
    cases hnumber with
    | int written =>
        rw [readInt64?_eq_some_iff_writes.mpr written]
        rfl
    | float not_int written =>
        rw [readInt64?_eq_none_iff.mpr not_int, readBinary64?_eq_some_iff.mpr written]

/-- Brackets are taken as the step that they stand for. -/
theorem bracketSegment_eq_iff {key : Expr} {segment : Segment} :
    bracketSegment key = segment ↔ DenotesStep key segment := by
  constructor
  · rintro rfl
    unfold bracketSegment
    split
    next name => exact .field name
    next i => exact .index i
    next not_name not_index => exact .lookup not_name not_index
  · intro h
    cases h with
    | field name => rfl
    | index i => rfl
    | lookup not_name not_index =>
        unfold bracketSegment
        split
        next name => exact absurd rfl (not_name name)
        next i => exact absurd rfl (not_index i)
        next => rfl

end Parser

/-! ## Balanced trees -/

/-- A tree has at least one operand. -/
theorem Grammar.Balanced.length_pos {op : BinaryOp} {operands : List Expr} {joined : Expr}
    (h : Balanced op operands joined) : 0 < operands.length := by
  induction h with
  | operand operand => exact Nat.one_pos
  | halves first second half ihfirst ihsecond =>
      rw [List.length_append]
      exact Nat.add_pos_left ihfirst _

/-- There is one balanced tree over given operands. -/
theorem Grammar.Balanced.unique {op : BinaryOp} {operands : List Expr} {joined joined' : Expr}
    (h : Balanced op operands joined) (h' : Balanced op operands joined') : joined = joined' := by
  induction h generalizing joined' with
  | operand operand =>
      generalize hoperands : [operand] = operands at h'
      cases h' with
      | operand => exact (List.cons.inj hoperands).1
      | halves first second half =>
          have hlength := congrArg List.length hoperands
          have hfirst := first.length_pos
          have hsecond := second.length_pos
          simp only [List.length_cons, List.length_nil, List.length_append] at hlength
          omega
  | @halves lefts rights left right first second half ihfirst ihsecond =>
      have hfirst := first.length_pos
      have hsecond := second.length_pos
      generalize hoperands : lefts ++ rights = operands at h'
      have hlength := congrArg List.length hoperands
      rw [List.length_append] at hlength
      cases h' with
      | operand =>
          rw [List.length_singleton] at hlength
          omega
      | halves first' second' half' =>
          -- Both split the same operands in the middle.
          rw [List.length_append] at hlength
          obtain ⟨rfl, rfl⟩ := List.append_inj hoperands (by omega)
          rw [ihfirst first', ihsecond second']

/-- The parser joins the operands of a chain to the balanced tree over them. -/
theorem Expr.balanced_eq_iff {op : BinaryOp} {first joined : Expr} {rest : List Expr} :
    balanced op first rest = joined ↔ Balanced op (first :: rest) joined := by
  have htree : Balanced op (first :: rest) (balanced op first rest) := by
    refine balanced_induction_halves (motive := Balanced op) .operand ?_ first rest
    intro lefts rights left right _ hhalf hleft hright
    rw [List.length_append] at hhalf
    exact .halves hleft hright (by omega)
  constructor
  · rintro rfl
    exact htree
  · exact htree.unique

end TextTemplate
