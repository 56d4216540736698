import TextTemplate.Node
/-! # The search for unknown filters

The search goes through the parts of an expression and of a node in a fixed order and stops at the
first filter call whose name is not that of a filter. So the first unknown filter of a whole is that
of its first part, or else that of the others.
-/

namespace TextTemplate

/-- The first unknown filter in a filter call: itself, or else one in its arguments. -/
def FilterCall.unknownFilter? (call : FilterCall) : Option FilterCall :=
  if (Filter.ofName? call.name).isNone then some call else unknownFilterInArgs? call.args

/-- The first unknown filter in a step of a path. -/
def Segment.unknownFilter? : Segment → Option FilterCall
  | .lookup key => key.unknownFilter?
  | _ => none

/-- The first unknown filter in an arm of a branch. -/
def Arm.unknownFilter? (arm : Arm) : Option FilterCall :=
  arm.condition.unknownFilter?.or (unknownFilterInNodes? arm.body)

theorem findSome?_cons_eq_or {α β : Type} (f : α → Option β) (item : α) (items : List α) :
    (item :: items).findSome? f = (f item).or (items.findSome? f) := by
  rw [List.findSome?_cons]
  cases f item <;> rfl

/-- The search goes through the arguments in order. -/
theorem unknownFilterInArgs?_eq (args : List Expr) :
    unknownFilterInArgs? args = args.findSome? Expr.unknownFilter? := by
  induction args with
  | nil => rfl
  | cons arg rest ih =>
      rw [unknownFilterInArgs?, ih, List.findSome?_cons]
      cases arg.unknownFilter? <;> rfl

/-- The search goes through the steps of a path in order. -/
theorem unknownFilterInPath?_eq (segments : List Segment) :
    unknownFilterInPath? segments = segments.findSome? Segment.unknownFilter? := by
  induction segments with
  | nil => rfl
  | cons segment rest ih =>
      rw [List.findSome?_cons]
      cases segment with
      | lookup key =>
          rw [unknownFilterInPath?, ih, Segment.unknownFilter?]
          cases key.unknownFilter? <;> rfl
      | field name => exact ih
      | index i => exact ih

/-- The search goes through the calls in order. -/
theorem unknownFilterInCalls?_eq (calls : List FilterCall) :
    unknownFilterInCalls? calls = calls.findSome? FilterCall.unknownFilter? := by
  induction calls with
  | nil => rfl
  | cons call rest ih =>
      obtain ⟨name, args, position⟩ := call
      rw [unknownFilterInCalls?, ih, List.findSome?_cons, FilterCall.unknownFilter?]
      split
      · rfl
      · cases unknownFilterInArgs? args <;> rfl

/-- The search goes through the nodes in order. -/
theorem unknownFilterInNodes?_eq (nodes : List Node) :
    unknownFilterInNodes? nodes = nodes.findSome? Node.unknownFilter? := by
  induction nodes with
  | nil => rfl
  | cons node rest ih =>
      rw [unknownFilterInNodes?, ih, List.findSome?_cons]
      cases node.unknownFilter? <;> rfl

/-- The search goes through the arms in order. -/
theorem unknownFilterInArms?_eq (arms : List Arm) :
    unknownFilterInArms? arms = arms.findSome? Arm.unknownFilter? := by
  induction arms with
  | nil => rfl
  | cons arm rest ih =>
      obtain ⟨condition, body, position⟩ := arm
      rw [unknownFilterInArms?, ih, List.findSome?_cons, Arm.unknownFilter?]
      cases condition.unknownFilter? <;> cases unknownFilterInNodes? body <;> rfl

namespace Expr

@[simp]
theorem unknownFilter?_literal (value : Value) : (literal value).unknownFilter? = none := rfl

@[simp]
theorem unknownFilter?_path (segments : List Segment) :
    (path segments).unknownFilter? = segments.findSome? Segment.unknownFilter? :=
  unknownFilterInPath?_eq segments

@[simp]
theorem unknownFilter?_filtered (base : Expr) (calls : List FilterCall) :
    (filtered base calls).unknownFilter? =
      base.unknownFilter?.or (calls.findSome? FilterCall.unknownFilter?) := by
  rw [unknownFilter?, unknownFilterInCalls?_eq]
  cases base.unknownFilter? <;> rfl

@[simp]
theorem unknownFilter?_binary (op : BinaryOp) (left right : Expr) :
    (binary op left right).unknownFilter? = left.unknownFilter?.or right.unknownFilter? := by
  rw [unknownFilter?]
  cases left.unknownFilter? <;> rfl

@[simp]
theorem unknownFilter?_not (operand : Expr) :
    (Expr.not operand).unknownFilter? = operand.unknownFilter? := rfl

@[simp]
theorem unknownFilter?_range (first last : Expr) (position : Position) :
    (range first last position).unknownFilter? =
      first.unknownFilter?.or last.unknownFilter? := by
  rw [unknownFilter?]
  cases first.unknownFilter? <;> rfl

/-- What holds of single operands, and of two halves joined if it holds of each, holds of operands
joined into a balanced tree. The first half is never the longer one. -/
theorem balanced_induction_halves {op : BinaryOp} {motive : List Expr → Expr → Prop}
    (single : ∀ operand, motive [operand] operand)
    (joined : ∀ lefts rights left right, 0 < lefts.length →
      lefts.length = (lefts ++ rights).length / 2 → motive lefts left → motive rights right →
      motive (lefts ++ rights) (.binary op left right)) (first : Expr) (rest : List Expr) :
    motive (first :: rest) (balanced op first rest) := by
  fun_induction balanced op first rest with
  | case1 first rest half hdrop =>
      -- The second half is empty only if there is a single operand.
      have hrest : rest = [] := by
        have hlength := List.drop_eq_nil_iff.mp hdrop
        apply List.eq_nil_of_length_eq_zero
        omega
      rw [hrest]
      exact single first
  | case2 first rest half middle after hdrop ihleft ihright =>
      have hsplit : first :: rest =
          (first :: rest.take (half - 1)) ++ (middle :: after) := by
        rw [← hdrop, List.cons_append, List.take_append_drop]
      have hhalf : (first :: rest.take (half - 1)).length =
          ((first :: rest.take (half - 1)) ++ (middle :: after)).length / 2 := by
        have hsome : 0 < (rest.drop (half - 1)).length := hdrop ▸ Nat.succ_pos _
        rw [List.length_drop] at hsome
        rw [← hsplit, List.length_cons, List.length_take, List.length_cons]
        omega
      rw [hsplit]
      exact joined _ _ _ _ (Nat.succ_pos _) hhalf ihleft ihright

/-- The same without the sizes of the halves. -/
theorem balanced_induction {op : BinaryOp} {motive : List Expr → Expr → Prop}
    (single : ∀ operand, motive [operand] operand)
    (joined : ∀ lefts rights left right, motive lefts left → motive rights right →
      motive (lefts ++ rights) (.binary op left right)) (first : Expr) (rest : List Expr) :
    motive (first :: rest) (balanced op first rest) :=
  balanced_induction_halves single
    (fun lefts rights left right _ _ => joined lefts rights left right) first rest

/-- The tree over a chain is searched from left to right, as the chain is. -/
theorem unknownFilter?_balanced (op : BinaryOp) (first : Expr) (rest : List Expr) :
    (balanced op first rest).unknownFilter? = (first :: rest).findSome? unknownFilter? := by
  refine balanced_induction (motive := fun operands joined =>
    joined.unknownFilter? = operands.findSome? unknownFilter?) ?_ ?_ first rest
  · intro operand
    rw [List.findSome?_cons, List.findSome?_nil]
    cases operand.unknownFilter? <;> rfl
  · intro lefts rights left right hleft hright
    rw [unknownFilter?_binary, hleft, hright, List.findSome?_append]

end Expr

namespace Node

@[simp]
theorem unknownFilter?_text (content : String) : (text content).unknownFilter? = none := rfl

@[simp]
theorem unknownFilter?_output (expr : Expr) (position : Position) :
    (output expr position).unknownFilter? = expr.unknownFilter? := rfl

@[simp]
theorem unknownFilter?_assign (name : String) (expr : Expr) (position : Position) :
    (assign name expr position).unknownFilter? = expr.unknownFilter? := rfl

@[simp]
theorem unknownFilter?_capture (name : String) (body : List Node) (position : Position) :
    (capture name body position).unknownFilter? = body.findSome? unknownFilter? :=
  unknownFilterInNodes?_eq body

@[simp]
theorem unknownFilter?_loop (header : LoopHeader) (body otherwise : List Node) :
    (loop header body otherwise).unknownFilter? = header.unknownFilter?.or
      ((body.findSome? unknownFilter?).or (otherwise.findSome? unknownFilter?)) := by
  simp only [unknownFilter?, unknownFilterInNodes?_eq]
  cases header.unknownFilter? <;> cases body.findSome? unknownFilter? <;> rfl

@[simp]
theorem unknownFilter?_branch (condition : Expr) (body : List Node) (arms : List Arm)
    (otherwise : List Node) (position : Position) :
    (branch condition body arms otherwise position).unknownFilter? =
      condition.unknownFilter?.or ((body.findSome? unknownFilter?).or
        ((arms.findSome? Arm.unknownFilter?).or (otherwise.findSome? unknownFilter?))) := by
  simp only [unknownFilter?, unknownFilterInNodes?_eq, unknownFilterInArms?_eq]
  cases condition.unknownFilter? <;> cases body.findSome? unknownFilter? <;>
    cases arms.findSome? Arm.unknownFilter? <;> rfl

end Node

/-- A loop header is searched at its iterable first, then at the limit, and at the offset last. -/
theorem LoopHeader.unknownFilter?_eq (header : LoopHeader) :
    header.unknownFilter? = header.iterable.unknownFilter?.or
      ((header.limit?.bind Expr.unknownFilter?).or (header.offset?.bind Expr.unknownFilter?)) := by
  rw [LoopHeader.unknownFilter?]
  cases header.iterable.unknownFilter? <;> cases header.limit?.bind Expr.unknownFilter? <;> rfl

end TextTemplate
