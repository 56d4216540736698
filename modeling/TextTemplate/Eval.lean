import TextTemplate.Error
import TextTemplate.Filter.Apply
import TextTemplate.Node
import TextTemplate.Scope
import TextTemplate.Value.Member
/-! # The value of an expression

Data is never an error: a path that leads nowhere is null, and so is a step into a value that has no
parts. What can fail is a filter that does not exist, a range that is too long, and sorting values
whose order contradicts itself.
-/

namespace TextTemplate

/-- What an operator says of the values of its two operands. -/
def BinaryOp.compare (op : BinaryOp) (left right : Value) : Bool :=
  match op with
  | .eq => left.equal right
  | .ne => !left.equal right
  | .lt => left.order? right == some .lt
  | .gt => left.order? right == some .gt
  | .le => left.order? right == some .lt || left.order? right == some .eq
  | .ge => left.order? right == some .gt || left.order? right == some .eq
  | .contains => left.contains right
  | .and => left.isTruthy && right.isTruthy
  | .or => left.isTruthy || right.isTruthy

/-- What expressions are evaluated in: the variables, and the greatest length of a range. -/
structure Context where
  scope : Scope
  maxIterations : Nat

namespace Context

/-- The path step that the value of a lookup stands for. -/
def stepOf? : Value → Option Key
  | .string name => some (.name name)
  | .number n => n.toInt64?.map Key.index
  | _ => none

/-- The integers from `first` to `last`. -/
def integers (first last : Int) : List Value :=
  (List.range (last - first + 1).toNat).map fun (i : Nat) => Value.ofInt (first + i)

/-- The value of a range between two bounds, which count as zero if they are no numbers. -/
def range (context : Context) (first last : Value) (position : Position) :
    Except TemplateError Value :=
  let first := first.toInt64?.getD 0
  let last := last.toInt64?.getD 0
  if last < first then .ok (.array [])
  else if (context.maxIterations : Int) < last - first + 1 then
    .error (.iterationLimitExceeded context.maxIterations position)
  else .ok (.array (integers first last))

/-- The value of a filter on an input. -/
def filterValue (filter : Filter) (input : Value) (args : List Value) :
    Except TemplateError Value :=
  match filter.value? input args with
  | none => .error (.internal .inconsistentOrder)
  | some value => .ok value

theorem filterValue_of_ne_sort {filter : Filter} (h : filter ≠ .sort) (input : Value)
    (args : List Value) : filterValue filter input args = .ok (filter.apply input args) := by
  rw [filterValue, Filter.value?_of_ne_sort h]

mutual

/-- The value of an expression. The second operand of `and` and of `or` is evaluated only if the
first does not decide. -/
def evaluate (context : Context) : Expr → Except TemplateError Value
  | .literal value => .ok value
  | .path [] => .ok .null
  | .path (.field name :: steps) =>
    match context.scope.get? name with
    | none => .ok .null
    | some value => follow context value steps
  | .path _ => .ok .null
  | .filtered base calls => do
    let value ← evaluate context base
    applyCalls context value calls
  | .binary op left right => do
    let left ← evaluate context left
    match op with
    | .and =>
      if left.isTruthy then
        let right ← evaluate context right
        pure (.bool right.isTruthy)
      else pure (.bool false)
    | .or =>
      if left.isTruthy then pure (.bool true)
      else
        let right ← evaluate context right
        pure (.bool right.isTruthy)
    | op =>
      let right ← evaluate context right
      pure (.bool (op.compare left right))
  | .not operand => do
    let value ← evaluate context operand
    pure (.bool !value.isTruthy)
  | .range first last position => do
    let first ← evaluate context first
    let last ← evaluate context last
    context.range first last position

/-- The value at the end of a path that starts in a value. Steps behind one that leads nowhere are
not evaluated. -/
def follow (context : Context) : Value → List Segment → Except TemplateError Value
  | value, [] => .ok value
  | value, .field name :: rest =>
    match value.get? (.name name) with
    | none => .ok .null
    | some next => follow context next rest
  | value, .index i :: rest =>
    match value.get? (.index i) with
    | none => .ok .null
    | some next => follow context next rest
  | value, .lookup key :: rest => do
    let key ← evaluate context key
    match (stepOf? key).bind value.get? with
    | none => pure .null
    | some next => follow context next rest

/-- The value of a chain of filters on an input, from left to right. -/
def applyCalls (context : Context) : Value → List FilterCall → Except TemplateError Value
  | value, [] => .ok value
  | value, ⟨name, args, position⟩ :: rest =>
    match Filter.ofName? name with
    | none => .error (.unknownFilter name position)
    | some filter => do
      let args ← evaluateAll context args
      let value ← filterValue filter value args
      applyCalls context value rest

/-- The values of a list of expressions. -/
def evaluateAll (context : Context) : List Expr → Except TemplateError (List Value)
  | [] => .ok []
  | expr :: rest => do
    let value ← evaluate context expr
    let values ← evaluateAll context rest
    pure (value :: values)

end

/-- Whether the value of an expression counts as true. -/
def holds (context : Context) (expr : Expr) : Except TemplateError Bool := do
  let value ← context.evaluate expr
  pure value.isTruthy

end Context

end TextTemplate
