import TextTemplate.Position
import TextTemplate.Value.Basic
/-! # Expressions

What stands between the delimiters of an output tag, and what conditions, loops and assignments are
made of. Chains of `and` and of `or` are kept as balanced trees, so that a long chain stays shallow.
-/

namespace TextTemplate

/-- An operator between two expressions. -/
inductive BinaryOp where
  | eq
  | ne
  | lt
  | gt
  | le
  | ge
  | contains
  | and
  | or
deriving DecidableEq, Repr

namespace BinaryOp

/-- All operators. -/
def all : List BinaryOp := [.eq, .ne, .lt, .gt, .le, .ge, .contains, .and, .or]

/-- How an operator is written. -/
def symbol : BinaryOp → String
  | .eq => "=="
  | .ne => "!="
  | .lt => "<"
  | .gt => ">"
  | .le => "<="
  | .ge => ">="
  | .contains => "contains"
  | .and => "and"
  | .or => "or"

/-- The comparison written as `text` in signs; `<>` is another spelling of `!=`. -/
def ofSigns? (text : String) : Option BinaryOp :=
  if text = "<>" then some .ne
  else [BinaryOp.eq, .ne, .lt, .gt, .le, .ge].find? fun op => op.symbol == text

end BinaryOp

mutual

/-- An expression. -/
inductive Expr where
  | literal (value : Value)
  | path (segments : List Segment)
  | filtered (base : Expr) (calls : List FilterCall)
  | binary (op : BinaryOp) (left right : Expr)
  | not (operand : Expr)
  | range (first last : Expr) (position : Position)

/-- A step of a path: a name, an index, or an expression whose value is one of the two. -/
inductive Segment where
  | field (name : String)
  | index (i : Int)
  | lookup (key : Expr)

/-- A filter by its name, the arguments it is given, and the place of its name. -/
structure FilterCall where
  name : String
  args : List Expr
  position : Position

end

deriving instance Repr for Expr
deriving instance Inhabited for Expr

mutual

/-- Whether two expressions are the same, places included. -/
def Expr.decEq : (a b : Expr) → Decidable (a = b)
  | .literal value, b =>
    match b with
    | .literal value' => decidable_of_decidable_of_eq (Expr.literal.injEq value value').symm
    | .path _ | .filtered _ _ | .binary _ _ _ | .not _ | .range _ _ _ => isFalse nofun
  | .path segments, b =>
    match b with
    | .path segments' =>
      have := decEqPath segments segments'
      decidable_of_decidable_of_eq (Expr.path.injEq segments segments').symm
    | .literal _ | .filtered _ _ | .binary _ _ _ | .not _ | .range _ _ _ => isFalse nofun
  | .filtered base calls, b =>
    match b with
    | .filtered base' calls' =>
      have := Expr.decEq base base'
      have := decEqCalls calls calls'
      decidable_of_decidable_of_eq (Expr.filtered.injEq base calls base' calls').symm
    | .literal _ | .path _ | .binary _ _ _ | .not _ | .range _ _ _ => isFalse nofun
  | .binary op left right, b =>
    match b with
    | .binary op' left' right' =>
      have := Expr.decEq left left'
      have := Expr.decEq right right'
      decidable_of_decidable_of_eq (Expr.binary.injEq op left right op' left' right').symm
    | .literal _ | .path _ | .filtered _ _ | .not _ | .range _ _ _ => isFalse nofun
  | .not operand, b =>
    match b with
    | .not operand' =>
      have := Expr.decEq operand operand'
      decidable_of_decidable_of_eq (Expr.not.injEq operand operand').symm
    | .literal _ | .path _ | .filtered _ _ | .binary _ _ _ | .range _ _ _ => isFalse nofun
  | .range first last position, b =>
    match b with
    | .range first' last' position' =>
      have := Expr.decEq first first'
      have := Expr.decEq last last'
      decidable_of_decidable_of_eq
        (Expr.range.injEq first last position first' last' position').symm
    | .literal _ | .path _ | .filtered _ _ | .binary _ _ _ | .not _ => isFalse nofun

/-- Whether two paths are the same. -/
def decEqPath : (as bs : List Segment) → Decidable (as = bs)
  | [], [] => isTrue rfl
  | [], _ :: _ | _ :: _, [] => isFalse nofun
  | a :: as, b :: bs =>
    have := Segment.decEq a b
    have := decEqPath as bs
    decidable_of_decidable_of_eq (List.cons.injEq a as b bs).symm

/-- Whether two steps of a path are the same. -/
def Segment.decEq : (a b : Segment) → Decidable (a = b)
  | .field name, b =>
    match b with
    | .field name' => decidable_of_decidable_of_eq (Segment.field.injEq name name').symm
    | .index _ | .lookup _ => isFalse nofun
  | .index i, b =>
    match b with
    | .index i' => decidable_of_decidable_of_eq (Segment.index.injEq i i').symm
    | .field _ | .lookup _ => isFalse nofun
  | .lookup key, b =>
    match b with
    | .lookup key' =>
      have := Expr.decEq key key'
      decidable_of_decidable_of_eq (Segment.lookup.injEq key key').symm
    | .field _ | .index _ => isFalse nofun

/-- Whether two lists of filter calls are the same. -/
def decEqCalls : (as bs : List FilterCall) → Decidable (as = bs)
  | [], [] => isTrue rfl
  | [], _ :: _ | _ :: _, [] => isFalse nofun
  | ⟨name, args, position⟩ :: as, ⟨name', args', position'⟩ :: bs =>
    have := decEqArgs args args'
    have := decEqCalls as bs
    decidable_of_iff ((name = name' ∧ args = args' ∧ position = position') ∧ as = bs) (by simp)

/-- Whether two lists of arguments are the same. -/
def decEqArgs : (as bs : List Expr) → Decidable (as = bs)
  | [], [] => isTrue rfl
  | [], _ :: _ | _ :: _, [] => isFalse nofun
  | a :: as, b :: bs =>
    have := Expr.decEq a b
    have := decEqArgs as bs
    decidable_of_decidable_of_eq (List.cons.injEq a as b bs).symm

end

instance : DecidableEq Expr := Expr.decEq

namespace Expr

/-- The operands `first :: rest`, joined by an operator into a tree of which both halves are
balanced. The operands keep their order, and the first half is not the longer one. -/
def balanced (op : BinaryOp) (first : Expr) (rest : List Expr) : Expr :=
  let half := (rest.length + 1) / 2
  match h : rest.drop (half - 1) with
  | [] => first
  | middle :: after =>
    .binary op (balanced op first (rest.take (half - 1))) (balanced op middle after)
termination_by rest.length
decreasing_by
  · have hlength := congrArg List.length h
    simp only [List.length_drop, List.length_cons] at hlength
    simp only [List.length_take]
    omega
  · have hlength := congrArg List.length h
    simp only [List.length_drop, List.length_cons] at hlength
    omega

end Expr

end TextTemplate
