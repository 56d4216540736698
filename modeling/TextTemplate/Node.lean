import TextTemplate.Expr
import TextTemplate.Filter.Basic
/-! # Nodes

The parts of a parsed template. The tags `if`, `unless` and `case` all become branches, and `raw`
and `comment` become text or nothing, so rendering knows five tags only.
-/

namespace TextTemplate

/-- What a loop runs over: the name of its variable, the expression whose elements it takes, and
which of them, in which order. -/
structure LoopHeader where
  name : String
  iterable : Expr
  reversed : Bool
  limit? : Option Expr
  offset? : Option Expr
  position : Position
deriving DecidableEq, Repr, Inhabited

mutual

/-- A part of a template. -/
inductive Node where
  | text (content : String)
  | output (expr : Expr) (position : Position)
  | loop (header : LoopHeader) (body otherwise : List Node)
  | branch (condition : Expr) (body : List Node) (arms : List Arm) (otherwise : List Node)
      (position : Position)
  | assign (name : String) (expr : Expr) (position : Position)
  | capture (name : String) (body : List Node) (position : Position)

/-- A further arm of a branch, tried when the conditions before it have failed. -/
structure Arm where
  condition : Expr
  body : List Node
  position : Position

end

deriving instance Repr for Node
deriving instance Inhabited for Node

mutual

/-- Whether two nodes are the same, places included. -/
def Node.decEq : (a b : Node) → Decidable (a = b)
  | .text content, b =>
    match b with
    | .text content' => decidable_of_decidable_of_eq (Node.text.injEq content content').symm
    | .output _ _ | .loop _ _ _ | .branch _ _ _ _ _ | .assign _ _ _ | .capture _ _ _ =>
      isFalse nofun
  | .output expr position, b =>
    match b with
    | .output expr' position' =>
      decidable_of_decidable_of_eq (Node.output.injEq expr position expr' position').symm
    | .text _ | .loop _ _ _ | .branch _ _ _ _ _ | .assign _ _ _ | .capture _ _ _ =>
      isFalse nofun
  | .loop header body otherwise, b =>
    match b with
    | .loop header' body' otherwise' =>
      have := decEqNodes body body'
      have := decEqNodes otherwise otherwise'
      decidable_of_decidable_of_eq
        (Node.loop.injEq header body otherwise header' body' otherwise').symm
    | .text _ | .output _ _ | .branch _ _ _ _ _ | .assign _ _ _ | .capture _ _ _ =>
      isFalse nofun
  | .branch condition body arms otherwise position, b =>
    match b with
    | .branch condition' body' arms' otherwise' position' =>
      have := decEqNodes body body'
      have := decEqArms arms arms'
      have := decEqNodes otherwise otherwise'
      decidable_of_decidable_of_eq (Node.branch.injEq condition body arms otherwise position
        condition' body' arms' otherwise' position').symm
    | .text _ | .output _ _ | .loop _ _ _ | .assign _ _ _ | .capture _ _ _ => isFalse nofun
  | .assign name expr position, b =>
    match b with
    | .assign name' expr' position' =>
      decidable_of_decidable_of_eq
        (Node.assign.injEq name expr position name' expr' position').symm
    | .text _ | .output _ _ | .loop _ _ _ | .branch _ _ _ _ _ | .capture _ _ _ =>
      isFalse nofun
  | .capture name body position, b =>
    match b with
    | .capture name' body' position' =>
      have := decEqNodes body body'
      decidable_of_decidable_of_eq
        (Node.capture.injEq name body position name' body' position').symm
    | .text _ | .output _ _ | .loop _ _ _ | .branch _ _ _ _ _ | .assign _ _ _ => isFalse nofun

/-- Whether two lists of nodes are the same. -/
def decEqNodes : (as bs : List Node) → Decidable (as = bs)
  | [], [] => isTrue rfl
  | [], _ :: _ | _ :: _, [] => isFalse nofun
  | a :: as, b :: bs =>
    have := Node.decEq a b
    have := decEqNodes as bs
    decidable_of_decidable_of_eq (List.cons.injEq a as b bs).symm

/-- Whether two lists of arms are the same. -/
def decEqArms : (as bs : List Arm) → Decidable (as = bs)
  | [], [] => isTrue rfl
  | [], _ :: _ | _ :: _, [] => isFalse nofun
  | ⟨condition, body, position⟩ :: as, ⟨condition', body', position'⟩ :: bs =>
    have := decEqNodes body body'
    have := decEqArms as bs
    decidable_of_iff ((condition = condition' ∧ body = body' ∧ position = position') ∧ as = bs)
      (by simp)

end

instance : DecidableEq Node := Node.decEq

mutual

/-- The first filter call in an expression whose name is not that of a filter. -/
def Expr.unknownFilter? : Expr → Option FilterCall
  | .literal _ => none
  | .path segments => unknownFilterInPath? segments
  | .filtered base calls =>
    match base.unknownFilter? with
    | some call => some call
    | none => unknownFilterInCalls? calls
  | .binary _ left right =>
    match left.unknownFilter? with
    | some call => some call
    | none => right.unknownFilter?
  | .not operand => operand.unknownFilter?
  | .range first last _ =>
    match first.unknownFilter? with
    | some call => some call
    | none => last.unknownFilter?

/-- The first such call in the lookups of a path. -/
def unknownFilterInPath? : List Segment → Option FilterCall
  | [] => none
  | .lookup key :: rest =>
    match key.unknownFilter? with
    | some call => some call
    | none => unknownFilterInPath? rest
  | _ :: rest => unknownFilterInPath? rest

/-- The first such call in a chain of calls, before its arguments. -/
def unknownFilterInCalls? : List FilterCall → Option FilterCall
  | [] => none
  | ⟨name, args, position⟩ :: rest =>
    if (Filter.ofName? name).isNone then some ⟨name, args, position⟩
    else
      match unknownFilterInArgs? args with
      | some call => some call
      | none => unknownFilterInCalls? rest

/-- The first such call in a list of arguments. -/
def unknownFilterInArgs? : List Expr → Option FilterCall
  | [] => none
  | arg :: rest =>
    match arg.unknownFilter? with
    | some call => some call
    | none => unknownFilterInArgs? rest

end

/-- The first unknown filter in what a loop runs over. -/
def LoopHeader.unknownFilter? (header : LoopHeader) : Option FilterCall :=
  header.iterable.unknownFilter? <|> header.limit?.bind Expr.unknownFilter? <|>
    header.offset?.bind Expr.unknownFilter?

mutual

/-- The first filter call in a node whose name is not that of a filter. -/
def Node.unknownFilter? : Node → Option FilterCall
  | .text _ => none
  | .output expr _ => expr.unknownFilter?
  | .assign _ expr _ => expr.unknownFilter?
  | .loop header body otherwise =>
    match header.unknownFilter? with
    | some call => some call
    | none =>
      match unknownFilterInNodes? body with
      | some call => some call
      | none => unknownFilterInNodes? otherwise
  | .branch condition body arms otherwise _ =>
    match condition.unknownFilter? with
    | some call => some call
    | none =>
      match unknownFilterInNodes? body with
      | some call => some call
      | none =>
        match unknownFilterInArms? arms with
        | some call => some call
        | none => unknownFilterInNodes? otherwise
  | .capture _ body _ => unknownFilterInNodes? body

/-- The first such call in a list of nodes. -/
def unknownFilterInNodes? : List Node → Option FilterCall
  | [] => none
  | node :: rest =>
    match node.unknownFilter? with
    | some call => some call
    | none => unknownFilterInNodes? rest

/-- The first such call in the arms of a branch. -/
def unknownFilterInArms? : List Arm → Option FilterCall
  | [] => none
  | ⟨condition, body, _⟩ :: rest =>
    match condition.unknownFilter? with
    | some call => some call
    | none =>
      match unknownFilterInNodes? body with
      | some call => some call
      | none => unknownFilterInArms? rest

end

end TextTemplate
