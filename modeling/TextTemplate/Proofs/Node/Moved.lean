import TextTemplate.Error
import TextTemplate.Proofs.Node.UnknownFilter
import TextTemplate.Token.Lexer
/-! # The same tokens and nodes in another place

Tokens and nodes remember where in the source they stand, for errors to point at. `moved f` puts
every such place through `f` and leaves the rest as it is: which filters are named, and which
operands stand under which operator, has nothing to do with places.
-/

namespace TextTemplate

/-- The token at another place. -/
def Token.moved (f : Position → Position) (token : Token) : Token :=
  { token with position := f token.position }

/-- The error at another place. -/
def SyntaxError.moved (f : Position → Position) (error : SyntaxError) : SyntaxError :=
  ⟨error.cause, f error.position⟩

/-- The stream at another place. -/
def TokenStream.moved (f : Position → Position) (stream : TokenStream) : TokenStream :=
  ⟨stream.tokens.map (Token.moved f), stream.failure?.map (SyntaxError.moved f)⟩

@[simp]
theorem Token.moved_id (token : Token) : token.moved id = token := rfl

@[simp]
theorem SyntaxError.moved_id (error : SyntaxError) : error.moved id = error := rfl

mutual

/-- The expression with its places moved. -/
def Expr.moved (f : Position → Position) : Expr → Expr
  | .literal value => .literal value
  | .path segments => .path (movedSteps f segments)
  | .filtered base calls => .filtered (base.moved f) (movedCalls f calls)
  | .binary op left right => .binary op (left.moved f) (right.moved f)
  | .not operand => .not (operand.moved f)
  | .range first last position => .range (first.moved f) (last.moved f) (f position)

/-- The steps of a path with their places moved. -/
def movedSteps (f : Position → Position) : List Segment → List Segment
  | [] => []
  | .field name :: rest => .field name :: movedSteps f rest
  | .index i :: rest => .index i :: movedSteps f rest
  | .lookup key :: rest => .lookup (key.moved f) :: movedSteps f rest

/-- Filter calls with their places moved. -/
def movedCalls (f : Position → Position) : List FilterCall → List FilterCall
  | [] => []
  | ⟨name, args, position⟩ :: rest => ⟨name, movedArgs f args, f position⟩ :: movedCalls f rest

/-- Expressions with their places moved. -/
def movedArgs (f : Position → Position) : List Expr → List Expr
  | [] => []
  | arg :: rest => arg.moved f :: movedArgs f rest

end

/-- The step of a path with its places moved. -/
def Segment.moved (f : Position → Position) : Segment → Segment
  | .field name => .field name
  | .index i => .index i
  | .lookup key => .lookup (key.moved f)

/-- The filter call with its places moved. -/
def FilterCall.moved (f : Position → Position) (call : FilterCall) : FilterCall :=
  ⟨call.name, movedArgs f call.args, f call.position⟩

/-- The loop header with its places moved. -/
def LoopHeader.moved (f : Position → Position) (header : LoopHeader) : LoopHeader :=
  { header with
    iterable := header.iterable.moved f
    limit? := header.limit?.map (Expr.moved f)
    offset? := header.offset?.map (Expr.moved f)
    position := f header.position }

mutual

/-- The node with its places moved. -/
def Node.moved (f : Position → Position) : Node → Node
  | .text content => .text content
  | .output expr position => .output (expr.moved f) (f position)
  | .loop header body otherwise =>
    .loop (header.moved f) (movedNodes f body) (movedNodes f otherwise)
  | .branch condition body arms otherwise position =>
    .branch (condition.moved f) (movedNodes f body) (movedArms f arms) (movedNodes f otherwise)
      (f position)
  | .assign name expr position => .assign name (expr.moved f) (f position)
  | .capture name body position => .capture name (movedNodes f body) (f position)

/-- Nodes with their places moved. -/
def movedNodes (f : Position → Position) : List Node → List Node
  | [] => []
  | node :: rest => node.moved f :: movedNodes f rest

/-- The arms of a branch with their places moved. -/
def movedArms (f : Position → Position) : List Arm → List Arm
  | [] => []
  | ⟨condition, body, position⟩ :: rest =>
    ⟨condition.moved f, movedNodes f body, f position⟩ :: movedArms f rest

end

/-- The error at another place of the template. The faults of a document are not in the template. -/
def TemplateError.moved (f : Position → Position) : TemplateError → TemplateError
  | .invalidDocument cause position => .invalidDocument cause position
  | .malformed ⟨cause, position⟩ => .malformed ⟨cause, f position⟩
  | .unknownFilter name position => .unknownFilter name (f position)
  | .iterationLimitExceeded limit position => .iterationLimitExceeded limit (f position)
  | .internal breakdown => .internal breakdown

section Lists

variable (f : Position → Position)

theorem movedArgs_eq (args : List Expr) : movedArgs f args = args.map (Expr.moved f) := by
  induction args with
  | nil => rfl
  | cons arg rest ih => rw [movedArgs, ih, List.map_cons]

theorem movedSteps_eq (segments : List Segment) :
    movedSteps f segments = segments.map (Segment.moved f) := by
  induction segments with
  | nil => rfl
  | cons segment rest ih => cases segment <;> rw [movedSteps, ih, List.map_cons, Segment.moved]

theorem movedCalls_eq (calls : List FilterCall) :
    movedCalls f calls = calls.map (FilterCall.moved f) := by
  induction calls with
  | nil => rfl
  | cons call rest ih =>
      obtain ⟨name, args, position⟩ := call
      rw [movedCalls, ih, List.map_cons, FilterCall.moved]

theorem movedNodes_eq (nodes : List Node) : movedNodes f nodes = nodes.map (Node.moved f) := by
  induction nodes with
  | nil => rfl
  | cons node rest ih => rw [movedNodes, ih, List.map_cons]

/-- Moving goes through a list of nodes one by one. -/
theorem movedNodes_append (nodes nodes' : List Node) :
    movedNodes f (nodes ++ nodes') = movedNodes f nodes ++ movedNodes f nodes' := by
  simp only [movedNodes_eq, List.map_append]

end Lists

/-! ## Places that stay -/

mutual

@[simp]
theorem Expr.moved_id : ∀ expr : Expr, expr.moved id = expr
  | .literal value => rfl
  | .path segments => by rw [Expr.moved, movedSteps_id]
  | .filtered base calls => by rw [Expr.moved, base.moved_id, movedCalls_id]
  | .binary op left right => by rw [Expr.moved, left.moved_id, right.moved_id]
  | .not operand => by rw [Expr.moved, operand.moved_id]
  | .range first last position => by rw [Expr.moved, first.moved_id, last.moved_id, id]

theorem movedSteps_id : ∀ segments : List Segment, movedSteps id segments = segments
  | [] => rfl
  | .field name :: rest => by rw [movedSteps, movedSteps_id rest]
  | .index i :: rest => by rw [movedSteps, movedSteps_id rest]
  | .lookup key :: rest => by rw [movedSteps, key.moved_id, movedSteps_id rest]

theorem movedCalls_id : ∀ calls : List FilterCall, movedCalls id calls = calls
  | [] => rfl
  | ⟨name, args, position⟩ :: rest => by rw [movedCalls, movedArgs_id, movedCalls_id rest, id]

theorem movedArgs_id : ∀ args : List Expr, movedArgs id args = args
  | [] => rfl
  | arg :: rest => by rw [movedArgs, arg.moved_id, movedArgs_id rest]

end

@[simp]
theorem LoopHeader.moved_id (header : LoopHeader) : header.moved id = header := by
  have hexpr : Expr.moved id = id := funext Expr.moved_id
  rw [moved, hexpr, Option.map_id, id, id, id, id]

mutual

@[simp]
theorem Node.moved_id : ∀ node : Node, node.moved id = node
  | .text content => rfl
  | .output expr position => by rw [Node.moved, expr.moved_id, id]
  | .loop header body otherwise => by
      rw [Node.moved, header.moved_id, movedNodes_id body, movedNodes_id otherwise]
  | .branch condition body arms otherwise position => by
      rw [Node.moved, condition.moved_id, movedNodes_id body, movedArms_id arms,
        movedNodes_id otherwise, id]
  | .assign name expr position => by rw [Node.moved, expr.moved_id, id]
  | .capture name body position => by rw [Node.moved, movedNodes_id body, id]

@[simp]
theorem movedNodes_id : ∀ nodes : List Node, movedNodes id nodes = nodes
  | [] => rfl
  | node :: rest => by rw [movedNodes, node.moved_id, movedNodes_id rest]

theorem movedArms_id : ∀ arms : List Arm, movedArms id arms = arms
  | [] => rfl
  | ⟨condition, body, position⟩ :: rest => by
      rw [movedArms, condition.moved_id, movedNodes_id body, movedArms_id rest, id]

end

/-- Left in its place, an error stays the same. -/
@[simp]
theorem TemplateError.moved_id (error : TemplateError) : error.moved id = error := by
  cases error <;> rfl

/-! ## Operands and filters keep their order -/

section Order

variable (f : Position → Position)

/-- A chain of one operand is that operand. -/
theorem Expr.balanced_of_drop_nil (op : BinaryOp) (first : Expr) {rest : List Expr}
    (h : rest.drop ((rest.length + 1) / 2 - 1) = []) : balanced op first rest = first := by
  rw [balanced]
  split
  · rfl
  next middle after hcons => cases h.symm.trans hcons

/-- A longer chain is cut in the middle, and both halves are joined below one operator. -/
theorem Expr.balanced_of_drop_cons (op : BinaryOp) (first : Expr) {rest after : List Expr}
    {middle : Expr} (h : rest.drop ((rest.length + 1) / 2 - 1) = middle :: after) :
    balanced op first rest =
      .binary op (balanced op first (rest.take ((rest.length + 1) / 2 - 1)))
        (balanced op middle after) := by
  rw [balanced]
  split
  next hnil => cases h.symm.trans hnil
  next middle' after' hcons =>
    obtain ⟨rfl, rfl⟩ := List.cons.inj (h.symm.trans hcons)
    rfl

/-- A tree of moved operands is the moved tree: its shape depends on the number of operands only. -/
theorem Expr.moved_balanced (op : BinaryOp) (first : Expr) (rest : List Expr) :
    (balanced op first rest).moved f = balanced op (first.moved f) (rest.map (moved f)) := by
  -- The operands are halved in the same way whatever their places.
  have hdrop_map : (rest.map (moved f)).drop (((rest.map (moved f)).length + 1) / 2 - 1) =
      (rest.drop ((rest.length + 1) / 2 - 1)).map (moved f) := by
    rw [List.length_map, List.map_drop]
  fun_induction balanced op first rest with
  | case1 first rest half hdrop =>
      rw [hdrop, List.map_nil] at hdrop_map
      rw [balanced_of_drop_nil op _ hdrop_map]
  | case2 first rest half middle after hdrop ihleft ihright =>
      rw [hdrop, List.map_cons] at hdrop_map
      have hleft := ihleft (by rw [List.length_map, List.map_drop])
      have hright := ihright (by rw [List.length_map, List.map_drop])
      rw [balanced_of_drop_cons op _ hdrop_map, moved, hleft, hright, List.length_map,
        List.map_take]

mutual

/-- The first unknown filter of an expression moves with it. -/
theorem Expr.unknownFilter?_moved : ∀ expr : Expr,
    (expr.moved f).unknownFilter? = expr.unknownFilter?.map (FilterCall.moved f)
  | .literal value => rfl
  | .path segments => unknownFilterInPath?_moved segments
  | .filtered base calls => by
      rw [Expr.moved, Expr.unknownFilter?, Expr.unknownFilter?, base.unknownFilter?_moved,
        unknownFilterInCalls?_moved calls]
      cases base.unknownFilter? <;> rfl
  | .binary op left right => by
      rw [Expr.moved, Expr.unknownFilter?, Expr.unknownFilter?, left.unknownFilter?_moved,
        right.unknownFilter?_moved]
      cases left.unknownFilter? <;> rfl
  | .not operand => operand.unknownFilter?_moved
  | .range first last position => by
      rw [Expr.moved, Expr.unknownFilter?, Expr.unknownFilter?, first.unknownFilter?_moved,
        last.unknownFilter?_moved]
      cases first.unknownFilter? <;> rfl

theorem unknownFilterInPath?_moved : ∀ segments : List Segment,
    unknownFilterInPath? (movedSteps f segments) =
      (unknownFilterInPath? segments).map (FilterCall.moved f)
  | [] => rfl
  | .field name :: rest => unknownFilterInPath?_moved rest
  | .index i :: rest => unknownFilterInPath?_moved rest
  | .lookup key :: rest => by
      rw [movedSteps, unknownFilterInPath?, unknownFilterInPath?, key.unknownFilter?_moved,
        unknownFilterInPath?_moved rest]
      cases key.unknownFilter? <;> rfl

theorem unknownFilterInCalls?_moved : ∀ calls : List FilterCall,
    unknownFilterInCalls? (movedCalls f calls) =
      (unknownFilterInCalls? calls).map (FilterCall.moved f)
  | [] => rfl
  | ⟨name, args, position⟩ :: rest => by
      rw [movedCalls, unknownFilterInCalls?, unknownFilterInCalls?,
        unknownFilterInArgs?_moved args, unknownFilterInCalls?_moved rest]
      split
      · rfl
      · cases unknownFilterInArgs? args <;> rfl

theorem unknownFilterInArgs?_moved : ∀ args : List Expr,
    unknownFilterInArgs? (movedArgs f args) =
      (unknownFilterInArgs? args).map (FilterCall.moved f)
  | [] => rfl
  | arg :: rest => by
      rw [movedArgs, unknownFilterInArgs?, unknownFilterInArgs?, arg.unknownFilter?_moved,
        unknownFilterInArgs?_moved rest]
      cases arg.unknownFilter? <;> rfl

end

/-- A loop header that is moved names the same first unknown filter in its new place. -/
theorem LoopHeader.unknownFilter?_moved (header : LoopHeader) :
    (header.moved f).unknownFilter? = header.unknownFilter?.map (FilterCall.moved f) := by
  obtain ⟨name, iterable, reversed, limit?, offset?, position⟩ := header
  simp only [moved, unknownFilter?_eq, Expr.unknownFilter?_moved, Option.bind_map]
  cases limit? <;> cases offset? <;>
    simp [Expr.unknownFilter?_moved, Option.map_or]

mutual

/-- The first unknown filter of a node moves with it. -/
theorem Node.unknownFilter?_moved : ∀ node : Node,
    (node.moved f).unknownFilter? = node.unknownFilter?.map (FilterCall.moved f)
  | .text content => rfl
  | .output expr position => expr.unknownFilter?_moved f
  | .assign name expr position => expr.unknownFilter?_moved f
  | .capture name body position => unknownFilterInNodes?_moved body
  | .loop header body otherwise => by
      rw [Node.moved, Node.unknownFilter?, Node.unknownFilter?, header.unknownFilter?_moved,
        unknownFilterInNodes?_moved body, unknownFilterInNodes?_moved otherwise]
      cases header.unknownFilter? <;> cases unknownFilterInNodes? body <;> rfl
  | .branch condition body arms otherwise position => by
      rw [Node.moved, Node.unknownFilter?, Node.unknownFilter?, condition.unknownFilter?_moved,
        unknownFilterInNodes?_moved body, unknownFilterInArms?_moved arms,
        unknownFilterInNodes?_moved otherwise]
      cases condition.unknownFilter? <;> cases unknownFilterInNodes? body <;>
        cases unknownFilterInArms? arms <;> rfl

theorem unknownFilterInNodes?_moved : ∀ nodes : List Node,
    unknownFilterInNodes? (movedNodes f nodes) =
      (unknownFilterInNodes? nodes).map (FilterCall.moved f)
  | [] => rfl
  | node :: rest => by
      rw [movedNodes, unknownFilterInNodes?, unknownFilterInNodes?, node.unknownFilter?_moved,
        unknownFilterInNodes?_moved rest]
      cases node.unknownFilter? <;> rfl

theorem unknownFilterInArms?_moved : ∀ arms : List Arm,
    unknownFilterInArms? (movedArms f arms) =
      (unknownFilterInArms? arms).map (FilterCall.moved f)
  | [] => rfl
  | ⟨condition, body, position⟩ :: rest => by
      rw [movedArms, unknownFilterInArms?, unknownFilterInArms?, condition.unknownFilter?_moved,
        unknownFilterInNodes?_moved body, unknownFilterInArms?_moved rest]
      cases condition.unknownFilter? <;> cases unknownFilterInNodes? body <;> rfl

end

end Order

end TextTemplate
