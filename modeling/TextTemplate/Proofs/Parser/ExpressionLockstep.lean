import TextTemplate.Proofs.Parser.Lockstep
/-! # Expressions are parsed in step

Each rule of the grammar keeps two parsers in step if their parsers of primary expressions are, and
a bracket or a parenthesis leads one level deeper on either side. The induction on the levels that
are left comes last: as many as are left are missing to the limit.
-/

namespace TextTemplate.Parser

/-- The expressions that two parsers yield differ in their places only. -/
abbrev ExprInStep (runs : Difference) (height : Int) (p q : Parser Expr) : Prop :=
  InStep runs height p q (Expr.moved runs.move)

variable {runs : Difference} {height : Int} {primary primary' : Parser Expr}

/-- Arguments are read in step if primary expressions are. -/
theorem ExprInStep.arguments (h : ExprInStep runs height primary primary') :
    InStep runs height (arguments primary) (arguments primary') (movedArgs runs.move) := by
  apply (inStep_eat rfl).bind
  intro eaten
  cases eaten with
  | false => exact inStep_pure rfl
  | true =>
      apply h.bind
      intro first
      have hcomma : TokenKind.comma.isFlat = true := rfl
      apply ((inStep_eat hcomma).behind h).many.bind
      intro rest
      exact inStep_pure (by rw [movedArgs, movedArgs_eq])

/-- Filter calls are read in step, and remember their places. -/
theorem ExprInStep.filterCall? (h : ExprInStep runs height primary primary') :
    InStep runs height (filterCall? primary) (filterCall? primary')
      (Option.map (FilterCall.moved runs.move)) := by
  apply (inStep_eat rfl).bind
  intro eaten
  cases eaten with
  | false => exact inStep_pure rfl
  | true =>
      apply (inStep_expect rfl).bind
      intro name
      exact h.arguments.bind fun args => inStep_pure rfl

theorem ExprInStep.filtered (h : ExprInStep runs height primary primary') :
    ExprInStep runs height (filtered primary) (filtered primary') := by
  apply h.bind
  intro base
  apply h.filterCall?.many.bind
  intro calls
  cases calls with
  | nil => exact inStep_pure rfl
  | cons call calls => exact inStep_pure (by rw [Expr.moved, movedCalls_eq])

/-- Comparison signs are read in step: no operator remembers its place. -/
theorem inStep_comparisonOp? : InStep runs height comparisonOp? comparisonOp? id := by
  intro cursor
  apply inStepFrom_peek_bind
  · exact inStepFrom_pure rfl rfl
  · intro token rest htokens
    dsimp only [Token.moved]
    split
    next hkind =>
      apply inStepFrom_advance_cons htokens
      exact .flat hkind rfl (inStepFrom_pure rfl rfl)
    split
    next hkind =>
      apply inStepFrom_advance_cons htokens
      refine .flat hkind rfl ?_
      split
      · exact inStepFrom_pure rfl rfl
      · exact inStepFrom_unexpected
    next => exact inStepFrom_pure rfl rfl

/-- Comparisons are read in step. -/
theorem ExprInStep.comparison (h : ExprInStep runs height primary primary') :
    ExprInStep runs height (comparison primary) (comparison primary') := by
  apply h.filtered.bind
  intro left
  apply inStep_comparisonOp?.bind
  intro op?
  cases op? with
  | none => exact inStep_pure rfl
  | some op => exact h.filtered.bind fun _ => inStep_pure rfl

/-- Chains are read in step, since the tree depends on the number of the operands only. -/
theorem ExprInStep.chain {word : Keyword} {op : BinaryOp} {operand operand' : Parser Expr}
    (h : ExprInStep runs height operand operand') :
    ExprInStep runs height (chain word op operand) (chain word op operand') := by
  apply h.bind
  intro first
  have hword : (TokenKind.keyword word).isFlat = true := rfl
  apply ((inStep_eat hword).behind h).many.bind
  intro rest
  exact inStep_pure (Expr.moved_balanced runs.move op first rest).symm

theorem ExprInStep.expression (h : ExprInStep runs height primary primary') :
    ExprInStep runs height (expression primary) (expression primary') :=
  h.comparison.chain.chain

theorem inStep_dotSegment :
    InStep runs height dotSegment dotSegment (Segment.moved runs.move) := by
  intro cursor
  apply inStepFrom_take_bind
  intro token rest _
  dsimp only [Token.moved]
  split
  next hkind => exact .flat hkind rfl (inStepFrom_pure rfl rfl)
  next hkind => exact .flat hkind rfl (inStepFrom_pure rfl rfl)
  next hkind =>
    refine .flat hkind rfl ?_
    split
    · exact inStepFrom_pure rfl rfl
    · exact inStepFrom_unexpected
  next => exact inStepFrom_unexpected

/-- What brackets hold becomes the same step wherever it stands. -/
theorem bracketSegment_moved (f : Position → Position) (key : Expr) :
    bracketSegment (key.moved f) = (bracketSegment key).moved f := by
  cases key with
  | literal value =>
      rw [Expr.moved]
      unfold bracketSegment
      split <;> rfl
  | _ => rfl

/-- Steps of a path are read in step, those in brackets one level deeper. -/
theorem inStep_segment? {inner? inner'? : Option (Parser Expr)}
    (hinner : Deeper runs height (ExprInStep runs (height + 1)) inner? inner'?) :
    InStep runs height (segment? runs.limit inner?) (segment? runs.limit' inner'?)
      (Option.map (Segment.moved runs.move)) := by
  apply (inStep_eat rfl).bind
  intro eaten
  cases eaten with
  | true => exact inStep_dotSegment.bind fun _ => inStep_pure rfl
  | false =>
      intro cursor
      apply inStepFrom_peek_bind
      · exact inStepFrom_pure rfl rfl
      · intro token rest htokens
        dsimp only [Token.moved]
        split
        next hkind =>
          have hopens : levelChange token rest = 1 := levelChange_of_opening (.inl hkind) rest
          have hsplit : cursor.tokens = token :: ([] ++ (cursor.after htokens).tokens) := htokens
          apply inStepFrom_nested [] hinner hsplit rfl hopens rfl
          · exact advance_bind_of_cons htokens _
          · exact advance_bind_moved htokens runs.move _
          · intro inner inner' h
            apply (h.expression _).then
            intro key next _ _
            exact inStepFrom_closing (.inl rfl) (by rw [bracketSegment_moved]; rfl)
        next => exact inStepFrom_pure rfl rfl

/-- The bounds of a range are read in step, up to the parenthesis that closes its level. -/
theorem ExprInStep.rangeBody {position : Position}
    (h : ExprInStep runs (height + 1) primary primary') (cursor : Cursor) :
    InStepFrom runs (height + 1) cursor (rangeBody position primary)
      (rangeBody (runs.move position) primary') (Expr.moved runs.move)
      fun _ change => 1 + change = 0 := by
  apply (h cursor).then
  intro first next _ _
  apply (inStep_expect rfl next).then
  intro _ next _ _
  apply (h next).then
  intro last next _ _
  exact inStepFrom_closing (.inr rfl) rfl

/-- Primary expressions are read in step if those one level deeper are. -/
theorem inStep_primaryWith {inner? inner'? : Option (Parser Expr)}
    (hinner : Deeper runs height (ExprInStep runs (height + 1)) inner? inner'?) :
    ExprInStep runs height (primaryWith runs.limit inner?) (primaryWith runs.limit' inner'?) := by
  intro cursor
  by_cases hparen : ∃ token rest, cursor.tokens = token :: rest ∧ token.kind = .leftParen
  · obtain ⟨token, rest, htokens, hkind⟩ := hparen
    have hopens : levelChange token rest = 1 := levelChange_of_opening (.inr hkind) rest
    have hsplit : cursor.tokens = token :: ([] ++ (cursor.after htokens).tokens) := htokens
    have hfirst : primaryWith runs.limit inner? cursor =
        nested runs.limit inner? token.position (rangeBody token.position)
          (cursor.after htokens) := by
      rw [primaryWith, take_bind_of_cons htokens]
      simp only [hkind]
    have hsecond : primaryWith runs.limit' inner'? (cursor.moved runs.move) =
        nested runs.limit' inner'? (runs.move token.position)
          (rangeBody (runs.move token.position)) ((cursor.after htokens).moved runs.move) := by
      rw [primaryWith, take_bind_moved htokens]
      simp only [Token.moved, hkind]
    exact inStepFrom_nested [] hinner hsplit rfl hopens rfl hfirst hsecond
      fun inner inner' h => h.rangeBody _
  · apply inStepFrom_take_bind
    intro token rest htokens
    -- Every other token that an expression can begin with leaves the levels alone.
    have hother : token.kind ≠ .leftParen := fun hkind => hparen ⟨token, rest, htokens, hkind⟩
    dsimp only [Token.moved]
    split
    next hkind => exact .flat hkind rfl (inStepFrom_pure rfl rfl)
    next hkind =>
      refine .flat hkind rfl ?_
      split
      · exact inStepFrom_pure rfl rfl
      · exact inStepFrom_unexpected
    next hkind => exact .flat hkind rfl (inStepFrom_pure rfl rfl)
    next hkind => exact .flat hkind rfl (inStepFrom_pure rfl rfl)
    next hkind => exact .flat hkind rfl (inStepFrom_pure rfl rfl)
    next hkind => exact absurd hkind hother
    next hkind =>
      refine .flat hkind rfl (((inStep_segment? hinner).many (cursor.after htokens)).then ?_)
      intro steps next _ _
      exact inStepFrom_pure rfl (by rw [Expr.moved, movedSteps, movedSteps_eq])
    next => exact inStepFrom_unexpected

/-- The levels that are left to two parsers where `height` levels are open: those that are missing
to the limit of their run, of which the second is not the smaller. -/
structure Left (runs : Difference) (height : Int) (budget budget' : Nat) : Prop where
  first : height + budget = runs.limit
  second : height + budget' = runs.limit'
  le : runs.limit ≤ runs.limit'

/-- With no budget left, as many levels are open as the limit allows. -/
theorem Left.full {budget' : Nat} (h : Left runs height 0 budget') : height = runs.limit := by
  obtain ⟨hfirst, -, -⟩ := h
  omega

/-- Under the same limit both runs have the same budget left. -/
theorem Left.eq_zero {budget' : Nat} (h : Left runs height 0 budget')
    (hsame : runs.limit = runs.limit') : budget' = 0 := by
  obtain ⟨hfirst, hsecond, -⟩ := h
  omega

/-- One level deeper there is one level less in both budgets. -/
theorem Left.below {budget budget' : Nat} (h : Left runs height (budget + 1) budget') :
    ∃ below, budget' = below + 1 ∧ Left runs (height + 1) budget below := by
  obtain ⟨hfirst, hsecond, hle⟩ := h
  exact ⟨budget' - 1, by omega, by omega, by omega, hle⟩

/-- The parser of primary expressions of the next level, if there is one. -/
def primary? (limit budget : Nat) : Option (Parser Expr) := (inner? limit budget).map Inner.primary

theorem primary_eq_primaryWith (limit budget : Nat) :
    Parser.primary limit budget = primaryWith limit (primary? limit budget) := by
  cases budget <;> rfl

/-- Whatever the budgets, the parsers of the next level are in step or missing. -/
theorem deeper_primary? {budget budget' : Nat} (h : Left runs height budget budget') :
    Deeper runs height (ExprInStep runs (height + 1)) (primary? runs.limit budget)
      (primary? runs.limit' budget') := by
  induction budget generalizing height budget' with
  | zero => exact .missing h.full fun hsame => by rw [h.eq_zero hsame]; rfl
  | succ budget ih =>
      obtain ⟨below, rfl, hbelow⟩ := h.below
      have hprimary := inStep_primaryWith (ih hbelow)
      rw [← primary_eq_primaryWith, ← primary_eq_primaryWith] at hprimary
      exact .there hprimary

/-- Primary expressions are parsed in step on every level. -/
theorem inStep_primary {budget budget' : Nat} (h : Left runs height budget budget') :
    ExprInStep runs height (Parser.primary runs.limit budget)
      (Parser.primary runs.limit' budget') := by
  rw [primary_eq_primaryWith, primary_eq_primaryWith]
  exact inStep_primaryWith (deeper_primary? h)

end TextTemplate.Parser
