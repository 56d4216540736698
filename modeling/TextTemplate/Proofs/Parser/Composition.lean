import TextTemplate.Parser.Block
import TextTemplate.Proofs.Token.Spelling
/-! # What holds of all expression parsers

The parsers of expressions look at the tokens of a tag only: whatever else they meet they leave in
place or refuse. So what holds of the few parsers that they are put together from, and is kept by
the ways of putting parsers together, holds of them all. What is shown of a parser in this way needs
not be shown for each level of the grammar anew.
-/

namespace TextTemplate.Parser

/-- Behind a look at a token: a parser that has the property, on its own or once it has taken the
token, which is then one of those inside tags. -/
def Resumes (P : (α : Type) → Parser α → Prop) (token : Token) {α : Type} (p : Parser α) : Prop :=
  P α p ∨ token.kind.isInner = true ∧ ∃ rest : Parser α, p = (advance? >>= fun _ => rest) ∧ P α rest

/-- A property of parsers that is kept by the ways in which expression parsers are put together. -/
structure Compositional (P : (α : Type) → Parser α → Prop) : Prop where
  pure : ∀ {α : Type} (item : α), P α (pure item)
  unexpected : ∀ {α : Type} {token : Token} {expected : Expected}, expected ≠ .textOrTag →
    P α (unexpected token expected)
  tooDeep : ∀ {α : Type} (limit : Nat) (position : Position),
    P α (fail (.nestingTooDeep limit) position)
  bind : ∀ {α β : Type} {p : Parser α} {f : α → Parser β},
    P α p → (∀ item, P β (f item)) → P β (p >>= f)
  remaining_bind : ∀ {α : Type} {f : Nat → Parser α},
    (∀ left, P α (f left)) → P α (remaining >>= f)
  /-- A token is taken, which is refused unless it is one of those inside tags. -/
  take_bind : ∀ {α : Type} {expected : Expected} {f : Token → Parser α}, expected ≠ .textOrTag →
    (∀ token, token.kind.isInner = true → P α (f token)) →
    (∀ token, token.kind.isInner = false → f token = Parser.unexpected token expected) →
    P α (take expected >>= f)
  peek_bind : ∀ {α : Type} {f : Option Token → Parser α}, P α (f none) →
    (∀ token, Resumes P token (f (some token))) → P α (peek? >>= f)

namespace Compositional

variable {P : (α : Type) → Parser α → Prop} {α : Type} {kind other : TokenKind}
  {expected : Expected} {primary : Parser Expr} {limit : Nat} {inner? : Option (Parser Expr)}
  {position : Position}

theorem expect (h : Compositional P) (hkind : kind.isInner = true)
    (hexpected : expected ≠ .textOrTag) : P Token (expect kind expected) := by
  apply h.take_bind hexpected
  · intro token _
    split
    · exact h.pure token
    · exact h.unexpected hexpected
  · intro token hother
    apply if_neg
    intro heq
    rw [heq, hkind] at hother
    cases hother

theorem eat (h : Compositional P) (hkind : kind.isInner = true) : P Bool (eat kind) := by
  apply h.peek_bind
  · exact h.pure false
  · intro token
    dsimp only
    split
    next heq => exact .inr ⟨heq ▸ hkind, _, rfl, h.pure true⟩
    next => exact .inl (h.pure false)

theorem eatEither (h : Compositional P) (hkind : kind.isInner = true)
    (hother : other.isInner = true) : P Bool (eatEither kind other) := by
  apply h.bind (h.eat hkind)
  intro eaten
  split
  · exact h.pure true
  · exact h.eat hother

/-- What holds of a round holds of any number of rounds. -/
theorem manyUpTo (h : Compositional P) {round : Parser (Option α)} (hround : P _ round)
    (fuel : Nat) : P (List α) (manyUpTo round fuel) := by
  induction fuel with
  | zero => exact h.pure []
  | succ fuel ih =>
      apply h.bind hround
      intro item?
      cases item? with
      | none => exact h.pure []
      | some item => exact h.bind ih fun _ => h.pure _

theorem many (h : Compositional P) {round : Parser (Option α)} (hround : P _ round) :
    P (List α) (many round) :=
  h.remaining_bind fun left => h.manyUpTo hround (left + 1)

/-- Rounds that each begin with a separator. -/
theorem manyBehind (h : Compositional P) {separator : Parser Bool} {p : Parser α}
    (hseparator : P _ separator) (hp : P α p) :
    P (List α)
      (Parser.many do
        if ← separator then
          let item ← p
          Pure.pure (some item)
        else Pure.pure none) := by
  apply h.many
  apply h.bind hseparator
  intro eaten
  split
  · exact h.bind hp fun _ => h.pure _
  · exact h.pure none

theorem nested {β : Type} (h : Compositional P) {inner? : Option α} {parse : α → Parser β}
    (hparse : ∀ inner, inner? = some inner → P β (parse inner)) :
    P β (nested limit inner? position parse) := by
  cases inner? with
  | none => exact h.tooDeep limit position
  | some inner => exact hparse inner rfl

/-! ## The levels of the grammar -/

theorem arguments (h : Compositional P) (hprimary : P Expr primary) :
    P (List Expr) (arguments primary) := by
  apply h.bind (h.eat rfl)
  intro eaten
  split
  · apply h.bind hprimary
    intro first
    exact h.bind (h.manyBehind (h.eat rfl) hprimary) fun _ => h.pure _
  · exact h.pure []

theorem filterCall? (h : Compositional P) (hprimary : P Expr primary) :
    P (Option FilterCall) (filterCall? primary) := by
  apply h.bind (h.eat rfl)
  intro eaten
  split
  · apply h.bind (h.expect rfl (by decide))
    intro name
    exact h.bind (h.arguments hprimary) fun _ => h.pure _
  · exact h.pure none

theorem filtered (h : Compositional P) (hprimary : P Expr primary) :
    P Expr (filtered primary) := by
  apply h.bind hprimary
  intro base
  apply h.bind (h.many (h.filterCall? hprimary))
  intro calls
  split
  · exact h.pure base
  · exact h.pure _

theorem comparisonOp? (h : Compositional P) : P (Option BinaryOp) comparisonOp? := by
  apply h.peek_bind
  · exact h.pure none
  · intro token
    dsimp only
    split
    next hkind => exact .inr ⟨by rw [hkind]; rfl, _, rfl, h.pure _⟩
    split
    next hkind =>
      refine .inr ⟨by rw [hkind]; rfl, _, rfl, ?_⟩
      split
      · exact h.pure _
      · exact h.unexpected (by decide)
    next => exact .inl (h.pure none)

theorem comparison (h : Compositional P) (hprimary : P Expr primary) :
    P Expr (comparison primary) := by
  apply h.bind (h.filtered hprimary)
  intro left
  apply h.bind h.comparisonOp?
  intro op?
  cases op? with
  | none => exact h.pure left
  | some op => exact h.bind (h.filtered hprimary) fun _ => h.pure _

theorem chain (h : Compositional P) {word : Keyword} {op : BinaryOp} {operand : Parser Expr}
    (hoperand : P Expr operand) : P Expr (chain word op operand) := by
  apply h.bind hoperand
  intro first
  exact h.bind (h.manyBehind (h.eat rfl) hoperand) fun _ => h.pure _

theorem expression (h : Compositional P) (hprimary : P Expr primary) :
    P Expr (expression primary) :=
  h.chain (h.chain (h.comparison hprimary))

theorem dotSegment (h : Compositional P) : P Segment dotSegment := by
  apply h.take_bind (by decide)
  · intro token _
    split
    · exact h.pure _
    · exact h.pure _
    · split
      · exact h.pure _
      · exact h.unexpected (by decide)
    · exact h.unexpected (by decide)
  · intro token hother
    split
    next hkind => simp [hkind, TokenKind.isInner] at hother
    next hkind => simp [hkind, TokenKind.isInner] at hother
    next hkind => simp [hkind, TokenKind.isInner] at hother
    next => rfl

/-- The step of a path is a name, an index or an expression in brackets, one level deeper. -/
theorem segment? (h : Compositional P)
    (hinner : ∀ primary, inner? = some primary → P Expr primary) :
    P (Option Segment) (segment? limit inner?) := by
  apply h.bind (h.eat rfl)
  intro eaten
  split
  · exact h.bind h.dotSegment fun _ => h.pure _
  apply h.peek_bind
  · exact h.pure none
  · intro token
    dsimp only
    split
    next hkind =>
      refine .inr ⟨by rw [hkind]; rfl, _, rfl, h.nested ?_⟩
      intro primary hprimary
      apply h.bind (h.expression (hinner primary hprimary))
      intro key
      exact h.bind (h.expect rfl (by decide)) fun _ => h.pure _
    next => exact .inl (h.pure none)

theorem rangeBody (h : Compositional P) (hprimary : P Expr primary) :
    P Expr (rangeBody position primary) := by
  apply h.bind hprimary
  intro first
  apply h.bind (h.expect rfl (by decide))
  intro _
  apply h.bind hprimary
  intro last
  exact h.bind (h.expect rfl (by decide)) fun _ => h.pure _

/-- A primary expression is a literal, a range or a path. -/
theorem primaryWith (h : Compositional P)
    (hinner : ∀ primary, inner? = some primary → P Expr primary) :
    P Expr (primaryWith limit inner?) := by
  apply h.take_bind (by decide)
  · intro token _
    split
    · exact h.pure _
    · split
      · exact h.pure _
      · exact h.unexpected (by decide)
    · exact h.pure _
    · exact h.pure _
    · exact h.pure _
    · exact h.nested fun primary hprimary => h.rangeBody (hinner primary hprimary)
    · exact h.bind (h.many (h.segment? hinner)) fun _ => h.pure _
    · exact h.unexpected (by decide)
  · intro token hother
    cases hkind : token.kind <;> simp_all [TokenKind.isInner]

/-- The property holds of primary expressions, however deep they may be nested. -/
theorem primaries (h : Compositional P) (limit budget : Nat) :
    P Expr (Parser.primary limit budget) := by
  induction budget with
  | zero =>
      have hnone : ∀ primary : Parser Expr, none = some primary → P Expr primary := nofun
      exact h.primaryWith hnone
  | succ budget ih =>
      have hinner : ∀ primary, some (Parser.primary limit budget) = some primary →
          P Expr primary := by
        intro primary hprimary
        cases hprimary
        exact ih
      exact h.primaryWith hinner

theorem whenCondition (h : Compositional P) (hprimary : P Expr primary) (subject : Expr) :
    P Expr (whenCondition primary subject) := by
  apply h.bind hprimary
  intro first
  exact h.bind (h.manyBehind (h.eatEither rfl rfl) hprimary) fun _ => h.pure _

end Compositional

end TextTemplate.Parser
