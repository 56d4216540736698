import TextTemplate.Proofs.Parser.BlockSoundness
import TextTemplate.Proofs.Parser.BlockStack
import TextTemplate.Proofs.Parser.Composition
/-! # The parser goes along with the stack of open blocks

While a source is parsed, the blocks whose parsers are at work are those on the stack behind the
tags taken so far. `Follows` says so of a parser, and says of every error about blocks what the
stack has to do with it. Most parsers take no tag; they are `Plain`.
-/

namespace TextTemplate

/-- The cause is that blocks do not fit together. -/
def SyntaxCause.isAboutBlocks : SyntaxCause → Bool
  | .mismatchedBlock _ _ | .unclosedBlock _ => true
  | _ => false

namespace Parser

variable {α β : Type} {stack reached outer : BlockStack} {cursor next : Cursor}
  {block : OpenBlock}

/-- What the stack behind the tags ahead has to do with an error met there. -/
inductive Explains (stack : BlockStack) (cursor : Cursor) : SyntaxError → Prop
  /-- The lexer gave up behind the last token, and no tag before that was one too many. -/
  | lexical {error : SyntaxError} {reached : BlockStack} (failure : cursor.failure? = some error)
      (run : stack.run (tagsOf cursor.tokens) = .ok reached) : Explains stack cursor error
  | mismatched {word : Keyword} {position : Position} {reached : BlockStack}
      (run : stack.run (tagsOf cursor.tokens) = .error ⟨⟨word, position⟩, reached⟩) :
      Explains stack cursor ⟨.mismatchedBlock word reached.closing?, position⟩
  | unclosed {frame : BlockFrame} {outer : BlockStack}
      (run : stack.run (tagsOf cursor.tokens) = .ok (frame :: outer)) :
      Explains stack cursor ⟨.unclosedBlock frame.block.tag, frame.block.position⟩
  | other {error : SyntaxError} (about : error.cause.isAboutBlocks = false) :
      Explains stack cursor error

/-- What has been said of the tokens ahead can be said of more of them, if the tags in front lead
from the one stack to the other. -/
theorem Explains.lift {error : SyntaxError} (h : Explains reached next error)
    (hfailure : next.failure? = cursor.failure?)
    (hrun : stack.run (tagsOf cursor.tokens) = reached.run (tagsOf next.tokens)) :
    Explains stack cursor error := by
  cases h with
  | lexical failure run => exact .lexical (hfailure ▸ failure) (hrun.trans run)
  | mismatched run => exact .mismatched (hrun.trans run)
  | unclosed run => exact .unclosed (hrun.trans run)
  | other about => exact .other about

/-- From this cursor, with the stack open, the parser leads to a stack related to its result, or to
an error that the stack explains. -/
structure FollowsFrom (cursor : Cursor) (stack : BlockStack) (p : Parser α)
    (Q : α → BlockStack → Prop) : Prop where
  ok : ∀ item next, p cursor = .ok (item, next) → ∃ reached : BlockStack,
    next.tokens <:+ cursor.tokens ∧ next.failure? = cursor.failure? ∧
      stack.run (tagsOf cursor.tokens) = reached.run (tagsOf next.tokens) ∧ Q item reached
  error : ∀ error, p cursor = .error error → Explains stack cursor error

/-- With the stack open, the parser goes along with it from every cursor. -/
def Follows (stack : BlockStack) (p : Parser α) (Q : α → BlockStack → Prop) : Prop :=
  ∀ cursor, FollowsFrom cursor stack p Q

/-- The parser opens and closes no block. -/
def Plain (p : Parser α) : Prop := ∀ stack, Follows stack p fun _ reached => reached = stack

section Rules

variable {p : Parser α} {f : α → Parser β} {Q : α → BlockStack → Prop} {R : β → BlockStack → Prop}
  {kind other : TokenKind} {expected : Expected} {cause : SyntaxCause} {position : Position}

/-- A parser that goes on from another cursor as another parser, once some tags are taken. -/
theorem FollowsFrom.lift {q : Parser α} (h : FollowsFrom next reached q Q)
    (heq : p cursor = q next) (hsuffix : next.tokens <:+ cursor.tokens)
    (hfailure : next.failure? = cursor.failure?)
    (hrun : stack.run (tagsOf cursor.tokens) = reached.run (tagsOf next.tokens)) :
    FollowsFrom cursor stack p Q where
  ok item last hok := by
    obtain ⟨final, hsuffix', hfailure', hrun', hitem⟩ := h.ok item last (heq ▸ hok)
    exact ⟨final, hsuffix'.trans hsuffix, hfailure'.trans hfailure, hrun.trans hrun', hitem⟩
  error error herror := (h.error error (heq ▸ herror)).lift hfailure hrun

theorem follows_pure {item : α} (h : Q item stack) : Follows stack (pure item) Q := by
  intro cursor
  constructor
  · intro item next hok
    cases hok
    exact ⟨stack, List.suffix_refl _, rfl, rfl, h⟩
  · intro error herror
    cases herror

/-- A failure that is not about blocks needs no explanation from the stack. -/
theorem follows_fail (h : cause.isAboutBlocks = false) : Follows stack (fail cause position) Q := by
  intro cursor
  constructor
  · intro item next hok
    cases hok
  · intro error herror
    cases herror
    exact .other h

theorem bind_apply : (p >>= f) cursor = (p cursor).bind fun pair => f pair.1 pair.2 := rfl

/-- A sequence fails in its first part, or in its second part behind what the first one gave. -/
theorem bind_eq_error {error : SyntaxError} (h : (p >>= f) cursor = .error error) :
    p cursor = .error error ∨
      ∃ item middle, p cursor = .ok (item, middle) ∧ f item middle = .error error := by
  rw [bind_apply] at h
  cases hp : p cursor with
  | error error' =>
      rw [hp] at h
      cases h
      exact .inl rfl
  | ok pair =>
      rw [hp] at h
      exact .inr ⟨pair.1, pair.2, rfl, h⟩

/-- One parser after the other follows the stack on, from where the first one has left it. -/
theorem FollowsFrom.bind (hp : FollowsFrom cursor stack p Q)
    (hf : ∀ item next reached, p cursor = .ok (item, next) → next.tokens <:+ cursor.tokens →
      Q item reached → FollowsFrom next reached (f item) R) :
    FollowsFrom cursor stack (p >>= f) R where
  ok result last hok := by
    obtain ⟨item, next, hfirst, hsecond⟩ := bind_eq_ok.mp hok
    obtain ⟨reached, hsuffix, hfailure, hrun, hitem⟩ := hp.ok item next hfirst
    have hrest := hf item next reached hfirst hsuffix hitem
    obtain ⟨final, hsuffix', hfailure', hrun', hresult⟩ := hrest.ok result last hsecond
    exact ⟨final, hsuffix'.trans hsuffix, hfailure'.trans hfailure, hrun.trans hrun', hresult⟩
  error error herror := by
    rcases bind_eq_error herror with hfirst | ⟨item, next, hfirst, hsecond⟩
    · exact hp.error error hfirst
    · obtain ⟨reached, hsuffix, hfailure, hrun, hitem⟩ := hp.ok item next hfirst
      have hrest := hf item next reached hfirst hsuffix hitem
      exact (hrest.error error hsecond).lift hfailure hrun

theorem Follows.bind (hp : Follows stack p Q)
    (hf : ∀ item reached, Q item reached → Follows reached (f item) R) :
    Follows stack (p >>= f) R :=
  fun cursor => (hp cursor).bind fun item next reached _ _ hitem => hf item reached hitem next

/-- A parser behind one that leaves the stack alone. -/
theorem Plain.then (hp : Plain p) (hf : ∀ item, Follows stack (f item) R) :
    Follows stack (p >>= f) R := by
  apply (hp stack).bind
  intro item reached hreached
  rw [hreached]
  exact hf item

theorem plain_pure {item : α} : Plain (pure item) := fun _ => follows_pure rfl

theorem plain_unexpected {token : Token} : Plain (unexpected (α := α) token expected) :=
  fun _ => follows_fail rfl

theorem Plain.bind (hp : Plain p) (hf : ∀ item, Plain (f item)) : Plain (p >>= f) :=
  fun stack => hp.then fun item => hf item stack

/-- An error that the stack explains is all that has to be said of a failing parser. -/
theorem followsFrom_error {error : SyntaxError} (herror : p cursor = .error error)
    (hexplains : Explains stack cursor error) : FollowsFrom cursor stack p Q := by
  constructor
  · intro item next hok
    rw [herror] at hok
    cases hok
  · intro error' herror'
    rw [herror] at herror'
    cases herror'
    exact hexplains

/-- The parser fails, and not because of blocks. -/
def Refuses (p : Parser α) : Prop :=
  ∀ cursor, ∃ error, p cursor = .error error ∧ error.cause.isAboutBlocks = false

theorem refuses_unexpected {token : Token} : Refuses (unexpected (α := α) token expected) :=
  fun _ => ⟨_, rfl, rfl⟩

theorem advance?_cons {token : Token} {rest : List Token} (h : cursor.tokens = token :: rest) :
    ∃ next, advance? cursor = .ok (some token, next) ∧ next.tokens = rest ∧
      next.failure? = cursor.failure? := by
  unfold advance?
  split
  next token' tokens htokens =>
    rw [h, List.cons.injEq] at htokens
    obtain ⟨rfl, rfl⟩ := htokens
    exact ⟨_, rfl, rfl, rfl⟩
  next htokens => simp [h] at htokens

theorem advance?_nil (h : cursor.tokens = []) :
    advance? cursor = cursor.failure?.elim (.ok (none, cursor)) .error := by
  unfold advance?
  split
  next htokens => simp [h] at htokens
  next => cases cursor.failure? <;> rfl

/-- The next token is taken, and the tags behind it lead on from another stack. -/
theorem followsFrom_advance_cons {f : Option Token → Parser β} {token : Token} {rest : List Token}
    (htokens : cursor.tokens = token :: rest)
    (hrun : stack.run (tagsOf (token :: rest)) = reached.run (tagsOf rest))
    (h : ∀ next : Cursor, next.tokens = rest → FollowsFrom next reached (f (some token)) R) :
    FollowsFrom cursor stack (advance? >>= f) R := by
  obtain ⟨next, hadvance, hnext, hfailure⟩ := advance?_cons htokens
  apply (h next hnext).lift
  · rw [bind_apply, hadvance]
    rfl
  · rw [htokens, hnext]
    exact List.suffix_cons token rest
  · exact hfailure
  · rw [htokens, hnext, hrun]

/-- At the end of the tokens, the parser goes on with none unless the lexer has given up. -/
theorem followsFrom_advance_nil {f : Option Token → Parser β} (hnil : cursor.tokens = [])
    (h : FollowsFrom cursor stack (f none) R) : FollowsFrom cursor stack (advance? >>= f) R := by
  cases hfailure : cursor.failure? with
  | none =>
      apply h.lift _ (List.suffix_refl _) rfl rfl
      rw [bind_apply, advance?_nil hnil, hfailure]
      rfl
  | some failure =>
      have herror : (advance? >>= f) cursor = .error failure := by
        rw [bind_apply, advance?_nil hnil, hfailure]
        rfl
      exact followsFrom_error herror (.lexical hfailure (by rw [hnil]; rfl))

/-- Looking ahead leaves the stack alone: what comes next is decided by the token that is there. -/
theorem follows_peek_bind {f : Option Token → Parser β} (hnone : Follows stack (f none) R)
    (hsome : ∀ token rest, cursor.tokens = token :: rest →
      FollowsFrom cursor stack (f (some token)) R) :
    FollowsFrom cursor stack (peek? >>= f) R := by
  cases htokens : cursor.tokens with
  | cons token rest =>
      apply (hsome token rest htokens).lift _ (List.suffix_refl _) rfl rfl
      simp only [bind_apply, peek?, htokens, Except.bind]
  | nil =>
      cases hfailure : cursor.failure? with
      | none =>
          apply (hnone cursor).lift _ (List.suffix_refl _) rfl rfl
          simp only [bind_apply, peek?, htokens, hfailure, Except.bind]
      | some failure =>
          have herror : (peek? >>= f) cursor = .error failure := by
            simp only [bind_apply, peek?, htokens, hfailure, Except.bind]
          exact followsFrom_error herror (.lexical hfailure (by rw [htokens]; rfl))

/-- A token has to be there, and one that opens a tag is refused. -/
theorem Plain.take_bind {f : Token → Parser β}
    (hopening : ∀ token, token.kind = .tagOpen → Refuses (f token))
    (hother : ∀ token, token.kind ≠ .tagOpen → Plain (f token)) :
    Plain (take expected >>= f) := by
  intro stack cursor
  rw [take, bind_assoc]
  cases htokens : cursor.tokens with
  | nil =>
      apply followsFrom_advance_nil htokens
      exact followsFrom_error rfl (.other rfl)
  | cons token rest =>
      by_cases hkind : token.kind = .tagOpen
      · obtain ⟨next, hadvance, -, -⟩ := advance?_cons htokens
        obtain ⟨error, herror, habout⟩ := hopening token hkind next
        refine followsFrom_error ?_ (.other habout)
        rw [bind_apply, hadvance]
        exact herror
      · apply followsFrom_advance_cons htokens
        · rw [tagsOf_cons hkind]
        · intro next _
          exact hother token hkind stack next

theorem plain_expect (h : kind ≠ .tagOpen) : Plain (expect kind expected) := by
  apply Plain.take_bind
  · intro token hopening
    rw [if_neg (by rw [hopening]; exact h.symm)]
    exact refuses_unexpected
  · intro token _
    split
    · exact plain_pure
    · exact plain_unexpected

theorem followsFrom_remaining_bind {f : Nat → Parser β}
    (h : FollowsFrom cursor stack (f cursor.left) R) :
    FollowsFrom cursor stack (remaining >>= f) R :=
  h.lift rfl (List.suffix_refl _) rfl rfl

/-- What is put together from plain parsers is plain. -/
theorem compositional_plain : Compositional fun _ p => Plain p where
  pure _ := plain_pure
  unexpected _ := plain_unexpected
  tooDeep _ _ := fun _ => follows_fail rfl
  bind := Plain.bind
  remaining_bind h := fun stack cursor => followsFrom_remaining_bind (h cursor.left stack cursor)
  take_bind _ hinner hother := by
    apply Plain.take_bind
    · intro token hopening
      rw [hother token (by rw [hopening]; rfl)]
      exact refuses_unexpected
    · intro token _
      cases hkind : token.kind.isInner with
      | true => exact hinner token hkind
      | false =>
          rw [hother token hkind]
          exact plain_unexpected
  peek_bind hnone hsome := by
    intro stack cursor
    apply follows_peek_bind (hnone stack)
    intro token rest htokens
    rcases hsome token with hplain | ⟨hkind, p, heq, hplain⟩
    · exact hplain stack cursor
    · have hopening : token.kind ≠ .tagOpen := by
        intro hopening
        rw [hopening] at hkind
        cases hkind
      rw [heq]
      apply followsFrom_advance_cons htokens
      · rw [tagsOf_cons hopening]
      · intro next _
        exact hplain stack next

end Rules

/-! ## Expressions and the tags of blocks -/

section Expressions

variable {primary : Parser Expr} {position : Position}

theorem Plain.expression (h : Plain primary) : Plain (expression primary) :=
  compositional_plain.expression h

/-- Expressions open and close no block, however deep they may be nested. -/
theorem plain_primary (limit budget : Nat) : Plain (Parser.primary limit budget) :=
  compositional_plain.primaries limit budget

theorem plain_closeTag : Plain closeTag :=
  (plain_expect (by decide)).bind fun _ => plain_pure

theorem Plain.assignTag (h : Plain primary) : Plain (assignTag primary position) := by
  apply (plain_expect (by decide)).bind
  intro name
  apply (plain_expect (by decide)).bind
  intro _
  apply h.expression.bind
  intro expr
  exact plain_closeTag.bind fun _ => plain_pure

/-- The parameters of a loop have nothing to do with blocks. -/
theorem Plain.loopParameters (h : Plain primary) (fuel : Nat) (header : LoopHeader) :
    Plain (loopParameters primary fuel header) := by
  induction fuel generalizing header with
  | zero => exact plain_pure
  | succ fuel ih =>
      have hvalue : ∀ f : Expr → LoopHeader, Plain
          (do
            let _ ← expect .colon .colon
            let value ← primary
            Parser.loopParameters primary fuel (f value)) := by
        intro f
        apply (plain_expect (by decide)).bind
        intro _
        exact h.bind fun value => ih (f value)
      apply Plain.take_bind
      · intro token hopening
        simp only [hopening, reduceCtorEq, false_and, ↓reduceIte]
        exact refuses_unexpected
      · intro token _
        split
        · exact plain_pure
        split
        · exact ih _
        split
        · exact hvalue _
        split
        · exact hvalue _
        · exact plain_unexpected

theorem Plain.loopHeader (h : Plain primary) : Plain (loopHeader primary position) := by
  apply (plain_expect (by decide)).bind
  intro name
  apply (plain_expect (by decide)).bind
  intro _
  apply h.bind
  intro iterable stack cursor
  exact followsFrom_remaining_bind (h.loopParameters _ _ stack cursor)

theorem Plain.whenCondition (h : Plain primary) (subject : Expr) :
    Plain (whenCondition primary subject) :=
  compositional_plain.whenCondition h subject

end Expressions

end Parser

end TextTemplate
