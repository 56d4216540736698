import TextTemplate.Proofs.Parser.BlockTracking
import TextTemplate.Proofs.Parser.Composition
import TextTemplate.Proofs.Token.Enclosure
/-! # The parser inside a tag

While an expression is parsed, the tokens ahead are those of the rest of a tag, so the parser never
comes to the end of the source: it meets the closing delimiter first, or the error that cuts the tag
off. `Leads` says of a parser from which place among the tokens it leads to which, and that no error
it ends in is of a kind that only other tokens could bring about.
-/

namespace TextTemplate

/-- A cause that the tokens of a source can bring about. It is none of those that say that the
source has ended in a tag, that there are no operands, or that a token stands outside all tags. -/
def SyntaxCause.isOrdinary : SyntaxCause → Bool
  | .unexpectedToken .endOfTemplate _ => false
  | .unexpectedToken .nothing _ => false
  | .unexpectedToken _ .textOrTag => false
  | _ => true

theorem Token.isOrdinary_found (token : Token) {expected : Expected} (h : expected ≠ .textOrTag) :
    (SyntaxCause.unexpectedToken token.found expected).isOrdinary = true := by
  obtain ⟨kind, text, position⟩ := token
  cases kind <;> cases expected <;> first | rfl | exact absurd rfl h

theorem TokenKind.isInner_closeKind (delimiter : Delimiter) :
    delimiter.closeKind.isInner = false := by
  cases delimiter <;> rfl

namespace Parser

variable {α β : Type} {cursor next : Cursor} {place : StreamPlace} {delimiter : Delimiter}

/-- The tokens ahead are those of a source from this place on, and so is the error behind them. -/
structure IsAt (cursor : Cursor) (place : StreamPlace) : Prop where
  enclosed : Enclosed cursor.failure? place cursor.tokens
  ordinary : ∀ error, cursor.failure? = some error → error.cause.isOrdinary = true

/-- From this cursor, the parser leads to the place that its result goes with, or to an ordinary
error. -/
structure LeadsFrom (cursor : Cursor) (p : Parser α) (target : α → StreamPlace) : Prop where
  ok : ∀ item next, p cursor = .ok (item, next) →
    next.tokens <:+ cursor.tokens ∧ IsAt next (target item)
  error : ∀ error, p cursor = .error error → error.cause.isOrdinary = true

/-- From wherever it is at the one place, the parser leads to the other. -/
def Leads (place : StreamPlace) (p : Parser α) (target : α → StreamPlace) : Prop :=
  ∀ cursor, IsAt cursor place → LeadsFrom cursor p target

/-- The parser does not leave the tag that it is in. -/
def StaysWithin (p : Parser α) : Prop :=
  ∀ delimiter, Leads (.within delimiter) p fun _ => .within delimiter

section Rules

variable {p : Parser α} {f : α → Parser β} {target : α → StreamPlace} {target' : β → StreamPlace}
  {kind other : TokenKind} {expected : Expected} {cause : SyntaxCause} {position : Position}

theorem leads_pure {item : α} (h : target item = place) : Leads place (pure item) target := by
  intro cursor hcursor
  constructor
  · intro item next hok
    cases hok
    exact ⟨List.suffix_refl _, h ▸ hcursor⟩
  · intro error herror
    cases herror

/-- An ordinary error may end the reading anywhere. -/
theorem leads_fail (h : cause.isOrdinary = true) : Leads place (fail cause position) target := by
  intro cursor hcursor
  constructor
  · intro item next hok
    cases hok
  · intro error herror
    cases herror
    exact h

theorem leads_unexpected {token : Token} (h : expected ≠ .textOrTag) :
    Leads place (unexpected token expected) target :=
  leads_fail (token.isOrdinary_found h)

/-- One parser after the other leads from where the first one has led. -/
theorem LeadsFrom.bind (hp : LeadsFrom cursor p target)
    (hf : ∀ item next, next.tokens <:+ cursor.tokens → IsAt next (target item) →
      LeadsFrom next (f item) target') : LeadsFrom cursor (p >>= f) target' where
  ok result last hok := by
    obtain ⟨item, next, hfirst, hsecond⟩ := bind_eq_ok.mp hok
    obtain ⟨hsuffix, hnext⟩ := hp.ok item next hfirst
    obtain ⟨hsuffix', hlast⟩ := (hf item next hsuffix hnext).ok result last hsecond
    exact ⟨hsuffix'.trans hsuffix, hlast⟩
  error error herror := by
    rcases bind_eq_error herror with hfirst | ⟨item, next, hfirst, hsecond⟩
    · exact hp.error error hfirst
    · obtain ⟨hsuffix, hnext⟩ := hp.ok item next hfirst
      exact (hf item next hsuffix hnext).error error hsecond

theorem Leads.bind (hp : Leads place p target)
    (hf : ∀ item, Leads (target item) (f item) target') : Leads place (p >>= f) target' :=
  fun cursor hcursor => (hp cursor hcursor).bind fun item next _ hnext => hf item next hnext

theorem staysWithin_pure {item : α} : StaysWithin (pure item) := fun _ => leads_pure rfl

theorem staysWithin_unexpected {token : Token} (h : expected ≠ .textOrTag) :
    StaysWithin (unexpected (α := α) token expected) := fun _ => leads_unexpected h

theorem StaysWithin.bind (hp : StaysWithin p) (hf : ∀ item, StaysWithin (f item)) :
    StaysWithin (p >>= f) :=
  fun delimiter => (hp delimiter).bind fun item => hf item delimiter

/-- The parser goes on from another cursor, with tokens that are ahead of this one too. -/
theorem LeadsFrom.lift {q : Parser α} (h : LeadsFrom next q target) (heq : p cursor = q next)
    (hsuffix : next.tokens <:+ cursor.tokens) : LeadsFrom cursor p target where
  ok item last hok := by
    obtain ⟨hsuffix', hlast⟩ := h.ok item last (heq ▸ hok)
    exact ⟨hsuffix'.trans hsuffix, hlast⟩
  error error herror := h.error error (heq ▸ herror)

/-- An ordinary error is all that has to be said of a failing parser. -/
theorem leadsFrom_error {error : SyntaxError} (herror : p cursor = .error error)
    (h : error.cause.isOrdinary = true) : LeadsFrom cursor p target where
  ok item next hok := by
    rw [herror] at hok
    cases hok
  error error' herror' := by
    rw [herror] at herror'
    cases herror'
    exact h

/-- The next token is taken. -/
theorem leadsFrom_advance_cons {f : Option Token → Parser β} {token : Token} {rest : List Token}
    (hcursor : IsAt cursor place) (htokens : cursor.tokens = token :: rest)
    {place' : StreamPlace} (hrest : Enclosed cursor.failure? place' rest)
    (h : ∀ next : Cursor, next.tokens = rest → IsAt next place' →
      LeadsFrom next (f (some token)) target') :
    LeadsFrom cursor (advance? >>= f) target' := by
  obtain ⟨next, hadvance, hnext, hfailure⟩ := advance?_cons htokens
  have hat : IsAt next place' := by
    refine ⟨?_, ?_⟩
    · rw [hfailure, hnext]
      exact hrest
    · rw [hfailure]
      exact hcursor.ordinary
  refine (h next hnext hat).lift ?_ ?_
  · rw [bind_apply, hadvance]
    rfl
  · rw [htokens, hnext]
    exact List.suffix_cons token rest

/-- A tag that is open does not end without an error. -/
theorem exists_failure (hcursor : IsAt cursor (.within delimiter)) (htokens : cursor.tokens = []) :
    ∃ error, cursor.failure? = some error ∧ error.cause.isOrdinary = true := by
  have henclosed := hcursor.enclosed
  rw [htokens] at henclosed
  cases henclosed with
  | cutOff failure =>
      obtain ⟨error, herror⟩ := Option.isSome_iff_exists.mp failure
      exact ⟨error, herror, hcursor.ordinary error herror⟩

/-- In a tag there is a next token to look at. -/
theorem leadsFrom_peek_bind {f : Option Token → Parser β}
    (hcursor : IsAt cursor (.within delimiter))
    (h : ∀ token rest, cursor.tokens = token :: rest → LeadsFrom cursor (f (some token)) target') :
    LeadsFrom cursor (peek? >>= f) target' := by
  cases htokens : cursor.tokens with
  | cons token rest =>
      refine (h token rest htokens).lift ?_ (List.suffix_refl _)
      simp only [bind_apply, peek?, htokens, Except.bind]
  | nil =>
      obtain ⟨error, hfailure, hordinary⟩ := exists_failure hcursor htokens
      refine leadsFrom_error ?_ hordinary
      simp only [bind_apply, peek?, htokens, hfailure, Except.bind]

/-- In a tag there is a next token to take. Behind the closing delimiter the tag is over. -/
theorem leadsFrom_take_bind {f : Token → Parser β} (hcursor : IsAt cursor (.within delimiter))
    (hinner : ∀ (token : Token) (next : Cursor), token.kind.isInner = true →
      next.tokens.length < cursor.tokens.length → IsAt next (.within delimiter) →
      LeadsFrom next (f token) target')
    (hclosing : ∀ token, token.kind = delimiter.closeKind →
      Leads (.between false) (f token) target') :
    LeadsFrom cursor (take expected >>= f) target' := by
  rw [take, bind_assoc]
  have henclosed := hcursor.enclosed
  cases htokens : cursor.tokens with
  | nil =>
      obtain ⟨error, hfailure, hordinary⟩ := exists_failure hcursor htokens
      refine leadsFrom_error ?_ hordinary
      rw [bind_apply, advance?_nil htokens, hfailure]
      rfl
  | cons token rest =>
      rw [htokens] at henclosed
      cases henclosed with
      | inner kind more =>
          apply leadsFrom_advance_cons hcursor htokens more
          intro next hnext hat
          exact hinner token next kind (by simp [htokens, hnext]) hat
      | closing kind more =>
          apply leadsFrom_advance_cons hcursor htokens more
          intro next _ hat
          exact hclosing token kind next hat

/-- A token within a tag keeps the parser there, and the one that closes the tag leads it out. -/
theorem leads_take_bind {f : Token → Parser β}
    (hinner : ∀ token, token.kind.isInner = true → Leads (.within delimiter) (f token) target')
    (hclosing : ∀ token, token.kind = delimiter.closeKind →
      Leads (.between false) (f token) target') :
    Leads (.within delimiter) (take expected >>= f) target' := by
  intro cursor hcursor
  apply leadsFrom_take_bind hcursor
  · intro token next hkind _ hat
    exact hinner token hkind next hat
  · exact hclosing

/-- The closing delimiter of the tag is expected, and the tag is over. -/
theorem leads_expect_closing (hexpected : expected ≠ .textOrTag) :
    Leads (.within delimiter) (expect delimiter.closeKind expected) fun _ => .between false := by
  apply leads_take_bind
  · intro token hinner
    have hother : token.kind ≠ delimiter.closeKind := by
      intro hkind
      rw [hkind, TokenKind.isInner_closeKind] at hinner
      cases hinner
    rw [if_neg hother]
    exact leads_unexpected hexpected
  · intro token hkind
    rw [if_pos hkind]
    exact leads_pure rfl

/-- The next token is taken, which is not the closing delimiter. -/
theorem leadsFrom_advance_inner {f : Option Token → Parser β} {token : Token} {rest : List Token}
    (hcursor : IsAt cursor (.within delimiter)) (htokens : cursor.tokens = token :: rest)
    (hkind : token.kind.isInner = true) (h : Leads (.within delimiter) (f (some token)) target') :
    LeadsFrom cursor (advance? >>= f) target' := by
  have henclosed := hcursor.enclosed
  rw [htokens] at henclosed
  cases henclosed with
  | inner kind more =>
      apply leadsFrom_advance_cons hcursor htokens more
      intro next _ hat
      exact h next hat
  | closing kind more =>
      rw [kind, TokenKind.isInner_closeKind] at hkind
      cases hkind

theorem leadsFrom_remaining_bind {f : Nat → Parser β}
    (h : LeadsFrom cursor (f cursor.left) target') :
    LeadsFrom cursor (remaining >>= f) target' :=
  h.lift rfl (List.suffix_refl _)

theorem leads_nested {limit : Nat} {inner? : Option α} {parse : α → Parser β}
    (h : ∀ inner, inner? = some inner → Leads place (parse inner) target') :
    Leads place (nested limit inner? position parse) target' := by
  cases inner? with
  | none => exact leads_fail rfl
  | some inner => exact h inner rfl

/-- What is put together from parsers that stay in their tag stays there. -/
theorem compositional_staysWithin : Compositional fun _ p => StaysWithin p where
  pure _ := staysWithin_pure
  unexpected hexpected := staysWithin_unexpected hexpected
  tooDeep _ _ := fun _ => leads_fail rfl
  bind := StaysWithin.bind
  remaining_bind h := fun delimiter cursor hcursor =>
    leadsFrom_remaining_bind (h cursor.left delimiter cursor hcursor)
  take_bind hexpected hinner hother := by
    intro delimiter
    apply leads_take_bind
    · intro token hkind
      exact hinner token hkind delimiter
    · intro token hkind
      rw [hother token (by rw [hkind, TokenKind.isInner_closeKind])]
      exact leads_unexpected hexpected
  peek_bind _ hsome := by
    intro delimiter cursor hcursor
    apply leadsFrom_peek_bind hcursor
    intro token rest htokens
    rcases hsome token with hstays | ⟨hkind, p, heq, hstays⟩
    · exact hstays delimiter cursor hcursor
    · rw [heq]
      exact leadsFrom_advance_inner hcursor htokens hkind (hstays delimiter)

theorem staysWithin_expect (hkind : kind.isInner = true) (hexpected : expected ≠ .textOrTag) :
    StaysWithin (expect kind expected) :=
  compositional_staysWithin.expect hkind hexpected

end Rules

section Expressions

variable {primary : Parser Expr}

theorem StaysWithin.expression (h : StaysWithin primary) : StaysWithin (expression primary) :=
  compositional_staysWithin.expression h

/-- Expressions stay in their tag, however deep they may be nested. -/
theorem staysWithin_primary (limit budget : Nat) : StaysWithin (Parser.primary limit budget) :=
  compositional_staysWithin.primaries limit budget

theorem StaysWithin.whenCondition (h : StaysWithin primary) (subject : Expr) :
    StaysWithin (whenCondition primary subject) :=
  compositional_staysWithin.whenCondition h subject

end Expressions

end Parser

end TextTemplate
