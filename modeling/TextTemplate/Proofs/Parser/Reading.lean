import TextTemplate.Parser.Cursor
/-! # What a parser reads

A parser reads tokens from the front of the stream. `Reads p R` says of a parser that `R` relates
the tokens that it takes to what it makes of them, whenever it succeeds. The rules below follow the
way parsers are put together.
-/

namespace TextTemplate

/-- A relation between tokens and what they stand for. -/
abbrev Reading (α : Type) := List Token → α → Prop

namespace Grammar

variable {α : Type}

/-- Tokens for one thing after the other. -/
inductive Items (R : Reading α) : Reading (List α)
  | nil : Items R [] []
  | cons {tokens rest : List Token} {item : α} {items : List α} (first : R tokens item)
      (more : Items R rest items) : Items R (tokens ++ rest) (item :: items)

/-- Tokens for something, or none for nothing. -/
inductive Optional (R : Reading α) : Reading (Option α)
  | absent : Optional R [] none
  | present {tokens : List Token} {item : α} (here : R tokens item) :
      Optional R tokens (some item)

/-- Tokens behind a token of one of some kinds. -/
inductive Behind (kinds : List TokenKind) (R : Reading α) : Reading α
  | intro {token : Token} {tokens : List Token} {item : α} (kind : token.kind ∈ kinds)
      (rest : R tokens item) : Behind kinds R (token :: tokens) item

/-- A token of one of some kinds, if there is one. -/
inductive Eaten (kinds : List TokenKind) : Reading Bool
  | kept : Eaten kinds [] false
  | eaten {token : Token} (kind : token.kind ∈ kinds) : Eaten kinds [token] true

/-- What was taken to be one of some kinds is one of more kinds. -/
theorem Eaten.mono {kinds kinds' : List TokenKind} {tokens : List Token} {eaten : Bool}
    (h : Eaten kinds tokens eaten) (hsubset : kinds ⊆ kinds') : Eaten kinds' tokens eaten := by
  cases h with
  | kept => exact .kept
  | eaten hkind => exact .eaten (hsubset hkind)

end Grammar

namespace Parser

open Grammar

variable {α β : Type}

/-- Every result that the parser yields at this cursor is related to the tokens it took. -/
def ReadsFrom (cursor : Cursor) (p : Parser α) (R : Reading α) : Prop :=
  ∀ result next, p cursor = .ok (result, next) → ∃ tokens,
    cursor.tokens = tokens ++ next.tokens ∧ next.failure? = cursor.failure? ∧ R tokens result

/-- Every result of the parser is related to the tokens it took. -/
def Reads (p : Parser α) (R : Reading α) : Prop := ∀ cursor, ReadsFrom cursor p R

/-- A sequence succeeds exactly if its first part does, and its second part behind what the first
one gave. -/
theorem bind_eq_ok {p : Parser α} {f : α → Parser β} {cursor next : Cursor} {result : β} :
    (p >>= f) cursor = .ok (result, next) ↔
      ∃ item middle, p cursor = .ok (item, middle) ∧ f item middle = .ok (result, next) := by
  have hbind : (p >>= f) cursor = (p cursor).bind fun pair => f pair.1 pair.2 := rfl
  rw [hbind]
  cases p cursor with
  | error error => simp [Except.bind]
  | ok pair =>
      constructor
      · intro h
        exact ⟨pair.1, pair.2, rfl, h⟩
      · rintro ⟨item, middle, heq, h⟩
        cases heq
        exact h

theorem ReadsFrom.mono {p : Parser α} {R S : Reading α} {cursor : Cursor}
    (h : ReadsFrom cursor p R) (himp : ∀ tokens item, R tokens item → S tokens item) :
    ReadsFrom cursor p S := by
  intro result next hok
  obtain ⟨tokens, htokens, hfailure, hread⟩ := h result next hok
  exact ⟨tokens, htokens, hfailure, himp tokens result hread⟩

theorem Reads.mono {p : Parser α} {R S : Reading α} (h : Reads p R)
    (himp : ∀ tokens item, R tokens item → S tokens item) : Reads p S :=
  fun cursor => (h cursor).mono himp

theorem reads_pure {R : Reading α} {item : α} (h : R [] item) : Reads (pure item) R := by
  intro cursor result next hok
  cases hok
  exact ⟨[], rfl, rfl, h⟩

theorem reads_fail {R : Reading α} {cause : SyntaxCause} {position : Position} :
    Reads (fail cause position) R :=
  fun _ _ _ hok => nomatch hok

theorem reads_unexpected {R : Reading α} {token : Token} {expected : Expected} :
    Reads (unexpected token expected) R := reads_fail

/-- Every result of the parser has the property. -/
def Yields (p : Parser α) (Q : α → Prop) : Prop :=
  ∀ cursor result next, p cursor = .ok (result, next) → Q result

theorem yields_pure {Q : α → Prop} {item : α} (h : Q item) : Yields (pure item) Q := by
  intro cursor result next hok
  cases hok
  exact h

theorem yields_fail {Q : α → Prop} {cause : SyntaxCause} {position : Position} :
    Yields (fail cause position) Q :=
  fun _ _ _ hok => nomatch hok

/-- What a parser yields in the end is what the last part of it yields. -/
theorem Yields.bind {p : Parser α} {f : α → Parser β} {Q : β → Prop}
    (h : ∀ item, Yields (f item) Q) : Yields (p >>= f) Q := by
  intro cursor result next hok
  obtain ⟨item, middle, -, hrest⟩ := bind_eq_ok.mp hok
  exact h item middle result next hrest

/-- What the second parser reads stands behind what the first one has read. -/
theorem ReadsFrom.bind {p : Parser α} {f : α → Parser β} {R : Reading α} {S : Reading β}
    {cursor : Cursor} (hp : ReadsFrom cursor p R)
    (hf : ∀ tokens item next, R tokens item → cursor.tokens = tokens ++ next.tokens →
      ReadsFrom next (f item) fun rest => S (tokens ++ rest)) :
    ReadsFrom cursor (p >>= f) S := by
  intro result next hok
  obtain ⟨item, middle, hfirst, hsecond⟩ := bind_eq_ok.mp hok
  obtain ⟨tokens, htokens, hfailure, hread⟩ := hp item middle hfirst
  obtain ⟨rest, hrest, hfailure', hread'⟩ := hf tokens item middle hread htokens result next hsecond
  refine ⟨tokens ++ rest, ?_, hfailure'.trans hfailure, hread'⟩
  rw [htokens, hrest, List.append_assoc]

/-- The tokens of a sequence are those of its parts, one behind the other. -/
theorem Reads.bind {p : Parser α} {f : α → Parser β} {R : Reading α} {S : Reading β}
    (hp : Reads p R)
    (hf : ∀ tokens item, R tokens item → Reads (f item) fun rest => S (tokens ++ rest)) :
    Reads (p >>= f) S :=
  fun cursor => (hp cursor).bind fun tokens item next hread _ => hf tokens item hread next

/-- Looking at the next token takes none. -/
theorem readsFrom_peek_bind {f : Option Token → Parser α} {R : Reading α} {cursor : Cursor}
    (h : ∀ token?, cursor.tokens.head? = token? → ReadsFrom cursor (f token?) R) :
    ReadsFrom cursor (peek? >>= f) R := by
  intro result next hok
  obtain ⟨token?, middle, hpeek, hrest⟩ := bind_eq_ok.mp hok
  unfold peek? at hpeek
  split at hpeek
  next token rest htokens =>
    cases hpeek
    exact h (some token) (by rw [htokens]; rfl) result next hrest
  next htokens =>
    split at hpeek
    · simp at hpeek
    · cases hpeek
      exact h none (by rw [htokens]; rfl) result next hrest

/-- The next token, once it is known, is the one that is taken. -/
theorem readsFrom_advance_bind {f : Option Token → Parser α} {R : Reading α} {cursor : Cursor}
    {token : Token} (hhead : cursor.tokens.head? = some token)
    (h : Reads (f (some token)) fun rest => R (token :: rest)) :
    ReadsFrom cursor (advance? >>= f) R := by
  intro result next hok
  obtain ⟨token?, middle, hadvance, hrest⟩ := bind_eq_ok.mp hok
  unfold advance? at hadvance
  split at hadvance
  next token' tokens htokens =>
    cases hadvance
    rw [htokens, List.head?_cons, Option.some.injEq] at hhead
    subst hhead
    obtain ⟨rest, htaken, hfailure, hread⟩ := h _ result next hrest
    exact ⟨token' :: rest, htokens.trans (congrArg (token' :: ·) htaken), hfailure, hread⟩
  next htokens => simp [htokens] at hhead

/-- The cursor is at the end of a stream without a lexical error. -/
structure AtEnd (cursor : Cursor) : Prop where
  tokens_eq : cursor.tokens = []
  failure?_eq : cursor.failure? = none

/-- A result that no token in front can lead to comes of the end of the stream. -/
theorem none_of_advance_bind {f : Option Token → Parser α} {cursor next : Cursor} {result : α}
    (hok : (advance? >>= f) cursor = .ok (result, next))
    (hsome : ∀ token, Yields (f (some token)) (· ≠ result)) :
    AtEnd cursor ∧ f none cursor = .ok (result, next) := by
  obtain ⟨token?, middle, hadvance, hrest⟩ := bind_eq_ok.mp hok
  unfold advance? at hadvance
  split at hadvance
  next token tokens htokens =>
    cases hadvance
    exact absurd rfl (hsome token _ _ _ hrest)
  next htokens =>
    split at hadvance
    next => cases hadvance
    next hfailure =>
      cases hadvance
      exact ⟨⟨htokens, hfailure⟩, hrest⟩

/-- The next token, or none at the end of the stream. -/
theorem reads_advance : Reads advance? (Optional fun tokens token => tokens = [token]) := by
  intro cursor result next hok
  unfold advance? at hok
  split at hok
  next token tokens htokens =>
    cases hok
    exact ⟨[token], htokens, rfl, .present rfl⟩
  next htokens =>
    split at hok
    · simp at hok
    · cases hok
      exact ⟨[], rfl, rfl, .absent⟩

theorem reads_get : Reads (get : Parser Cursor) fun tokens _ => tokens = [] := by
  intro cursor result next hok
  cases hok
  exact ⟨[], rfl, rfl, rfl⟩

/-- One token is taken, whatever its kind. -/
theorem reads_take {expected : Expected} :
    Reads (take expected) fun tokens token => tokens = [token] := by
  refine reads_advance.bind ?_
  rintro tokens token? (_ | ⟨rfl⟩)
  · exact reads_get.bind fun _ _ _ => reads_fail
  · exact reads_pure rfl

/-- One token of the expected kind is taken. -/
theorem reads_expect {kind : TokenKind} {expected : Expected} :
    Reads (expect kind expected) fun tokens token => tokens = [token] ∧ token.kind = kind := by
  refine reads_take.bind ?_
  rintro tokens token rfl
  split
  next hkind => exact reads_pure ⟨rfl, hkind⟩
  next => exact reads_unexpected

/-- A token is taken if it is of the kind, and otherwise nothing is. -/
theorem reads_eat {kind : TokenKind} : Reads (eat kind) (Eaten [kind]) := by
  intro cursor
  refine readsFrom_peek_bind ?_
  intro token? hhead
  cases token? with
  | none => exact reads_pure .kept cursor
  | some token =>
      dsimp only
      split
      next hkind =>
        exact readsFrom_advance_bind hhead (reads_pure (.eaten (by simpa using hkind)))
      next => exact reads_pure .kept cursor

theorem reads_eatEither {kind other : TokenKind} :
    Reads (eatEither kind other) (Eaten [kind, other]) := by
  refine reads_eat.bind ?_
  rintro tokens eaten (_ | hkind)
  · exact reads_eat.mono fun tokens eaten h => h.mono (by simp)
  · exact reads_pure (.eaten (by simp_all))

/-- The fuel that rounds are given is enough for one that takes no token. -/
theorem length_lt_fuel (cursor : Cursor) : cursor.tokens.length < cursor.left + 1 := by
  rw [cursor.left_eq]
  exact Nat.lt_succ_self _

/-- Counting the tokens left takes none. -/
theorem readsFrom_remaining_bind {f : Nat → Parser α} {R : Reading α} {cursor : Cursor}
    (h : ReadsFrom cursor (f cursor.left) R) : ReadsFrom cursor (remaining >>= f) R := h

/-- What is taken in rounds are items one after the other. -/
theorem Reads.manyUpTo {round : Parser (Option α)} {R : Reading α} (h : Reads round (Optional R))
    (fuel : Nat) : Reads (manyUpTo round fuel) (Items R) := by
  induction fuel with
  | zero => exact reads_pure .nil
  | succ fuel ih =>
      refine h.bind ?_
      rintro tokens item? (_ | hitem)
      · exact reads_pure .nil
      · refine ih.bind ?_
        intro rest items hitems
        exact reads_pure (by simpa using Items.cons hitem hitems)

theorem Reads.many {round : Parser (Option α)} {R : Reading α} (h : Reads round (Optional R)) :
    Reads (many round) (Items R) :=
  fun cursor => readsFrom_remaining_bind (h.manyUpTo (cursor.left + 1) cursor)

/-- Rounds that each begin with a token of one of some kinds. -/
theorem Reads.behind {kinds : List TokenKind} {separator : Parser Bool} {p : Parser α}
    {R : Reading α} (hseparator : Reads separator (Eaten kinds)) (hp : Reads p R) :
    Reads
      (do
        if ← separator then
          let item ← p
          pure (some item)
        else pure none)
      (Optional (Behind kinds R)) := by
  refine hseparator.bind ?_
  rintro tokens eaten (_ | hkind)
  · exact reads_pure .absent
  · refine hp.bind ?_
    intro rest item hitem
    exact reads_pure (.present (by simpa using Behind.intro hkind hitem))

end Parser

end TextTemplate
