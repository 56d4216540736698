import TextTemplate.Proofs.Node.Moved
import TextTemplate.Proofs.Parser.BlockTracking
import TextTemplate.Proofs.Parser.Levels
/-! # Two runs of the parser in step

The parser looks at the kinds and the texts of tokens only, and at the number of levels it may still
go down. So two runs on the same tokens in different places, with different nesting limits, do the
same until the smaller limit is reached, and their results differ in their places only. `InStep`
says so of two parsers. It also keeps count of the levels that the tokens taken so far have left
open, so that it can say where the limit is reached: at a token that would open one level more than
there may be, with as many levels open in front of it as there may be.
-/

namespace TextTemplate

/-- The nesting is too deep. -/
def SyntaxCause.isTooDeep : SyntaxCause → Bool
  | .nestingTooDeep _ => true
  | _ => false

/-- The cursor at another place. -/
def Cursor.moved (f : Position → Position) (cursor : Cursor) : Cursor :=
  ⟨cursor.tokens.map (Token.moved f), cursor.failure?.map (SyntaxError.moved f), f cursor.last,
    cursor.left, by rw [cursor.left_eq, List.length_map]⟩

theorem Cursor.tokens_moved (f : Position → Position) (cursor : Cursor) :
    (cursor.moved f).tokens = cursor.tokens.map (Token.moved f) := rfl

theorem Cursor.failure?_moved (f : Position → Position) (cursor : Cursor) :
    (cursor.moved f).failure? = cursor.failure?.map (SyntaxError.moved f) := rfl

theorem Cursor.left_sub_one (cursor : Cursor) {token : Token} {rest : List Token}
    (h : cursor.tokens = token :: rest) : cursor.left - 1 = rest.length := by
  rw [cursor.left_eq, h, List.length_cons, Nat.add_sub_cancel]

/-- The cursor behind its next token. -/
def Cursor.after (cursor : Cursor) {token : Token} {rest : List Token}
    (h : cursor.tokens = token :: rest) : Cursor :=
  ⟨rest, cursor.failure?, token.position, cursor.left - 1, cursor.left_sub_one h⟩

namespace Parser

/-- How the second of two runs differs from the first: its places are moved, and it may have another
nesting limit. -/
structure Difference where
  move : Position → Position
  limit : Nat
  limit' : Nat

/-- The error that some token ahead opens one level too many. -/
inductive TooDeepAhead (limit : Nat) (height : Int) (cursor : Cursor) : SyntaxError → Prop
  | intro {front back : List Token} {token : Token}
      (tokens_eq : cursor.tokens = front ++ token :: back) (opens : levelChange token back = 1)
      (full : height + levelsOpen front (token :: back) = limit) :
      TooDeepAhead limit height cursor ⟨.nestingTooDeep limit, token.position⟩

variable {α β : Type} {runs : Difference} {height : Int} {cursor next : Cursor}

/-- Of two parsers, the second does from the moved cursor as the first does from this one, which has
`height` levels open. They yield the same but for the places, and `Q` relates it to the levels that
the tokens taken leave open. They fail alike but for the places, unless the first run fails because
it has the smaller limit. -/
structure InStepFrom (runs : Difference) (height : Int) (cursor : Cursor) (p q : Parser α)
    (g : α → α) (Q : α → Int → Prop) : Prop where
  ok : ∀ item next, p cursor = .ok (item, next) → ∃ front,
    cursor.tokens = front ++ next.tokens ∧ next.failure? = cursor.failure? ∧
      Q item (levelsOpen front next.tokens) ∧
      q (cursor.moved runs.move) = .ok (g item, next.moved runs.move)
  error : ∀ error, p cursor = .error error →
    (error.cause.isTooDeep = true →
      cursor.failure? = some error ∨ TooDeepAhead runs.limit height cursor error) ∧
    (runs.limit = runs.limit' ∨ error.cause.isTooDeep = false →
      q (cursor.moved runs.move) = .error (error.moved runs.move))

/-- Two parsers are in step from every cursor, and leave no level open that they open. -/
def InStep (runs : Difference) (height : Int) (p q : Parser α) (g : α → α) : Prop :=
  ∀ cursor, InStepFrom runs height cursor p q g fun _ change => change = 0

/-- The parsers of the next deeper level. The first run lacks one at its limit, and the second does
so too if it has the same limit. -/
inductive Deeper (runs : Difference) (height : Int) (R : β → β → Prop) :
    Option β → Option β → Prop
  | missing {inner'? : Option β} (full : height = runs.limit)
      (same : runs.limit = runs.limit' → inner'? = none) : Deeper runs height R none inner'?
  | there {inner inner' : β} (here : R inner inner') :
      Deeper runs height R (some inner) (some inner')

section Rules

variable {p q : Parser α} {g : α → α} {P Q : α → Int → Prop} {k k' : α → Parser β} {g' : β → β}
  {R : β → Int → Prop} {kind other : TokenKind} {expected : Expected} {cause : SyntaxCause}
  {position : Position}

/-- Tokens in front of the place of refusal count with the levels that they leave open. -/
theorem TooDeepAhead.lift {limit : Nat} {front : List Token} {error : SyntaxError}
    (h : TooDeepAhead limit (height + levelsOpen front next.tokens) next error)
    (htokens : cursor.tokens = front ++ next.tokens) : TooDeepAhead limit height cursor error := by
  obtain ⟨tokens_eq, opens, full⟩ := h
  rw [tokens_eq] at full
  refine .intro (by rw [htokens, tokens_eq, List.append_assoc]) opens ?_
  rw [levelsOpen_append]
  omega

/-- Two parsers that go on from another cursor as others do, once some tokens are taken. -/
theorem InStepFrom.lift {p' q' : Parser α} (front : List Token)
    (htokens : cursor.tokens = front ++ next.tokens) (hfailure : next.failure? = cursor.failure?)
    (hp : p cursor = p' next) (hq : q (cursor.moved runs.move) = q' (next.moved runs.move))
    (h : InStepFrom runs (height + levelsOpen front next.tokens) next p' q' g
      fun item change => Q item (levelsOpen front next.tokens + change)) :
    InStepFrom runs height cursor p q g Q where
  ok item last hok := by
    obtain ⟨front', htokens', hfailure', hitem, hsecond⟩ := h.ok item last (hp ▸ hok)
    refine ⟨front ++ front', ?_, hfailure'.trans hfailure, ?_, hq.trans hsecond⟩
    · rw [htokens, htokens', List.append_assoc]
    · rw [levelsOpen_append, ← htokens']
      exact hitem
  error error herror := by
    obtain ⟨hdeep, hsecond⟩ := h.error error (hp ▸ herror)
    refine ⟨fun h => ?_, fun h => hq.trans (hsecond h)⟩
    rcases hdeep h with hlexical | hahead
    · exact .inl (hfailure ▸ hlexical)
    · exact .inr (hahead.lift htokens)

/-- Two parsers that do as others do from the same cursor. -/
theorem InStepFrom.of_eq {p' q' : Parser α} (h : InStepFrom runs height cursor p' q' g Q)
    (hp : p cursor = p' cursor)
    (hq : q (cursor.moved runs.move) = q' (cursor.moved runs.move)) :
    InStepFrom runs height cursor p q g Q where
  ok item last hok := hq ▸ h.ok item last (hp ▸ hok)
  error error herror := hq ▸ h.error error (hp ▸ herror)

theorem inStepFrom_pure {item item' : α} (h : Q item 0) (hitem : item' = g item) :
    InStepFrom runs height cursor (pure item) (pure item') g Q where
  ok _ _ hok := by
    cases hok
    exact ⟨[], rfl, rfl, h, hitem ▸ rfl⟩
  error _ herror := nomatch herror

/-- Both runs fail alike unless the failure is about the limit. -/
theorem inStepFrom_fail (h : cause.isTooDeep = false) :
    InStepFrom runs height cursor (fail cause position) (fail cause (runs.move position)) g Q where
  ok _ _ hok := nomatch hok
  error _ herror := by
    cases herror
    exact ⟨fun hdeep => absurd (h.symm.trans hdeep) nofun, fun _ => rfl⟩

theorem inStepFrom_unexpected {token : Token} :
    InStepFrom runs height cursor (unexpected token expected)
      (unexpected (token.moved runs.move) expected) g Q :=
  inStepFrom_fail rfl

/-- Two sequences are in step if their first parts are, and their second parts behind what these
yield. -/
theorem InStepFrom.bind (hp : InStepFrom runs height cursor p q g P)
    (hk : ∀ item next change, p cursor = .ok (item, next) → next.tokens <:+ cursor.tokens →
      P item change → InStepFrom runs (height + change) next (k item) (k' (g item)) g'
        fun result rest => R result (change + rest)) :
    InStepFrom runs height cursor (p >>= k) (q >>= k') g' R := by
  have hall : ∀ item next, p cursor = .ok (item, next) →
      InStepFrom runs height cursor (p >>= k) (q >>= k') g' R := by
    intro item next hfirst
    obtain ⟨front, htokens, hfailure, hitem, hsecond⟩ := hp.ok item next hfirst
    apply InStepFrom.lift front htokens hfailure _ _
      (hk item next _ hfirst ⟨front, htokens.symm⟩ hitem)
    · rw [bind_apply, hfirst]
      rfl
    · rw [bind_apply, hsecond]
      rfl
  constructor
  · intro result last hok
    obtain ⟨item, next, hfirst, -⟩ := bind_eq_ok.mp hok
    exact (hall item next hfirst).ok result last hok
  · intro error herror
    rcases bind_eq_error herror with hfirst | ⟨item, next, hfirst, -⟩
    · obtain ⟨hdeep, hsecond⟩ := hp.error error hfirst
      refine ⟨hdeep, fun h => ?_⟩
      rw [bind_apply, hsecond h]
      rfl
    · exact (hall item next hfirst).error error herror

/-- A part behind one that leaves no level open. -/
theorem InStepFrom.then (hp : InStepFrom runs height cursor p q g fun _ change => change = 0)
    (hk : ∀ item next, p cursor = .ok (item, next) → next.tokens <:+ cursor.tokens →
      InStepFrom runs height next (k item) (k' (g item)) g' R) :
    InStepFrom runs height cursor (p >>= k) (q >>= k') g' R := by
  apply hp.bind
  rintro item next _ hfirst hsuffix rfl
  simpa using hk item next hfirst hsuffix

theorem InStep.bind (hp : InStep runs height p q g)
    (hk : ∀ item, InStep runs height (k item) (k' (g item)) g') :
    InStep runs height (p >>= k) (q >>= k') g' :=
  fun cursor => (hp cursor).then fun item next _ _ => hk item next

theorem inStep_pure {item item' : α} (hitem : item' = g item) :
    InStep runs height (pure item) (pure item') g :=
  fun _ => inStepFrom_pure rfl hitem

theorem advance?_of_cons {token : Token} {rest : List Token} (h : cursor.tokens = token :: rest) :
    advance? cursor = .ok (some token, cursor.after h) := by
  unfold advance?
  split
  next token' tokens htokens =>
    obtain ⟨rfl, rfl⟩ := List.cons.inj (h.symm.trans htokens)
    rfl
  next htokens => exact absurd (h.symm.trans htokens) nofun

/-- The same cursor at another place is behind the same token. -/
theorem advance?_moved {token : Token} {rest : List Token} (h : cursor.tokens = token :: rest)
    (f : Position → Position) :
    advance? (cursor.moved f) = .ok (some (token.moved f), (cursor.after h).moved f) := by
  have htokens : (cursor.moved f).tokens = token.moved f :: rest.map (Token.moved f) := by
    rw [cursor.tokens_moved, h, List.map_cons]
  rw [advance?_of_cons htokens]
  rfl

theorem advance_bind_of_cons {token : Token} {rest : List Token}
    (h : cursor.tokens = token :: rest) (k : Option Token → Parser β) :
    (advance? >>= k) cursor = k (some token) (cursor.after h) := by
  rw [bind_apply, advance?_of_cons h]
  rfl

theorem advance_bind_moved {token : Token} {rest : List Token} (h : cursor.tokens = token :: rest)
    (f : Position → Position) (k : Option Token → Parser β) :
    (advance? >>= k) (cursor.moved f) =
      k (some (token.moved f)) ((cursor.after h).moved f) := by
  rw [bind_apply, advance?_moved h]
  rfl

/-- The next token is taken. -/
theorem inStepFrom_advance_cons {k k' : Option Token → Parser β} {token : Token}
    {rest : List Token} (htokens : cursor.tokens = token :: rest)
    (h : InStepFrom runs (height + levelChange token rest) (cursor.after htokens) (k (some token))
      (k' (some (token.moved runs.move))) g' fun result change =>
        R result (levelChange token rest + change)) :
    InStepFrom runs height cursor (advance? >>= k) (advance? >>= k') g' R := by
  have hone : levelsOpen [token] (cursor.after htokens).tokens = levelChange token rest :=
    levelsOpen_singleton token rest
  have hsplit : cursor.tokens = [token] ++ (cursor.after htokens).tokens := htokens
  have hfailure : (cursor.after htokens).failure? = cursor.failure? := rfl
  rw [← hone] at h
  exact .lift [token] hsplit hfailure (advance_bind_of_cons htokens k)
    (advance_bind_moved htokens runs.move k') h

/-- Behind a token of a flat kind, as many levels are open as in front of it. -/
theorem InStepFrom.flat {token : Token} {rest : List Token} (hkind : token.kind = kind)
    (hflat : kind.isFlat = true)
    (h : InStepFrom runs height cursor p q g fun _ change => change = 0) :
    InStepFrom runs (height + levelChange token rest) cursor p q g fun _ change =>
      levelChange token rest + change = 0 := by
  simpa [levelChange_of_isFlat (hkind ▸ hflat)] using h

/-- At the end of the tokens both runs come upon the error of the lexer, or upon none. -/
theorem inStepFrom_end {step : Parser (Option Token)} {k k' : Option Token → Parser β}
    (hnil : cursor.tokens = [])
    (hstep : ∀ cursor : Cursor, cursor.tokens = [] →
      step cursor = cursor.failure?.elim (.ok (none, cursor)) .error)
    (h : InStepFrom runs height cursor (k none) (k' none) g' R) :
    InStepFrom runs height cursor (step >>= k) (step >>= k') g' R := by
  have hmoved : (cursor.moved runs.move).tokens = [] := by
    rw [cursor.tokens_moved, hnil, List.map_nil]
  have hfirst := hstep cursor hnil
  have hsecond := hstep (cursor.moved runs.move) hmoved
  cases hfailure : cursor.failure? with
  | none =>
      have hfailure' : (cursor.moved runs.move).failure? = none := by
        rw [cursor.failure?_moved, hfailure, Option.map_none]
      rw [hfailure] at hfirst
      rw [hfailure'] at hsecond
      apply h.of_eq
      · rw [bind_apply, hfirst]
        rfl
      · rw [bind_apply, hsecond]
        rfl
  | some failure =>
      have hfailure' : (cursor.moved runs.move).failure? = some (failure.moved runs.move) := by
        rw [cursor.failure?_moved, hfailure, Option.map_some]
      rw [hfailure] at hfirst
      rw [hfailure'] at hsecond
      have herror : (step >>= k) cursor = .error failure := by
        rw [bind_apply, hfirst]
        rfl
      have herror' : (step >>= k') (cursor.moved runs.move) =
          .error (failure.moved runs.move) := by
        rw [bind_apply, hsecond]
        rfl
      constructor
      · intro result last hok
        exact absurd (herror.symm.trans hok) nofun
      · intro error hresult
        cases herror.symm.trans hresult
        exact ⟨fun _ => .inl hfailure, fun _ => herror'⟩

/-- At the end, looking ahead gives nothing, or the failure of the lexer. -/
theorem peek?_nil (h : cursor.tokens = []) :
    peek? cursor = cursor.failure?.elim (.ok (none, cursor)) .error := by
  unfold peek?
  rw [h]
  cases cursor.failure? <;> rfl

/-- Looking ahead keeps both runs in step: they see the same token, if any. -/
theorem inStepFrom_peek_bind {k k' : Option Token → Parser β}
    (hnone : InStepFrom runs height cursor (k none) (k' none) g' R)
    (hsome : ∀ token rest, cursor.tokens = token :: rest →
      InStepFrom runs height cursor (k (some token)) (k' (some (token.moved runs.move))) g' R) :
    InStepFrom runs height cursor (peek? >>= k) (peek? >>= k') g' R := by
  cases htokens : cursor.tokens with
  | nil => exact inStepFrom_end htokens (fun _ => peek?_nil) hnone
  | cons token rest =>
      apply (hsome token rest htokens).of_eq
      · simp only [bind_apply, peek?, htokens, Except.bind]
      · simp only [bind_apply, peek?, Cursor.moved, htokens, List.map_cons, Except.bind]

theorem take_bind_of_cons {token : Token} {rest : List Token} (h : cursor.tokens = token :: rest)
    (k : Token → Parser β) : (take expected >>= k) cursor = k token (cursor.after h) := by
  rw [take, bind_assoc, advance_bind_of_cons h]
  rfl

theorem take_bind_moved {token : Token} {rest : List Token} (h : cursor.tokens = token :: rest)
    (f : Position → Position) (k : Token → Parser β) :
    (take expected >>= k) (cursor.moved f) = k (token.moved f) ((cursor.after h).moved f) := by
  rw [take, bind_assoc, advance_bind_moved h]
  rfl

/-- A token has to be there, and the parsers go on by what it is. -/
theorem inStepFrom_take_bind {k k' : Token → Parser β}
    (h : ∀ token rest, ∀ htokens : cursor.tokens = token :: rest,
      InStepFrom runs (height + levelChange token rest) (cursor.after htokens) (k token)
        (k' (token.moved runs.move)) g' fun result change =>
          R result (levelChange token rest + change)) :
    InStepFrom runs height cursor (take expected >>= k) (take expected >>= k') g' R := by
  rw [take, bind_assoc, bind_assoc]
  cases htokens : cursor.tokens with
  | cons token rest => exact inStepFrom_advance_cons htokens (h token rest htokens)
  | nil =>
      refine inStepFrom_end htokens (fun _ => advance?_nil) ?_
      have hfail : InStepFrom runs height cursor
          (fail (.unexpectedToken .endOfTemplate expected) cursor.last : Parser β)
          (fail (.unexpectedToken .endOfTemplate expected) (runs.move cursor.last)) g' R :=
        inStepFrom_fail rfl
      exact hfail.of_eq rfl rfl

/-- A token of the kind is taken. -/
theorem inStepFrom_expect (change : Int)
    (hchange : ∀ token rest, token.kind = kind → levelChange token rest = change) :
    InStepFrom runs height cursor (expect kind expected) (expect kind expected)
      (Token.moved runs.move) fun _ taken => taken = change := by
  apply inStepFrom_take_bind
  intro token rest htokens
  by_cases hkind : token.kind = kind
  · have hkind' : (token.moved runs.move).kind = kind := hkind
    rw [if_pos hkind, if_pos hkind']
    exact inStepFrom_pure (by rw [hchange token rest hkind, Int.add_zero]) rfl
  · have hkind' : (token.moved runs.move).kind ≠ kind := hkind
    rw [if_neg hkind, if_neg hkind']
    exact inStepFrom_unexpected

theorem inStep_expect (h : kind.isFlat = true) :
    InStep runs height (expect kind expected) (expect kind expected) (Token.moved runs.move) :=
  fun _ => inStepFrom_expect 0 fun _ rest hkind => levelChange_of_isFlat (hkind ▸ h) rest

/-- The last token of what has opened a level is taken. -/
theorem inStepFrom_closing (h : kind = .rightBracket ∨ kind = .rightParen) {item item' : β}
    (hitem : item' = g' item) :
    InStepFrom runs height cursor
      (do
        let _ ← expect kind expected
        pure item)
      (do
        let _ ← expect kind expected
        pure item')
      g' fun _ change => 1 + change = 0 := by
  refine (inStepFrom_expect (-1) ?_).bind ?_
  · intro token rest hkind
    exact levelChange_of_closing (hkind ▸ h) rest
  · rintro closing next _ _ _ rfl
    exact inStepFrom_pure rfl hitem

theorem inStep_eat (h : kind.isFlat = true) :
    InStep runs height (eat kind) (eat kind) id := by
  intro cursor
  apply inStepFrom_peek_bind
  · exact inStepFrom_pure rfl rfl
  · intro token rest htokens
    dsimp only [Token.moved]
    split
    next hkind =>
      apply inStepFrom_advance_cons htokens
      exact .flat hkind h (inStepFrom_pure rfl rfl)
    next => exact inStepFrom_pure rfl rfl

theorem inStep_eatEither (h : kind.isFlat = true) (hother : other.isFlat = true) :
    InStep runs height (eatEither kind other) (eatEither kind other) id := by
  apply (inStep_eat h).bind
  intro eaten
  cases eaten with
  | true => exact inStep_pure rfl
  | false => exact inStep_eat hother

theorem inStepFrom_remaining_bind {k k' : Nat → Parser β}
    (h : InStepFrom runs height cursor (k cursor.left) (k' cursor.left) g' R) :
    InStepFrom runs height cursor (remaining >>= k) (remaining >>= k') g' R :=
  h.of_eq rfl rfl

/-- Rounds are in step as often as they are repeated. -/
theorem InStep.manyUpTo {round round' : Parser (Option α)}
    (h : InStep runs height round round' (Option.map g)) (fuel : Nat) :
    InStep runs height (manyUpTo round fuel) (manyUpTo round' fuel) (List.map g) := by
  induction fuel with
  | zero => exact inStep_pure rfl
  | succ fuel ih =>
      apply h.bind
      intro item?
      cases item? with
      | none => exact inStep_pure rfl
      | some item => exact ih.bind fun _ => inStep_pure rfl

theorem InStep.many {round round' : Parser (Option α)}
    (h : InStep runs height round round' (Option.map g)) :
    InStep runs height (many round) (many round') (List.map g) :=
  fun cursor => inStepFrom_remaining_bind (h.manyUpTo (cursor.left + 1) cursor)

/-- Rounds that each begin with a separator. -/
theorem InStep.behind {separator : Parser Bool}
    (hseparator : InStep runs height separator separator id) (hp : InStep runs height p q g) :
    InStep runs height
      (do
        if ← separator then
          let item ← p
          pure (some item)
        else pure none)
      (do
        if ← separator then
          let item ← q
          pure (some item)
        else pure none)
      (Option.map g) := by
  apply hseparator.bind
  intro eaten
  cases eaten with
  | true => exact hp.bind fun _ => inStep_pure rfl
  | false => exact inStep_pure rfl

/-- A token that opens a level is taken, with those behind it in `front`. Without a parser of the
next level, the nesting is too deep there. -/
theorem inStepFrom_nested {inner? inner'? : Option β} {S : β → β → Prop} {parse : β → Parser α}
    {parse' : β → Parser α} {token : Token} (front : List Token)
    (hinner : Deeper runs height S inner? inner'?)
    (htokens : cursor.tokens = token :: (front ++ next.tokens))
    (hfailure : next.failure? = cursor.failure?)
    (hopens : levelChange token (front ++ next.tokens) = 1)
    (hflat : levelsOpen front next.tokens = 0)
    (hp : p cursor = nested runs.limit inner? token.position parse next)
    (hq : q (cursor.moved runs.move) =
      nested runs.limit' inner'? (runs.move token.position) parse' (next.moved runs.move))
    (hparse : ∀ inner inner', S inner inner' →
      InStepFrom runs (height + 1) next (parse inner) (parse' inner') g
        fun item change => Q item (1 + change)) :
    InStepFrom runs height cursor p q g Q := by
  cases hinner with
  | missing full same =>
      constructor
      · intro item last hok
        exact absurd (hp.symm.trans hok) nofun
      · intro error herror
        cases hp.symm.trans herror
        have hsplit : cursor.tokens = [] ++ token :: (front ++ next.tokens) := htokens
        refine ⟨fun _ => .inr (.intro hsplit hopens ?_), fun h => ?_⟩
        · rw [levelsOpen_nil, full, Int.add_zero]
        · have hlimit : runs.limit = runs.limit' := h.resolve_right nofun
          rw [hq, same hlimit, ← hlimit]
          rfl
  | there here =>
      have hchange : levelsOpen (token :: front) next.tokens = 1 := by
        rw [levelsOpen, hopens, hflat, Int.add_zero]
      refine .lift (token :: front) htokens hfailure hp hq ?_
      rw [hchange]
      exact hparse _ _ here

end Rules

end Parser

end TextTemplate
