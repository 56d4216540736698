import TextTemplate.Proofs.Parser.Grammar
/-! # Expressions of the grammar are parsed

A parser looks one token ahead: it goes on where the next token continues what it reads, and stops
at any other. So tokens that stand for an expression are taken as a whole, and no token behind them
is, if the first of these continues no expression. `TakesAs` follows the way parsers are put
together, and there is one lemma for each rule of the grammar.
-/

namespace TextTemplate.Parser

open Grammar

variable {α β : Type} {tokens tokens' rest : List Token} {token : Token}

/-- In front of `rest`, the parser takes the tokens, all of them and no others, as the item. -/
def TakesAs (p : Parser α) (rest tokens : List Token) (item : α) : Prop :=
  ∀ cursor : Cursor, cursor.tokens = tokens ++ rest →
    ∃ next, p cursor = .ok (item, next) ∧ next.tokens = rest

theorem takesAs_pure (item : α) : TakesAs (pure item) rest [] item := by
  intro cursor hcursor
  exact ⟨cursor, rfl, hcursor⟩

/-- What two parsers take one after the other is taken by the sequence of them. -/
theorem TakesAs.bind {p : Parser α} {f : α → Parser β} {item : α} {result : β}
    (hp : TakesAs p (tokens' ++ rest) tokens item) (hf : TakesAs (f item) rest tokens' result) :
    TakesAs (p >>= f) rest (tokens ++ tokens') result := by
  intro cursor hcursor
  obtain ⟨middle, hfirst, hmiddle⟩ := hp cursor (by rw [hcursor, List.append_assoc])
  obtain ⟨next, hsecond, hnext⟩ := hf middle hmiddle
  exact ⟨next, bind_eq_ok.mpr ⟨item, middle, hfirst, hsecond⟩, hnext⟩

theorem TakesAs.bind_cons {p : Parser α} {f : α → Parser β} {item : α} {result : β}
    (hp : TakesAs p (tokens ++ rest) [token] item) (hf : TakesAs (f item) rest tokens result) :
    TakesAs (p >>= f) rest (token :: tokens) result :=
  hp.bind hf

/-- What comes behind the tokens is only looked at. -/
theorem TakesAs.bind_nothing {p : Parser α} {f : α → Parser β} {item : α} {result : β}
    (hp : TakesAs p rest tokens item) (hf : TakesAs (f item) rest [] result) :
    TakesAs (p >>= f) rest tokens result := by
  have h : TakesAs (p >>= f) rest (tokens ++ []) result := hp.bind hf
  rwa [List.append_nil] at h

theorem TakesAs.map {p : Parser α} {item : α} (hp : TakesAs p rest tokens item) (f : α → β) :
    TakesAs (p >>= fun item => pure (f item)) rest tokens (f item) :=
  hp.bind_nothing (takesAs_pure (f item))

theorem takesAs_advance : TakesAs advance? rest [token] (some token) := by
  intro cursor hcursor
  unfold advance?
  split
  next token' tokens htokens =>
    rw [hcursor, List.singleton_append, List.cons.injEq] at htokens
    obtain ⟨rfl, rfl⟩ := htokens
    exact ⟨_, rfl, rfl⟩
  next htokens => simp [hcursor] at htokens

/-- Looking ahead shows the token that comes next, whether it is then taken or not. -/
theorem TakesAs.peek_bind {f : Option Token → Parser α} {item : α} (token : Token)
    (hhead : (tokens ++ rest).head? = some token) (h : TakesAs (f (some token)) rest tokens item) :
    TakesAs (peek? >>= f) rest tokens item := by
  intro cursor hcursor
  obtain ⟨behind, hbehind⟩ := List.head?_eq_some_iff.mp hhead
  have hpeek : peek? cursor = .ok (some token, cursor) := by
    rw [hbehind] at hcursor
    simp only [peek?, hcursor]
  obtain ⟨next, hok, hnext⟩ := h cursor hcursor
  exact ⟨next, bind_eq_ok.mpr ⟨some token, cursor, hpeek, hok⟩, hnext⟩

theorem takesAs_take {expected : Expected} : TakesAs (take expected) rest [token] token :=
  takesAs_advance.bind_nothing (takesAs_pure token)

theorem takesAs_expect {kind : TokenKind} {expected : Expected} (hkind : token.kind = kind) :
    TakesAs (expect kind expected) rest [token] token := by
  apply takesAs_take.bind_nothing
  rw [if_pos hkind]
  exact takesAs_pure token

theorem takesAs_eat {kind : TokenKind} (hkind : token.kind = kind) :
    TakesAs (eat kind) rest [token] true := by
  apply TakesAs.peek_bind token rfl
  dsimp only
  rw [if_pos hkind]
  exact takesAs_advance.map fun _ => true

/-- A token comes next, and it is of none of the kinds. -/
def StopsBefore (kinds : List TokenKind) (rest : List Token) : Prop :=
  ∃ token after, rest = token :: after ∧ token.kind ∉ kinds

theorem StopsBefore.mono {kinds kinds' : List TokenKind} (h : StopsBefore kinds rest)
    (hsubset : kinds' ⊆ kinds) : StopsBefore kinds' rest := by
  obtain ⟨token, after, hrest, hkind⟩ := h
  exact ⟨token, after, hrest, fun hmem => hkind (hsubset hmem)⟩

theorem StopsBefore.append {kinds : List TokenKind} (h : StopsBefore kinds tokens) :
    StopsBefore kinds (tokens ++ rest) := by
  obtain ⟨token, after, rfl, hkind⟩ := h
  exact ⟨token, after ++ rest, rfl, hkind⟩

theorem stopsBefore_cons {kinds : List TokenKind} (hkind : token.kind ∉ kinds) :
    StopsBefore kinds (token :: rest) :=
  ⟨token, rest, rfl, hkind⟩

/-- Where items are, the token in front is one that an item starts with, or one of those behind the
items. -/
theorem Items.stopsBefore {R : Reading α} {kinds : List TokenKind} {items : List α}
    (h : Items R tokens items) (hstart : ∀ tokens item, R tokens item → StopsBefore kinds tokens)
    (hrest : StopsBefore kinds rest) : StopsBefore kinds (tokens ++ rest) := by
  cases h with
  | nil => exact hrest
  | cons first more =>
      rw [List.append_assoc]
      exact (hstart _ _ first).append

theorem Behind.stopsBefore {R : Reading α} {kind : TokenKind} {kinds : List TokenKind} {item : α}
    (h : Behind [kind] R tokens item) (hkind : kind ∉ kinds) : StopsBefore kinds tokens := by
  obtain ⟨hseparator, -⟩ := h
  apply stopsBefore_cons
  rwa [List.mem_singleton.mp hseparator]

theorem takesAs_eat_nothing {kind : TokenKind} (h : StopsBefore [kind] rest) :
    TakesAs (eat kind) rest [] false := by
  obtain ⟨token, after, rfl, hkind⟩ := h
  apply TakesAs.peek_bind token rfl
  dsimp only
  rw [if_neg (by simpa using hkind)]
  exact takesAs_pure false

/-- Whatever the tokens of the relation stand for, the parser takes them as, if none of the kinds
comes behind them. -/
def Parses (p : Parser α) (kinds : List TokenKind) (R : Reading α) : Prop :=
  ∀ tokens item rest, R tokens item → StopsBefore kinds rest → TakesAs p rest tokens item

/-- Items are parsed round by round. A round that finds none ends them, and the fuel lasts for one
round a token. -/
theorem Parses.manyUpTo {round : Parser (Option α)} {R : Reading α} {kinds kinds' : List TokenKind}
    (hround : ∀ tokens item rest, R tokens item → StopsBefore kinds rest →
      TakesAs round rest tokens (some item))
    (hstart : ∀ tokens item, R tokens item → StopsBefore kinds tokens)
    (hend : ∀ rest, StopsBefore kinds' rest → TakesAs round rest [] none)
    (hsubset : kinds ⊆ kinds') {items : List α} (hitems : Items R tokens items)
    (hrest : StopsBefore kinds' rest) {fuel : Nat} (hfuel : tokens.length < fuel) :
    TakesAs (Parser.manyUpTo round fuel) rest tokens items := by
  induction hitems generalizing fuel with
  | nil =>
      obtain ⟨fuel, rfl⟩ := Nat.exists_eq_add_of_lt hfuel
      exact (hend rest hrest).bind_nothing (takesAs_pure [])
  | @cons tokens tokens' item items first more ih =>
      -- Every item takes a token, so the rounds left are more than the tokens left.
      obtain ⟨fuel, rfl⟩ : ∃ fuel', fuel = fuel' + 1 :=
        ⟨fuel - 1, (Nat.succ_pred_eq_of_pos (Nat.zero_lt_of_lt hfuel)).symm⟩
      have hlength : tokens'.length < fuel := by
        obtain ⟨token, after, rfl, -⟩ := hstart tokens item first
        simp only [List.length_append, List.length_cons] at hfuel
        omega
      have hbehind := Items.stopsBefore more hstart (hrest.mono hsubset)
      exact (hround tokens item _ first hbehind).bind ((ih hlength).map fun items => item :: items)

theorem Parses.many {round : Parser (Option α)} {R : Reading α} {kinds' : List TokenKind}
    (kinds : List TokenKind)
    (hround : ∀ tokens item rest, R tokens item → StopsBefore kinds rest →
      TakesAs round rest tokens (some item))
    (hstart : ∀ tokens item, R tokens item → StopsBefore kinds tokens)
    (hend : ∀ rest, StopsBefore kinds' rest → TakesAs round rest [] none)
    (hsubset : kinds ⊆ kinds') : Parses (Parser.many round) kinds' (Items R) := by
  intro tokens items rest hitems hrest cursor hcursor
  have hfuel : tokens.length < cursor.left + 1 := by
    rw [cursor.left_eq, hcursor, List.length_append]
    omega
  exact Parses.manyUpTo hround hstart hend hsubset hitems hrest hfuel cursor hcursor

/-- Items that each stand behind a separator. -/
theorem Parses.many_behind {p : Parser α} {R : Reading α} {kind : TokenKind}
    {kinds : List TokenKind} (h : Parses p kinds R) (hkind : kind ∉ kinds) :
    Parses
      (Parser.many do
        if ← eat kind then
          let item ← p
          pure (some item)
        else pure none)
      (kind :: kinds) (Items (Behind [kind] R)) := by
  apply Parses.many kinds
  · intro tokens item rest hitem hrest
    obtain ⟨hseparator, hitem⟩ := hitem
    apply (takesAs_eat (List.mem_singleton.mp hseparator)).bind
    exact (h _ _ _ hitem hrest).map some
  · intro tokens item hitem
    exact Behind.stopsBefore hitem hkind
  · intro rest hrest
    have hstops : StopsBefore [kind] rest := hrest.mono (by simp)
    exact (takesAs_eat_nothing hstops).bind_nothing (takesAs_pure none)
  · exact List.subset_cons_self kind kinds

/-! ## The levels of expressions -/

/-- The kinds of token that continue a path. -/
def pathSigns : List TokenKind := [.dot, .leftBracket]

/-- The kinds of token that continue a primary expression with filters. -/
def filteredSigns : List TokenKind := .pipe :: .colon :: .comma :: pathSigns

/-- The kinds of token that continue a comparison. -/
def comparisonSigns : List TokenKind := .operator :: .keyword .contains :: filteredSigns

/-- The kinds of token that continue an expression. -/
def expressionSigns : List TokenKind := .keyword .or :: .keyword .and :: comparisonSigns

section Levels

variable {primary : Parser Expr} {P : Reading Expr}

/-- Arguments are parsed from the tokens that stand for them, unless more of them could follow. -/
theorem Parses.arguments (h : Parses primary pathSigns P) :
    Parses (Parser.arguments primary) (.colon :: .comma :: pathSigns) (Arguments P) := by
  intro tokens args rest hargs hrest
  cases hargs with
  | absent =>
      have hstops : StopsBefore [.colon] rest := hrest.mono (by simp)
      exact (takesAs_eat_nothing hstops).bind_nothing (takesAs_pure [])
  | @present colon tokens tokens' arg args kind first more =>
      have hmore := h.many_behind (by decide) _ _ rest more (hrest.mono (by simp))
      have hbehind : StopsBefore pathSigns (tokens' ++ rest) :=
        Items.stopsBefore more (fun _ _ hmore => Behind.stopsBefore hmore (by decide))
          (hrest.mono (by simp))
      apply TakesAs.bind (takesAs_eat kind)
      exact (h _ _ _ first hbehind).bind (hmore.map fun args => arg :: args)

/-- A filter is parsed from the bar in front of it to the last of its arguments. -/
theorem Parses.filterCall? (h : Parses primary pathSigns P) (call : FilterCall)
    (hcall : Behind [.pipe] (Call P) tokens call)
    (hrest : StopsBefore (.colon :: .comma :: pathSigns) rest) :
    TakesAs (Parser.filterCall? primary) rest tokens (some call) := by
  obtain ⟨hpipe, ⟨hname, hargs⟩⟩ := hcall
  apply TakesAs.bind (takesAs_eat (List.mem_singleton.mp hpipe))
  apply TakesAs.bind (takesAs_expect hname)
  exact (h.arguments _ _ rest hargs hrest).map _

theorem Parses.calls (h : Parses primary pathSigns P) :
    Parses (Parser.many (Parser.filterCall? primary)) filteredSigns
      (Items (Behind [.pipe] (Call P))) := by
  apply Parses.many (.colon :: .comma :: pathSigns)
  · intro tokens call rest hcall hrest
    exact h.filterCall? call hcall hrest
  · intro tokens call hcall
    exact Behind.stopsBefore hcall (by decide)
  · intro rest hrest
    have hstops : StopsBefore [.pipe] rest := hrest.mono (by simp [filteredSigns])
    exact (takesAs_eat_nothing hstops).bind_nothing (takesAs_pure none)
  · exact List.subset_cons_self _ _

/-- An expression with its filters is parsed from the tokens that stand for it. -/
theorem Parses.filtered (h : Parses primary pathSigns P) :
    Parses (Parser.filtered primary) filteredSigns (Filtered P) := by
  intro tokens expr rest hexpr hrest
  have hpath : StopsBefore pathSigns rest := hrest.mono (by decide)
  cases hexpr with
  | bare here =>
      apply (h _ _ rest here hpath).bind_nothing
      exact (h.calls [] [] rest .nil hrest).bind_nothing (takesAs_pure expr)
  | @chain tokens tokens' base calls here filters ne_nil =>
      have hcalls := h.calls _ _ rest filters hrest
      have hbehind : StopsBefore pathSigns (tokens' ++ rest) :=
        Items.stopsBefore filters (fun _ _ hcall => Behind.stopsBefore hcall (by decide)) hpath
      apply (h _ _ _ here hbehind).bind
      apply hcalls.bind_nothing
      rw [if_neg (by simpa using ne_nil)]
      exact takesAs_pure _

/-- Each spelling of a comparison is parsed as the operator it stands for. -/
theorem takesAs_comparisonOp? {op : BinaryOp} (h : Comparator tokens op) :
    TakesAs comparisonOp? rest tokens (some op) := by
  cases h with
  | @contains token kind =>
      apply TakesAs.peek_bind token rfl
      dsimp only
      rw [if_pos kind]
      exact takesAs_advance.map fun _ => some BinaryOp.contains
  | @sign token op kind written =>
      apply TakesAs.peek_bind token rfl
      dsimp only
      rw [if_neg (by simp [kind]), if_pos kind]
      apply takesAs_advance.bind_nothing
      rw [BinaryOp.ofSigns?_eq_some_iff.mpr written]
      exact takesAs_pure (some op)

/-- Where no comparison stands, nothing is taken for one. -/
theorem takesAs_comparisonOp?_nothing (h : StopsBefore comparisonSigns rest) :
    TakesAs comparisonOp? rest [] none := by
  obtain ⟨token, after, rfl, hkind⟩ := h
  have hcontains : token.kind ≠ .keyword .contains := fun heq =>
    hkind (by simp [heq, comparisonSigns])
  have hoperator : token.kind ≠ .operator := fun heq => hkind (by simp [heq, comparisonSigns])
  apply TakesAs.peek_bind token rfl
  dsimp only
  rw [if_neg hcontains, if_neg hoperator]
  exact takesAs_pure none

/-- A comparison is parsed from the tokens that stand for it. -/
theorem Parses.comparison (h : Parses primary pathSigns P) :
    Parses (Parser.comparison primary) comparisonSigns (Comparison P) := by
  intro tokens expr rest hexpr hrest
  have hfiltered : StopsBefore filteredSigns rest := hrest.mono (by simp [comparisonSigns])
  cases hexpr with
  | operand here =>
      apply (h.filtered _ _ rest here hfiltered).bind_nothing
      exact (takesAs_comparisonOp?_nothing hrest).bind_nothing (takesAs_pure expr)
  | @compared tokens sign tokens' op left right first between second =>
      have hright := h.filtered _ _ rest second hfiltered
      have hbehind : StopsBefore filteredSigns ((sign ++ tokens') ++ rest) := by
        cases between with
        | contains kind =>
            apply stopsBefore_cons
            rw [kind]
            decide
        | sign kind written =>
            apply stopsBefore_cons
            rw [kind]
            decide
      have hleft := h.filtered _ _ _ first hbehind
      exact hleft.bind ((takesAs_comparisonOp? between).bind (hright.map (Expr.binary op left)))

/-- A chain is parsed to the end, and its operands are joined as the grammar has it. -/
theorem Parses.chain {operand : Parser Expr} {R : Reading Expr} {word : Keyword} {op : BinaryOp}
    {kinds : List TokenKind} (h : Parses operand kinds R) (hword : .keyword word ∉ kinds) :
    Parses (Parser.chain word op operand) (.keyword word :: kinds) (Chain word op R) := by
  intro tokens expr rest hexpr hrest
  obtain @⟨tokens, tokens', first, joined, others, here, more, tree⟩ := hexpr
  obtain rfl := Expr.balanced_eq_iff.mpr tree
  have hmore := h.many_behind hword _ _ rest more hrest
  have hbehind : StopsBefore kinds (tokens' ++ rest) :=
    Items.stopsBefore more (fun _ _ hother => Behind.stopsBefore hother hword)
      (hrest.mono (List.subset_cons_self _ _))
  exact (h _ _ _ here hbehind).bind (hmore.map (Expr.balanced op first))

theorem Parses.expression (h : Parses primary pathSigns P) :
    Parses (Parser.expression primary) expressionSigns (Expression P) :=
  (h.comparison.chain (by decide)).chain (by decide)

end Levels

/-! ## Primary expressions -/

/-- What the grammar has one level deeper, a parser of that level takes. -/
def ParsesInner (parser? : Option (Parser Expr)) (reading? : Option (Reading Expr)) : Prop :=
  ∀ reading, reading? = some reading →
    ∃ parser, parser? = some parser ∧ Parses parser pathSigns reading

section Primary

variable {limit : Nat} {parser? : Option (Parser Expr)} {reading? : Option (Reading Expr)}

/-- A step of a path is parsed as what it stands for: a name, an index, or what the brackets
hold. -/
theorem ParsesInner.segment? (h : ParsesInner parser? reading?) {segment : Segment}
    (hsegment : Step reading? tokens segment) :
    TakesAs (Parser.segment? limit parser?) rest tokens (some segment) := by
  cases hsegment with
  | @field dot name kind word =>
      apply TakesAs.bind_cons (takesAs_eat kind)
      have hname : TakesAs dotSegment rest [name] (.field name.text) := by
        apply takesAs_take.bind_nothing
        rcases word with hkind | ⟨word, hkind⟩
        · simp only [hkind]
          exact takesAs_pure _
        · simp only [hkind]
          exact takesAs_pure _
      exact hname.map some
  | @index dot number i kind digits written =>
      apply TakesAs.bind_cons (takesAs_eat kind)
      have hnumber : TakesAs dotSegment rest [number] (.index i) := by
        apply takesAs_take.bind_nothing
        simp only [digits, readInt64?_eq_some_iff_writes.mpr written]
        exact takesAs_pure _
      exact hnumber.map some
  | @bracket opening closing tokens key segment P inner?_eq kind here closes denotes =>
      obtain ⟨primary, rfl, hprimary⟩ := h P inner?_eq
      obtain rfl := bracketSegment_eq_iff.mpr denotes
      have hkey := hprimary.expression tokens key ([closing] ++ rest) here
        (stopsBefore_cons (by rw [closes]; decide))
      have hnothing : TakesAs (eat .dot) ((opening :: (tokens ++ [closing])) ++ rest) [] false :=
        takesAs_eat_nothing (stopsBefore_cons (by rw [kind]; decide))
      rw [← List.nil_append (opening :: _)]
      apply hnothing.bind
      apply TakesAs.peek_bind opening rfl
      dsimp only
      rw [if_pos kind]
      apply TakesAs.bind_cons takesAs_advance
      exact hkey.bind ((takesAs_expect closes).map fun _ => some (bracketSegment key))

theorem takesAs_segment?_nothing (h : StopsBefore pathSigns rest) :
    TakesAs (Parser.segment? limit parser?) rest [] none := by
  have hdot : StopsBefore [.dot] rest := h.mono (by simp [pathSigns])
  apply (takesAs_eat_nothing hdot).bind_nothing
  obtain ⟨token, after, rfl, hkind⟩ := h
  apply TakesAs.peek_bind token rfl
  dsimp only
  rw [if_neg fun heq => hkind (by simp [heq, pathSigns])]
  exact takesAs_pure none

theorem ParsesInner.segments (h : ParsesInner parser? reading?) :
    Parses (many (Parser.segment? limit parser?)) pathSigns (Items (Step reading?)) := by
  apply Parses.many []
  · intro tokens segment rest hsegment _
    exact h.segment? hsegment
  · intro tokens segment hsegment
    cases hsegment <;> exact stopsBefore_cons (by simp)
  · intro rest hrest
    exact takesAs_segment?_nothing hrest
  · simp

/-- A primary expression is parsed from the tokens that stand for it, if those one level deeper
are. -/
theorem ParsesInner.primaryWith (h : ParsesInner parser? reading?) :
    Parses (Parser.primaryWith limit parser?) pathSigns (PrimaryWith reading?) := by
  intro tokens expr rest hexpr hrest
  cases hexpr with
  | string kind | true kind | false kind | nil kind =>
      apply takesAs_take.bind_nothing
      simp only [kind]
      exact takesAs_pure _
  | @number token number kind denotes =>
      apply takesAs_take.bind_nothing
      simp only [kind, numberValue?_eq_some_iff.mpr ⟨number, rfl, denotes⟩]
      exact takesAs_pure _
  | @range opening dots closing tokens tokens' first last P inner?_eq kind lower between upper
      closes =>
      obtain ⟨primary, rfl, hprimary⟩ := h P inner?_eq
      have hfirst := hprimary tokens first ((dots :: (tokens' ++ [closing])) ++ rest) lower
        (stopsBefore_cons (by rw [between]; decide))
      have hlast := hprimary tokens' last ([closing] ++ rest) upper
        (stopsBefore_cons (by rw [closes]; decide))
      apply TakesAs.bind_cons takesAs_take
      simp only [kind]
      apply hfirst.bind
      apply TakesAs.bind_cons (takesAs_expect between)
      exact hlast.bind ((takesAs_expect closes).map fun _ => Expr.range first last opening.position)
  | @path root tokens steps kind more =>
      apply TakesAs.bind_cons takesAs_take
      simp only [kind]
      exact (h.segments _ _ rest more hrest).map fun steps => Expr.path (.field root.text :: steps)

end Primary

/-- Primary expressions are parsed at every depth, under any limit that the parser reports. -/
theorem parses_primary (limit depth : Nat) :
    Parses (Parser.primary limit depth) pathSigns (Primary depth) := by
  induction depth with
  | zero =>
      have hinner : ParsesInner none none := fun _ hnone => nomatch hnone
      exact hinner.primaryWith
  | succ depth ih =>
      have hinner : ParsesInner (some (Parser.primary limit depth)) (some (Primary depth)) := by
        intro reading hreading
        cases hreading
        exact ⟨_, rfl, ih⟩
      exact hinner.primaryWith

end TextTemplate.Parser
