import TextTemplate.Proofs.Parser.Completeness
import TextTemplate.Proofs.Parser.Soundness
/-! # Which tokens are parsed as which expression

The grammar bounds how deep brackets and parentheses may be nested, and so does the parser. A
derivation never needs a greater bound than the nesting of its tokens, which can be told from the
tokens alone. So the parser makes an expression of some tokens exactly if the grammar derives it
from them and they are not nested too deep.
-/

namespace TextTemplate.Grammar

/-- The greatest number of brackets and parentheses open at once, on top of `height` open ones. -/
def peak : Nat → List Token → Nat
  | height, [] => height
  | height, token :: rest =>
    match token.kind with
    | .leftBracket | .leftParen => peak (height + 1) rest
    | .rightBracket | .rightParen => max height (peak (height - 1) rest)
    | _ => peak height rest

/-- How deep the brackets and parentheses among the tokens are nested. -/
def nesting (tokens : List Token) : Nat := peak 0 tokens

/-- The grammar derives the expression from the tokens. -/
def Derives (tokens : List Token) (expr : Expr) : Prop :=
  ∃ depth, Expression (Primary depth) tokens expr

/-- A bracket or a parenthesis, opening or closing. -/
def bracketKinds : List TokenKind := [.leftBracket, .leftParen, .rightBracket, .rightParen]

/-- Only brackets change how deep the tokens behind are. -/
theorem peak_cons_of_not_mem {token : Token} (h : token.kind ∉ bracketKinds) (height : Nat)
    (rest : List Token) : peak height (token :: rest) = peak height rest := by
  rw [peak]
  split
  all_goals simp_all [bracketKinds]

theorem le_peak (height : Nat) (tokens : List Token) : height ≤ peak height tokens := by
  induction tokens generalizing height with
  | nil => exact Nat.le_refl _
  | cons token rest ih =>
      have hopened := ih (height + 1)
      have hhere := ih height
      rw [peak]
      split <;> omega

/-- The tokens close what they open and nothing else, and are nested `n` levels deep. -/
def Nested (tokens : List Token) (n : Nat) : Prop :=
  ∀ height rest, peak height (tokens ++ rest) = max (height + n) (peak height rest)

theorem nested_nil : Nested [] 0 := by
  intro height rest
  have hle := le_peak height rest
  rw [List.nil_append]
  omega

theorem nested_singleton {token : Token} (h : token.kind ∉ bracketKinds) : Nested [token] 0 := by
  intro height rest
  rw [List.singleton_append, peak_cons_of_not_mem h]
  exact nested_nil height rest

/-- Tokens one after the other are nested as deep as the deeper of both. -/
theorem Nested.append {tokens tokens' : List Token} {n n' : Nat} (h : Nested tokens n)
    (h' : Nested tokens' n') : Nested (tokens ++ tokens') (max n n') := by
  intro height rest
  rw [List.append_assoc, h height, h' height]
  omega

/-- Brackets around tokens nest them one level deeper. -/
theorem Nested.enclose {opening closing : Token} {tokens : List Token} {n : Nat}
    (h : Nested tokens n) (hopening : opening.kind = .leftBracket ∨ opening.kind = .leftParen)
    (hclosing : closing.kind = .rightBracket ∨ closing.kind = .rightParen) :
    Nested (opening :: (tokens ++ [closing])) (n + 1) := by
  intro height rest
  have hopen : ∀ rest, peak height (opening :: rest) = peak (height + 1) rest := by
    intro rest
    rcases hopening with hkind | hkind <;> simp only [peak, hkind]
  have hclose : peak (height + 1) (closing :: rest) = max (height + 1) (peak height rest) := by
    rcases hclosing with hkind | hkind <;> simp only [peak, hkind, Nat.add_sub_cancel]
  rw [List.cons_append, List.append_assoc, hopen, h, List.singleton_append, hclose]
  omega

/-- What `Nested` says of every height is the nesting when read from the outside. -/
theorem Nested.nesting_eq {tokens : List Token} {n : Nat} (h : Nested tokens n) :
    nesting tokens = n := by
  have hpeak := h 0 []
  rw [List.append_nil] at hpeak
  rw [nesting, hpeak, peak]
  omega

/-- What is said of depths holds of all from the nesting of the tokens on, and `depth` is one of
them. -/
def HoldsFrom (depth : Nat) (tokens : List Token) (F : Nat → Prop) : Prop :=
  ∃ n ≤ depth, Nested tokens n ∧ ∀ d, n ≤ d → F d

section HoldsFrom

variable {depth : Nat} {tokens tokens' : List Token} {token : Token} {F G H : Nat → Prop}

theorem holdsFrom_nil (h : ∀ d, F d) : HoldsFrom depth [] F :=
  ⟨0, Nat.zero_le _, nested_nil, fun d _ => h d⟩

theorem holdsFrom_singleton (hkind : token.kind ∉ bracketKinds) (h : ∀ d, F d) :
    HoldsFrom depth [token] F :=
  ⟨0, Nat.zero_le _, nested_singleton hkind, fun d _ => h d⟩

theorem HoldsFrom.mono (h : HoldsFrom depth tokens F) (himp : ∀ d, F d → G d) :
    HoldsFrom depth tokens G := by
  obtain ⟨n, hle, hnested, hholds⟩ := h
  exact ⟨n, hle, hnested, fun d hd => himp d (hholds d hd)⟩

/-- What holds of tokens and of those behind them holds of both from the greater nesting on. -/
theorem HoldsFrom.append (h : HoldsFrom depth tokens F) (h' : HoldsFrom depth tokens' G)
    (himp : ∀ d, F d → G d → H d) : HoldsFrom depth (tokens ++ tokens') H := by
  obtain ⟨n, hle, hnested, hholds⟩ := h
  obtain ⟨n', hle', hnested', hholds'⟩ := h'
  refine ⟨max n n', Nat.max_le.mpr ⟨hle, hle'⟩, hnested.append hnested', ?_⟩
  intro d hd
  have hboth := Nat.max_le.mp hd
  exact himp d (hholds d hboth.1) (hholds' d hboth.2)

theorem HoldsFrom.cons (h : HoldsFrom depth tokens F) (hkind : token.kind ∉ bracketKinds)
    (himp : ∀ d, F d → G d) : HoldsFrom depth (token :: tokens) G :=
  HoldsFrom.append (holdsFrom_singleton hkind fun _ => trivial) h fun d _ hholds => himp d hholds

/-- What stands in brackets is one level deeper. -/
theorem HoldsFrom.enclose {opening closing : Token} (h : HoldsFrom depth tokens F)
    (hopening : opening.kind = .leftBracket ∨ opening.kind = .leftParen)
    (hclosing : closing.kind = .rightBracket ∨ closing.kind = .rightParen)
    (himp : ∀ d, F d → G (d + 1)) :
    HoldsFrom (depth + 1) (opening :: (tokens ++ [closing])) G := by
  obtain ⟨n, hle, hnested, hholds⟩ := h
  refine ⟨n + 1, Nat.succ_le_succ hle, hnested.enclose hopening hclosing, ?_⟩
  intro d hd
  obtain ⟨d, rfl⟩ := Nat.exists_eq_add_of_le' hd
  exact himp (d + n) (hholds _ (Nat.le_add_left n d))

end HoldsFrom

/-- What is read at the depth is read at every other from the nesting of its tokens on. -/
def GradedAt {α : Type} (depth : Nat) (R : Nat → Reading α) : Prop :=
  ∀ tokens item, R depth tokens item → HoldsFrom depth tokens fun d => R d tokens item

section Graded

variable {α : Type} {depth : Nat} {R : Nat → Reading α} {P : Nat → Reading Expr}

/-- Items are read at every depth from the nesting of their tokens on, if each of them is. -/
theorem GradedAt.items (h : GradedAt depth R) : GradedAt depth fun d => Items (R d) := by
  intro tokens items hitems
  induction hitems with
  | nil => exact holdsFrom_nil fun d => .nil
  | cons first more ih => exact (h _ _ first).append ih fun d hfirst hmore => .cons hfirst hmore

theorem GradedAt.behind (h : GradedAt depth R) {kind : TokenKind} (hkind : kind ∉ bracketKinds) :
    GradedAt depth fun d => Behind [kind] (R d) := by
  intro tokens item hitem
  obtain ⟨hseparator, hrest⟩ := hitem
  apply (h _ _ hrest).cons
  · rwa [List.mem_singleton.mp hseparator]
  · exact fun d hd => .intro hseparator hd

/-- Arguments need no more depth than the deepest of them. -/
theorem GradedAt.arguments (h : GradedAt depth P) : GradedAt depth fun d => Arguments (P d) := by
  intro tokens args hargs
  cases hargs with
  | absent => exact holdsFrom_nil fun d => .absent
  | present kind first more =>
      have hmore := (h.behind (by decide : TokenKind.comma ∉ bracketKinds)).items _ _ more
      apply ((h _ _ first).append hmore fun d hd hd' => And.intro hd hd').cons
      · rw [kind]
        decide
      · exact fun d hd => .present kind hd.1 hd.2

theorem GradedAt.call (h : GradedAt depth P) : GradedAt depth fun d => Call (P d) := by
  intro tokens call hcall
  obtain ⟨hname, hargs⟩ := hcall
  apply (h.arguments _ _ hargs).cons
  · rw [hname]
    decide
  · exact fun d hd => .intro hname hd

/-- An expression with filters needs no more depth than the deepest part of it. -/
theorem GradedAt.filtered (h : GradedAt depth P) : GradedAt depth fun d => Filtered (P d) := by
  intro tokens expr hexpr
  cases hexpr with
  | bare here => exact (h _ _ here).mono fun d hd => .bare hd
  | chain here filters ne_nil =>
      have hcalls := (h.call.behind (by decide : TokenKind.pipe ∉ bracketKinds)).items _ _ filters
      exact (h _ _ here).append hcalls fun d hd hd' => .chain hd hd' ne_nil

/-- A comparison needs no more depth than the deeper of its sides. -/
theorem GradedAt.comparison (h : GradedAt depth P) :
    GradedAt depth fun d => Comparison (P d) := by
  intro tokens expr hexpr
  cases hexpr with
  | operand here => exact (h.filtered _ _ here).mono fun d hd => .operand hd
  | @compared tokens sign rest op left right first between second =>
      have hsign : HoldsFrom depth sign fun _ => Comparator sign op := by
        cases between with
        | contains kind => exact holdsFrom_singleton (by rw [kind]; decide) fun d => .contains kind
        | sign kind written =>
            exact holdsFrom_singleton (by rw [kind]; decide) fun d => .sign kind written
      have hbehind := hsign.append (h.filtered _ _ second) fun d hd hd' => And.intro hd hd'
      exact (h.filtered _ _ first).append hbehind fun d hd hd' => .compared hd hd'.1 hd'.2

/-- A chain needs no more depth than the deepest of its operands. -/
theorem GradedAt.chain {word : Keyword} {op : BinaryOp} (h : GradedAt depth P) :
    GradedAt depth fun d => Chain word op (P d) := by
  intro tokens expr hexpr
  obtain ⟨here, more, tree⟩ := hexpr
  have hmore := (h.behind (by simp [bracketKinds] : TokenKind.keyword word ∉ bracketKinds)).items
    _ _ more
  exact (h _ _ here).append hmore fun d hd hd' => .intro hd hd' tree

theorem GradedAt.expression (h : GradedAt depth P) : GradedAt depth fun d => Expression (P d) :=
  h.comparison.chain.chain

/-- The relation for primary expressions one level below a depth. -/
def below? : Nat → Option (Reading Expr)
  | 0 => none
  | depth + 1 => some (Primary depth)

theorem primary_eq (depth : Nat) : Primary depth = PrimaryWith (below? depth) := by
  cases depth <;> rfl

/-- The readings of the level below, if there is one, are graded. -/
def GradedBelow (depth : Nat) : Prop :=
  ∀ primary, below? depth = some primary →
    ∃ d, depth = d + 1 ∧ primary = Primary d ∧ GradedAt d Primary

/-- A step in brackets needs one level more than the expression in them. -/
theorem GradedBelow.step (h : GradedBelow depth) : GradedAt depth fun d => Step (below? d) := by
  intro tokens segment hsegment
  cases hsegment with
  | field kind word =>
      apply (holdsFrom_singleton _ fun _ => trivial).cons
      · rw [kind]
        decide
      · exact fun d _ => .field kind word
      · rcases word with hname | ⟨word, hname⟩ <;> simp [hname, bracketKinds]
  | index kind digits written =>
      apply (holdsFrom_singleton _ fun _ => trivial).cons
      · rw [kind]
        decide
      · exact fun d _ => .index kind digits written
      · rw [digits]
        decide
  | bracket inner?_eq kind here closes denotes =>
      obtain ⟨d, rfl, rfl, hgraded⟩ := h _ inner?_eq
      have hkey := hgraded.expression _ _ here
      exact hkey.enclose (.inl kind) (.inl closes) fun d hd => .bracket rfl kind hd closes denotes

/-- A range needs one level more than its bounds, and a path as much as the deepest of its steps. -/
theorem GradedBelow.primary (h : GradedBelow depth) : GradedAt depth Primary := by
  intro tokens expr hexpr
  simp only [primary_eq] at hexpr ⊢
  cases hexpr with
  | string kind => exact holdsFrom_singleton (by rw [kind]; decide) fun d => .string kind
  | number kind denotes =>
      exact holdsFrom_singleton (by rw [kind]; decide) fun d => .number kind denotes
  | true kind => exact holdsFrom_singleton (by rw [kind]; decide) fun d => .true kind
  | false kind => exact holdsFrom_singleton (by rw [kind]; decide) fun d => .false kind
  | nil kind => exact holdsFrom_singleton (by rw [kind]; decide) fun d => .nil kind
  | @range opening dots closing tokens rest first last primary inner?_eq kind lower between upper
      closes =>
      obtain ⟨d, rfl, rfl, hgraded⟩ := h _ inner?_eq
      have hbehind := (hgraded _ _ upper).cons (by rw [between]; decide) fun _ hd => hd
      have hinside := (hgraded _ _ lower).append hbehind fun d hd hd' => And.intro hd hd'
      have henclosed := hinside.enclose (.inr kind) (.inr closes)
        (G := fun d => PrimaryWith (below? d) (opening :: (tokens ++ dots :: (rest ++ [closing])))
          (.range first last opening.position))
        fun d hd => .range rfl kind hd.1 between hd.2 closes
      simpa only [List.append_assoc, List.cons_append] using henclosed
  | path kind more =>
      apply (h.step.items _ _ more).cons
      · rw [kind]
        decide
      · exact fun d hd => .path kind hd

/-- What is a primary expression at one depth is one at every depth from the nesting of its tokens
on. -/
theorem gradedAt_primary (depth : Nat) : GradedAt depth Primary := by
  induction depth with
  | zero =>
      apply GradedBelow.primary
      intro primary hnone
      cases hnone
  | succ depth ih =>
      apply GradedBelow.primary
      intro primary hsome
      cases hsome
      exact ⟨depth, rfl, rfl, ih⟩

end Graded

/-- A bound on the depth of a derivation is a bound on the nesting of its tokens. -/
theorem expression_primary_iff {depth : Nat} {tokens : List Token} {expr : Expr} :
    Expression (Primary depth) tokens expr ↔ Derives tokens expr ∧ nesting tokens ≤ depth := by
  constructor
  · intro h
    obtain ⟨n, hle, hnested, -⟩ := (gradedAt_primary depth).expression _ _ h
    exact ⟨⟨depth, h⟩, hnested.nesting_eq ▸ hle⟩
  · intro h
    obtain ⟨⟨depth', hderives⟩, hle⟩ := h
    obtain ⟨n, -, hnested, hholds⟩ := (gradedAt_primary depth').expression _ _ hderives
    exact hholds depth (hnested.nesting_eq ▸ hle)

end TextTemplate.Grammar

namespace TextTemplate.Parser

open Grammar

/-- In front of a token that closes an output, a tag or a bracket, the parser makes an expression of
exactly the tokens that the grammar derives it from, unless they are nested too deep. -/
theorem expression_eq_ok_iff {limit budget : Nat} {tokens rest : List Token} {closing : Token}
    {cursor : Cursor} (hclosing : closing.kind ∈ [.outputClose, .tagClose, .rightBracket])
    (hcursor : cursor.tokens = tokens ++ closing :: rest) (expr : Expr) :
    (∃ next, expression (primary limit budget) cursor = .ok (expr, next) ∧
        next.tokens = closing :: rest) ↔
      Derives tokens expr ∧ nesting tokens ≤ budget := by
  rw [← expression_primary_iff]
  constructor
  · rintro ⟨next, hok, hnext⟩
    obtain ⟨taken, htaken, -, hread⟩ := (reads_primary limit budget).expression cursor expr next hok
    rw [hcursor, hnext, List.append_cancel_right_eq] at htaken
    rwa [htaken]
  · intro hread
    have hstops : StopsBefore expressionSigns (closing :: rest) := by
      apply stopsBefore_cons
      simp only [List.mem_cons, List.not_mem_nil, or_false] at hclosing
      rcases hclosing with hkind | hkind | hkind <;> rw [hkind] <;> decide
    exact (parses_primary limit budget).expression tokens expr _ hread hstops cursor hcursor

/-- Brackets around a name, an index and an expression, a comparison and a fraction: the closing
bracket behind the expression stays where it is. -/
theorem derives_lookup_or :
    let token (kind : TokenKind) (text : String) : Token := ⟨kind, text, Position.start⟩
    let brackets (key : Token) := [token .leftBracket "[", key, token .rightBracket "]"]
    let tokens := token .identifier "a" :: (brackets (token .string "k") ++
      brackets (token .number "2") ++ token .operator "<>" :: token .number "1.5" ::
      token (.keyword .or) "or" :: token .identifier "b" :: brackets (token .identifier "c"))
    let expr : Expr :=
      .binary .or
        (.binary .ne (.path [.field "a", .field "k", .index 2])
          (.literal (.number (.float ⟨false, 3 * Nat.pow 2 51, -52⟩))))
        (.path [.field "b", .lookup (.path [.field "c"])])
    let closing := token .rightBracket "]"
    (∃ next, expression (primary 1 1) (start ⟨tokens ++ [closing], none⟩) = .ok (expr, next) ∧
        next.tokens = [closing]) ∧ Derives tokens expr ∧ nesting tokens ≤ 1 := by
  intro token brackets tokens expr closing
  have hhalves : DenotesNumber "1.5".toList (.float ⟨false, 3 * Nat.pow 2 51, -52⟩) :=
    .float (readInt64?_eq_none_iff.mp (by decide))
      (Numeral.readBinary64?_eq_some_iff.mp (by decide +kernel))
  have htwo : DenotesNumber "2".toList (.int 2) :=
    .int (readInt64?_eq_some_iff_writes.mp (by decide))
  have hbracket {key : Token} {inside : Expr} {segment : Segment} (hkey : Primary 0 [key] inside)
      (hsegment : DenotesStep inside segment) : Step (some (Primary 0)) (brackets key) segment :=
    .bracket rfl rfl (expression_of_primary hkey) rfl hsegment
  have hname : Step (some (Primary 0)) (brackets (token .string "k")) (.field "k") :=
    hbracket (.string rfl) (.field "k")
  have hindex : Step (some (Primary 0)) (brackets (token .number "2")) (.index 2) :=
    hbracket (.number rfl htwo) (.index 2)
  have hlookup : Step (some (Primary 0)) (brackets (token .identifier "c"))
      (.lookup (.path [.field "c"])) :=
    hbracket (.path rfl .nil) (.lookup nofun nofun)
  have hpath : Primary 1
      (token .identifier "a" :: (brackets (token .string "k") ++ brackets (token .number "2")))
      (.path [.field "a", .field "k", .index 2]) :=
    .path rfl (.cons hname (.cons hindex .nil))
  have hfraction : Primary 1 [token .number "1.5"] (.literal (.number (.float _))) :=
    .number rfl hhalves
  have hother : Primary 1 (token .identifier "b" :: brackets (token .identifier "c"))
      (.path [.field "b", .lookup (.path [.field "c"])]) :=
    .path rfl (.cons hlookup .nil)
  have hleft := Comparison.compared (.bare hpath)
    (.sign rfl .unequal : Comparator [token .operator "<>"] .ne) (.bare hfraction)
  have hright := Comparison.operand (.bare hother)
  have hbehind : Behind [.keyword .or] (Conjunction (Primary 1))
      (token (.keyword .or) "or" :: _) _ :=
    .intro (List.mem_singleton_self _) (Chain.single hright)
  have hderives : Expression (Primary 1) tokens expr :=
    .intro (Chain.single hleft) (.cons hbehind .nil)
      (.halves (.operand _) (.operand _) (.inl rfl))
  have hboth : Derives tokens expr ∧ nesting tokens ≤ 1 := ⟨⟨1, hderives⟩, by decide⟩
  exact ⟨(expression_eq_ok_iff (by decide) rfl expr).mpr hboth, hboth⟩

end TextTemplate.Parser
