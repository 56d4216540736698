import TextTemplate.Proofs.Parser.Grammar
/-! # Expressions are parsed by their grammar

Whatever an expression parser makes of some tokens, the grammar says that they stand for. There is
one lemma for each rule, over any parser of primary expressions that goes by the grammar, and from
these one for every depth of nesting.
-/

namespace TextTemplate.Parser

open Grammar

variable {primary : Parser Expr} {P : Reading Expr}

/-- What the parser takes for arguments are the tokens of some. -/
theorem Reads.arguments (h : Reads primary P) : Reads (arguments primary) (Arguments P) := by
  refine reads_eat.bind ?_
  rintro tokens eaten (_ | hcolon)
  · exact reads_pure .absent
  · refine h.bind ?_
    intro tokens first hfirst
    refine (reads_eat.behind h).many.bind ?_
    intro rest args hargs
    refine reads_pure ?_
    simpa using Arguments.present (List.mem_singleton.mp hcolon) hfirst hargs

/-- What the parser takes for a filter are a bar and the tokens of a call, if it takes anything. -/
theorem Reads.filterCall? (h : Reads primary P) :
    Reads (filterCall? primary) (Optional (Behind [.pipe] (Call P))) := by
  refine reads_eat.bind ?_
  rintro tokens eaten (_ | hpipe)
  · exact reads_pure .absent
  · refine reads_expect.bind ?_
    rintro tokens name ⟨rfl, hname⟩
    refine h.arguments.bind ?_
    intro rest args hargs
    exact reads_pure (.present (by simpa using Behind.intro hpipe (Call.intro hname hargs)))

/-- What the parser takes for an expression with filters are the tokens of one. -/
theorem Reads.filtered (h : Reads primary P) : Reads (filtered primary) (Filtered P) := by
  refine h.bind ?_
  intro tokens base hbase
  refine h.filterCall?.many.bind ?_
  intro rest calls hcalls
  cases calls with
  | nil =>
      cases hcalls
      exact reads_pure (by simpa using Filtered.bare hbase)
  | cons call calls => exact reads_pure (by simpa using Filtered.chain hbase hcalls (by simp))

/-- What the parser takes for a comparison spells the operator. -/
theorem reads_comparisonOp? : Reads comparisonOp? (Optional Comparator) := by
  intro cursor
  refine readsFrom_peek_bind ?_
  intro token? hhead
  cases token? with
  | none => exact reads_pure .absent cursor
  | some token =>
      dsimp only
      split
      next hkind => exact readsFrom_advance_bind hhead (reads_pure (.present (.contains hkind)))
      next =>
        split
        next hkind =>
          refine readsFrom_advance_bind hhead ?_
          split
          next op hop =>
            have hsign := BinaryOp.ofSigns?_eq_some_iff.mp hop
            exact reads_pure (.present (.sign hkind hsign))
          next => exact reads_unexpected
        next => exact reads_pure .absent cursor

/-- What the parser takes for a comparison, or for one side alone, are the tokens of it. -/
theorem Reads.comparison (h : Reads primary P) : Reads (comparison primary) (Comparison P) := by
  refine h.filtered.bind ?_
  intro tokens left hleft
  refine reads_comparisonOp?.bind ?_
  rintro sign op? (_ | hop)
  · exact reads_pure (by simpa using Comparison.operand hleft)
  · refine h.filtered.bind ?_
    intro rest right hright
    exact reads_pure (by simpa using Comparison.compared hleft hop hright)

/-- What the parser takes for a chain are its operands, with the word between them. -/
theorem Reads.chain {word : Keyword} {op : BinaryOp} {operand : Parser Expr} {R : Reading Expr}
    (h : Reads operand R) : Reads (chain word op operand) (Chain word op R) := by
  refine h.bind ?_
  intro tokens first hfirst
  refine (reads_eat.behind h).many.bind ?_
  intro rest others hothers
  exact reads_pure (by simpa using Chain.intro hfirst hothers (Expr.balanced_eq_iff.mp rfl))

theorem Reads.expression (h : Reads primary P) : Reads (expression primary) (Expression P) :=
  h.comparison.chain.chain

/-- A parser one level deeper goes by the relation of that level. -/
def ReadsInner (parser? : Option (Parser Expr)) (reading? : Option (Reading Expr)) : Prop :=
  ∀ parser, parser? = some parser → ∃ reading, reading? = some reading ∧ Reads parser reading

variable {limit : Nat} {parser? : Option (Parser Expr)} {reading? : Option (Reading Expr)}

/-- A reader one level deeper is sound if it is there at all. -/
theorem reads_nested {α β : Type} {inner? : Option β} {position : Position} {parse : β → Parser α}
    {R : Reading α} (h : ∀ inner, inner? = some inner → Reads (parse inner) R) :
    Reads (nested limit inner? position parse) R := by
  cases inner? with
  | none => exact reads_fail
  | some inner => exact h inner rfl

/-- Behind a dot the parser takes a name or an index. -/
theorem reads_dotSegment (reading? : Option (Reading Expr)) {dot : Token} (hdot : dot.kind = .dot) :
    Reads dotSegment fun tokens => Step reading? (dot :: tokens) := by
  refine reads_take.bind ?_
  rintro tokens token rfl
  split
  next hkind => exact reads_pure (.field hdot (.inl hkind))
  next word hkind => exact reads_pure (.field hdot (.inr ⟨word, hkind⟩))
  next hkind =>
    split
    next i hi => exact reads_pure (.index hdot hkind (readInt64?_eq_some_iff_writes.mp hi))
    next => exact reads_unexpected
  next => exact reads_unexpected

/-- What the parser takes for a step of a path are the tokens of one. -/
theorem ReadsInner.segment? (h : ReadsInner parser? reading?) :
    Reads (segment? limit parser?) (Optional (Step reading?)) := by
  refine reads_eat.bind ?_
  rintro tokens eaten (_ | hdot)
  · -- A look ahead decides, so the token taken next is known from the cursor alone.
    intro cursor
    refine readsFrom_peek_bind ?_
    intro token? hhead
    cases token? with
    | none => exact reads_pure .absent cursor
    | some token =>
        dsimp only
        split
        next hkind =>
          refine readsFrom_advance_bind hhead (reads_nested ?_)
          intro primary hprimary
          obtain ⟨P, hreading, hreads⟩ := h primary hprimary
          refine hreads.expression.bind ?_
          intro tokens key hkey
          refine reads_expect.bind ?_
          rintro rest closing ⟨rfl, hclosing⟩
          have hstep := bracketSegment_eq_iff.mp (rfl : bracketSegment key = _)
          refine reads_pure (.present ?_)
          simpa using Step.bracket hreading hkind hkey hclosing hstep
        next => exact reads_pure .absent cursor
  · refine (reads_dotSegment reading? (List.mem_singleton.mp hdot)).bind ?_
    intro rest segment hsegment
    exact reads_pure (.present (by simpa using hsegment))

/-- What the parser takes for a range are its bounds and what stands around them. -/
theorem ReadsInner.rangeBody (h : ReadsInner parser? reading?) {opening : Token}
    (hopening : opening.kind = .leftParen) (hparser : parser? = some primary) :
    Reads (rangeBody opening.position primary)
      fun tokens => PrimaryWith reading? (opening :: tokens) := by
  obtain ⟨P, hreading, hreads⟩ := h primary hparser
  refine hreads.bind ?_
  intro tokens first hfirst
  refine reads_expect.bind ?_
  rintro _ dots ⟨rfl, hdots⟩
  refine hreads.bind ?_
  intro rest last hlast
  refine reads_expect.bind ?_
  rintro _ closing ⟨rfl, hclosing⟩
  refine reads_pure ?_
  simpa using PrimaryWith.range hreading hopening hfirst hdots hlast hclosing

/-- What the parser takes for a primary expression are the tokens of one. -/
theorem ReadsInner.primaryWith (h : ReadsInner parser? reading?) :
    Reads (primaryWith limit parser?) (PrimaryWith reading?) := by
  refine reads_take.bind ?_
  rintro tokens token rfl
  split
  next hkind => exact reads_pure (.string hkind)
  next hkind =>
    split
    next value hvalue =>
      obtain ⟨number, rfl, hnumber⟩ := numberValue?_eq_some_iff.mp hvalue
      exact reads_pure (.number hkind hnumber)
    next => exact reads_unexpected
  next hkind => exact reads_pure (.true hkind)
  next hkind => exact reads_pure (.false hkind)
  next hkind => exact reads_pure (.nil hkind)
  next hkind => exact reads_nested fun primary hprimary => h.rangeBody hkind hprimary
  next hkind =>
    refine h.segment?.many.bind ?_
    intro rest steps hsteps
    exact reads_pure (by simpa using PrimaryWith.path hkind hsteps)
  next => exact reads_unexpected

/-- Primary expressions are read by the grammar, however deep they may be nested. -/
theorem reads_primary (limit budget : Nat) :
    Reads (Parser.primary limit budget) (Primary budget) := by
  induction budget with
  | zero =>
      have hinner : ReadsInner none none := fun _ hnone => nomatch hnone
      exact hinner.primaryWith
  | succ budget ih =>
      have hinner : ReadsInner (some (Parser.primary limit budget)) (some (Primary budget)) := by
        rintro parser ⟨⟩
        exact ⟨_, rfl, ih⟩
      exact hinner.primaryWith

end TextTemplate.Parser
