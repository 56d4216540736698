import TextTemplate.Proofs.Parser.Layout
import TextTemplate.Proofs.Parser.Soundness
/-! # Blocks are parsed by their layout

Whatever the block parsers make of some tokens, the layout says that they stand for. The parsers of
the next deeper level are assumed to go by theirs, and the induction on the depth comes last.
-/

namespace TextTemplate.Grammar

open TextTemplate.Parser (EndTag)

/-- The inside of a block and the start of the tag that ends or divides it there. -/
inductive Inside (body : Layout) (accepts : List Keyword) : Reading (List Node × EndTag)
  | intro {tokens start : List Token} {nodes : List Node} {survey : Survey} {ending : EndTag}
      (here : body tokens nodes survey) (tag : TagStart ending start)
      (accepted : ending.keyword ∈ accepts) : Inside body accepts (tokens ++ start) (nodes, ending)

/-- What is behind the start of a tag: arms, and the start of the first tag with another word. -/
inductive ArmsBehind (word : Keyword) (condition : Reading Expr) (body : Layout)
    (accepts : List Keyword) (start : List Token) : Reading (List Arm × EndTag)
  | intro {tokens more last : List Token} {arms : List Arm} {survey : Survey} {ending : EndTag}
      (split : start ++ tokens = more ++ last) (here : Arms word condition body more arms survey)
      (tag : TagStart ending last) (accepted : ending.keyword ∈ accepts)
      (other : ending.keyword ≠ word) :
      ArmsBehind word condition body accepts start tokens (arms, ending)

end TextTemplate.Grammar

namespace TextTemplate.Parser

open Grammar

/-- The parsers of a level go by its relations. -/
structure ReadsLevel (inner : Inner) (level : Level) : Prop where
  primary : Reads inner.primary level.primary
  body : ∀ block accepts, Reads (inner.body block accepts) (Inside level.body accepts)

theorem reads_closeTag : Reads closeTag fun tokens _ => TagEnd tokens := by
  refine reads_expect.bind ?_
  rintro tokens token ⟨rfl, hkind⟩
  exact reads_pure (.intro hkind)

section Loop

variable {primary : Parser Expr} {P : Reading Expr}

/-- The settings that the parameters behind a header bring about. -/
def HeaderBehind (P : Reading Expr) (header : LoopHeader) : Reading LoopHeader :=
  fun tokens result => ∃ settings survey, Parameters P tokens settings survey ∧
    result = settings.applyTo header

theorem headerBehind_done {header : LoopHeader} {close : List Token} (h : TagEnd close) :
    HeaderBehind P header close header :=
  ⟨⟨false, none, none⟩, .empty, .done h, by simp [Settings.applyTo]⟩

/-- The word `reversed` marks the header that the parameters behind it complete. -/
theorem HeaderBehind.reversed {header result : LoopHeader} {word : Token} {rest : List Token}
    (hkind : word.kind = .identifier) (htext : word.text = "reversed")
    (h : HeaderBehind P { header with reversed := true } rest result) :
    HeaderBehind P header (word :: rest) result := by
  obtain ⟨settings, survey, hrest, rfl⟩ := h
  exact ⟨_, survey, .reversed hkind htext hrest, by simp [Settings.applyTo]⟩

/-- A limit replaces the one so far in the header that the parameters behind it complete. -/
theorem HeaderBehind.limit {header result : LoopHeader} {start tokens rest : List Token}
    {limit : Expr} (hnamed : Named "limit" start) (hlimit : P tokens limit)
    (h : HeaderBehind P { header with limit? := some limit } rest result) :
    HeaderBehind P header (start ++ (tokens ++ rest)) result := by
  obtain ⟨settings, survey, hrest, rfl⟩ := h
  cases hsettings : settings.limit? with
  | none =>
      exact ⟨_, _, .limit hnamed hlimit hrest hsettings, by simp [Settings.applyTo, hsettings]⟩
  | some last =>
      refine ⟨settings, _, .overridden hnamed hlimit hrest (.inl ⟨rfl, by simp [hsettings]⟩), ?_⟩
      simp [Settings.applyTo, hsettings]

/-- An offset replaces the one so far in the header that the parameters behind it complete. -/
theorem HeaderBehind.offset {header result : LoopHeader} {start tokens rest : List Token}
    {offset : Expr} (hnamed : Named "offset" start) (hoffset : P tokens offset)
    (h : HeaderBehind P { header with offset? := some offset } rest result) :
    HeaderBehind P header (start ++ (tokens ++ rest)) result := by
  obtain ⟨settings, survey, hrest, rfl⟩ := h
  cases hsettings : settings.offset? with
  | none =>
      exact ⟨_, _, .offset hnamed hoffset hrest hsettings, by simp [Settings.applyTo, hsettings]⟩
  | some last =>
      refine ⟨settings, _, .overridden hnamed hoffset hrest (.inr ⟨rfl, by simp [hsettings]⟩), ?_⟩
      simp [Settings.applyTo, hsettings]

/-- A parameter with a value is read from its name, a colon and the value. -/
theorem Reads.namedValue {name : String} {word : Token} (h : Reads primary P)
    (hkind : word.kind = .identifier) (htext : word.text = name) {f : Expr → Parser LoopHeader}
    {R : Reading LoopHeader} {cursor : Cursor}
    (hf : ∀ start tokens value next, Named name start → P tokens value →
      next.tokens.length < cursor.tokens.length →
      ReadsFrom next (f value) fun rest => R (start ++ (tokens ++ rest))) :
    ReadsFrom cursor (do
      let _ ← expect .colon .colon
      let value ← primary
      f value) fun rest => R ([word] ++ rest) := by
  refine (reads_expect cursor).bind ?_
  rintro _ colon middle ⟨rfl, hcolon⟩ htokens
  refine (h middle).bind ?_
  intro tokens value next hvalue htokens'
  have hlength : next.tokens.length < cursor.tokens.length := by
    rw [htokens, htokens']
    simp only [List.length_append, List.length_cons]
    omega
  exact hf [word, colon] tokens value next (.intro hkind htext hcolon) hvalue hlength

/-- The number of tokens left bounds the number of parameters. -/
theorem Reads.loopParameters (h : Reads primary P) {fuel : Nat} {header : LoopHeader}
    {cursor : Cursor} (hfuel : cursor.tokens.length < fuel) :
    ReadsFrom cursor (loopParameters primary fuel header) (HeaderBehind P header) := by
  induction fuel generalizing header cursor with
  | zero => exact absurd hfuel (Nat.not_lt_zero _)
  | succ fuel ih =>
      refine (reads_take cursor).bind ?_
      rintro _ token middle rfl htokens
      -- A parameter takes a token, so the rounds left are still more than the tokens left.
      have hmiddle : middle.tokens.length < fuel := by
        simp only [htokens, List.length_append, List.length_cons] at hfuel
        omega
      split
      next hclose => exact reads_pure (by simpa using headerBehind_done (.intro hclose)) middle
      split
      next hreversed =>
        refine (ih hmiddle).mono ?_
        intro rest result hrest
        exact hrest.reversed hreversed.1 hreversed.2
      split
      next hlimit =>
        refine h.namedValue hlimit.1 hlimit.2 ?_
        intro start tokens limit next hnamed hvalue hnext
        refine (ih (Nat.lt_trans hnext hmiddle)).mono ?_
        intro rest result hrest
        exact hrest.limit hnamed hvalue
      split
      next hoffset =>
        refine h.namedValue hoffset.1 hoffset.2 ?_
        intro start tokens offset next hnamed hvalue hnext
        refine (ih (Nat.lt_trans hnext hmiddle)).mono ?_
        intro rest result hrest
        exact hrest.offset hnamed hvalue
      next => exact reads_unexpected middle

/-- What the parser takes for the header of a loop are the tokens of one. -/
theorem Reads.loopHeader (h : Reads primary P) (position : Position) :
    Reads (loopHeader primary position) fun tokens header => ∃ survey,
      Header P position tokens header survey := by
  refine reads_expect.bind ?_
  rintro _ name ⟨rfl, hname⟩
  refine reads_expect.bind ?_
  rintro _ word ⟨rfl, hword⟩
  refine h.bind ?_
  intro tokens iterable hiterable cursor
  refine readsFrom_remaining_bind ?_
  refine (h.loopParameters (length_lt_fuel cursor)).mono ?_
  rintro rest header ⟨settings, survey, hrest, rfl⟩
  exact ⟨_, by simpa using Header.intro hname hword hiterable hrest⟩

end Loop

section Block

variable {inner : Inner} {level : Level} {block : OpenBlock} {closing : Keyword}

/-- The closing tag of a block, once its start has been read. -/
theorem closingTag_append {start close : List Token} {ending : EndTag}
    (hstart : TagStart ending start) (hword : ending.keyword = closing) (hclose : TagEnd close) :
    ClosingTag closing (start ++ close) := by
  obtain ⟨keyword, position⟩ := ending
  subst hword
  exact .intro hstart hclose

/-- The inside of a block that only its closing tag may end, and that tag. -/
theorem ReadsLevel.closed {α : Type} (h : ReadsLevel inner level) {f : List Node → α}
    {R : Reading α}
    (hR : ∀ tokens rest nodes survey, level.body tokens nodes survey → ClosingTag closing rest →
      R (tokens ++ rest) (f nodes)) :
    Reads (do
      let (nodes, _) ← inner.body block [closing]
      closeTag
      pure (f nodes)) R := by
  refine (h.body block [closing]).bind ?_
  rintro _ _ ⟨hinside, hstart, haccepted⟩
  rename_i tokens start nodes survey ending
  refine reads_closeTag.bind ?_
  intro close _ hclose
  have hclosing := closingTag_append hstart (List.mem_singleton.mp haccepted) hclose
  exact reads_pure (by simpa using hR _ _ _ _ hinside hclosing)

/-- Behind the last arm stand the closing tag, or an `else` with its body and then the closing
tag. -/
theorem ReadsLevel.elsePart (h : ReadsLevel inner level) {ending : EndTag} {start : List Token}
    (hstart : TagStart ending start)
    (hword : ending.keyword = .elseTag ∨ ending.keyword = closing) :
    Reads (elsePart inner block closing ending) fun tokens otherwise => ∃ survey,
      Closing closing level.body (start ++ tokens) otherwise survey := by
  unfold Parser.elsePart
  split
  next helse =>
    obtain ⟨keyword, position⟩ := ending
    subst helse
    refine reads_closeTag.bind ?_
    intro close _ hclose
    refine h.closed (f := id) ?_
    intro tokens rest nodes survey hinside hclosing
    exact ⟨survey, .otherwise hstart hclose hinside hclosing⟩
  next helse =>
    have hclosing : ending.keyword = closing := hword.resolve_left helse
    refine reads_closeTag.bind ?_
    intro close _ hclose
    refine reads_pure ⟨.empty, ?_⟩
    simpa using Closing.plain (closingTag_append hstart hclosing hclose)

/-- The number of tokens left bounds the number of arms. -/
theorem ReadsLevel.arms (h : ReadsLevel inner level) {word : Keyword} {condition : Parser Expr}
    {C : Reading Expr} (hcondition : Reads condition C) {accepts : List Keyword} {fuel : Nat}
    {cursor : Cursor} {ending : EndTag} {start : List Token} (hstart : TagStart ending start)
    (haccepted : ending.keyword ∈ accepts) (hfuel : cursor.tokens.length < fuel) :
    ReadsFrom cursor (arms inner block word condition accepts fuel ending)
      (ArmsBehind word C level.body accepts start) := by
  induction fuel generalizing cursor ending start with
  | zero => exact absurd hfuel (Nat.not_lt_zero _)
  | succ fuel ih =>
      unfold Parser.arms
      split
      next hword =>
        obtain ⟨keyword, position⟩ := ending
        subst hword
        refine (hcondition cursor).bind ?_
        intro head guard middle hhead htokens
        refine (reads_closeTag middle).bind ?_
        intro close _ middle' hclose htokens'
        refine (h.body block accepts middle').bind ?_
        rintro _ _ next ⟨hinside, hstart', haccepted'⟩ htokens''
        rename_i tokens start' nodes survey ending'
        -- The end of the tag alone is a token, whatever the condition and the inside take.
        have hnext : next.tokens.length < fuel := by
          obtain ⟨hkind⟩ := hclose
          simp only [htokens, htokens', htokens'', List.length_append, List.length_cons] at hfuel
          omega
        refine (ih hstart' haccepted' hnext).bind ?_
        rintro rest _ last ⟨hsplit, harms, hlast, hlast', hother⟩ -
        refine reads_pure ?_ last
        refine .intro ?_ (.cons hstart hhead hclose hinside harms) hlast hlast' hother
        simp only [List.append_assoc, List.append_nil, hsplit]
      next hword =>
        have hsplit : start ++ [] = [] ++ start := List.append_nil start
        exact reads_pure (.intro hsplit .nil hstart haccepted hword) cursor

/-- The arms behind the inside of a block, and what follows them. -/
theorem ReadsLevel.armsThen {α : Type} (h : ReadsLevel inner level) (block : OpenBlock)
    {word : Keyword} {condition : Parser Expr} {C : Reading Expr} (hcondition : Reads condition C)
    {accepts : List Keyword} (haccepts : ∀ keyword ∈ accepts,
      keyword ≠ word → keyword = .elseTag ∨ keyword = closing) {ending : EndTag}
    {start : List Token} (hstart : TagStart ending start) (haccepted : ending.keyword ∈ accepts)
    {f : List Arm → List Node → α} {R : Reading α}
    (hR : ∀ more rest arms otherwise survey survey', Arms word C level.body more arms survey →
      Closing closing level.body rest otherwise survey' → R (more ++ rest) (f arms otherwise)) :
    Reads (do
      let (arms, last) ←
        Parser.arms inner block word condition accepts ((← remaining) + 1) ending
      let otherwise ← Parser.elsePart inner block closing last
      pure (f arms otherwise)) fun tokens => R (start ++ tokens) := by
  intro cursor
  refine readsFrom_remaining_bind ?_
  refine (h.arms hcondition hstart haccepted (length_lt_fuel cursor)).bind ?_
  rintro tokens _ next ⟨hsplit, harms, hlast, hlast', hother⟩ -
  refine (h.elsePart hlast (haccepts _ hlast' hother)).bind ?_ next
  rintro rest otherwise ⟨survey', hclosing⟩
  refine reads_pure ?_
  rw [List.append_nil, ← List.append_assoc, hsplit, List.append_assoc]
  exact hR _ _ _ _ _ _ harms hclosing

/-- What the parser takes for a branch are the tokens of one. -/
theorem ReadsLevel.branchBlock (h : ReadsLevel inner level) {negate : Bool} :
    Reads (branchBlock inner block closing negate) fun tokens node => ∃ survey,
      Branch level.primary level.body closing negate block.position tokens [node] survey := by
  refine h.primary.expression.bind ?_
  intro head condition hhead
  refine reads_closeTag.bind ?_
  intro close _ hclose
  refine (h.body block _).bind ?_
  rintro _ _ ⟨hinside, hstart, haccepted⟩
  rename_i tokens start nodes survey ending
  have haccepts : ∀ keyword ∈ [.elsif, .elseTag, closing], keyword ≠ .elsif →
      keyword = .elseTag ∨ keyword = closing := by simp_all
  let R : Reading Node := fun rest node => ∃ survey,
    Branch level.primary level.body closing negate block.position
      (head ++ (close ++ (tokens ++ rest))) [node] survey
  have hrest := h.armsThen block h.primary.expression haccepts hstart haccepted (R := R)
    (fun more rest arms otherwise survey survey' harms hclosing =>
      ⟨_, Branch.intro hhead hclose hinside harms hclosing⟩)
  simpa [R] using hrest

theorem Reads.whenCondition {primary : Parser Expr} {P : Reading Expr} (h : Reads primary P)
    (subject : Expr) : Reads (whenCondition primary subject) (When P subject) := by
  refine h.bind ?_
  intro tokens first hfirst
  refine (reads_eatEither.behind h).many.bind ?_
  intro rest others hothers
  exact reads_pure (by simpa using When.intro hfirst hothers (Expr.balanced_eq_iff.mp rfl))

/-- What the parser takes for a `case` are the tokens of one. Without an arm nothing of its subject
is left. -/
theorem ReadsLevel.caseBlock (h : ReadsLevel inner level) {position : Position} :
    Reads (caseBlock inner ⟨.caseTag, position⟩) fun tokens nodes => ∃ survey,
      Block level ⟨.caseTag, position⟩ tokens nodes survey := by
  refine h.primary.expression.bind ?_
  intro head subject hhead
  refine reads_closeTag.bind ?_
  intro close _ hclose
  refine (h.body _ _).bind ?_
  rintro _ _ ⟨hinside, hstart, haccepted⟩
  rename_i tokens start nodes survey ending
  have haccepts : ∀ keyword ∈ [Keyword.whenTag, .elseTag, .endCase], keyword ≠ .whenTag →
      keyword = .elseTag ∨ keyword = .endCase := by simp_all
  let R : Reading (List Node) := fun rest nodes => ∃ survey,
    Block level ⟨.caseTag, position⟩ (head ++ (close ++ (tokens ++ rest))) nodes survey
  have hrest := h.armsThen ⟨.caseTag, position⟩ (h.primary.whenCondition subject)
    haccepts hstart haccepted (f := caseNodes) (R := R) ?_
  · simpa [R] using hrest
  · intro more rest arms otherwise survey' survey'' harms hclosing
    cases arms with
    | nil =>
        cases harms
        exact ⟨_, .armless hhead hclose hinside hclosing⟩
    | cons arm arms => exact ⟨_, .caseTag hhead hclose hinside harms hclosing⟩

theorem ReadsLevel.loopBlock (h : ReadsLevel inner level) {position : Position} :
    Reads (loopBlock inner ⟨.forTag, position⟩) fun tokens node => ∃ survey,
      Block level ⟨.forTag, position⟩ tokens [node] survey := by
  refine (h.primary.loopHeader position).bind ?_
  rintro head header ⟨survey, hhead⟩
  refine (h.body _ _).bind ?_
  rintro _ _ ⟨hinside, hstart, haccepted⟩
  refine (h.elsePart hstart (by simpa using haccepted)).bind ?_
  rintro rest otherwise ⟨survey', hclosing⟩
  exact reads_pure ⟨_, by simpa using Block.forTag hhead hinside hclosing⟩

theorem ReadsLevel.captureBlock (h : ReadsLevel inner level) {position : Position} :
    Reads (captureBlock inner ⟨.capture, position⟩) fun tokens node => ∃ survey,
      Block level ⟨.capture, position⟩ tokens [node] survey := by
  refine reads_expect.bind ?_
  rintro _ name ⟨rfl, hname⟩
  refine reads_closeTag.bind ?_
  intro close _ hclose
  refine h.closed (f := fun nodes => Node.capture name.text nodes position) ?_
  intro tokens rest nodes survey hinside hclosing
  exact ⟨survey, by simpa using Block.capture hname hclose hinside hclosing⟩

theorem ReadsLevel.verbatimBlock (h : ReadsLevel inner level) :
    Reads (verbatimBlock inner block closing) fun tokens nodes => ∃ close inside rest survey,
      tokens = close ++ (inside ++ rest) ∧ TagEnd close ∧ level.body inside nodes survey ∧
        ClosingTag closing rest := by
  refine reads_closeTag.bind ?_
  intro close _ hclose
  refine h.closed (f := id) ?_
  intro tokens rest nodes survey hinside hclosing
  exact ⟨close, tokens, rest, survey, rfl, hclose, hinside, hclosing⟩

/-- What the parser takes for a block are the tokens of one, whichever tag opens it. -/
theorem ReadsLevel.openedBlock (h : ReadsLevel inner level) {parse : Inner → Parser (List Node)}
    (hparse : block? block = some parse) :
    Reads (parse inner) fun tokens nodes => ∃ survey, Block level block tokens nodes survey := by
  obtain ⟨word, position⟩ := block
  unfold block? at hparse
  split at hparse <;> cases hparse
  next hword =>
    cases hword
    refine h.loopBlock.bind ?_
    rintro tokens node hnode
    exact reads_pure (by simpa using hnode)
  next hword =>
    cases hword
    refine h.branchBlock.bind ?_
    rintro tokens node ⟨survey, hbranch⟩
    exact reads_pure ⟨survey, by simpa using Block.ifTag hbranch⟩
  next hword =>
    cases hword
    refine h.branchBlock.bind ?_
    rintro tokens node ⟨survey, hbranch⟩
    exact reads_pure ⟨survey, by simpa using Block.unlessTag hbranch⟩
  next hword =>
    cases hword
    exact h.caseBlock
  next hword =>
    cases hword
    refine h.captureBlock.bind ?_
    rintro tokens node hnode
    exact reads_pure (by simpa using hnode)
  next hword =>
    cases hword
    refine h.verbatimBlock.bind ?_
    rintro _ nodes ⟨close, inside, rest, survey, rfl, hclose, hinside, hclosing⟩
    exact reads_pure ⟨_, by simpa using Block.comment hclose hinside hclosing⟩
  next hword =>
    cases hword
    refine h.verbatimBlock.mono ?_
    rintro _ nodes ⟨close, inside, rest, survey, rfl, hclose, hinside, hclosing⟩
    exact ⟨_, .raw hclose hinside hclosing⟩

end Block

section Nodes

variable {limit : Nat} {primary : Parser Expr} {P : Reading Expr} {parser? : Option Inner}
  {level? : Option Level}

/-- The parsers of the next deeper level, if there is one, go by the relations of that level. -/
def ReadsLevels (parser? : Option Inner) (level? : Option Level) : Prop :=
  ∀ inner, parser? = some inner → ∃ level, level? = some level ∧ ReadsLevel inner level

/-- What one round comes upon. -/
inductive ItemRead (P : Reading Expr) (level? : Option Level) (accepts : List Keyword) :
    Reading Item
  | nodes {tokens : List Token} {nodes : List Node} {survey : Survey}
      (here : Piece P level? tokens nodes survey) : ItemRead P level? accepts tokens (.nodes nodes)
  | ending {start : List Token} {ending : EndTag} (tag : TagStart ending start)
      (accepted : ending.keyword ∈ accepts) : ItemRead P level? accepts start (.ending ending)
  | finished : ItemRead P level? accepts [] .finished

theorem Reads.assignTag (h : Reads primary P) (level? : Option Level) {position : Position}
    {start : List Token} (hstart : TagStart ⟨.assign, position⟩ start) :
    Reads (assignTag primary position) fun tokens node => ∃ survey,
      Piece P level? (start ++ tokens) [node] survey := by
  refine reads_expect.bind ?_
  rintro _ name ⟨rfl, hname⟩
  refine reads_expect.bind ?_
  rintro _ sign ⟨rfl, hsign⟩
  refine h.expression.bind ?_
  intro tokens expr hexpr
  refine reads_closeTag.bind ?_
  intro close _ hclose
  exact reads_pure ⟨_, by simpa using Piece.assign hstart hname hsign hexpr hclose⟩

/-- Behind a tag stands what the grammar has there: the end of an assignment or the rest of a
block. -/
theorem Reads.tag (h : Reads primary P) (hlevels : ReadsLevels parser? level?) {word : Keyword}
    {name : String} {position : Position} {start : List Token}
    (hstart : TagStart ⟨word, position⟩ start) :
    Reads (tag limit primary parser? word name position) fun tokens nodes => ∃ survey,
      Piece P level? (start ++ tokens) nodes survey := by
  unfold Parser.tag
  split
  next hword =>
    subst hword
    refine (h.assignTag level? hstart).bind ?_
    rintro tokens node hnode
    exact reads_pure (by simpa using hnode)
  split
  next => exact reads_fail
  next parse hparse =>
    refine reads_nested ?_
    intro inner hinner
    obtain ⟨level, hlevel, hreads⟩ := hlevels inner hinner
    refine (hreads.openedBlock hparse).mono ?_
    rintro tokens nodes ⟨survey, hblock⟩
    exact ⟨survey, .block hlevel hstart hblock⟩

/-- An item is a piece, the end of the source, or an accepted tag. -/
theorem Reads.item (h : Reads primary P) (hlevels : ReadsLevels parser? level?)
    {block? : Option OpenBlock} {accepts : List Keyword} :
    Reads (item limit primary parser? block? accepts) (ItemRead P level? accepts) := by
  refine reads_advance.bind ?_
  rintro _ _ (_ | ⟨rfl⟩)
  · exact reads_pure .finished
  rename_i token
  dsimp only
  split
  next hkind => exact reads_pure (.nodes (.text hkind))
  next hkind =>
    refine h.expression.bind ?_
    intro tokens expr hexpr
    refine reads_expect.bind ?_
    rintro _ closing ⟨rfl, hclosing⟩
    exact reads_pure (.nodes (by simpa using Piece.output hkind hexpr hclosing))
  next hkind =>
    refine reads_take.bind ?_
    rintro _ name rfl
    split
    next word hword =>
      have hstart : TagStart ⟨word, token.position⟩ [token, name] := .intro hkind rfl hword
      split
      next =>
        split
        next haccepts => exact reads_pure (.ending hstart (by simpa using haccepts))
        next => exact reads_fail
      next =>
        refine (h.tag hlevels hstart).bind ?_
        rintro tokens nodes ⟨survey, hpiece⟩
        exact reads_pure (.nodes (by simpa using hpiece))
    next => exact reads_fail
    next => exact reads_unexpected
  next => exact reads_unexpected

/-- The nodes of some rounds, and the tag that ended them or, at the end of the source, none. -/
inductive Rounds (body : Layout) (accepts : List Keyword) : Reading (List Node × Option EndTag)
  | ended {tokens : List Token} {nodes : List Node} {ending : EndTag}
      (inside : Inside body accepts tokens (nodes, ending)) :
      Rounds body accepts tokens (nodes, some ending)
  | finished {tokens : List Token} {nodes : List Node} {survey : Survey}
      (here : body tokens nodes survey) : Rounds body accepts tokens (nodes, none)

/-- Pieces are read up to the accepted tag, or to the end of the source. -/
theorem Reads.nodesUpTo {round : Parser Item} {accepts : List Keyword}
    (h : Reads round (ItemRead P level? accepts)) (fuel : Nat) :
    Reads (nodesUpTo round fuel) (Rounds (Pieces P level?) accepts) := by
  induction fuel with
  | zero => exact reads_pure (.finished .nil)
  | succ fuel ih =>
      refine h.bind ?_
      rintro _ _ (hpiece | ⟨hstart, haccepted⟩ | _)
      · refine ih.bind ?_
        rintro _ _ (⟨hrest, hstart, haccepted⟩ | hrest)
        · refine reads_pure (.ended ?_)
          simpa using Inside.intro (Pieces.cons hpiece hrest) hstart haccepted
        · exact reads_pure (.finished (by simpa using Pieces.cons hpiece hrest))
      · exact reads_pure (.ended (by simpa using Inside.intro Pieces.nil hstart haccepted))
      · exact reads_pure (.finished .nil)

theorem Reads.nodes (h : Reads primary P) (hlevels : ReadsLevels parser? level?)
    {block? : Option OpenBlock} {accepts : List Keyword} :
    Reads (nodes limit primary parser? block? accepts) (Rounds (Pieces P level?) accepts) :=
  fun cursor => readsFrom_remaining_bind ((h.item hlevels).nodesUpTo (cursor.left + 1) cursor)

theorem Reads.bodyWith (h : Reads primary P) (hlevels : ReadsLevels parser? level?)
    (block : OpenBlock) (accepts : List Keyword) :
    Reads (bodyWith limit primary parser? block accepts) (Inside (Pieces P level?) accepts) := by
  refine (h.nodes hlevels).bind ?_
  rintro tokens _ (hinside | hrest)
  · exact reads_pure (by simpa using hinside)
  · exact reads_fail

end Nodes

/-- The insides of blocks are read by their layout, however deep they may be nested. -/
theorem readsLevels_inner? (limit budget : Nat) :
    ReadsLevels (inner? limit budget) (level? budget) := by
  induction budget with
  | zero =>
      intro inner hnone
      cases hnone
  | succ budget ih =>
      intro inner hsome
      cases hsome
      refine ⟨_, rfl, reads_primary limit budget, ?_⟩
      intro block accepts
      have hbody : Reads (bodyWith limit (primary limit budget) (inner? limit budget) block accepts)
          (Inside (Pieces (Primary budget) (level? budget)) accepts) :=
        (reads_primary limit budget).bodyWith ih block accepts
      cases budget with
      | zero => exact hbody
      | succ budget => exact hbody

/-- A whole source is read by the layout of its depth. -/
theorem reads_template (limit : Nat) :
    Reads (template limit) fun tokens nodes => ∃ survey, Nodes limit tokens nodes survey := by
  refine ((reads_primary limit limit).nodes (readsLevels_inner? limit limit)).bind ?_
  rintro tokens _ (⟨_, _, haccepted⟩ | hrest)
  · cases haccepted
  · exact reads_pure ⟨_, by simpa [nodes_eq] using hrest⟩

/-- A round only finishes where no token is left. -/
theorem item_finished {limit : Nat} {primary : Parser Expr} {parser? : Option Inner}
    {block? : Option OpenBlock} {accepts : List Keyword} {cursor next : Cursor}
    (hok : item limit primary parser? block? accepts cursor = .ok (.finished, next)) :
    AtEnd next := by
  refine And.elim ?_ (none_of_advance_bind hok ?_)
  · intro hend hnone
    cases hnone
    exact hend
  -- With a token in front, every way through the round yields nodes or an ending.
  intro token
  dsimp only
  split
  next => exact yields_pure nofun
  next => exact .bind fun _ => .bind fun _ => yields_pure nofun
  next =>
    refine .bind fun name => ?_
    split
    next =>
      split
      next =>
        split
        next => exact yields_pure nofun
        next => exact yields_fail
      next => exact .bind fun _ => yields_pure nofun
    next => exact yields_fail
    next => exact yields_fail
  next => exact yields_fail

/-- Pieces that end with the source leave no token. -/
theorem nodesUpTo_finished {round : Parser Item} {P : Reading Expr} {level? : Option Level}
    {accepts : List Keyword} (h : Reads round (ItemRead P level? accepts))
    (hfinished : ∀ {cursor next}, round cursor = .ok (.finished, next) → AtEnd next)
    {fuel : Nat} {cursor next : Cursor} {nodes : List Node} (hfuel : cursor.tokens.length < fuel)
    (hok : nodesUpTo round fuel cursor = .ok ((nodes, none), next)) : AtEnd next := by
  induction fuel generalizing cursor nodes with
  | zero => exact absurd hfuel (Nat.not_lt_zero _)
  | succ fuel ih =>
      obtain ⟨item, middle, hround, hrest⟩ := bind_eq_ok.mp hok
      obtain ⟨tokens, htokens, -, hread⟩ := h cursor item middle hround
      cases hread with
      | finished =>
          cases hrest
          exact hfinished hround
      | ending tag accepted => cases hrest
      | nodes here =>
          obtain ⟨⟨others, ending?⟩, middle', hothers, hpure⟩ := bind_eq_ok.mp hrest
          cases hpure
          have htaken := List.length_pos_iff.mpr here.ne_nil
          refine ih ?_ hothers
          simp only [htokens, List.length_append] at hfuel
          omega

/-- A template is parsed to the end of its source. -/
theorem template_finished {limit : Nat} {cursor next : Cursor} {result : List Node}
    (hok : template limit cursor = .ok (result, next)) : AtEnd next := by
  obtain ⟨⟨others, ending?⟩, middle, hnodes, hpure⟩ := bind_eq_ok.mp hok
  cases hpure
  have hprimary := reads_primary limit limit
  have hlevels := readsLevels_inner? limit limit
  obtain ⟨tokens, -, -, hrounds⟩ := hprimary.nodes hlevels cursor _ _ hnodes
  cases hrounds with
  | ended inside =>
      obtain ⟨-, -, haccepted⟩ := inside
      cases haccepted
  | finished here =>
      exact nodesUpTo_finished (hprimary.item hlevels) item_finished (length_lt_fuel cursor) hnodes

end TextTemplate.Parser
