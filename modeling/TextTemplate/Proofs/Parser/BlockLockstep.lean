import TextTemplate.Proofs.Parser.BlockAgreement
import TextTemplate.Proofs.Parser.ExpressionLockstep
/-! # Blocks are parsed in step

A block is one level deeper than the tag that opens it, and its parser is through when the level is
closed again. A part of a block ends in a tag that either closes the level or goes on with the next
part on the same level. The rules below say so of each kind of block; they hand on the levels that
are open where a part ends, and the induction on the levels that are left comes last.
-/

namespace TextTemplate.Parser

/-- The block with the place of its opening tag moved. -/
def OpenBlock.moved (f : Position → Position) (block : OpenBlock) : OpenBlock :=
  ⟨block.tag, f block.position⟩

/-- The tag at another place. -/
def EndTag.moved (f : Position → Position) (ending : EndTag) : EndTag :=
  ⟨ending.keyword, f ending.position⟩

/-- The item with its places moved. -/
def Item.moved (f : Position → Position) : Item → Item
  | .nodes all => .nodes (movedNodes f all)
  | .ending tag => .ending (tag.moved f)
  | .finished => .finished

/-- A part of a block ends in an accepted tag, which closes the level of the block or does not. -/
def EndsPart (accepts : List Keyword) (ending : EndTag) (change : Int) : Prop :=
  ending.keyword ∈ accepts ∧ change = ending.keyword.levelChange

/-- The parsers of a level are in step. -/
structure LevelInStep (runs : Difference) (height : Int) (inner inner' : Inner) : Prop where
  primary : ExprInStep runs height inner.primary inner'.primary
  body : ∀ (block : OpenBlock) (accepts : List Keyword) (cursor : Cursor),
    InStepFrom runs height cursor (inner.body block accepts)
      (inner'.body (block.moved runs.move) accepts)
      (Prod.map (movedNodes runs.move) (EndTag.moved runs.move))
      fun result change => EndsPart accepts result.2 change

variable {α : Type} {runs : Difference} {height : Int} {cursor : Cursor} {inner inner' : Inner}
  {block : OpenBlock} {closing word : Keyword} {ending : EndTag} {accepts : List Keyword}

/-- Two parsers are in step, and close one level that was open before them. -/
def Closes (runs : Difference) (height : Int) (p q : Parser α) (g : α → α) : Prop :=
  ∀ cursor, InStepFrom runs height cursor p q g fun _ change => change = -1

theorem inStep_closeTag : InStep runs height closeTag closeTag id :=
  (inStep_expect rfl).bind fun _ => inStep_pure rfl

/-- What is made of a block in both runs differs by places only, if what it is made of does. -/
theorem Closes.bind_pure {β : Type} {p q : Parser α} {g : α → α} {g' : β → β} {f f' : α → β}
    (h : Closes runs height p q g) (hf : ∀ item, f' (g item) = g' (f item)) :
    Closes runs height (do pure (f (← p))) (do pure (f' (← q))) g' := by
  intro cursor
  apply (h cursor).bind
  rintro item next _ - - rfl
  exact inStepFrom_pure rfl (hf item)

section Tags

variable {primary primary' : Parser Expr} {position : Position}

theorem ExprInStep.assignTag (h : ExprInStep runs height primary primary') :
    InStep runs height (assignTag primary position) (assignTag primary' (runs.move position))
      (Node.moved runs.move) := by
  apply (inStep_expect rfl).bind
  intro name
  apply (inStep_expect rfl).bind
  intro _
  apply h.expression.bind
  intro expr
  exact inStep_closeTag.bind fun _ => inStep_pure rfl

/-- The parameters of a loop are read in step, with any header so far. -/
theorem ExprInStep.loopParameters (h : ExprInStep runs height primary primary') (fuel : Nat)
    (header : LoopHeader) :
    InStep runs height (loopParameters primary fuel header)
      (loopParameters primary' fuel (header.moved runs.move)) (LoopHeader.moved runs.move) := by
  induction fuel generalizing header with
  | zero => exact inStep_pure rfl
  | succ fuel ih =>
      have hvalue : ∀ f f' : Expr → LoopHeader,
          (∀ value, f' (value.moved runs.move) = (f value).moved runs.move) →
          InStep runs height
            (do
              let _ ← expect .colon .colon
              let value ← primary
              Parser.loopParameters primary fuel (f value))
            (do
              let _ ← expect .colon .colon
              let value ← primary'
              Parser.loopParameters primary' fuel (f' value))
            (LoopHeader.moved runs.move) := by
        intro f f' hf
        apply (inStep_expect rfl).bind
        intro _
        apply h.bind
        intro value
        rw [hf]
        exact ih (f value)
      intro cursor
      apply inStepFrom_take_bind
      intro token rest htokens
      dsimp only [Token.moved]
      split
      next hkind => exact .flat hkind rfl (inStepFrom_pure rfl rfl)
      split
      next hkind => exact .flat hkind.1 rfl (ih { header with reversed := true } _)
      split
      next hkind => exact .flat hkind.1 rfl (hvalue _ _ (fun _ => rfl) _)
      split
      next hkind => exact .flat hkind.1 rfl (hvalue _ _ (fun _ => rfl) _)
      next => exact inStepFrom_unexpected

theorem ExprInStep.loopHeader (h : ExprInStep runs height primary primary') :
    InStep runs height (loopHeader primary position) (loopHeader primary' (runs.move position))
      (LoopHeader.moved runs.move) := by
  apply (inStep_expect rfl).bind
  intro name
  apply (inStep_expect rfl).bind
  intro _
  apply h.bind
  intro iterable cursor
  exact inStepFrom_remaining_bind (h.loopParameters _ _ cursor)

theorem ExprInStep.whenCondition (h : ExprInStep runs height primary primary') (subject : Expr) :
    ExprInStep runs height (whenCondition primary subject)
      (whenCondition primary' (subject.moved runs.move)) := by
  apply h.bind
  intro first
  have hcomma : TokenKind.comma.isFlat = true := rfl
  have hor : (TokenKind.keyword .or).isFlat = true := rfl
  apply ((inStep_eatEither hcomma hor).behind h).many.bind
  intro rest
  refine inStep_pure ?_
  rw [Expr.moved_balanced, List.map_map, List.map_map]
  rfl

end Tags

section Parts

/-- The last part of a block, and its closing tag. -/
theorem LevelInStep.last (h : LevelInStep runs height inner inner')
    (hclosing : closing.levelChange = -1) (f f' : List Node → α) {g : α → α}
    (hf : ∀ nodes, f' (movedNodes runs.move nodes) = g (f nodes)) :
    Closes runs height
      (do
        let (nodes, _) ← inner.body block [closing]
        closeTag
        pure (f nodes))
      (do
        let (nodes, _) ← inner'.body (block.moved runs.move) [closing]
        closeTag
        pure (f' nodes))
      g := by
  intro cursor
  apply (h.body block [closing] cursor).bind
  rintro ⟨nodes, ending⟩ next _ - - ⟨haccepted, rfl⟩
  apply (inStep_closeTag next).then
  intro _ last _ _
  refine inStepFrom_pure ?_ (hf nodes)
  rw [List.mem_singleton.mp haccepted, hclosing, Int.add_zero]

/-- The part behind `else` is read in step. It ends in the closing tag, which leaves the level. -/
theorem LevelInStep.elsePart (h : LevelInStep runs height inner inner')
    (hclosing : closing.levelChange = -1)
    (hword : ending.keyword = .elseTag ∨ ending.keyword = closing) (cursor : Cursor) :
    InStepFrom runs (height + ending.keyword.levelChange) cursor
      (elsePart inner block closing ending)
      (elsePart inner' (block.moved runs.move) closing (ending.moved runs.move))
      (movedNodes runs.move) fun _ change => ending.keyword.levelChange + change = -1 := by
  unfold Parser.elsePart
  by_cases hkeyword : ending.keyword = .elseTag
  · have hkeyword' : (ending.moved runs.move).keyword = .elseTag := hkeyword
    rw [if_pos hkeyword, if_pos hkeyword']
    apply (inStep_closeTag cursor).then
    intro _ next _ _
    have helse : ending.keyword.levelChange = 0 := by rw [hkeyword]; rfl
    simpa [helse] using h.last hclosing id id (fun _ => rfl) next
  · have hkeyword' : (ending.moved runs.move).keyword ≠ .elseTag := hkeyword
    rw [if_neg hkeyword, if_neg hkeyword']
    apply (inStep_closeTag cursor).then
    intro _ next _ _
    refine inStepFrom_pure ?_ rfl
    rw [hword.resolve_left hkeyword, hclosing, Int.add_zero]

/-- The number of tokens left bounds the number of arms. -/
theorem LevelInStep.arms (h : LevelInStep runs height inner inner')
    {condition condition' : Parser Expr} (hcondition : ExprInStep runs height condition condition')
    (hword : word.levelChange = 0) {fuel : Nat} (haccepted : ending.keyword ∈ accepts)
    (hfuel : cursor.tokens.length < fuel) :
    InStepFrom runs (height + ending.keyword.levelChange) cursor
      (arms inner block word condition accepts fuel ending)
      (arms inner' (block.moved runs.move) word condition' accepts fuel (ending.moved runs.move))
      (Prod.map (movedArms runs.move) (EndTag.moved runs.move))
      fun result change => result.2.keyword ≠ word ∧
        EndsPart accepts result.2 (ending.keyword.levelChange + change) := by
  induction fuel generalizing cursor ending with
  | zero => exact absurd hfuel (Nat.not_lt_zero _)
  | succ fuel ih =>
      unfold Parser.arms
      by_cases hkeyword : ending.keyword = word
      · have hkeyword' : (ending.moved runs.move).keyword = word := hkeyword
        rw [if_pos hkeyword, if_pos hkeyword']
        have hsame : ending.keyword.levelChange = 0 := by rw [hkeyword, hword]
        rw [hsame, Int.add_zero]
        apply (hcondition cursor).then
        intro guard middle _ hmiddle
        apply (inStep_closeTag middle).then
        intro _ middle' hclose hmiddle'
        apply (h.body block accepts middle').bind
        rintro ⟨nodes, next⟩ last _ - hlast ⟨haccepted', rfl⟩
        have hlength : last.tokens.length < fuel := by
          obtain ⟨_, htokens, -, ⟨_⟩⟩ := reads_closeTag middle _ _ hclose
          have hle := hmiddle.length_le
          have hle' := hlast.length_le
          simp only [htokens, List.length_append, List.length_cons] at hle
          omega
        apply (ih haccepted' hlength).bind
        rintro ⟨rest, final⟩ _ change - - hresult
        refine inStepFrom_pure ?_ rfl
        simpa using hresult
      · have hkeyword' : (ending.moved runs.move).keyword ≠ word := hkeyword
        rw [if_neg hkeyword, if_neg hkeyword']
        exact inStepFrom_pure ⟨hkeyword, haccepted, Int.add_zero _⟩ rfl

/-- The arms behind a part of a block, and what follows them. -/
theorem LevelInStep.armsThen (h : LevelInStep runs height inner inner')
    {condition condition' : Parser Expr} (hcondition : ExprInStep runs height condition condition')
    (hword : word.levelChange = 0) (hclosing : closing.levelChange = -1)
    (haccepts : ∀ keyword ∈ accepts, keyword ≠ word → keyword = .elseTag ∨ keyword = closing)
    (haccepted : ending.keyword ∈ accepts) (f f' : List Arm → List Node → α) {g : α → α}
    (hf : ∀ arms otherwise, f' (movedArms runs.move arms) (movedNodes runs.move otherwise) =
      g (f arms otherwise)) (cursor : Cursor) :
    InStepFrom runs (height + ending.keyword.levelChange) cursor
      (do
        let (arms, last) ←
          Parser.arms inner block word condition accepts ((← remaining) + 1) ending
        let otherwise ← Parser.elsePart inner block closing last
        pure (f arms otherwise))
      (do
        let (arms, last) ←
          Parser.arms inner' (block.moved runs.move) word condition' accepts ((← remaining) + 1)
            (ending.moved runs.move)
        let otherwise ← Parser.elsePart inner' (block.moved runs.move) closing last
        pure (f' arms otherwise))
      g fun _ change => ending.keyword.levelChange + change = -1 := by
  apply inStepFrom_remaining_bind
  apply (h.arms hcondition hword haccepted (length_lt_fuel cursor)).bind
  rintro ⟨arms, last⟩ next change - - ⟨hother, hlast, hchange⟩
  have hlevels : height + ending.keyword.levelChange + change =
      height + last.keyword.levelChange := by rw [Int.add_assoc, hchange]
  rw [hlevels]
  apply (h.elsePart hclosing (haccepts _ hlast hother) next).bind
  rintro otherwise final rest - - (hrest : last.keyword.levelChange + rest = -1)
  refine inStepFrom_pure ?_ (hf arms otherwise)
  rw [Int.add_zero, ← Int.add_assoc, hchange, hrest]

end Parts

section Blocks

/-- Branches are read in step, up to the closing tag that leaves their level. -/
theorem LevelInStep.branchBlock (h : LevelInStep runs height inner inner') {negate : Bool}
    (hclosing : closing.levelChange = -1) :
    Closes runs height (branchBlock inner block closing negate)
      (branchBlock inner' (block.moved runs.move) closing negate) (Node.moved runs.move) := by
  intro cursor
  apply (h.primary.expression cursor).then
  intro condition next _ _
  apply (inStep_closeTag next).then
  intro _ next _ _
  apply (h.body block _ next).bind
  rintro ⟨nodes, ending⟩ next _ - - ⟨haccepted, rfl⟩
  have hword : Keyword.elsif.levelChange = 0 := rfl
  refine h.armsThen h.primary.expression hword hclosing (by simp_all) haccepted
    (fun arms otherwise =>
      Node.branch (if negate then .not condition else condition) nodes arms otherwise
        block.position)
    (fun arms otherwise =>
      Node.branch
        (if negate then .not (condition.moved runs.move) else condition.moved runs.move)
        (movedNodes runs.move nodes) arms otherwise (runs.move block.position))
    ?_ next
  intro arms otherwise
  cases negate <;> rfl

/-- The nodes of a `case` are made of its arms and its `else` in the same way wherever they
stand. -/
theorem movedNodes_caseNodes (f : Position → Position) (arms : List Arm) (otherwise : List Node) :
    caseNodes (movedArms f arms) (movedNodes f otherwise) =
      movedNodes f (caseNodes arms otherwise) := by
  cases arms with
  | nil => rfl
  | cons first rest => cases first; rfl

theorem LevelInStep.caseBlock (h : LevelInStep runs height inner inner') :
    Closes runs height (caseBlock inner block) (caseBlock inner' (block.moved runs.move))
      (movedNodes runs.move) := by
  intro cursor
  apply (h.primary.expression cursor).then
  intro subject next _ _
  apply (inStep_closeTag next).then
  intro _ next _ _
  apply (h.body block _ next).bind
  rintro ⟨nodes, ending⟩ next _ - - ⟨haccepted, rfl⟩
  have hword : Keyword.whenTag.levelChange = 0 := rfl
  exact h.armsThen (h.primary.whenCondition subject) hword rfl (by simp_all) haccepted
    caseNodes caseNodes (movedNodes_caseNodes runs.move) next

theorem LevelInStep.loopBlock (h : LevelInStep runs height inner inner') :
    Closes runs height (loopBlock inner block) (loopBlock inner' (block.moved runs.move))
      (Node.moved runs.move) := by
  intro cursor
  apply (h.primary.loopHeader cursor).then
  intro header next _ _
  apply (h.body block _ next).bind
  rintro ⟨nodes, ending⟩ next _ - - ⟨haccepted, rfl⟩
  have hclosing : Keyword.endFor.levelChange = -1 := rfl
  apply (h.elsePart hclosing (by simpa using haccepted) next).bind
  rintro otherwise final change - - hchange
  exact inStepFrom_pure (by rw [Int.add_zero, hchange]) rfl

theorem LevelInStep.captureBlock (h : LevelInStep runs height inner inner') :
    Closes runs height (captureBlock inner block) (captureBlock inner' (block.moved runs.move))
      (Node.moved runs.move) := by
  intro cursor
  apply (inStep_expect rfl cursor).then
  intro name next _ _
  apply (inStep_closeTag next).then
  intro _ next _ _
  have hclosing : Keyword.endCapture.levelChange = -1 := rfl
  exact h.last hclosing (fun nodes => Node.capture name.text nodes block.position)
    (fun nodes => Node.capture name.text nodes (runs.move block.position)) (fun _ => rfl) next

theorem LevelInStep.verbatimBlock (h : LevelInStep runs height inner inner')
    (hclosing : closing.levelChange = -1) :
    Closes runs height (verbatimBlock inner block closing)
      (verbatimBlock inner' (block.moved runs.move) closing) (movedNodes runs.move) := by
  intro cursor
  apply (inStep_closeTag cursor).then
  intro _ next _ _
  exact h.last hclosing id id (fun _ => rfl) next

/-- The parser of a block closes the level that its opening tag has opened. -/
theorem exists_openedBlock {parse : Inner → Parser (List Node)} (hparse : block? block = some parse)
    (f : Position → Position) :
    ∃ parse', block? (block.moved f) = some parse' ∧
      ∀ (runs : Difference) (height : Int) (inner inner' : Inner), runs.move = f →
        LevelInStep runs height inner inner' →
        Closes runs height (parse inner) (parse' inner') (movedNodes f) := by
  obtain ⟨word, position⟩ := block
  unfold block? at hparse
  split at hparse <;> cases hparse
  next hword =>
    cases hword
    refine ⟨_, rfl, ?_⟩
    rintro runs height inner inner' rfl h
    exact h.loopBlock.bind_pure fun _ => rfl
  next hword =>
    cases hword
    refine ⟨_, rfl, ?_⟩
    rintro runs height inner inner' rfl h
    exact (h.branchBlock rfl).bind_pure fun _ => rfl
  next hword =>
    cases hword
    refine ⟨_, rfl, ?_⟩
    rintro runs height inner inner' rfl h
    exact (h.branchBlock rfl).bind_pure fun _ => rfl
  next hword =>
    cases hword
    refine ⟨_, rfl, ?_⟩
    rintro runs height inner inner' rfl h
    exact h.caseBlock
  next hword =>
    cases hword
    refine ⟨_, rfl, ?_⟩
    rintro runs height inner inner' rfl h
    exact h.captureBlock.bind_pure fun _ => rfl
  next hword =>
    cases hword
    refine ⟨_, rfl, ?_⟩
    rintro runs height inner inner' rfl h
    exact (h.verbatimBlock rfl).bind_pure fun _ => rfl
  next hword =>
    cases hword
    refine ⟨_, rfl, ?_⟩
    rintro runs height inner inner' rfl h
    exact h.verbatimBlock rfl

end Blocks

section Nodes

variable {primary primary' : Parser Expr} {inner? inner'? : Option Inner}
  {block? : Option OpenBlock} {limit : Nat}

/-- What a round comes upon leaves no level open that it opens, and an ending may close one. -/
def ItemLevels (accepts : List Keyword) : Item → Int → Prop
  | .nodes _, change => change = 0
  | .ending ending, change => EndsPart accepts ending change
  | .finished, change => change = 0

/-- The cursor behind the first word of a tag. -/
def behindTag (cursor : Cursor) {opening name : Token} {rest : List Token}
    (htokens : cursor.tokens = opening :: name :: rest) : Cursor :=
  Cursor.after (cursor.after htokens) rfl

/-- Where a tag starts, the item is what the tag gives. -/
theorem item_eq_tagItem {opening name : Token} {rest : List Token}
    (htokens : cursor.tokens = opening :: name :: rest) (hopening : opening.kind = .tagOpen) :
    item limit primary inner? block? accepts cursor =
      tagItem limit primary inner? block? accepts opening name (behindTag cursor htokens) := by
  have hnext : (cursor.after htokens).tokens = name :: rest := rfl
  rw [item, advance_bind_of_cons htokens]
  simp only [hopening]
  rw [take_bind_of_cons hnext]
  rfl

/-- A reader on a deeper level goes on there with what comes next. -/
theorem nested_bind {β γ : Type} {inner? : Option β} {position : Position} {parse : β → Parser α}
    {k : α → Parser γ} :
    nested limit inner? position parse >>= k =
      nested limit inner? position fun inner => parse inner >>= k := by
  cases inner? <;> rfl

/-- A block is read one level deeper. -/
theorem tag_eq_nested {parse : Inner → Parser (List Node)} {name : String} {position : Position}
    (hparse : Parser.block? ⟨word, position⟩ = some parse) :
    tag limit primary inner? word name position = nested limit inner? position parse := by
  have hassign : word ≠ .assign := by
    rintro rfl
    cases hparse
  rw [tag, if_neg hassign, hparse]

/-- A word that opens no block, and does not end or divide one either, leaves the levels alone. -/
theorem levelChange_of_plain {position : Position}
    (hplain : Parser.block? ⟨word, position⟩ = none) (hdivides : ¬ word.dividesBlock = true) :
    word.levelChange = 0 := by
  cases word <;> first | rfl | exact absurd rfl hdivides | cases hplain

/-- Behind its first word, a tag that opens no block is parsed in step. -/
theorem inStepFrom_tag (h : ExprInStep runs height primary primary') {name : String}
    {position : Position} (hplain : Parser.block? ⟨word, position⟩ = none) :
    InStepFrom runs height cursor (tag runs.limit primary inner? word name position)
      (tag runs.limit' primary' inner'? word name (runs.move position))
      (movedNodes runs.move) fun _ change => change = 0 := by
  have hplain' : Parser.block? ⟨word, runs.move position⟩ = none := by
    cases word <;> first | rfl | cases hplain
  unfold Parser.tag
  split
  · apply (h.assignTag cursor).then
    intro node next _ _
    exact inStepFrom_pure rfl rfl
  · rw [hplain, hplain']
    exact inStepFrom_fail rfl

/-- A tag that opens no block, behind its first word. -/
theorem inStepFrom_tagItem (h : ExprInStep runs height primary primary') {opening name : Token}
    {next : Cursor} (hopening : opening.kind = .tagOpen)
    (hplain : ∀ word, name.kind = .keyword word →
      Parser.block? ⟨word, opening.position⟩ = none) :
    InStepFrom runs (height + levelsOpen [opening, name] next.tokens) next
      (tagItem runs.limit primary inner? block? accepts opening name)
      (tagItem runs.limit' primary' inner'? (block?.map (OpenBlock.moved runs.move)) accepts
        (opening.moved runs.move) (name.moved runs.move))
      (Item.moved runs.move) fun item change =>
        ItemLevels accepts item (levelsOpen [opening, name] next.tokens + change) := by
  unfold tagItem
  dsimp only [Token.moved]
  split
  next word hname =>
    rw [levelsOpen_tag hopening hname]
    by_cases hdivides : word.dividesBlock = true
    · rw [if_pos hdivides, if_pos hdivides]
      by_cases haccepted : accepts.contains word = true
      · rw [if_pos haccepted, if_pos haccepted]
        have hends : ItemLevels accepts (.ending ⟨word, opening.position⟩) word.levelChange :=
          ⟨by simpa using haccepted, rfl⟩
        exact inStepFrom_pure (by rwa [Int.add_zero]) rfl
      · have hclosing : ((block?.map (OpenBlock.moved runs.move)).bind fun block =>
            block.tag.closing?) = block?.bind fun block => block.tag.closing? := by
          rw [Option.bind_map]
          rfl
        rw [if_neg haccepted, if_neg haccepted, hclosing]
        exact inStepFrom_fail rfl
    · rw [if_neg hdivides, if_neg hdivides, levelChange_of_plain (hplain word hname) hdivides,
        Int.add_zero]
      apply (inStepFrom_tag h (hplain word hname)).then
      intro nodes last _ _
      exact inStepFrom_pure rfl rfl
  next => exact inStepFrom_fail rfl
  next => exact inStepFrom_unexpected

/-- A tag in front is read in step: it opens a block, ends one, or stands for itself. -/
theorem inStepFrom_item_tag (h : ExprInStep runs height primary primary')
    (hinner : Deeper runs height (LevelInStep runs (height + 1)) inner? inner'?)
    {opening name : Token} {rest : List Token} (htokens : cursor.tokens = opening :: name :: rest)
    (hopening : opening.kind = .tagOpen) :
    InStepFrom runs height cursor (item runs.limit primary inner? block? accepts)
      (item runs.limit' primary' inner'? (block?.map (OpenBlock.moved runs.move)) accepts)
      (Item.moved runs.move) (ItemLevels accepts) := by
  have hmoved : (cursor.moved runs.move).tokens =
      opening.moved runs.move :: name.moved runs.move :: rest.map (Token.moved runs.move) := by
    rw [cursor.tokens_moved, htokens, List.map_cons, List.map_cons]
  have hsplit : cursor.tokens = [opening, name] ++ (behindTag cursor htokens).tokens := htokens
  have hfailure : (behindTag cursor htokens).failure? = cursor.failure? := rfl
  have hfirst : item runs.limit primary inner? block? accepts cursor =
      tagItem runs.limit primary inner? block? accepts opening name (behindTag cursor htokens) :=
    item_eq_tagItem htokens hopening
  have hsecond : item runs.limit' primary' inner'? (block?.map (OpenBlock.moved runs.move)) accepts
      (cursor.moved runs.move) =
      tagItem runs.limit' primary' inner'? (block?.map (OpenBlock.moved runs.move)) accepts
        (opening.moved runs.move) (name.moved runs.move)
        ((behindTag cursor htokens).moved runs.move) :=
    item_eq_tagItem hmoved hopening
  by_cases hblock : ∃ word parse, name.kind = .keyword word ∧
      Parser.block? ⟨word, opening.position⟩ = some parse
  · obtain ⟨word, parse, hname, hparse⟩ := hblock
    obtain ⟨parse', hparse', hcloses⟩ := exists_openedBlock hparse runs.move
    have hword : word.levelChange = 1 := if_pos (closing?_isSome_of_block? hparse)
    have hopens : levelChange opening ([name] ++ (behindTag cursor htokens).tokens) = 1 := by
      simp [levelChange, hopening, hname, hword]
    have hdivides : ¬ word.dividesBlock = true := by
      intro hdivides
      have hclosing := closing?_isSome_of_block? hparse
      rw [BlockStack.closing?_eq_none_of_dividesBlock hdivides] at hclosing
      cases hclosing
    simp only [tagItem, Token.moved, hname] at hfirst hsecond
    rw [if_neg hdivides, tag_eq_nested hparse, nested_bind] at hfirst
    rw [if_neg hdivides, tag_eq_nested hparse', nested_bind] at hsecond
    refine inStepFrom_nested [name] hinner hsplit hfailure hopens ?_ hfirst hsecond ?_
    · rw [levelsOpen_singleton, levelChange_of_isFlat (by rw [hname]; rfl)]
    · intro inner inner' hlevel
      apply (hcloses runs _ inner inner' rfl hlevel _).bind
      rintro nodes next _ - - rfl
      exact inStepFrom_pure rfl rfl
  · refine .lift _ hsplit hfailure hfirst hsecond (inStepFrom_tagItem h hopening ?_)
    intro word hname
    cases hparse : Parser.block? ⟨word, opening.position⟩ with
    | none => rfl
    | some parse => exact absurd ⟨word, parse, hname, hparse⟩ hblock

/-- Items are read in step, whatever token they start with. -/
theorem inStepFrom_item (h : ExprInStep runs height primary primary')
    (hinner : Deeper runs height (LevelInStep runs (height + 1)) inner? inner'?)
    (cursor : Cursor) :
    InStepFrom runs height cursor (item runs.limit primary inner? block? accepts)
      (item runs.limit' primary' inner'? (block?.map (OpenBlock.moved runs.move)) accepts)
      (Item.moved runs.move) (ItemLevels accepts) := by
  have hfinished : ItemLevels accepts .finished 0 := rfl
  have hnodes : ∀ nodes, ItemLevels accepts (.nodes nodes) 0 := fun _ => rfl
  cases htokens : cursor.tokens with
  | nil => exact inStepFrom_end htokens (fun _ => advance?_nil) (inStepFrom_pure hfinished rfl)
  | cons token rest =>
      by_cases hkind : token.kind = .tagOpen
      · cases rest with
        | nil =>
            -- A tag without a word is no tag at all.
            apply inStepFrom_advance_cons htokens
            dsimp only [Token.moved]
            simp only [hkind]
            apply inStepFrom_take_bind
            intro name rest hname
            cases hname
        | cons name rest => exact inStepFrom_item_tag h hinner htokens hkind
      · apply inStepFrom_advance_cons htokens
        dsimp only [Token.moved]
        split
        next hliteral =>
          refine inStepFrom_pure ?_ rfl
          rw [levelChange_of_isFlat (by rw [hliteral]; rfl)]
          exact hnodes _
        next houtput =>
          rw [levelChange_of_isFlat (by rw [houtput]; rfl), Int.add_zero]
          apply (h.expression _).then
          intro expr next _ _
          apply (inStep_expect rfl next).then
          intro _ next _ _
          exact inStepFrom_pure (hnodes _) rfl
        next hopening => exact absurd hopening hkind
        next => exact inStepFrom_unexpected

/-- Some rounds leave no level open that they open, and an ending may close one. -/
def RoundsLevels (accepts : List Keyword) (ending? : Option EndTag) (change : Int) : Prop :=
  match ending? with
  | some ending => EndsPart accepts ending change
  | none => change = 0

/-- Items are read in step until the tag that ends them, which may change the level. -/
theorem inStepFrom_nodesUpTo {round round' : Parser Item}
    (h : ∀ cursor, InStepFrom runs height cursor round round' (Item.moved runs.move)
      (ItemLevels accepts)) (fuel : Nat) (cursor : Cursor) :
    InStepFrom runs height cursor (nodesUpTo round fuel) (nodesUpTo round' fuel)
      (Prod.map (movedNodes runs.move) (Option.map (EndTag.moved runs.move)))
      fun result change => RoundsLevels accepts result.2 change := by
  have hnone : RoundsLevels accepts none 0 := rfl
  induction fuel generalizing cursor with
  | zero => exact inStepFrom_pure hnone rfl
  | succ fuel ih =>
      apply (h cursor).bind
      intro item next change _ _ hitem
      cases item with
      | finished =>
          cases hitem
          exact inStepFrom_pure hnone rfl
      | ending ending =>
          have hends : RoundsLevels accepts (some ending) change := hitem
          exact inStepFrom_pure (by rwa [Int.add_zero]) rfl
      | nodes nodes =>
          cases hitem
          rw [Int.add_zero]
          apply (ih next).bind
          rintro ⟨rest, ending?⟩ last change - - hrest
          have hends : RoundsLevels accepts ending? (0 + (change + 0)) := by
            rwa [Int.zero_add, Int.add_zero]
          exact inStepFrom_pure hends (by rw [Prod.map_apply, movedNodes_append])

theorem inStepFrom_nodes (h : ExprInStep runs height primary primary')
    (hinner : Deeper runs height (LevelInStep runs (height + 1)) inner? inner'?)
    (block? : Option OpenBlock) (cursor : Cursor) :
    InStepFrom runs height cursor (nodes runs.limit primary inner? block? accepts)
      (nodes runs.limit' primary' inner'? (block?.map (OpenBlock.moved runs.move)) accepts)
      (Prod.map (movedNodes runs.move) (Option.map (EndTag.moved runs.move)))
      fun result change => RoundsLevels accepts result.2 change := by
  apply inStepFrom_remaining_bind
  exact inStepFrom_nodesUpTo (inStepFrom_item h hinner) (cursor.left + 1) cursor

/-- Bodies are read in step, and the tag behind a body may change the level. -/
theorem inStepFrom_bodyWith (h : ExprInStep runs height primary primary')
    (hinner : Deeper runs height (LevelInStep runs (height + 1)) inner? inner'?)
    (block : OpenBlock) (cursor : Cursor) :
    InStepFrom runs height cursor (bodyWith runs.limit primary inner? block accepts)
      (bodyWith runs.limit' primary' inner'? (block.moved runs.move) accepts)
      (Prod.map (movedNodes runs.move) (EndTag.moved runs.move))
      fun result change => EndsPart accepts result.2 change := by
  apply (inStepFrom_nodes h hinner (some block) cursor).bind
  rintro ⟨nodes, ending?⟩ next change - - hends
  cases ending? with
  | some ending => exact inStepFrom_pure (by rw [Int.add_zero]; exact hends) rfl
  | none => exact inStepFrom_fail rfl

end Nodes

theorem body_eq_bodyWith (limit budget : Nat) :
    body limit budget = fun block accepts =>
      bodyWith limit (primary limit budget) (inner? limit budget) block accepts := by
  cases budget <;> rfl

/-- The levels below a level are parsed in step. -/
theorem deeper_inner? {budget budget' : Nat} (h : Left runs height budget budget') :
    Deeper runs height (LevelInStep runs (height + 1)) (inner? runs.limit budget)
      (inner? runs.limit' budget') := by
  induction budget generalizing height budget' with
  | zero => exact .missing h.full fun hsame => by rw [h.eq_zero hsame]; rfl
  | succ budget ih =>
      obtain ⟨below, rfl, hbelow⟩ := h.below
      refine .there ⟨inStep_primary hbelow, ?_⟩
      intro block accepts cursor
      rw [body_eq_bodyWith, body_eq_bodyWith]
      exact inStepFrom_bodyWith (inStep_primary hbelow) (ih hbelow) block cursor

/-- Two whole sources are parsed in step, if the second run has no smaller limit. -/
theorem inStep_template (hle : runs.limit ≤ runs.limit') :
    InStep runs 0 (template runs.limit) (template runs.limit') (movedNodes runs.move) := by
  intro cursor
  have hleft : Left runs 0 runs.limit runs.limit' := ⟨Int.zero_add _, Int.zero_add _, hle⟩
  apply (inStepFrom_nodes (inStep_primary hleft) (deeper_inner? hleft) none cursor).bind
  rintro ⟨nodes, ending?⟩ next change - - hends
  cases ending? with
  | none => exact inStepFrom_pure (by rw [Int.add_zero]; exact hends) rfl
  | some ending => exact absurd hends.1 nofun

/-- Tokens in another place are parsed alike. -/
theorem template_moved (f : Position → Position) (limit : Nat) (cursor : Cursor) :
    template limit (cursor.moved f) =
      match template limit cursor with
      | .ok (nodes, next) => .ok (movedNodes f nodes, next.moved f)
      | .error error => .error (error.moved f) := by
  have hruns : InStep ⟨f, limit, limit⟩ 0 (template limit) (template limit) (movedNodes f) :=
    inStep_template (Nat.le_refl limit)
  cases hfirst : template limit cursor with
  | ok pair =>
      obtain ⟨front, -, -, -, hsecond⟩ := (hruns cursor).ok pair.1 pair.2 hfirst
      exact hsecond
  | error error => exact ((hruns cursor).error error hfirst).2 (.inl rfl)

end TextTemplate.Parser
