import TextTemplate.Proofs.Parser.BlockTracking
/-! # Blocks are parsed by their stack

The parser of a block begins with the block on top of the stack, and is through with it when the
stack has taken it off. The words that a part of a block accepts are those that the stack can take
there.
-/

namespace TextTemplate.Parser

open BlockStack

variable {stack outer reached : BlockStack} {cursor : Cursor} {inner : Inner} {block : OpenBlock}
  {frame : BlockFrame} {closing word : Keyword} {ending : EndTag} {accepts : List Keyword}

/-- The tag that ended a part of a block. -/
def EndTag.tag (ending : EndTag) : Tag := ⟨ending.keyword, ending.position⟩

/-- Of the tags that end or divide a block, those are accepted that the stack can take. -/
def Awaits (stack : BlockStack) (accepts : List Keyword) : Prop :=
  ∀ tag : Tag, tag.word.dividesBlock = true →
    (tag.word ∈ accepts ↔ (stack.step tag).isSome = true)

/-- The tag that ended a part of a block is accepted, and the stack takes it. -/
def EndsAt (stack : BlockStack) (accepts : List Keyword) (ending : EndTag) (reached : BlockStack) :
    Prop :=
  ending.keyword ∈ accepts ∧ stack.step ending.tag = some reached

/-- The parsers of a level go along with the stack. -/
structure FollowsLevel (inner : Inner) : Prop where
  primary : Plain inner.primary
  body : ∀ (frame : BlockFrame) (outer : BlockStack) (accepts : List Keyword),
    Awaits (frame :: outer) accepts → Follows (frame :: outer) (inner.body frame.block accepts)
      fun result reached => EndsAt (frame :: outer) accepts result.2 reached

theorem awaits_nil : Awaits [] [] := by
  intro tag hdivides
  simp [step, hdivides, closing?_eq_none_of_dividesBlock hdivides]

/-- Inside a block the parser accepts the words that the stack admits there. -/
theorem awaits_cons (h : ∀ word, word.dividesBlock = true →
    (word ∈ accepts ↔ admits frame.block.tag frame.inElse word = true)) :
    Awaits (frame :: outer) accepts := by
  intro tag hdivides
  rw [step_isSome_iff hdivides]
  exact h tag.word hdivides

/-- Nothing but its closing tag ends or divides the last part of a block. -/
def IsLast (frame : BlockFrame) (closing : Keyword) : Prop :=
  frame.block.tag.closing? = some closing ∧
    ∀ word, elseBehind? frame.block.tag frame.inElse word = none

theorem IsLast.awaits (h : IsLast frame closing) : Awaits (frame :: outer) [closing] := by
  obtain ⟨hclosing, hlast⟩ := h
  apply awaits_cons
  intro word _
  rw [admits, hclosing, hlast]
  simp [eq_comm]

section Parts

variable {α : Type}

theorem Follows.bind_pure {β : Type} {p : Parser α} {f : α → β}
    (h : Follows stack p fun _ final => final = outer) :
    Follows stack (do pure (f (← p))) fun _ final => final = outer := by
  apply h.bind
  intro item reached hreached
  exact follows_pure hreached

/-- The last part of a block, and its closing tag. -/
theorem FollowsLevel.last (h : FollowsLevel inner) (hlast : IsLast frame closing)
    {f : List Node → α} :
    Follows (frame :: outer)
      (do
        let (nodes, _) ← inner.body frame.block [closing]
        closeTag
        pure (f nodes))
      fun _ final => final = outer := by
  apply (h.body frame outer [closing] hlast.awaits).bind
  rintro ⟨nodes, ending⟩ reached ⟨haccepted, hstep⟩
  have hclosing : frame.block.tag.closing? = some ending.tag.word := by
    rw [EndTag.tag, List.mem_singleton.mp haccepted]
    exact hlast.1
  rw [step_closing hclosing, Option.some.injEq] at hstep
  subst hstep
  exact plain_closeTag.then fun _ => follows_pure rfl

/-- The parts of a block that may have an `else`: behind a tag with the word `word`, and up to one
that the block accepts. -/
structure Divided (block : OpenBlock) (closing : Keyword) (accepts : List Keyword) : Prop where
  closing : block.tag.closing? = some closing
  otherwise : elseBehind? block.tag false .elseTag = some true
  awaits : ∀ outer, Awaits (⟨block, false⟩ :: outer) accepts

/-- Behind the arms comes the closing tag, or an `else` whose body runs up to it. -/
theorem FollowsLevel.elsePart (h : FollowsLevel inner) (hblock : Divided block closing accepts)
    (hends : EndsAt (⟨block, false⟩ :: outer) accepts ending reached)
    (hword : ending.keyword = .elseTag ∨ ending.keyword = closing) :
    Follows reached (elsePart inner block closing ending) fun _ final => final = outer := by
  obtain ⟨-, hstep⟩ := hends
  unfold Parser.elsePart
  split
  next hkeyword =>
    have htag : elseBehind? block.tag false ending.tag.word = some true := by
      rw [EndTag.tag, hkeyword]
      exact hblock.otherwise
    rw [step_within htag, Option.some.injEq] at hstep
    subst hstep
    have hlast : IsLast ⟨block, true⟩ closing := ⟨hblock.closing, fun _ => rfl⟩
    exact plain_closeTag.then fun _ => h.last hlast (f := id)
  next hkeyword =>
    have hclosing : block.tag.closing? = some ending.tag.word := by
      rw [EndTag.tag, hword.resolve_left hkeyword]
      exact hblock.closing
    rw [step_closing hclosing, Option.some.injEq] at hstep
    subst hstep
    exact plain_closeTag.then fun _ => follows_pure rfl

/-- The number of tokens left bounds the number of arms. -/
theorem FollowsLevel.arms (h : FollowsLevel inner) {condition : Parser Expr}
    (hcondition : Plain condition) (hblock : Divided block closing accepts)
    (hword : elseBehind? block.tag false word = some false) {fuel : Nat}
    (hends : EndsAt (⟨block, false⟩ :: outer) accepts ending stack)
    (hfuel : cursor.tokens.length < fuel) :
    FollowsFrom cursor stack (arms inner block word condition accepts fuel ending)
      fun result reached => EndsAt (⟨block, false⟩ :: outer) accepts result.2 reached ∧
        result.2.keyword ≠ word := by
  induction fuel generalizing cursor ending stack with
  | zero => exact absurd hfuel (Nat.not_lt_zero _)
  | succ fuel ih =>
      unfold Parser.arms
      split
      next hkeyword =>
        -- The arm is another part of the same block.
        have hstack : stack = ⟨block, false⟩ :: outer := by
          have htag : elseBehind? block.tag false ending.tag.word = some false := by
            rw [EndTag.tag, hkeyword]
            exact hword
          have hstep := hends.2
          rw [step_within htag, Option.some.injEq] at hstep
          exact hstep.symm
        subst hstack
        apply (hcondition _ cursor).bind
        intro guard middle _ _ hmiddle hsame
        subst hsame
        apply (plain_closeTag _ middle).bind
        intro _ middle' _ hclose hmiddle' hsame
        subst hsame
        apply (h.body ⟨block, false⟩ outer accepts (hblock.awaits outer) middle').bind
        rintro ⟨nodes, next⟩ last reached _ hlast hends'
        have hlength : last.tokens.length < fuel := by
          obtain ⟨_, htokens, -, ⟨_⟩⟩ := reads_closeTag middle _ _ hclose
          have hle := hmiddle.length_le
          have hle' := hlast.length_le
          simp only [htokens, List.length_append, List.length_cons] at hle
          omega
        apply (ih hends' hlength).bind
        rintro ⟨rest, final⟩ _ reached' _ _ hresult
        exact follows_pure hresult _
      next hkeyword => exact follows_pure ⟨hends, hkeyword⟩ cursor

/-- The arms behind a part of a block, and what follows them. -/
theorem FollowsLevel.armsThen (h : FollowsLevel inner) {condition : Parser Expr}
    (hcondition : Plain condition) (hblock : Divided block closing accepts)
    (hword : elseBehind? block.tag false word = some false)
    (haccepts : ∀ keyword ∈ accepts, keyword ≠ word → keyword = .elseTag ∨ keyword = closing)
    (hends : EndsAt (⟨block, false⟩ :: outer) accepts ending reached)
    {f : List Arm → List Node → α} :
    Follows reached
      (do
        let (arms, last) ←
          Parser.arms inner block word condition accepts ((← remaining) + 1) ending
        let otherwise ← Parser.elsePart inner block closing last
        pure (f arms otherwise))
      fun _ final => final = outer := by
  intro cursor
  apply followsFrom_remaining_bind
  apply (h.arms hcondition hblock hword hends (length_lt_fuel cursor)).bind
  rintro ⟨arms, last⟩ next reached' _ _ ⟨hlast, hother⟩
  exact (h.elsePart hblock hlast (haccepts _ hlast.1 hother)).bind_pure next

end Parts

section Blocks

variable {position : Position}

/-- An `if` or `unless` is parsed as the stack follows it, with its arms and its `else` up to the
closing tag. -/
theorem FollowsLevel.branchBlock (h : FollowsLevel inner) {negate : Bool}
    (hblock : Divided block closing [.elsif, .elseTag, closing])
    (hword : elseBehind? block.tag false .elsif = some false) :
    Follows (⟨block, false⟩ :: outer) (branchBlock inner block closing negate)
      fun _ final => final = outer := by
  apply h.primary.expression.then
  intro condition
  apply plain_closeTag.then
  intro _
  apply (h.body ⟨block, false⟩ outer _ (hblock.awaits outer)).bind
  rintro ⟨nodes, ending⟩ reached hends
  exact h.armsThen h.primary.expression hblock hword (by simp_all) hends
    (f := fun arms otherwise =>
      let guard := if negate then .not condition else condition
      Node.branch guard nodes arms otherwise block.position)

/-- A `case` is parsed as the stack follows it, with its arms and its `else` up to the closing
tag. -/
theorem FollowsLevel.caseBlock (h : FollowsLevel inner)
    (hblock : Divided block .endCase [.whenTag, .elseTag, .endCase])
    (hword : elseBehind? block.tag false .whenTag = some false) :
    Follows (⟨block, false⟩ :: outer) (caseBlock inner block) fun _ final => final = outer := by
  apply h.primary.expression.then
  intro subject
  apply plain_closeTag.then
  intro _
  apply (h.body ⟨block, false⟩ outer _ (hblock.awaits outer)).bind
  rintro ⟨nodes, ending⟩ reached hends
  exact h.armsThen (h.primary.whenCondition subject) hblock hword (by simp_all) hends
    (f := caseNodes)

/-- A loop is parsed as the stack follows it, with its `else` up to the closing tag. -/
theorem FollowsLevel.loopBlock (h : FollowsLevel inner)
    (hblock : Divided block .endFor [.elseTag, .endFor]) :
    Follows (⟨block, false⟩ :: outer) (loopBlock inner block) fun _ final => final = outer := by
  apply h.primary.loopHeader.then
  intro header
  apply (h.body ⟨block, false⟩ outer _ (hblock.awaits outer)).bind
  rintro ⟨nodes, ending⟩ reached hends
  exact (h.elsePart hblock hends (by simpa using hends.1)).bind_pure

theorem FollowsLevel.captureBlock (h : FollowsLevel inner)
    (hlast : IsLast ⟨block, false⟩ .endCapture) :
    Follows (⟨block, false⟩ :: outer) (captureBlock inner block) fun _ final => final = outer := by
  apply Plain.then (plain_expect (by decide))
  intro name
  exact plain_closeTag.then fun _ => h.last hlast
    (f := fun nodes => Node.capture name.text nodes block.position)

theorem FollowsLevel.verbatimBlock (h : FollowsLevel inner)
    (hlast : IsLast ⟨block, false⟩ closing) :
    Follows (⟨block, false⟩ :: outer) (verbatimBlock inner block closing)
      fun _ final => final = outer :=
  plain_closeTag.then fun _ => h.last hlast (f := id)

theorem divided_of_admits {tag : Keyword} (hclosing : tag.closing? = some closing)
    (helse : elseBehind? tag false .elseTag = some true)
    (h : ∀ word, word.dividesBlock = true → (word ∈ accepts ↔ admits tag false word = true)) :
    Divided ⟨tag, position⟩ closing accepts :=
  ⟨hclosing, helse, fun _ => awaits_cons h⟩

/-- Each block is parsed as the stack follows it, until its closing tag takes it from the stack
again. -/
theorem FollowsLevel.openedBlock (h : FollowsLevel inner) {parse : Inner → Parser (List Node)}
    (hparse : block? block = some parse) :
    Follows (⟨block, false⟩ :: outer) (parse inner) fun _ final => final = outer := by
  obtain ⟨word, position⟩ := block
  unfold block? at hparse
  split at hparse <;> cases hparse
  next hword =>
    cases hword
    refine (h.loopBlock (divided_of_admits rfl rfl ?_)).bind_pure
    intro word
    cases word <;> decide
  next hword =>
    cases hword
    refine (h.branchBlock (divided_of_admits rfl rfl ?_) rfl).bind_pure
    intro word
    cases word <;> decide
  next hword =>
    cases hword
    refine (h.branchBlock (divided_of_admits rfl rfl ?_) rfl).bind_pure
    intro word
    cases word <;> decide
  next hword =>
    cases hword
    refine h.caseBlock (divided_of_admits rfl rfl ?_) rfl
    intro word
    cases word <;> decide
  next hword =>
    cases hword
    exact (h.captureBlock ⟨rfl, fun _ => rfl⟩).bind_pure
  next hword =>
    cases hword
    exact (h.verbatimBlock ⟨rfl, fun _ => rfl⟩).bind_pure
  next hword =>
    cases hword
    exact h.verbatimBlock ⟨rfl, fun _ => rfl⟩

/-- What the parser parses as a block has a closing tag. -/
theorem closing?_isSome_of_block? {parse : Inner → Parser (List Node)}
    (hparse : block? block = some parse) : block.tag.closing?.isSome = true := by
  unfold block? at hparse
  split at hparse <;> simp_all [Keyword.closing?]

end Blocks

section Nodes

variable {primary : Parser Expr} {inner? : Option Inner} {block? : Option OpenBlock} {limit : Nat}
  {position : Position}

/-- A tag that ends no block opens one, which is parsed and closed again, or it is refused. -/
theorem Plain.tag (h : Plain primary) (hinner : ∀ inner, inner? = some inner → FollowsLevel inner)
    {name : String} (hword : word.dividesBlock = false)
    (hstep : stack.step ⟨word, position⟩ = some reached) :
    Follows reached (tag limit primary inner? word name position)
      fun _ final => final = stack := by
  unfold Parser.tag
  split
  next hassign =>
    have hreached : reached = stack := by
      subst hassign
      exact (Option.some.inj hstep).symm
    subst hreached
    exact h.assignTag.then fun _ => follows_pure rfl
  split
  next => exact follows_fail rfl
  next parse hparse =>
    have hopens : word.closing?.isSome = true := closing?_isSome_of_block? hparse
    rw [step_opening hopens, Option.some.injEq] at hstep
    subst hstep
    cases hlevel : inner? with
    | none => exact follows_fail rfl
    | some inner => exact (hinner inner hlevel).openedBlock hparse

/-- What a round comes upon leaves the stack alone, unless it ends this part of the block. -/
def ItemEnds (stack : BlockStack) (accepts : List Keyword) : Item → BlockStack → Prop
  | .nodes _, reached => reached = stack
  | .ending ending, reached => EndsAt stack accepts ending reached
  | .finished, reached => reached = stack

/-- What a round makes of a tag, behind its first word. -/
def tagItem (limit : Nat) (primary : Parser Expr) (inner? : Option Inner)
    (block? : Option OpenBlock) (accepts : List Keyword) (opening name : Token) : Parser Item :=
  match name.kind with
  | .keyword word =>
    if word.dividesBlock then
      if accepts.contains word then pure (.ending ⟨word, opening.position⟩)
      else
        fail (.mismatchedBlock word (block?.bind fun block => block.tag.closing?)) opening.position
    else do
      let nodes ← tag limit primary inner? word name.text opening.position
      pure (.nodes nodes)
  | .identifier => fail (.unknownTag name.text) opening.position
  | _ => unexpected name .tagName

/-- A word behind the opening of a tag is taken at once. -/
theorem item_of_tag {opening name : Token} {rest : List Token}
    (htokens : cursor.tokens = opening :: name :: rest) (hopening : opening.kind = .tagOpen) :
    ∃ next : Cursor, next.tokens = rest ∧ next.failure? = cursor.failure? ∧
      item limit primary inner? block? accepts cursor =
        tagItem limit primary inner? block? accepts opening name next := by
  obtain ⟨middle, hadvance, hmiddle, hfailure⟩ := advance?_cons htokens
  obtain ⟨next, hadvance', hnext, hfailure'⟩ := advance?_cons hmiddle
  refine ⟨next, hnext, hfailure'.trans hfailure, ?_⟩
  rw [item, bind_apply, hadvance]
  simp only [Except.bind, hopening]
  rw [take, bind_assoc, bind_apply, hadvance']
  rfl

/-- A tag is taken by the stack, or it is one too many. -/
theorem followsFrom_item_tag (h : Plain primary)
    (hinner : ∀ inner, inner? = some inner → FollowsLevel inner)
    (hblock : stack.head?.map BlockFrame.block = block?) (hawaits : Awaits stack accepts)
    {opening name : Token} {rest : List Token}
    (htokens : cursor.tokens = opening :: name :: rest) (hopening : opening.kind = .tagOpen) :
    FollowsFrom cursor stack (item limit primary inner? block? accepts)
      (ItemEnds stack accepts) := by
  obtain ⟨next, hnext, hfailure, hitem⟩ := item_of_tag htokens hopening
  cases hname : name.kind with
  | keyword word =>
      simp only [tagItem, hname] at hitem
      have htags : tagsOf cursor.tokens = ⟨word, opening.position⟩ :: tagsOf next.tokens := by
        rw [htokens, hnext, tagsOf_tag hopening hname]
      have hsuffix : next.tokens <:+ cursor.tokens := by
        rw [htokens, hnext]
        exact ⟨[opening, name], rfl⟩
      cases hstep : stack.step ⟨word, opening.position⟩ with
      | none =>
          have hdivides : word.dividesBlock = true := dividesBlock_of_step_eq_none hstep
          have hrefused : word ∉ accepts := by
            rw [hawaits ⟨word, opening.position⟩ hdivides, hstep]
            simp
          rw [if_pos hdivides, if_neg (by simpa using hrefused)] at hitem
          have hclosing : (block?.bind fun block => block.tag.closing?) = stack.closing? := by
            rw [← hblock, Option.bind_map]
            rfl
          apply followsFrom_error hitem
          rw [hclosing]
          exact .mismatched (by rw [htags, run_stuck hstep])
      | some reached =>
          have hrun : stack.run (tagsOf cursor.tokens) = reached.run (tagsOf next.tokens) := by
            rw [htags, run_cons hstep]
          by_cases hdivides : word.dividesBlock = true
          · have haccepted : word ∈ accepts := by
              rw [hawaits ⟨word, opening.position⟩ hdivides, hstep]
              rfl
            have hends : ItemEnds stack accepts (.ending ⟨word, opening.position⟩) reached :=
              ⟨haccepted, hstep⟩
            rw [if_pos hdivides, if_pos (by simpa using haccepted)] at hitem
            exact (follows_pure hends next).lift hitem hsuffix hfailure hrun
          · rw [if_neg hdivides] at hitem
            refine FollowsFrom.lift ?_ hitem hsuffix hfailure hrun
            refine Follows.bind (h.tag hinner (by simpa using hdivides) hstep) ?_ next
            intro nodes final hfinal
            exact follows_pure hfinal
  | _ =>
      simp only [tagItem, hname] at hitem
      exact followsFrom_error hitem (.other rfl)

/-- An item leaves the stack as it is, or it is a tag that ends the body, and then the stack has
taken its step. -/
theorem follows_item (h : Plain primary)
    (hinner : ∀ inner, inner? = some inner → FollowsLevel inner)
    (hblock : stack.head?.map BlockFrame.block = block?) (hawaits : Awaits stack accepts) :
    Follows stack (item limit primary inner? block? accepts) (ItemEnds stack accepts) := by
  intro cursor
  have hnodes : ∀ nodes, ItemEnds stack accepts (.nodes nodes) stack := fun _ => rfl
  have hfinished : ItemEnds stack accepts .finished stack := rfl
  cases htokens : cursor.tokens with
  | nil => exact followsFrom_advance_nil htokens (follows_pure hfinished cursor)
  | cons token rest =>
      by_cases hkind : token.kind = .tagOpen
      · cases rest with
        | nil =>
            -- A tag without a word is no tag of the stack.
            apply followsFrom_advance_cons htokens rfl
            intro next hnext
            simp only [hkind]
            rw [take, bind_assoc]
            exact followsFrom_advance_nil hnext (followsFrom_error rfl (.other rfl))
        | cons name rest => exact followsFrom_item_tag h hinner hblock hawaits htokens hkind
      · apply followsFrom_advance_cons htokens
        · rw [tagsOf_cons hkind]
        · intro next _
          dsimp only
          split
          · exact follows_pure (hnodes _) next
          · refine Plain.then h.expression ?_ next
            intro expr
            apply Plain.then (plain_expect (by decide))
            intro _
            exact follows_pure (hnodes _)
          next hopening => exact absurd hopening hkind
          · exact follows_fail rfl next

/-- Some rounds leave the stack alone, unless they end this part of the block. -/
def RoundsEnd (stack : BlockStack) (accepts : List Keyword) (result : List Node × Option EndTag)
    (reached : BlockStack) : Prop :=
  match result.2 with
  | some ending => EndsAt stack accepts ending reached
  | none => reached = stack

/-- Items are read until the stack has taken the step of the tag that ends them. -/
theorem follows_nodesUpTo {round : Parser Item} (h : Follows stack round (ItemEnds stack accepts))
    (fuel : Nat) : Follows stack (nodesUpTo round fuel) (RoundsEnd stack accepts) := by
  have hnone : ∀ nodes, RoundsEnd stack accepts (nodes, none) stack := fun _ => rfl
  induction fuel with
  | zero => exact follows_pure (hnone [])
  | succ fuel ih =>
      apply h.bind
      intro item reached hitem
      cases item with
      | finished =>
          cases hitem
          exact follows_pure (hnone [])
      | ending ending =>
          have hends : RoundsEnd stack accepts ([], some ending) reached := hitem
          exact follows_pure hends
      | nodes nodes =>
          cases hitem
          apply ih.bind
          rintro ⟨rest, ending?⟩ final hrest
          have hends : RoundsEnd stack accepts (nodes ++ rest, ending?) final := hrest
          exact follows_pure hends

theorem follows_nodes (h : Plain primary)
    (hinner : ∀ inner, inner? = some inner → FollowsLevel inner)
    (hblock : stack.head?.map BlockFrame.block = block?) (hawaits : Awaits stack accepts) :
    Follows stack (nodes limit primary inner? block? accepts) (RoundsEnd stack accepts) := by
  intro cursor
  apply followsFrom_remaining_bind
  exact follows_nodesUpTo (follows_item h hinner hblock hawaits) (cursor.left + 1) cursor

/-- Nodes that no tag has ended go up to the end of the source. -/
theorem nodes_finished {P : Reading Expr} {level? : Option Grammar.Level} (h : Reads primary P)
    (hlevels : ReadsLevels inner? level?) {next : Cursor} {result : List Node}
    (hok : nodes limit primary inner? block? accepts cursor = .ok ((result, none), next)) :
    next.tokens = [] :=
  (nodesUpTo_finished (h.item hlevels) item_finished (length_lt_fuel cursor) hok).tokens_eq

/-- The body of a block is followed by a tag that the stack admits there. -/
theorem follows_bodyWith {P : Reading Expr} {level? : Option Grammar.Level} (h : Plain primary)
    (hinner : ∀ inner, inner? = some inner → FollowsLevel inner) (hreads : Reads primary P)
    (hlevels : ReadsLevels inner? level?) (hawaits : Awaits (frame :: outer) accepts) :
    Follows (frame :: outer) (bodyWith limit primary inner? frame.block accepts)
      fun result reached => EndsAt (frame :: outer) accepts result.2 reached := by
  intro cursor
  apply (follows_nodes h hinner rfl hawaits cursor).bind
  rintro ⟨nodes, ending?⟩ next reached hnodes _ hends
  cases ending? with
  | some ending =>
      refine follows_pure ?_ next
      exact hends
  | none =>
      cases hends
      have hnil : next.tokens = [] := nodes_finished hreads hlevels hnodes
      exact followsFrom_error rfl (.unclosed (by rw [hnil]; rfl))

end Nodes

/-- The parsers of every level go along with the stack. -/
theorem followsLevel_inner? (limit budget : Nat) {inner : Inner}
    (h : inner? limit budget = some inner) : FollowsLevel inner := by
  induction budget generalizing inner with
  | zero => cases h
  | succ budget ih =>
      cases h
      refine ⟨plain_primary limit budget, ?_⟩
      intro frame outer accepts hawaits
      have hbody : Follows (frame :: outer)
          (bodyWith limit (primary limit budget) (inner? limit budget) frame.block accepts)
          fun result reached => EndsAt (frame :: outer) accepts result.2 reached :=
        follows_bodyWith (plain_primary limit budget) (fun _ => ih) (reads_primary limit budget)
          (readsLevels_inner? limit budget) hawaits
      cases budget with
      | zero => exact hbody
      | succ budget => exact hbody

/-- The parser of a whole source goes along with the stack that starts empty. -/
theorem follows_template (limit : Nat) :
    Follows [] (template limit) fun _ reached => reached = [] := by
  have hnodes : Follows [] (nodes limit (primary limit limit) (inner? limit limit) none [])
      (RoundsEnd [] []) :=
    follows_nodes (plain_primary limit limit) (fun _ => followsLevel_inner? limit limit) rfl
      awaits_nil
  apply hnodes.bind
  rintro ⟨nodes, ending?⟩ reached hends
  cases ending? with
  | none => exact follows_pure hends
  | some ending => exact absurd hends.1 (by simp)

end TextTemplate.Parser
