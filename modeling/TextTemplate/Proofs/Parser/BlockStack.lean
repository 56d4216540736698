import TextTemplate.Parser.Block
/-! # The stack of open blocks

Whether the tags of a source fit together is a matter of a stack: a tag that opens a block puts it
on top, its closing tag takes it off again, and the tags that divide a block may only stand directly
in a block of the right kind whose `else` has not come yet. The stack is stuck at any other tag that
closes or divides a block.
-/

namespace TextTemplate

open TextTemplate.Parser (OpenBlock)

/-- The first word of a logic tag, if it is a reserved one, and the place of the tag. -/
structure Tag where
  word : Keyword
  position : Position
deriving DecidableEq, Repr

/-- The tags among some tokens, in order. -/
def tagsOf : List Token → List Tag
  | opening :: name :: rest =>
    match opening.kind, name.kind with
    | .tagOpen, .keyword word => ⟨word, opening.position⟩ :: tagsOf (name :: rest)
    | _, _ => tagsOf (name :: rest)
  | _ => []

/-- No tag starts at a token that does not open one. -/
theorem tagsOf_cons {token : Token} (h : token.kind ≠ .tagOpen) (rest : List Token) :
    tagsOf (token :: rest) = tagsOf rest := by
  cases rest with
  | nil => rfl
  | cons name rest =>
      rw [tagsOf]
      split
      next hopen _ => exact absurd hopen h
      next => rfl

/-- A word behind a token that opens a tag is a tag. -/
theorem tagsOf_tag {opening name : Token} {word : Keyword} (hopening : opening.kind = .tagOpen)
    (hname : name.kind = .keyword word) (rest : List Token) :
    tagsOf (opening :: name :: rest) = ⟨word, opening.position⟩ :: tagsOf rest := by
  simp only [tagsOf, hopening, hname]
  rw [tagsOf_cons (by simp [hname])]

/-- No tag starts at tokens that open none. -/
theorem tagsOf_append {tokens rest : List Token} (h : ∀ token ∈ tokens, token.kind ≠ .tagOpen) :
    tagsOf (tokens ++ rest) = tagsOf rest := by
  induction tokens with
  | nil => rfl
  | cons token tokens ih =>
      rw [List.forall_mem_cons] at h
      rw [List.cons_append, tagsOf_cons h.1, ih h.2]

theorem tagsOf_suffix {tokens rest : List Token} (h : rest <:+ tokens) :
    tagsOf rest <:+ tagsOf tokens := by
  obtain ⟨front, rfl⟩ := h
  induction front with
  | nil => exact List.suffix_refl _
  | cons token front ih =>
      refine ih.trans ?_
      rw [List.cons_append]
      cases front ++ rest with
      | nil => exact List.suffix_refl _
      | cons name rest =>
          rw [tagsOf]
          split
          · exact List.suffix_cons _ _
          · exact List.suffix_refl _

/-- An open block, and whether its `else` has come. -/
structure BlockFrame where
  block : OpenBlock
  inElse : Bool
deriving DecidableEq, Repr

/-- The open blocks, the innermost first. -/
abbrev BlockStack := List BlockFrame

namespace BlockStack

/-- Whether the `else` of a block has come once a tag divides the block; nothing if this tag may not
stand there. -/
def elseBehind? (block : Keyword) (inElse : Bool) (word : Keyword) : Option Bool :=
  if inElse then none
  else
    match block, word with
    | .ifTag, .elsif | .unlessTag, .elsif | .caseTag, .whenTag => some false
    | .forTag, .elseTag | .ifTag, .elseTag | .unlessTag, .elseTag | .caseTag, .elseTag => some true
    | _, _ => none

/-- The word that closes the innermost open block, if there is one. -/
def closing? (stack : BlockStack) : Option Keyword :=
  stack.head?.bind fun frame => frame.block.tag.closing?

/-- The stack behind a tag; nothing where it is stuck. -/
def step (stack : BlockStack) (tag : Tag) : Option BlockStack :=
  if tag.word.closing?.isSome then some (⟨⟨tag.word, tag.position⟩, false⟩ :: stack)
  else if tag.word.dividesBlock then
    match stack with
    | [] => none
    | frame :: outer =>
      if frame.block.tag.closing? = some tag.word then some outer
      else
        (elseBehind? frame.block.tag frame.inElse tag.word).map fun inElse =>
          ⟨frame.block, inElse⟩ :: outer
  else some stack

/-- A tag at which a stack is stuck, and the blocks open there. -/
structure Stuck where
  tag : Tag
  stack : BlockStack
deriving DecidableEq, Repr

/-- The stack behind some tags, or the first tag at which it is stuck. -/
def run (stack : BlockStack) : List Tag → Except Stuck BlockStack
  | [] => .ok stack
  | tag :: rest =>
    match stack.step tag with
    | some next => run next rest
    | none => .error ⟨tag, stack⟩

theorem run_cons {stack next : BlockStack} {tag : Tag} (h : stack.step tag = some next)
    (rest : List Tag) : stack.run (tag :: rest) = next.run rest := by
  simp only [run, h]

theorem run_stuck {stack : BlockStack} {tag : Tag} (h : stack.step tag = none)
    (rest : List Tag) : stack.run (tag :: rest) = .error ⟨tag, stack⟩ := by
  simp only [run, h]

/-- If it is not stuck, the stack behind some tags is that behind the last of them. -/
theorem run_concat {stack reached : BlockStack} {tags : List Tag} {tag : Tag}
    (h : stack.run (tags ++ [tag]) = .ok reached) :
    ∃ before : BlockStack, before.step tag = some reached := by
  induction tags generalizing stack with
  | nil =>
      refine ⟨stack, ?_⟩
      rw [List.nil_append, run] at h
      split at h
      next next hstep =>
        cases h
        exact hstep
      next => cases h
  | cons first tags ih =>
      rw [List.cons_append, run] at h
      split at h
      next next hstep => exact ih h
      next => cases h

/-- Whether a tag with this word may stand directly in a block that it closes or divides. -/
def admits (block : Keyword) (inElse : Bool) (word : Keyword) : Bool :=
  block.closing? = some word || (elseBehind? block inElse word).isSome

theorem step_opening {tag : Tag} (h : tag.word.closing?.isSome) (stack : BlockStack) :
    stack.step tag = some (⟨⟨tag.word, tag.position⟩, false⟩ :: stack) := by
  simp only [step, h, ↓reduceIte]

/-- A stack is stuck at no other tag than one that ends or divides a block. -/
theorem dividesBlock_of_step_eq_none {stack : BlockStack} {tag : Tag}
    (h : stack.step tag = none) : tag.word.dividesBlock = true := by
  unfold step at h
  split at h
  · cases h
  · split at h
    next hdivides => exact hdivides
    next => cases h

/-- A word that ends or divides blocks opens none. -/
theorem closing?_eq_none_of_dividesBlock {word : Keyword} (h : word.dividesBlock = true) :
    word.closing? = none := by
  cases word <;> simp [Keyword.dividesBlock] at h <;> rfl

theorem dividesBlock_of_closing? {block word : Keyword} (h : block.closing? = some word) :
    word.dividesBlock = true := by
  cases block <;> cases h <;> rfl

/-- An arm or an `else` divides its block and does not close it. -/
theorem dividesBlock_of_elseBehind? {block word : Keyword} {inElse inElse' : Bool}
    (h : elseBehind? block inElse word = some inElse') :
    word.dividesBlock = true ∧ block.closing? ≠ some word := by
  unfold elseBehind? at h
  split at h
  · cases h
  · split at h
    all_goals first | exact ⟨rfl, by decide⟩ | cases h

theorem step_dividing {tag : Tag} (h : tag.word.dividesBlock = true) (frame : BlockFrame)
    (outer : BlockStack) :
    step (frame :: outer) tag =
      if frame.block.tag.closing? = some tag.word then some outer
      else
        (elseBehind? frame.block.tag frame.inElse tag.word).map fun inElse =>
          ⟨frame.block, inElse⟩ :: outer := by
  simp only [step, closing?_eq_none_of_dividesBlock h, h, Option.isSome_none, Bool.false_eq_true,
    ↓reduceIte]

theorem step_closing {tag : Tag} {frame : BlockFrame} {outer : BlockStack}
    (h : frame.block.tag.closing? = some tag.word) : step (frame :: outer) tag = some outer := by
  rw [step_dividing (dividesBlock_of_closing? h), if_pos h]

/-- An arm or an `else` leaves its block open, and remembers whether it was the `else`. -/
theorem step_within {tag : Tag} {frame : BlockFrame} {outer : BlockStack} {inElse : Bool}
    (h : elseBehind? frame.block.tag frame.inElse tag.word = some inElse) :
    step (frame :: outer) tag = some (⟨frame.block, inElse⟩ :: outer) := by
  obtain ⟨hdivides, hclosing⟩ := dividesBlock_of_elseBehind? h
  rw [step_dividing hdivides, if_neg hclosing, h]
  rfl

/-- The stack takes the step of a dividing tag exactly if the innermost block admits it. -/
theorem step_isSome_iff {tag : Tag} (h : tag.word.dividesBlock = true) (frame : BlockFrame)
    (outer : BlockStack) :
    (step (frame :: outer) tag).isSome = admits frame.block.tag frame.inElse tag.word := by
  rw [step_dividing h, admits]
  split
  next hclosing => simp [hclosing]
  next hclosing => simp [hclosing]

end BlockStack

end TextTemplate
