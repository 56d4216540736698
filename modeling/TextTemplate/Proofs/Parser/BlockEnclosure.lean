import TextTemplate.Proofs.Parser.BlockAgreement
import TextTemplate.Proofs.Parser.Enclosure
/-! # The parser between tags

The parsers of blocks lead from the place behind one tag to the place behind another. A part of a
block ends in a tag of which the first word is taken, so what comes behind it begins in that tag.
-/

namespace TextTemplate.Parser

variable {cursor : Cursor} {primary : Parser Expr} {inner : Inner} {inner? : Option Inner}
  {block : OpenBlock} {word closing : Keyword} {ending : EndTag} {accepts : List Keyword}
  {limit : Nat} {position : Position} {name : String}

/-- In a logic tag, up to its end. -/
def EndsTag {α : Type} (p : Parser α) : Prop := Leads (.within .logic) p fun _ => .between false

/-- In a logic tag, up to a place in another one. -/
def SkipsTags {α : Type} (p : Parser α) : Prop := Leads (.within .logic) p fun _ => .within .logic

/-- The parsers of a level lead from tag to tag. -/
structure LeadsLevel (inner : Inner) : Prop where
  primary : StaysWithin inner.primary
  body : ∀ block accepts,
    Leads (.between false) (inner.body block accepts) fun _ => .within .logic

section Tags

theorem endsTag_closeTag : EndsTag closeTag :=
  (leads_expect_closing (by decide)).bind fun _ => leads_pure rfl

theorem StaysWithin.assignTag (h : StaysWithin primary) :
    EndsTag (assignTag primary position) := by
  apply (staysWithin_expect rfl (by decide) _).bind
  intro name
  apply (staysWithin_expect rfl (by decide) _).bind
  intro _
  apply (h.expression _).bind
  intro expr
  exact endsTag_closeTag.bind fun _ => leads_pure rfl

/-- There is more fuel than tokens, so the parameters go up to the end of the tag. -/
theorem StaysWithin.loopParameters (h : StaysWithin primary) {fuel : Nat} (header : LoopHeader)
    (hcursor : IsAt cursor (.within .logic)) (hfuel : cursor.tokens.length < fuel) :
    LeadsFrom cursor (loopParameters primary fuel header) fun _ => .between false := by
  induction fuel generalizing cursor header with
  | zero => exact absurd hfuel (Nat.not_lt_zero _)
  | succ fuel ih =>
      have hvalue : ∀ (f : Expr → LoopHeader) (next : Cursor), next.tokens.length < fuel →
          IsAt next (.within .logic) →
          LeadsFrom next
            (do
              let _ ← expect .colon .colon
              let value ← primary
              Parser.loopParameters primary fuel (f value))
            fun _ => .between false := by
        intro f next hnext hat
        apply (staysWithin_expect rfl (by decide) _ next hat).bind
        intro _ middle hmiddle hat
        apply (h _ middle hat).bind
        intro value last hlast hat
        exact ih (f value) hat (by have := hmiddle.length_le; have := hlast.length_le; omega)
      apply leadsFrom_take_bind hcursor
      · intro token next hkind hlength hat
        have hnext : next.tokens.length < fuel := by omega
        split
        next hclose =>
          rw [hclose] at hkind
          cases hkind
        split
        · exact ih _ hat hnext
        split
        · exact hvalue _ next hnext hat
        split
        · exact hvalue _ next hnext hat
        · exact leads_unexpected (by decide) next hat
      · intro token hkind
        have hclose : token.kind = .tagClose := hkind
        rw [if_pos hclose]
        exact leads_pure rfl

/-- The header of a loop ends its tag. -/
theorem StaysWithin.loopHeader (h : StaysWithin primary) :
    EndsTag (loopHeader primary position) := by
  apply (staysWithin_expect rfl (by decide) _).bind
  intro name
  apply (staysWithin_expect rfl (by decide) _).bind
  intro _
  apply (h _).bind
  intro iterable cursor hcursor
  apply leadsFrom_remaining_bind
  exact h.loopParameters _ hcursor (length_lt_fuel cursor)

end Tags

/-! ## Blocks -/

section Blocks

/-- An `else`, if there is one, is followed by a body and the closing tag. -/
theorem LeadsLevel.elsePart (h : LeadsLevel inner) :
    EndsTag (elsePart inner block closing ending) := by
  unfold Parser.elsePart
  split
  · apply endsTag_closeTag.bind
    intro _
    apply (h.body block [closing]).bind
    intro result
    exact endsTag_closeTag.bind fun _ => leads_pure rfl
  · exact endsTag_closeTag.bind fun _ => leads_pure rfl

/-- Arms lead from the end of one tag to the end of the next. -/
theorem LeadsLevel.arms (h : LeadsLevel inner) {condition : Parser Expr}
    (hcondition : StaysWithin condition) (fuel : Nat) (ending : EndTag) :
    SkipsTags (arms inner block word condition accepts fuel ending) := by
  induction fuel generalizing ending with
  | zero => exact leads_pure rfl
  | succ fuel ih =>
      unfold Parser.arms
      split
      · apply (hcondition _).bind
        intro guard
        apply endsTag_closeTag.bind
        intro _
        apply (h.body block accepts).bind
        intro result
        exact (ih result.2).bind fun _ => leads_pure rfl
      · exact leads_pure rfl

/-- The arms behind a part of a block, and what follows them. -/
theorem LeadsLevel.armsThen {α : Type} (h : LeadsLevel inner) {condition : Parser Expr}
    (hcondition : StaysWithin condition) {f : List Arm → List Node → α} :
    EndsTag
      (do
        let (arms, last) ←
          Parser.arms inner block word condition accepts ((← remaining) + 1) ending
        let otherwise ← Parser.elsePart inner block closing last
        pure (f arms otherwise)) := by
  intro cursor hcursor
  apply leadsFrom_remaining_bind
  apply (h.arms hcondition _ ending cursor hcursor).bind
  rintro ⟨arms, last⟩ next _ hnext
  refine Leads.bind h.elsePart ?_ next hnext
  intro otherwise
  exact leads_pure rfl

theorem LeadsLevel.branchBlock (h : LeadsLevel inner) {negate : Bool} :
    EndsTag (branchBlock inner block closing negate) := by
  apply (h.primary.expression _).bind
  intro condition
  apply endsTag_closeTag.bind
  intro _
  apply (h.body block _).bind
  intro result
  exact h.armsThen h.primary.expression
    (f := fun arms otherwise =>
      let guard := if negate then .not condition else condition
      Node.branch guard result.1 arms otherwise block.position)

theorem LeadsLevel.caseBlock (h : LeadsLevel inner) : EndsTag (caseBlock inner block) := by
  apply (h.primary.expression _).bind
  intro subject
  apply endsTag_closeTag.bind
  intro _
  apply (h.body block _).bind
  intro result
  exact h.armsThen (h.primary.whenCondition subject) (f := caseNodes)

theorem LeadsLevel.loopBlock (h : LeadsLevel inner) : EndsTag (loopBlock inner block) := by
  apply h.primary.loopHeader.bind
  intro header
  apply (h.body block _).bind
  intro result
  exact h.elsePart.bind fun _ => leads_pure rfl

theorem LeadsLevel.captureBlock (h : LeadsLevel inner) : EndsTag (captureBlock inner block) := by
  apply (staysWithin_expect rfl (by decide) _).bind
  intro name
  apply endsTag_closeTag.bind
  intro _
  apply (h.body block _).bind
  intro result
  exact endsTag_closeTag.bind fun _ => leads_pure rfl

theorem LeadsLevel.verbatimBlock (h : LeadsLevel inner) :
    EndsTag (verbatimBlock inner block closing) := by
  apply endsTag_closeTag.bind
  intro _
  apply (h.body block _).bind
  intro result
  exact endsTag_closeTag.bind fun _ => leads_pure rfl

/-- Each block goes on to the end of its closing tag. -/
theorem LeadsLevel.openedBlock (h : LeadsLevel inner) {parse : Inner → Parser (List Node)}
    (hparse : block? block = some parse) : EndsTag (parse inner) := by
  unfold block? at hparse
  split at hparse <;> cases hparse
  · exact h.loopBlock.bind fun _ => leads_pure rfl
  · exact h.branchBlock.bind fun _ => leads_pure rfl
  · exact h.branchBlock.bind fun _ => leads_pure rfl
  · exact h.caseBlock
  · exact h.captureBlock.bind fun _ => leads_pure rfl
  · exact h.verbatimBlock.bind fun _ => leads_pure rfl
  · exact h.verbatimBlock

/-- A tag is read to its own end, and a block to the end of its closing tag. -/
theorem StaysWithin.tag (h : StaysWithin primary)
    (hinner : ∀ inner, inner? = some inner → LeadsLevel inner) :
    EndsTag (tag limit primary inner? word name position) := by
  unfold Parser.tag
  split
  · exact h.assignTag.bind fun _ => leads_pure rfl
  split
  · exact leads_fail rfl
  next parse hparse =>
    exact leads_nested fun inner hlevel => (hinner inner hlevel).openedBlock hparse

end Blocks

/-! ## Texts and tags -/

/-- Where a round of parsing nodes leads. -/
def Item.place : Item → StreamPlace
  | .ending _ => .within .logic
  | .nodes _ | .finished => .between false

/-- Where some rounds lead, with the tag that ended them. -/
def placeBehind (ending? : Option EndTag) : StreamPlace :=
  if ending?.isSome then .within .logic else .between false

/-- Between tags, the next token is a text or opens a tag. -/
theorem leads_advance_between {β : Type} {f : Option Token → Parser β} {target : β → StreamPlace}
    (hnone : Leads (.between false) (f none) target)
    (htext : ∀ token, token.kind = .literal → Leads (.between false) (f (some token)) target)
    (hopening : ∀ token delimiter, token.kind = delimiter.openKind →
      Leads (.within delimiter) (f (some token)) target) :
    Leads (.between false) (advance? >>= f) target := by
  intro cursor hcursor
  have henclosed := hcursor.enclosed
  cases htokens : cursor.tokens with
  | nil =>
      cases hfailure : cursor.failure? with
      | none =>
          refine (hnone cursor hcursor).lift ?_ (List.suffix_refl _)
          rw [bind_apply, advance?_nil htokens, hfailure]
          rfl
      | some failure =>
          refine leadsFrom_error ?_ (hcursor.ordinary failure hfailure)
          rw [bind_apply, advance?_nil htokens, hfailure]
          rfl
  | cons token rest =>
      rw [htokens] at henclosed
      cases henclosed with
      | text kind more =>
          -- Whether the text is the last thing before a tag does not matter to the parser.
          apply leadsFrom_advance_cons hcursor htokens (more.of_behindText false)
          intro next _ hat
          exact htext token kind next hat
      | opening kind more =>
          apply leadsFrom_advance_cons hcursor htokens more
          intro next _ hat
          exact hopening token _ kind next hat

section Nodes

variable {block? : Option OpenBlock}

/-- A tag behind its opening delimiter, by its first word. -/
theorem StaysWithin.tagItem (h : StaysWithin primary)
    (hinner : ∀ inner, inner? = some inner → LeadsLevel inner) (opening : Token) :
    Leads (.within .logic)
      (take .tagName >>= tagItem limit primary inner? block? accepts opening) Item.place := by
  apply leads_take_bind
  · intro token _
    unfold Parser.tagItem
    split
    · split
      · split
        · exact leads_pure rfl
        · exact leads_fail rfl
      · exact (h.tag hinner).bind fun _ => leads_pure rfl
    · exact leads_fail rfl
    · exact leads_unexpected (by decide)
  · intro token hkind
    simp only [Parser.tagItem, hkind, Delimiter.closeKind]
    exact leads_unexpected (by decide)

/-- An item starts between tags and ends there, unless it is a tag that ends a block. -/
theorem StaysWithin.item (h : StaysWithin primary)
    (hinner : ∀ inner, inner? = some inner → LeadsLevel inner) :
    Leads (.between false) (item limit primary inner? block? accepts) Item.place := by
  apply leads_advance_between
  · exact leads_pure rfl
  · intro token hkind
    simp only [hkind]
    exact leads_pure rfl
  · intro token delimiter hkind
    cases delimiter with
    | output =>
        simp only [hkind, Delimiter.openKind]
        apply (h.expression _).bind
        intro expr
        exact (leads_expect_closing (by decide)).bind fun _ => leads_pure rfl
    | logic =>
        simp only [hkind, Delimiter.openKind]
        exact h.tagItem hinner token

/-- Items go on between tags, until the source or the block ends. -/
theorem leads_nodesUpTo {round : Parser Item} (h : Leads (.between false) round Item.place)
    (fuel : Nat) :
    Leads (.between false) (nodesUpTo round fuel) fun result => placeBehind result.2 := by
  induction fuel with
  | zero => exact leads_pure rfl
  | succ fuel ih =>
      apply h.bind
      intro item
      cases item with
      | finished => exact leads_pure rfl
      | ending tag => exact leads_pure rfl
      | nodes nodes => exact ih.bind fun _ => leads_pure rfl

theorem StaysWithin.nodes (h : StaysWithin primary)
    (hinner : ∀ inner, inner? = some inner → LeadsLevel inner) :
    Leads (.between false) (nodes limit primary inner? block? accepts)
      fun result => placeBehind result.2 := by
  intro cursor hcursor
  apply leadsFrom_remaining_bind
  exact leads_nodesUpTo (h.item hinner) _ cursor hcursor

/-- The body of a block is read up to the word of the tag behind it. -/
theorem StaysWithin.bodyWith (h : StaysWithin primary)
    (hinner : ∀ inner, inner? = some inner → LeadsLevel inner) (block : OpenBlock) :
    Leads (.between false) (bodyWith limit primary inner? block accepts)
      fun _ => .within .logic := by
  apply (h.nodes hinner).bind
  rintro ⟨nodes, ending?⟩
  cases ending? with
  | some ending => exact leads_pure rfl
  | none => exact leads_fail rfl

end Nodes

/-- The parsers of every level lead from tag to tag. -/
theorem leadsLevel_inner? (limit budget : Nat) {inner : Inner}
    (h : Parser.inner? limit budget = some inner) : LeadsLevel inner := by
  induction budget generalizing inner with
  | zero => cases h
  | succ budget ih =>
      cases h
      refine ⟨staysWithin_primary limit budget, ?_⟩
      intro block accepts
      have hbody : Leads (.between false)
          (bodyWith limit (Parser.primary limit budget) (Parser.inner? limit budget) block accepts)
          fun _ => .within .logic :=
        (staysWithin_primary limit budget).bodyWith (fun _ => ih) block
      cases budget with
      | zero => exact hbody
      | succ budget => exact hbody

/-- The parser of a whole source that begins where text may stand ends in no error but an ordinary
one. -/
theorem isOrdinary_template_error {limit : Nat} {error : SyntaxError}
    (hcursor : IsAt cursor (.between false)) (herror : template limit cursor = .error error) :
    error.cause.isOrdinary = true := by
  have htemplate : Leads (.between false)
      (nodes limit (Parser.primary limit limit) (Parser.inner? limit limit) none [])
      fun result => placeBehind result.2 :=
    (staysWithin_primary limit limit).nodes fun _ => leadsLevel_inner? limit limit
  rcases bind_eq_error herror with hnodes | ⟨result, next, -, hrest⟩
  · exact (htemplate cursor hcursor).error error hnodes
  · cases hrest

end TextTemplate.Parser
