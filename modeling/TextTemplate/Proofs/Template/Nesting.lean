import TextTemplate.Proofs.Node.Nesting
import TextTemplate.Proofs.Template.Refusal
/-! # How deep parsed templates are nested

A source is parsed with so many levels to go, and every block, bracket and parenthesis leads to the
next. The tree that comes of it is not shaped like the source: a `case` becomes a branch that has
the subject in each of its conditions, some brackets become names, and some blocks leave only what
stands in them. Still no way down the tree leads through more levels than the source was allowed.
-/

namespace TextTemplate

namespace Grammar

open Fragment

/-- What holds of each item as it is read holds of all items. -/
theorem Items.forall_mem {α : Type} {R : Reading α} {P : α → Prop} {tokens : List Token}
    {items : List α} (h : Items R tokens items) (hR : ∀ tokens item, R tokens item → P item) :
    ∀ item ∈ items, P item := by
  induction h with
  | nil => nofun
  | cons first more ih => exact List.forall_mem_cons.mpr ⟨hR _ _ first, ih⟩

/-- Expressions of this kind have at most `budget` levels. -/
def BoundedAt (budget : Nat) (reading : Reading Expr) : Prop :=
  ∀ tokens expr, reading tokens expr → Within budget (.expr expr)

section Expression

variable {budget : Nat} {primary : Reading Expr} {tokens : List Token}

theorem BoundedAt.behind (h : BoundedAt budget primary) (kinds : List TokenKind) :
    BoundedAt budget (Behind kinds primary) := by
  rintro tokens expr ⟨-, hrest⟩
  exact h _ _ hrest

theorem Arguments.within {args : List Expr} (h : Arguments primary tokens args)
    (hprimary : BoundedAt budget primary) : ∀ arg ∈ args, Within budget (.expr arg) := by
  cases h with
  | absent => nofun
  | present kind first more =>
      exact List.forall_mem_cons.mpr ⟨hprimary _ _ first, more.forall_mem (hprimary.behind _)⟩

theorem BoundedAt.filtered (h : BoundedAt budget primary) :
    BoundedAt budget (Filtered primary) := by
  intro tokens expr hexpr
  cases hexpr with
  | bare here => exact h _ _ here
  | chain here filters ne_nil =>
      refine within_filtered (h _ _ here) (filters.forall_mem ?_)
      rintro _ call ⟨-, ⟨-, hargs⟩⟩
      exact hargs.within h

theorem BoundedAt.comparison (h : BoundedAt budget primary) :
    BoundedAt budget (Comparison primary) := by
  intro tokens expr hexpr
  cases hexpr with
  | operand here => exact h.filtered _ _ here
  | compared first between second =>
      exact within_binary _ (h.filtered _ _ first) (h.filtered _ _ second)

theorem BoundedAt.chain {word : Keyword} {op : BinaryOp} (h : BoundedAt budget primary) :
    BoundedAt budget (Chain word op primary) := by
  rintro tokens expr ⟨here, more, tree⟩
  obtain rfl := Expr.balanced_eq_iff.mpr tree
  have hothers := more.forall_mem (h.behind _)
  exact within_balanced op (List.forall_mem_cons.mpr ⟨h _ _ here, hothers⟩)

theorem BoundedAt.expression (h : BoundedAt budget primary) :
    BoundedAt budget (Expression primary) :=
  h.comparison.chain.chain

variable {inner? : Option (Reading Expr)}

/-- Where there is a next deeper level, one level of the budget is for going down to it. -/
inductive BoundedBelow : Nat → Option (Reading Expr) → Prop
  | bottom {budget : Nat} : BoundedBelow budget none
  | deeper {budget : Nat} {inner : Reading Expr} (h : BoundedAt budget inner) :
      BoundedBelow (budget + 1) (some inner)

/-- A step of a path stays within the budget. In brackets there is one level less for the
expression. -/
theorem BoundedBelow.step {segment : Segment} (h : BoundedBelow budget inner?)
    (hstep : Step inner? tokens segment) : Within budget (.segment segment) := by
  cases hstep with
  | field kind word => exact .plain rfl nofun
  | index kind digits written => exact .plain rfl nofun
  | bracket inner?_eq kind here closes denotes =>
      obtain rfl := Parser.bracketSegment_eq_iff.mpr denotes
      subst inner?_eq
      cases h with
      | deeper hprimary => exact within_bracketSegment (hprimary.expression _ _ here)

/-- A primary expression stays within the budget. A range has one level less for its bounds. -/
theorem BoundedBelow.primaryWith (h : BoundedBelow budget inner?) :
    BoundedAt budget (PrimaryWith inner?) := by
  intro tokens expr hexpr
  cases hexpr with
  | string kind => exact within_literal _
  | number kind denotes => exact within_literal _
  | true kind => exact within_literal _
  | false kind => exact within_literal _
  | nil kind => exact within_literal _
  | range inner?_eq kind lower between upper closes =>
      subst inner?_eq
      cases h with
      | deeper hprimary => exact within_range (hprimary _ _ lower) (hprimary _ _ upper)
  | path kind more =>
      have hsteps := more.forall_mem fun _ _ hstep => h.step hstep
      exact within_path (List.forall_mem_cons.mpr ⟨.plain rfl nofun, hsteps⟩)

/-- Primary expressions have no more levels than the grammar goes down. -/
theorem boundedAt_primary (depth : Nat) : BoundedAt depth (Primary depth) := by
  induction depth with
  | zero => exact BoundedBelow.bottom.primaryWith
  | succ depth ih => exact (BoundedBelow.deeper ih).primaryWith

end Expression

/-- Nodes of this kind have at most `budget` levels. -/
def NodesWithin (budget : Nat) (layout : Layout) : Prop :=
  ∀ tokens nodes survey, layout tokens nodes survey → ∀ node ∈ nodes, Within budget (.node node)

section Blocks

variable {budget : Nat} {primary : Reading Expr} {body : Layout} {tokens : List Token}
  {survey : Survey}

/-- The values of loop parameters, whichever of them count. -/
theorem Parameters.within {settings : Settings} (h : Parameters primary tokens settings survey)
    (hprimary : BoundedAt budget primary) :
    ∀ expr ∈ settings.limit?.toList ++ settings.offset?.toList, Within budget (.expr expr) := by
  induction h with
  | done close_end => nofun
  | reversed kind text more ih => exact ih
  | limit named here more last ih =>
      rw [last] at ih
      exact List.forall_mem_cons.mpr ⟨hprimary _ _ here, ih⟩
  | offset named here more last ih =>
      have hlimit := (List.forall_mem_append.mp ih).1
      exact List.forall_mem_append.mpr
        ⟨hlimit, List.forall_mem_singleton.mpr (hprimary _ _ here)⟩
  | overridden named here more again ih => exact ih

/-- The header of a loop stays within the budget. -/
theorem Header.within {position : Position} {header : LoopHeader}
    (h : Header primary position tokens header survey) (hprimary : BoundedAt budget primary) :
    ∀ expr ∈ header.exprs, Within budget (.expr expr) := by
  obtain ⟨-, -, here, parameters⟩ := h
  have hparameters := parameters.within hprimary
  rw [Settings.applyTo, LoopHeader.exprs, Option.or_none, Option.or_none]
  exact List.forall_mem_cons.mpr ⟨hprimary _ _ here, hparameters⟩

theorem BoundedAt.whenTag {subject : Expr} (h : BoundedAt budget primary)
    (hsubject : Within budget (.expr subject)) : BoundedAt budget (When primary subject) := by
  rintro tokens guard ⟨here, more, tree⟩
  obtain rfl := Expr.balanced_eq_iff.mpr tree
  have hequal : ∀ value, Within budget (.expr value) →
      Within budget (.expr (.binary .eq subject value)) :=
    fun value hvalue => within_binary .eq hsubject hvalue
  have hothers : ∀ operand ∈ _, Within budget (.expr operand) := List.forall_mem_map.mpr
    fun value hvalue => hequal value (more.forall_mem (h.behind _) value hvalue)
  exact within_balanced .or (List.forall_mem_cons.mpr ⟨hequal _ (h _ _ here), hothers⟩)

/-- Arms stay within the budget of the block that they are in. -/
theorem Arms.within {word : Keyword} {condition : Reading Expr} {arms : List Arm}
    (h : Arms word condition body tokens arms survey) (hcondition : BoundedAt budget condition)
    (hbody : NodesWithin budget body) :
    ∀ arm ∈ arms, ∀ fragment ∈ arm.fragments, Within budget fragment := by
  induction h with
  | nil => nofun
  | cons tag here close_end inside more ih =>
      refine List.forall_mem_cons.mpr ⟨?_, ih⟩
      have hinside := List.forall_mem_map.mpr (hbody _ _ _ inside)
      exact List.forall_mem_cons.mpr ⟨hcondition _ _ here, hinside⟩

theorem NodesWithin.succ (h : NodesWithin budget body) : NodesWithin (budget + 1) body :=
  fun _ _ _ hbody node hnode => (h _ _ _ hbody node hnode).succ

theorem NodesWithin.closing {word : Keyword} (h : NodesWithin budget body) :
    NodesWithin budget (Closing word body) := by
  intro tokens nodes survey hclosing
  cases hclosing with
  | plain tag => nofun
  | otherwise tag close_end inside closing => exact h _ _ _ inside

/-- A branch takes one level, for all its bodies. -/
theorem NodesWithin.branch {word : Keyword} {negate : Bool} {position : Position}
    (h : NodesWithin budget body) (hprimary : BoundedAt budget primary) :
    NodesWithin (budget + 1) (Branch primary body word negate position) := by
  rintro tokens nodes survey ⟨here, close_end, inside, others, closing⟩
  have hcondition := hprimary.expression _ _ here
  have harms := others.within hprimary.expression h
  have hotherwise := h.closing _ _ _ closing
  refine List.forall_mem_singleton.mpr (within_branch ?_ (h _ _ _ inside) harms hotherwise)
  cases negate with
  | false => exact hcondition
  | true => exact within_not hcondition

/-- A block makes a level, or leaves nothing but nodes of the next deeper one. -/
theorem NodesWithin.block {inner : Level} {block : Parser.OpenBlock}
    (h : NodesWithin budget inner.body) (hprimary : BoundedAt budget inner.primary) :
    NodesWithin (budget + 1) (Block inner block) := by
  intro tokens nodes survey hblock
  cases hblock with
  | forTag here inside closing =>
      have hotherwise := h.closing _ _ _ closing
      exact List.forall_mem_singleton.mpr
        (within_loop (here.within hprimary) (h _ _ _ inside) hotherwise)
  | ifTag branch => exact h.branch hprimary _ _ _ branch
  | unlessTag branch => exact h.branch hprimary _ _ _ branch
  | caseTag here close_end inside others closing =>
      -- The subject stands in every arm; it is as deep there as it is behind the tag.
      have hsubject := hprimary.expression _ _ here
      have harms := others.within (hprimary.whenTag hsubject) h
      obtain ⟨harm, harms⟩ := List.forall_mem_cons.mp harms
      obtain ⟨hcondition, hbody⟩ := List.forall_mem_cons.mp harm
      exact List.forall_mem_singleton.mpr
        (within_branch hcondition (List.forall_mem_map.mp hbody) harms (h.closing _ _ _ closing))
  | armless here close_end inside closing => exact h.closing.succ _ _ _ closing
  | capture kind close_end inside closing =>
      exact List.forall_mem_singleton.mpr (within_capture (h _ _ _ inside))
  | comment close_end inside closing => nofun
  | raw close_end inside closing => exact h.succ _ _ _ inside

/-- Pieces stay within the budget if blocks stay within one level less. -/
theorem NodesWithin.pieces {inner? : Option Level} (hprimary : BoundedAt budget primary)
    (hinner : ∀ inner, inner? = some inner → ∃ below, budget = below + 1 ∧
      BoundedAt below inner.primary ∧ NodesWithin below inner.body) :
    NodesWithin budget (Pieces primary inner?) := by
  intro tokens nodes survey h
  induction h with
  | nil => nofun
  | cons first more ih =>
      refine List.forall_mem_append.mpr ⟨?_, ih⟩
      cases first with
      | text kind => exact List.forall_mem_singleton.mpr (.plain rfl nofun)
      | output kind here closes =>
          have hexpr := hprimary.expression _ _ here
          exact List.forall_mem_singleton.mpr (.plain rfl (List.forall_mem_singleton.mpr hexpr))
      | assign tag kind sign_kind here close_end =>
          have hexpr := hprimary.expression _ _ here
          exact List.forall_mem_singleton.mpr (.plain rfl (List.forall_mem_singleton.mpr hexpr))
      | block inner?_eq tag here =>
          obtain ⟨below, rfl, hbelow, hbody⟩ := hinner _ inner?_eq
          exact hbody.block hbelow _ _ _ here

/-- Nodes have no more levels than the layout goes down. -/
theorem nodesWithin_nodes (depth : Nat) : NodesWithin depth (Nodes depth) := by
  induction depth with
  | zero =>
      refine NodesWithin.pieces (boundedAt_primary 0) ?_
      intro inner hnone
      cases hnone
  | succ depth ih =>
      refine NodesWithin.pieces (boundedAt_primary (depth + 1)) ?_
      intro inner hsome
      cases hsome
      exact ⟨depth, rfl, boundedAt_primary depth, ih⟩

end Blocks

end Grammar

/-- On no way down from a node of a parsed template are there more levels than the options allow. -/
theorem parseTemplate_levels {source : String} {options : RenderOptions} {nodes : List Node}
    (hparse : parseTemplate source options = .ok nodes) {top : Node} (htop : top ∈ nodes)
    {way : List Fragment} (hway : Fragment.IsWayDown (.node top :: way)) :
    Fragment.levels (.node top :: way) ≤ options.maxNestingDepth := by
  obtain ⟨survey, hnodes⟩ := exists_survey (parseTemplate_eq_ok hparse).1
  have hwithin := Grammar.nodesWithin_nodes options.maxNestingDepth _ _ _ hnodes top htop
  exact hwithin.levels_le hway

/-- A `case` with a lookup and a range in its subject needs the three levels that it is allowed. -/
theorem parseTemplate_levels_case :
    let source := "{% case a[(1..b)] %}{% when c %}{% endcase %}"
    let range : Expr :=
      .range (.literal (Value.ofInt 1)) (.path [.field "b"]) ⟨1, 11, 10⟩
    let subject : Expr := .path [.field "a", .lookup range]
    let condition : Expr := .binary .eq subject (.path [.field "c"])
    let top : Node := .branch condition [] [] [] ⟨1, 21, 20⟩
    let way : List Fragment :=
      [.expr condition, .expr subject, .segment (.lookup range), .expr range]
    parseTemplate source { maxNestingDepth := 3 } = .ok [top] ∧
      Fragment.IsWayDown (.node top :: way) ∧ Fragment.levels (.node top :: way) = 3 ∧
      Fragment.levels (.node top :: way) ≤ 3 := by
  intro source range subject condition top way
  have hparse : parseTemplate source { maxNestingDepth := 3 } = .ok [top] :=
    parseTemplate_of_known (by decide +kernel) rfl
  have hway : Fragment.IsWayDown (.node top :: way) := by
    simp [Fragment.IsWayDown, Fragment.children, top, way, condition, subject]
  exact ⟨hparse, hway, rfl, parseTemplate_levels hparse (List.mem_singleton_self top) hway⟩

end TextTemplate
