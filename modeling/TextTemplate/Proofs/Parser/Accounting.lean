import TextTemplate.Proofs.Parser.Layout
/-! # The survey of a template

The survey of a layout accounts for every filter name of its tokens, and the search of its nodes
reports the first unknown one that the survey has as checked. There is one lemma for each relation
of the layout, over the insides of blocks, and the induction on the depth comes last.
-/

namespace TextTemplate.Grammar

open TextTemplate.Parser (EndTag)

/-- The surveys of a layout account for its tokens. -/
def AccountsFor (body : Layout) : Prop :=
  ∀ {tokens nodes survey}, body tokens nodes survey →
    Accounts tokens (nodes.findSome? Node.unknownFilter?) survey

theorem TagStart.accounts {tag : EndTag} {tokens : List Token} (h : TagStart tag tokens) :
    Accounts tokens none .empty := by
  obtain ⟨kind, -, word⟩ := h
  exact .of_no_bar (by simp [kind, word])

theorem TagEnd.accounts {tokens : List Token} (h : TagEnd tokens) :
    Accounts tokens none .empty := by
  obtain ⟨kind⟩ := h
  exact .of_no_bar (by simp [kind])

theorem ClosingTag.accounts {word : Keyword} {tokens : List Token} (h : ClosingTag word tokens) :
    Accounts tokens none .empty := by
  obtain ⟨tag, close_end⟩ := h
  exact tag.accounts.append close_end.accounts

theorem Named.accounts {name : String} {tokens : List Token} (h : Named name tokens) :
    Accounts tokens none .empty := by
  obtain ⟨kind, -, colon_kind⟩ := h
  exact .of_no_bar (by simp [kind, colon_kind])

section Parts

variable {primary : Reading Expr} {body : Layout} {tokens : List Token} {survey : Survey}

/-- The limit is searched before the offset, and both before what they stand in front of. -/
theorem Parameters.accounts {settings : Settings} (hprimary : NamesInOrder primary)
    (h : Parameters primary tokens settings survey) :
    Accounts tokens ((settings.limit?.bind Expr.unknownFilter?).or
      (settings.offset?.bind Expr.unknownFilter?)) survey := by
  induction h with
  | done close_end => exact close_end.accounts
  | reversed kind text more ih => exact ih.cons _ (by simp [kind])
  | limit named here more last ih =>
      have hvalue := Accounts.of_findsFirst (hprimary here)
      simpa [last] using named.accounts.append (hvalue.append ih)
  | offset named here more last ih =>
      have hvalue := Accounts.of_findsFirst (hprimary here)
      simpa [last] using named.accounts.append (hvalue.overtake ih)
  | overridden named here more again ih =>
      have hvalue := (Accounts.of_findsFirst (hprimary here)).discard
      simpa using named.accounts.append (hvalue.append ih)

/-- The header of a loop is accounted for. A limit overtakes an offset in front of it, and what a
repeated parameter replaces is discarded. -/
theorem Header.accounts {position : Position} {header : LoopHeader}
    (hprimary : NamesInOrder primary) (h : Header primary position tokens header survey) :
    Accounts tokens header.unknownFilter? survey := by
  obtain ⟨kind, word_kind, here, parameters⟩ := h
  rename_i name word head rest iterable settings survey
  have hiterable := Accounts.of_findsFirst (hprimary here)
  have htag := hiterable.append (parameters.accounts hprimary)
  have hword := htag.cons word (by simp [word_kind])
  have hname := hword.cons name (by simp [kind])
  simpa [LoopHeader.unknownFilter?_eq, Settings.applyTo] using hname

/-- The subject of a `case` is searched before each value it is compared with. -/
theorem When.finds {subject guard : Expr} (hprimary : NamesInOrder primary)
    (h : When primary subject tokens guard) : ∃ found?, FindsFirst tokens found? ∧
      guard.unknownFilter? = subject.unknownFilter?.or found? := by
  obtain ⟨here, more, tree⟩ := h
  obtain rfl := Expr.balanced_eq_iff.mpr tree
  refine ⟨_, (hprimary here).append (more.findsFirst_behind (by simp) hprimary), ?_⟩
  rw [Expr.unknownFilter?_balanced, findSome?_cons_eq_or, Expr.unknownFilter?_binary,
    List.findSome?_map]
  cases hsubject : subject.unknownFilter? with
  | none => simp [Function.comp_def, hsubject]
  | some call => rfl

/-- What the search finds in the conditions of arms: it begins with what it finds in the subject. -/
def FindsBehind (subject? : Option FilterCall) (condition : Reading Expr) : Prop :=
  ∀ {tokens guard}, condition tokens guard → ∃ found?, FindsFirst tokens found? ∧
    guard.unknownFilter? = subject?.or found?

theorem findsBehind_none {condition : Reading Expr} (h : NamesInOrder condition) :
    FindsBehind none condition := fun hguard => ⟨_, h hguard, rfl⟩

variable {word : Keyword} {condition : Reading Expr} {subject? : Option FilterCall}

/-- Arms are accounted for in order. Where their conditions carry a subject along, its filters come
first in each of them. -/
theorem Arms.accounts {arms : List Arm} (hcondition : FindsBehind subject? condition)
    (hbody : AccountsFor body) (h : Arms word condition body tokens arms survey) :
    ∃ found?, Accounts tokens found? survey ∧
      subject?.or (arms.findSome? Arm.unknownFilter?) = subject?.or found? := by
  induction h with
  | nil => exact ⟨none, .of_no_bar (by simp), rfl⟩
  | cons tag here close_end inside more ih =>
      obtain ⟨found?, hguard, hfound⟩ := hcondition here
      obtain ⟨found?', hrest, hfound'⟩ := ih
      have hinside := close_end.accounts.append ((hbody inside).append hrest)
      have hall := tag.accounts.append ((Accounts.of_findsFirst hguard).append hinside)
      refine ⟨_, hall, ?_⟩
      rw [findSome?_cons_eq_or, Arm.unknownFilter?, hfound, unknownFilterInNodes?_eq]
      cases subject? with
      | none =>
          rw [Option.none_or, Option.none_or] at hfound'
          simp [hfound', Option.or_assoc]
      | some call => rfl

/-- If there is an arm, its condition has the subject in it. -/
theorem Arms.found_cons {arm : Arm} {arms : List Arm} (hcondition : FindsBehind subject? condition)
    (h : Arms word condition body tokens (arm :: arms) survey) :
    subject?.or ((arm :: arms).findSome? Arm.unknownFilter?) =
      (arm :: arms).findSome? Arm.unknownFilter? := by
  cases h with
  | cons tag here close_end inside more =>
      obtain ⟨found?, -, hfound⟩ := hcondition here
      rw [findSome?_cons_eq_or, Arm.unknownFilter?, hfound]
      cases subject? <;> rfl

theorem Closing.accounts {nodes : List Node} (hbody : AccountsFor body)
    (h : Closing word body tokens nodes survey) :
    Accounts tokens (nodes.findSome? Node.unknownFilter?) survey := by
  cases h with
  | plain tag => exact tag.accounts
  | otherwise tag close_end inside closing =>
      have hinside := (hbody inside).append closing.accounts
      simpa using tag.accounts.append (close_end.accounts.append hinside)

/-- A branch is accounted for by its condition, its body, its arms and what stands behind `else`. -/
theorem Branch.accounts {negate : Bool} {position : Position} (hprimary : NamesInOrder primary)
    (hbody : AccountsFor body) : AccountsFor (Branch primary body word negate position) := by
  intro tokens nodes survey h
  obtain ⟨here, close_end, inside, others, closing⟩ := h
  have hexpression : NamesInOrder (Expression primary) := namesInOrder_expression hprimary
  obtain ⟨found?, harms, hfound⟩ := others.accounts (findsBehind_none hexpression) hbody
  have hinside := (hbody inside).append (harms.append (closing.accounts hbody))
  have hhead := Accounts.of_findsFirst (hexpression here)
  have hall := hhead.append (close_end.accounts.append hinside)
  rw [Option.none_or, Option.none_or] at hfound
  cases negate <;> simpa [hfound, findSome?_cons_eq_or] using hall

/-- Every block is accounted for. The content of a comment is discarded, and so is the subject of a
`case` without arms. -/
theorem Block.accounts {inner : Level} {block : Parser.OpenBlock}
    (hprimary : NamesInOrder inner.primary) (hbody : AccountsFor inner.body) :
    AccountsFor (Block inner block) := by
  intro tokens nodes survey h
  have hexpression : NamesInOrder (Expression inner.primary) := namesInOrder_expression hprimary
  cases h with
  | forTag here inside closing =>
      have hinside := (hbody inside).append (closing.accounts hbody)
      simpa [findSome?_cons_eq_or] using (here.accounts hprimary).append hinside
  | ifTag branch => exact branch.accounts hprimary hbody
  | unlessTag branch => exact branch.accounts hprimary hbody
  | caseTag here close_end inside others closing =>
      rename_i position head close tokens more rest subject arm arms dropped otherwise _ _ _
      have hwhen : FindsBehind subject.unknownFilter? (When inner.primary subject) :=
        fun hguard => hguard.finds hprimary
      obtain ⟨found?, harms, hfound⟩ := others.accounts hwhen hbody
      -- The subject counts once, although each condition has it.
      rw [others.found_cons hwhen] at hfound
      have hinside := (hbody inside).discard.append (harms.append (closing.accounts hbody))
      have hsubject := Accounts.of_findsFirst (hexpression here)
      have hbranch :
          Node.unknownFilter? (.branch arm.condition arm.body arms otherwise arm.position) =
          ((arm :: arms).findSome? Arm.unknownFilter?).or
            (otherwise.findSome? Node.unknownFilter?) := by
        rw [Node.unknownFilter?_branch, findSome?_cons_eq_or, Arm.unknownFilter?,
          unknownFilterInNodes?_eq, Option.or_assoc, Option.or_assoc]
      rw [findSome?_cons_eq_or, List.findSome?_nil, Option.or_none, hbranch, hfound,
        Option.or_assoc]
      simpa using hsubject.append (close_end.accounts.append hinside)
  | armless here close_end inside closing =>
      have hinside := (hbody inside).discard.append (closing.accounts hbody)
      have hsubject := (Accounts.of_findsFirst (hexpression here)).discard
      simpa using hsubject.append (close_end.accounts.append hinside)
  | capture kind close_end inside closing =>
      rename_i name close tokens rest nodes
      have hinside := close_end.accounts.append ((hbody inside).append closing.accounts)
      simpa [findSome?_cons_eq_or] using hinside.cons name (by simp [kind])
  | comment close_end inside closing =>
      have hinside := (hbody inside).discard.append closing.accounts
      simpa using close_end.accounts.append hinside
  | raw close_end inside closing =>
      have hinside := (hbody inside).append closing.accounts
      simpa using close_end.accounts.append hinside

/-- A piece is accounted for if the expressions and the blocks of the next level are. -/
theorem Piece.accounts {inner? : Option Level} (hprimary : NamesInOrder primary)
    (hinner : ∀ inner, inner? = some inner → NamesInOrder inner.primary ∧ AccountsFor inner.body) :
    AccountsFor (Piece primary inner?) := by
  intro tokens nodes survey h
  have hexpression : NamesInOrder (Expression primary) := namesInOrder_expression hprimary
  cases h with
  | text kind => exact .of_no_bar (by simp [kind])
  | output kind here closes =>
      rename_i opening closing tokens expr
      have hclosing : Accounts [closing] none .empty := .of_no_bar (by simp [closes])
      have hexpr := (Accounts.of_findsFirst (hexpression here)).append hclosing
      simpa [findSome?_cons_eq_or] using hexpr.cons opening (by simp [kind])
  | assign tag kind sign_kind here close_end =>
      rename_i position name sign start tokens close expr
      have hexpr := (Accounts.of_findsFirst (hexpression here)).append close_end.accounts
      have hsign := hexpr.cons sign (by simp [sign_kind])
      simpa [findSome?_cons_eq_or] using tag.accounts.append (hsign.cons name (by simp [kind]))
  | block inner?_eq tag here =>
      obtain ⟨hprimary', hbody⟩ := hinner _ inner?_eq
      simpa using tag.accounts.append (here.accounts hprimary' hbody)

/-- Pieces one after the other are accounted for in order. -/
theorem Pieces.accounts {inner? : Option Level} (hprimary : NamesInOrder primary)
    (hinner : ∀ inner, inner? = some inner → NamesInOrder inner.primary ∧ AccountsFor inner.body) :
    AccountsFor (Pieces primary inner?) := by
  intro tokens nodes survey h
  induction h with
  | nil => exact .of_no_bar (by simp)
  | cons first more ih =>
      rw [List.findSome?_append]
      exact (first.accounts hprimary hinner).append ih

end Parts

/-- The surveys of nodes account for their tokens, however deep blocks may be nested. -/
theorem Nodes.accounts (depth : Nat) : AccountsFor (Nodes depth) := by
  induction depth with
  | zero =>
      refine Pieces.accounts (namesInOrder_primary 0) ?_
      intro inner hnone
      cases hnone
  | succ depth ih =>
      refine Pieces.accounts (namesInOrder_primary (depth + 1)) ?_
      intro inner hsome
      cases hsome
      exact ⟨namesInOrder_primary depth, ih⟩

end TextTemplate.Grammar
