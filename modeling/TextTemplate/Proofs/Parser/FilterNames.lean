import TextTemplate.Proofs.Node.UnknownFilter
import TextTemplate.Proofs.Parser.Grammar
/-! # Filter names among the tokens

A filter is named by a word directly behind a bar. In the tokens of an expression these words come
in the order in which the expression is searched for unknown filters, so the first unknown one of
the tokens is the first unknown one of the expression.
-/

namespace TextTemplate

/-- The words directly behind a bar. -/
def filterNames : List Token → List Token
  | bar :: name :: rest =>
    if bar.kind = .pipe ∧ name.kind = .identifier then name :: filterNames (name :: rest)
    else filterNames (name :: rest)
  | _ => []

namespace Token

/-- The token is not the name of a filter. -/
def namesUnknown (token : Token) : Bool := (Filter.ofName? token.text).isNone

/-- The text of a token and its place. -/
def mark (token : Token) : String × Position := (token.text, token.position)

end Token

/-- The name of a filter call and its place. -/
def FilterCall.mark (call : FilterCall) : String × Position := (call.name, call.position)

/-- The first unknown filter that the tokens name. -/
def firstUnknown (tokens : List Token) : Option Token :=
  (filterNames tokens).find? Token.namesUnknown

/-- The tokens do not end in a bar. -/
def EndsClosed (tokens : List Token) : Prop :=
  ∀ token, tokens.getLast? = some token → token.kind ≠ .pipe

theorem EndsClosed.append {tokens rest : List Token} (h : EndsClosed tokens)
    (hrest : EndsClosed rest) : EndsClosed (tokens ++ rest) := by
  intro token hlast
  rw [List.getLast?_append] at hlast
  cases hrestlast : rest.getLast? with
  | none => exact h token (by simpa [hrestlast] using hlast)
  | some last => exact hrest token (by simpa [hrestlast] using hlast)

/-- Behind tokens that do not end in a bar, no word is a filter name because of them. -/
theorem filterNames_append {tokens rest : List Token} (h : EndsClosed tokens) :
    filterNames (tokens ++ rest) = filterNames tokens ++ filterNames rest := by
  induction tokens with
  | nil => rfl
  | cons bar tokens ih =>
      cases tokens with
      | nil =>
          have hbar : bar.kind ≠ .pipe := h bar rfl
          cases rest <;> simp [filterNames, hbar]
      | cons name tokens =>
          have htail := ih fun token hlast => h token (by rwa [List.getLast?_cons_cons])
          simp only [List.cons_append] at htail ⊢
          simp only [filterNames]
          split
          · rw [htail, List.cons_append]
          · exact htail

/-- No token names two filters, and the first token names none. -/
theorem filterNames_sublist_tail (tokens : List Token) :
    (filterNames tokens).Sublist tokens.tail := by
  induction tokens with
  | nil => exact .slnil
  | cons bar tokens ih =>
      cases tokens with
      | nil => exact .slnil
      | cons name tokens =>
          rw [filterNames]
          split
          · exact ih.cons_cons name
          · exact ih.cons name

theorem filterNames_sublist (tokens : List Token) : (filterNames tokens).Sublist tokens :=
  (filterNames_sublist_tail tokens).trans (List.tail_sublist tokens)

theorem filterNames_of_no_bar {tokens : List Token} (h : ∀ token ∈ tokens, token.kind ≠ .pipe) :
    filterNames tokens = [] := by
  induction tokens with
  | nil => rfl
  | cons bar tokens ih =>
      rw [List.forall_mem_cons] at h
      cases tokens with
      | nil => rfl
      | cons name tokens =>
          rw [filterNames, if_neg (fun hbar => h.1 hbar.1)]
          exact ih h.2

/-- The first unknown filter found in what the tokens stand for is the first that they name. -/
structure FindsFirst (tokens : List Token) (found? : Option FilterCall) : Prop where
  closed : EndsClosed tokens
  found : found?.map FilterCall.mark = (firstUnknown tokens).map Token.mark

/-- Tokens without a bar name no filter. -/
theorem findsFirst_of_no_bar {tokens : List Token} (h : ∀ token ∈ tokens, token.kind ≠ .pipe) :
    FindsFirst tokens none := by
  refine ⟨fun token hlast => h token (List.mem_of_getLast? hlast), ?_⟩
  rw [firstUnknown, filterNames_of_no_bar h]
  rfl

theorem findsFirst_singleton {token : Token} (h : token.kind ≠ .pipe) : FindsFirst [token] none :=
  findsFirst_of_no_bar (by simpa using h)

/-- The first unknown filter of two runs of tokens is that of the first run, if it has one. -/
theorem FindsFirst.append {tokens rest : List Token} {found? found?' : Option FilterCall}
    (h : FindsFirst tokens found?) (hrest : FindsFirst rest found?') :
    FindsFirst (tokens ++ rest) (found?.or found?') where
  closed := h.closed.append hrest.closed
  found := by
    rw [firstUnknown, filterNames_append h.closed, List.find?_append, Option.map_or, Option.map_or,
      h.found, hrest.found]
    rfl

theorem FindsFirst.cons {tokens : List Token} {found? : Option FilterCall}
    (h : FindsFirst tokens found?) (token : Token) (htoken : token.kind ≠ .pipe) :
    FindsFirst (token :: tokens) found? := by
  simpa using (findsFirst_singleton htoken).append h

/-- The name of a filter comes before those in its arguments. -/
theorem FindsFirst.call {bar name : Token} {tokens : List Token} {args : List Expr}
    (hbar : bar.kind = .pipe) (hname : name.kind = .identifier)
    (h : FindsFirst tokens (args.findSome? Expr.unknownFilter?)) :
    FindsFirst (bar :: name :: tokens)
      (FilterCall.unknownFilter? ⟨name.text, args, name.position⟩) := by
  -- Tokens that end in the bar are not closed, so `append` does not apply behind it.
  have hbehind := h.cons name (by simp [hname])
  have hnames : filterNames (bar :: name :: tokens) = name :: filterNames (name :: tokens) := by
    rw [filterNames, if_pos ⟨hbar, hname⟩]
  refine ⟨fun token hlast => hbehind.closed token (by rwa [List.getLast?_cons_cons] at hlast), ?_⟩
  rw [firstUnknown, hnames, List.find?_cons, FilterCall.unknownFilter?, Token.namesUnknown,
    unknownFilterInArgs?_eq]
  cases Filter.ofName? name.text with
  | none => rfl
  | some filter => exact hbehind.found

namespace Grammar

variable {α : Type} {R : Reading α} {find : α → Option FilterCall}

/-- Where each item finds its first unknown filter, all of them find the first of these. -/
theorem Items.findsFirst {tokens : List Token} {items : List α} (h : Items R tokens items)
    (hR : ∀ {tokens item}, R tokens item → FindsFirst tokens (find item)) :
    FindsFirst tokens (items.findSome? find) := by
  induction h with
  | nil => exact findsFirst_of_no_bar (by simp)
  | cons first more ih =>
      rw [findSome?_cons_eq_or]
      exact (hR first).append ih

theorem Behind.findsFirst {kinds : List TokenKind} {tokens : List Token} {item : α}
    (h : Behind kinds R tokens item) (hkinds : .pipe ∉ kinds)
    (hR : ∀ {tokens item}, R tokens item → FindsFirst tokens (find item)) :
    FindsFirst tokens (find item) := by
  obtain ⟨hkind, hrest⟩ := h
  exact (hR hrest).cons _ fun hpipe => hkinds (hpipe ▸ hkind)

/-- Things with separators other than bars between them. -/
theorem Items.findsFirst_behind {kinds : List TokenKind} {tokens : List Token} {items : List α}
    (h : Items (Behind kinds R) tokens items) (hkinds : .pipe ∉ kinds)
    (hR : ∀ {tokens item}, R tokens item → FindsFirst tokens (find item)) :
    FindsFirst tokens (items.findSome? find) :=
  h.findsFirst fun hitem => hitem.findsFirst hkinds hR

section Expression

variable {primary : Reading Expr} {tokens : List Token}

/-- The tokens of every expression of this kind name its unknown filters in order. -/
def NamesInOrder (reading : Reading Expr) : Prop :=
  ∀ {tokens expr}, reading tokens expr → FindsFirst tokens expr.unknownFilter?

/-- Arguments are searched in the order of the source. -/
theorem Arguments.findsFirst {args : List Expr} (hprimary : NamesInOrder primary)
    (h : Arguments primary tokens args) :
    FindsFirst tokens (args.findSome? Expr.unknownFilter?) := by
  cases h with
  | absent => exact findsFirst_of_no_bar (by simp)
  | present kind first more =>
      have hmore := more.findsFirst_behind (by simp) hprimary
      rw [findSome?_cons_eq_or]
      exact ((hprimary first).append hmore).cons _ (by simp [kind])

theorem Call.findsFirst {call : FilterCall} (hprimary : NamesInOrder primary)
    (h : Behind [.pipe] (Call primary) tokens call) : FindsFirst tokens call.unknownFilter? := by
  obtain ⟨hbar, ⟨hname, harguments⟩⟩ := h
  exact (harguments.findsFirst hprimary).call (List.mem_singleton.mp hbar) hname

/-- An expression is searched before the filters behind it. -/
theorem namesInOrder_filtered (hprimary : NamesInOrder primary) :
    NamesInOrder (Filtered primary) := by
  intro tokens expr h
  cases h with
  | bare here => exact hprimary here
  | chain here filters ne_nil =>
      rw [Expr.unknownFilter?_filtered]
      exact (hprimary here).append (filters.findsFirst fun hcall => Call.findsFirst hprimary hcall)

theorem Comparator.findsFirst {op : BinaryOp} (h : Comparator tokens op) :
    FindsFirst tokens none := by
  cases h with
  | contains kind => exact findsFirst_singleton (by simp [kind])
  | sign kind written => exact findsFirst_singleton (by simp [kind])

theorem namesInOrder_comparison (hprimary : NamesInOrder primary) :
    NamesInOrder (Comparison primary) := by
  intro tokens expr h
  cases h with
  | operand here => exact namesInOrder_filtered hprimary here
  | compared first between second =>
      have hleft := namesInOrder_filtered hprimary first
      have hright := namesInOrder_filtered hprimary second
      rw [Expr.unknownFilter?_binary]
      exact hleft.append (between.findsFirst.append hright)

/-- The operands of a chain are searched in the order of the source, however they are joined. -/
theorem namesInOrder_chain {word : Keyword} {op : BinaryOp} {operand : Reading Expr}
    (hoperand : NamesInOrder operand) : NamesInOrder (Chain word op operand) := by
  intro tokens expr h
  obtain ⟨here, more, tree⟩ := h
  obtain rfl := Expr.balanced_eq_iff.mpr tree
  rw [Expr.unknownFilter?_balanced, findSome?_cons_eq_or]
  exact (hoperand here).append (more.findsFirst_behind (by simp) hoperand)

theorem namesInOrder_expression (hprimary : NamesInOrder primary) :
    NamesInOrder (Expression primary) :=
  namesInOrder_chain (namesInOrder_chain (namesInOrder_comparison hprimary))

/-- The search finds in a step in brackets what it finds in the expression there. -/
theorem DenotesStep.unknownFilter?_eq {key : Expr} {segment : Segment}
    (h : DenotesStep key segment) : segment.unknownFilter? = key.unknownFilter? := by
  cases h <;> rfl

variable {inner? : Option (Reading Expr)}

/-- Only a step in brackets has filters. -/
theorem Step.findsFirst {segment : Segment}
    (hinner : ∀ primary, inner? = some primary → NamesInOrder primary)
    (h : Step inner? tokens segment) : FindsFirst tokens segment.unknownFilter? := by
  cases h with
  | field kind word =>
      refine findsFirst_of_no_bar ?_
      rcases word with hname | ⟨word, hname⟩ <;> simp [kind, hname]
  | index kind digits written => exact findsFirst_of_no_bar (by simp [kind, digits])
  | @bracket opening closing tokens key segment primary inner?_eq kind here closes denotes =>
      have hkey := namesInOrder_expression (hinner _ inner?_eq) here
      rw [denotes.unknownFilter?_eq]
      have hclosing : FindsFirst [closing] none := findsFirst_singleton (by simp [closes])
      simpa using (hkey.append hclosing).cons opening (by simp [kind])

/-- Primary expressions are searched in the order of the source, if those one level deeper are. -/
theorem namesInOrder_primaryWith
    (hinner : ∀ primary, inner? = some primary → NamesInOrder primary) :
    NamesInOrder (PrimaryWith inner?) := by
  intro tokens expr h
  cases h with
  | string kind => exact findsFirst_singleton (by simp [kind])
  | number kind denotes => exact findsFirst_singleton (by simp [kind])
  | true kind => exact findsFirst_singleton (by simp [kind])
  | false kind => exact findsFirst_singleton (by simp [kind])
  | nil kind => exact findsFirst_singleton (by simp [kind])
  | range inner?_eq kind lower between upper closes =>
      rename_i opening dots closing tokens rest first last primary
      have hfirst := hinner _ inner?_eq lower
      have hlast := hinner _ inner?_eq upper
      have hclosing : FindsFirst [closing] none := findsFirst_singleton (by simp [closes])
      have hbehind := (hlast.append hclosing).cons dots (by simp [between])
      rw [Expr.unknownFilter?_range]
      simpa using (hfirst.append hbehind).cons opening (by simp [kind])
  | path kind more =>
      rename_i root tokens steps
      rw [Expr.unknownFilter?_path, List.findSome?_cons]
      exact (more.findsFirst fun hstep => hstep.findsFirst hinner).cons root (by simp [kind])

/-- Primary expressions name their unknown filters in order, however deep they may be nested. -/
theorem namesInOrder_primary (depth : Nat) : NamesInOrder (Primary depth) := by
  induction depth with
  | zero =>
      refine namesInOrder_primaryWith ?_
      intro primary hnone
      cases hnone
  | succ depth ih =>
      refine namesInOrder_primaryWith ?_
      intro primary hsome
      cases hsome
      exact ih

end Expression

end Grammar

end TextTemplate
