import Mathlib.Data.List.Nodup
import TextTemplate.Proofs.Parser.FilterNames
/-! # What becomes of the filter names

The nodes of a template are searched for unknown filters, not its tokens. A survey of some tokens
says which of the filter names in them that search sees, and in which order; the rest stands in
expressions that are in no node. `Accounts` ties a survey to the tokens and to what the search
finds.
-/

namespace TextTemplate

/-- What becomes of the filter names of some tokens. -/
structure Survey where
  /-- Those in the nodes, in the order of the search. -/
  checked : List Token
  /-- Those in expressions that are in no node. -/
  discarded : List Token
  /-- Those searched after an unknown one that stands behind them. -/
  overtaken : List Token

namespace Survey

/-- The survey of tokens that name no filters. -/
def empty : Survey := ⟨[], [], []⟩

/-- The survey of tokens whose filter names are searched as they come. -/
def reading (tokens : List Token) : Survey := ⟨filterNames tokens, [], []⟩

/-- The survey of tokens and those behind them. -/
def append (first rest : Survey) : Survey :=
  ⟨first.checked ++ rest.checked, first.discarded ++ rest.discarded,
    first.overtaken ++ rest.overtaken⟩

instance : Append Survey := ⟨append⟩

/-- The survey of tokens and those behind them, which are searched first. -/
def overtake (first rest : Survey) : Survey :=
  ⟨rest.checked ++ first.checked, first.discarded ++ rest.discarded,
    (if rest.checked.any Token.namesUnknown then first.checked else first.overtaken) ++
      rest.overtaken⟩

/-- The survey of tokens of which nothing gets into a node. -/
def discard (survey : Survey) : Survey := ⟨[], survey.checked ++ survey.discarded, []⟩

@[simp]
theorem empty_append (survey : Survey) : empty ++ survey = survey := rfl

@[simp]
theorem append_empty (survey : Survey) : survey ++ empty = survey := by
  change append survey empty = survey
  simp [append, empty]

@[simp]
theorem append_checked (first rest : Survey) :
    (first ++ rest).checked = first.checked ++ rest.checked := rfl

@[simp]
theorem append_discarded (first rest : Survey) :
    (first ++ rest).discarded = first.discarded ++ rest.discarded := rfl

@[simp]
theorem append_overtaken (first rest : Survey) :
    (first ++ rest).overtaken = first.overtaken ++ rest.overtaken := rfl

/-- The first unknown filter name that the search sees. -/
def reported? (survey : Survey) : Option Token := survey.checked.find? Token.namesUnknown

/-- The first unknown filter of tokens and those behind them is that of the former, if they have
one. -/
theorem reported?_append (first rest : Survey) :
    (first ++ rest).reported? = first.reported?.or rest.reported? :=
  List.find?_append

/-- Tokens that are overtaken are asked last. -/
theorem reported?_overtake (first rest : Survey) :
    (first.overtake rest).reported? = rest.reported?.or first.reported? :=
  List.find?_append

theorem reported?_discard (survey : Survey) : survey.discard.reported? = none := rfl

end Survey

/-- The survey tells what becomes of the filter names of the tokens, and `found?` is what the search
finds in what they stand for. -/
structure Accounts (tokens : List Token) (found? : Option FilterCall) (survey : Survey) : Prop where
  closed : EndsClosed tokens
  names : (filterNames tokens).Perm (survey.checked ++ survey.discarded)
  found : found?.map FilterCall.mark = survey.reported?.map Token.mark
  overtaken_checked : survey.overtaken ⊆ survey.checked
  first : (filterNames tokens).Nodup → ∀ name, firstUnknown tokens = some name →
    (survey.reported? = some name ↔ name ∉ survey.discarded ∧ name ∉ survey.overtaken)

namespace Accounts

variable {tokens rest : List Token} {found? found?' : Option FilterCall} {survey survey' : Survey}
  {name : Token}

theorem mem_names (h : Accounts tokens found? survey) :
    name ∈ filterNames tokens ↔ name ∈ survey.checked ∨ name ∈ survey.discarded := by
  rw [h.names.mem_iff, List.mem_append]

/-- What the search reports is one of the filter names of the tokens. -/
theorem reported_mem (h : Accounts tokens found? survey) (hname : survey.reported? = some name) :
    name ∈ filterNames tokens :=
  h.mem_names.mpr (.inl (List.mem_of_find?_eq_some hname))

theorem firstUnknown_mem (hname : firstUnknown tokens = some name) : name ∈ filterNames tokens :=
  List.mem_of_find?_eq_some hname

/-- A survey says nothing of other names than those of its tokens. -/
theorem absent (h : Accounts tokens found? survey) (hname : name ∉ filterNames tokens) :
    survey.reported? ≠ some name ∧ name ∉ survey.checked ∧ name ∉ survey.discarded ∧
      name ∉ survey.overtaken := by
  have hchecked : name ∉ survey.checked := fun hmem => hname (h.mem_names.mpr (.inl hmem))
  have hdiscarded : name ∉ survey.discarded := fun hmem => hname (h.mem_names.mpr (.inr hmem))
  exact ⟨fun hreported => hname (h.reported_mem hreported), hchecked, hdiscarded,
    fun hmem => hchecked (h.overtaken_checked hmem)⟩

theorem reported?_eq_none (h : Accounts tokens found? survey) (hnone : firstUnknown tokens = none) :
    survey.reported? = none := by
  rw [firstUnknown, List.find?_eq_none] at hnone
  exact List.find?_eq_none.mpr fun name hname => hnone name (h.mem_names.mpr (.inl hname))

/-- Tokens of which all filter names are searched as they come. -/
theorem of_findsFirst (h : FindsFirst tokens found?) :
    Accounts tokens found? (Survey.reading tokens) where
  closed := h.closed
  names := by simp [Survey.reading]
  found := h.found
  overtaken_checked := List.nil_subset _
  first _ name hname := by
    have hreported : (Survey.reading tokens).reported? = some name := hname
    rw [hreported]
    simp [Survey.reading]

theorem of_no_bar (h : ∀ token ∈ tokens, token.kind ≠ .pipe) :
    Accounts tokens none Survey.empty := by
  have hreading := of_findsFirst (findsFirst_of_no_bar h)
  rwa [Survey.reading, filterNames_of_no_bar h] at hreading

/-- Names that occur once in tokens and those behind them occur once in each, and never in both. -/
theorem filterNames_nodup (h : Accounts tokens found? survey)
    (hnodup : (filterNames (tokens ++ rest)).Nodup) :
    (filterNames tokens).Nodup ∧ (filterNames rest).Nodup ∧
      (filterNames tokens).Disjoint (filterNames rest) := by
  rw [filterNames_append h.closed] at hnodup
  exact ⟨hnodup.of_append_left, hnodup.of_append_right, List.disjoint_of_nodup_append hnodup⟩

theorem firstUnknown_append (h : Accounts tokens found? survey) :
    firstUnknown (tokens ++ rest) = (firstUnknown tokens).or (firstUnknown rest) := by
  rw [firstUnknown, filterNames_append h.closed, List.find?_append]
  rfl

/-- Tokens and those behind them have the names of both surveys, none more or less often. -/
theorem names_append (h : Accounts tokens found? survey) (hrest : Accounts rest found?' survey') :
    (filterNames (tokens ++ rest)).Perm
      ((survey.checked ++ survey'.checked) ++ (survey.discarded ++ survey'.discarded)) := by
  rw [filterNames_append h.closed]
  refine (h.names.append hrest.names).trans ?_
  simp only [List.append_assoc]
  refine List.Perm.append_left _ ?_
  simp only [← List.append_assoc]
  exact List.Perm.append_right _ List.perm_append_comm

/-- Tokens whose filter names are searched before those of the tokens behind them. -/
theorem append (h : Accounts tokens found? survey) (hrest : Accounts rest found?' survey') :
    Accounts (tokens ++ rest) (found?.or found?') (survey ++ survey') where
  closed := h.closed.append hrest.closed
  names := h.names_append hrest
  found := by rw [Survey.reported?_append, Option.map_or, Option.map_or, h.found, hrest.found]
  overtaken_checked := by
    intro name hname
    rcases List.mem_append.mp hname with hfirst | hbehind
    · exact List.mem_append_left _ (h.overtaken_checked hfirst)
    · exact List.mem_append_right _ (hrest.overtaken_checked hbehind)
  first hnodup name hname := by
    obtain ⟨hnodup, hnodup', hdisjoint⟩ := h.filterNames_nodup hnodup
    rw [h.firstUnknown_append] at hname
    rw [Survey.reported?_append]
    simp only [Survey.append_discarded, Survey.append_overtaken, List.mem_append, not_or]
    -- The first unknown name is one of the tokens in front, or these have none.
    cases hfront : firstUnknown tokens with
    | some name' =>
        obtain rfl : name' = name := by simpa [hfront] using hname
        have habsent := hrest.absent (hdisjoint (firstUnknown_mem hfront))
        have hfirst := h.first hnodup name' hfront
        simp only [habsent, not_false_eq_true, and_true, ← hfirst, Option.or_eq_some_iff,
          and_false, or_false]
    | none =>
        rw [hfront, Option.none_or] at hname
        have habsent := h.absent fun hmem => hdisjoint hmem (firstUnknown_mem hname)
        rw [h.reported?_eq_none hfront, Option.none_or, hrest.first hnodup' name hname]
        simp only [habsent, not_false_eq_true, true_and]

/-- Tokens whose filter names are searched after those of the tokens behind them. -/
theorem overtake (h : Accounts tokens found? survey) (hrest : Accounts rest found?' survey') :
    Accounts (tokens ++ rest) (found?'.or found?) (survey.overtake survey') where
  closed := h.closed.append hrest.closed
  names := (h.names_append hrest).trans (List.perm_append_comm.append_right _)
  found := by rw [Survey.reported?_overtake, Option.map_or, Option.map_or, h.found, hrest.found]
  overtaken_checked := by
    intro name hname
    rcases List.mem_append.mp hname with hfirst | hbehind
    · refine List.mem_append_right _ ?_
      split at hfirst
      · exact hfirst
      · exact h.overtaken_checked hfirst
    · exact List.mem_append_left _ (hrest.overtaken_checked hbehind)
  first hnodup name hname := by
    obtain ⟨hnodup, hnodup', hdisjoint⟩ := h.filterNames_nodup hnodup
    rw [h.firstUnknown_append] at hname
    rw [Survey.reported?_overtake]
    simp only [Survey.overtake, List.mem_append, not_or]
    cases hfront : firstUnknown tokens with
    | some name' =>
        obtain rfl : name' = name := by simpa [hfront] using hname
        have hmem := firstUnknown_mem hfront
        have habsent := hrest.absent (hdisjoint hmem)
        have hfirst := h.first hnodup name' hfront
        -- An unknown name among the tokens behind is found first and overtakes it.
        cases hreported : survey'.reported? with
        | none =>
            have hany : survey'.checked.any Token.namesUnknown = false := by
              simpa [Survey.reported?] using hreported
            simp [hany, habsent, hfirst]
        | some other =>
            have hany : survey'.checked.any Token.namesUnknown = true := by
              rw [List.any_eq_true]
              exact ⟨other, List.mem_of_find?_eq_some hreported, List.find?_some hreported⟩
            have hother : other ≠ name' := fun heq => habsent.1 (heq ▸ hreported)
            have hplace := h.mem_names.mp hmem
            simp only [hany, if_true, Option.some_or, Option.some.injEq, hother, false_iff]
            rintro ⟨⟨hdiscarded, -⟩, hchecked, -⟩
            exact hplace.elim hchecked hdiscarded
    | none =>
        rw [hfront, Option.none_or] at hname
        have habsent := h.absent fun hmem => hdisjoint hmem (firstUnknown_mem hname)
        rw [h.reported?_eq_none hfront, Option.or_none, hrest.first hnodup' name hname]
        split <;> simp [habsent]

/-- Tokens for something that gets into no node. -/
theorem discard (h : Accounts tokens found? survey) : Accounts tokens none survey.discard where
  closed := h.closed
  names := h.names
  found := rfl
  overtaken_checked := List.nil_subset _
  first _ name hname := by
    have hmem := h.names.mem_iff.mp (firstUnknown_mem hname)
    simp only [Survey.reported?_discard, reduceCtorEq, false_iff, not_and]
    exact fun hdiscarded => absurd hmem hdiscarded

theorem cons (h : Accounts tokens found? survey) (token : Token) (htoken : token.kind ≠ .pipe) :
    Accounts (token :: tokens) found? survey := by
  have hsingle : Accounts [token] none Survey.empty := of_no_bar (by simpa using htoken)
  simpa using hsingle.append h

/-- A name that occurs once is not both checked and discarded. -/
theorem not_discarded (h : Accounts tokens found? survey) (hnodup : (filterNames tokens).Nodup)
    (hname : name ∈ survey.checked) : name ∉ survey.discarded :=
  List.disjoint_of_nodup_append (h.names.nodup hnodup) hname

/-- The search reports nothing exactly if all unknown names are discarded. -/
theorem reported?_eq_none_iff (h : Accounts tokens found? survey)
    (hnodup : (filterNames tokens).Nodup) : survey.reported? = none ↔
      ∀ name ∈ filterNames tokens, name.namesUnknown = true → name ∈ survey.discarded := by
  rw [Survey.reported?, List.find?_eq_none]
  constructor
  · intro hknown name hname hunknown
    exact (h.mem_names.mp hname).resolve_left fun hchecked => hknown name hchecked hunknown
  · intro hdiscarded name hchecked hunknown
    have hname := h.mem_names.mpr (.inl hchecked)
    exact h.not_discarded hnodup hchecked (hdiscarded name hname hunknown)

/-- The search reports the first unknown name of the tokens exactly if that name is neither
discarded nor overtaken. -/
theorem reports_first_iff (h : Accounts tokens found? survey) (hnodup : (filterNames tokens).Nodup)
    (hname : survey.reported? = some name) : firstUnknown tokens = some name ↔
      ∀ first, firstUnknown tokens = some first →
        first ∉ survey.discarded ∧ first ∉ survey.overtaken := by
  constructor
  · intro hfirst first hfirst'
    cases hfirst.symm.trans hfirst'
    exact (h.first hnodup name hfirst).mp hname
  · intro hkept
    cases hfirst : firstUnknown tokens with
    | none => simp [h.reported?_eq_none hfirst] at hname
    | some first =>
        rw [← (h.first hnodup first hfirst).mpr (hkept first hfirst), hname]

end Accounts

end TextTemplate
