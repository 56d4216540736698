import TextTemplate.Proofs.Parser.Accounting
import TextTemplate.Proofs.Parser.BlockSoundness
import TextTemplate.Proofs.Token.Span
import TextTemplate.Template
/-! # Templates that are refused

Whether a source is refused for an unknown filter, and for which, told by its tokens: an unknown
name among them lets the source pass exactly if it stands in an expression that is in no node.
-/

namespace TextTemplate

open Grammar

theorem parseNodes_eq_map (source : String) (limit : Nat) :
    parseNodes source limit =
      (Parser.template limit (Parser.start (tokenize source.toList))).map Prod.fst := rfl

/-- A source with nodes is parsed to its end. -/
theorem parseNodes_eq_ok {source : String} {limit : Nat} {nodes : List Node}
    (h : parseNodes source limit = .ok nodes) :
    ∃ next, Parser.template limit (Parser.start (tokenize source.toList)) = .ok (nodes, next) := by
  rw [parseNodes_eq_map] at h
  cases htemplate : Parser.template limit (Parser.start (tokenize source.toList)) with
  | error error =>
      rw [htemplate] at h
      cases h
  | ok pair =>
      rw [htemplate] at h
      cases h
      exact ⟨pair.2, rfl⟩

theorem parseNodes_eq_error {source : String} {limit : Nat} {error : SyntaxError}
    (h : parseNodes source limit = .error error) :
    Parser.template limit (Parser.start (tokenize source.toList)) = .error error := by
  rw [parseNodes_eq_map] at h
  cases htemplate : Parser.template limit (Parser.start (tokenize source.toList)) with
  | error error' =>
      rw [htemplate] at h
      cases h
      rfl
  | ok pair =>
      rw [htemplate] at h
      cases h

/-- The nodes of a source are those that the layout has for its tokens. -/
theorem exists_survey {source : String} {limit : Nat} {nodes : List Node}
    (h : parseNodes source limit = .ok nodes) :
    ∃ survey, Nodes limit (tokenize source.toList).tokens nodes survey := by
  obtain ⟨next, htemplate⟩ := parseNodes_eq_ok h
  obtain ⟨tokens, htokens, -, survey, hnodes⟩ := Parser.reads_template limit _ _ _ htemplate
  have hnil : next.tokens = [] := (Parser.template_finished htemplate).tokens_eq
  have hall : (tokenize source.toList).tokens = tokens :=
    htokens.trans (by rw [hnil, List.append_nil])
  exact ⟨survey, hall ▸ hnodes⟩

/-- A token is a filter name once. -/
theorem filterNames_tokenize_nodup (source : List Char) :
    (filterNames (tokenize source).tokens).Nodup :=
  (tokenize_nodup source).sublist (filterNames_sublist _)

/-- The tokens of a template account for what the search through its nodes finds. -/
theorem accounts_of_parseNodes {source : String} {limit : Nat} {nodes : List Node} {survey : Survey}
    (h : Nodes limit (tokenize source.toList).tokens nodes survey) :
    Accounts (tokenize source.toList).tokens (unknownFilterInNodes? nodes) survey := by
  rw [unknownFilterInNodes?_eq]
  exact Nodes.accounts limit h

-- The equation of `parseTemplate` would take its whole parser apart, so it is unfolded here alone.
theorem parseTemplate_of_malformed {source : String} {options : RenderOptions} {error : SyntaxError}
    (h : parseNodes source options.maxNestingDepth = .error error) :
    parseTemplate source options = .error (.malformed error) := by
  delta parseTemplate
  simp only [h]

theorem parseTemplate_of_known {source : String} {options : RenderOptions} {nodes : List Node}
    (h : parseNodes source options.maxNestingDepth = .ok nodes)
    (hknown : unknownFilterInNodes? nodes = none) : parseTemplate source options = .ok nodes := by
  delta parseTemplate
  simp only [h, hknown]

theorem parseTemplate_of_unknown {source : String} {options : RenderOptions} {nodes : List Node}
    {call : FilterCall} (h : parseNodes source options.maxNestingDepth = .ok nodes)
    (hcall : unknownFilterInNodes? nodes = some call) :
    parseTemplate source options = .error (.unknownFilter call.name call.position) := by
  delta parseTemplate
  simp only [h, hcall]

/-- A template is accepted if it has nodes and names no unknown filter in them. -/
theorem parseTemplate_eq_ok {source : String} {options : RenderOptions} {nodes : List Node}
    (h : parseTemplate source options = .ok nodes) :
    parseNodes source options.maxNestingDepth = .ok nodes ∧
      unknownFilterInNodes? nodes = none := by
  cases hnodes : parseNodes source options.maxNestingDepth with
  | error error =>
      rw [parseTemplate_of_malformed hnodes] at h
      cases h
  | ok nodes' =>
      cases hcall : unknownFilterInNodes? nodes' with
      | some call =>
          rw [parseTemplate_of_unknown hnodes hcall] at h
          cases h
      | none =>
          rw [parseTemplate_of_known hnodes hcall] at h
          cases h
          exact ⟨rfl, hcall⟩

theorem known_of_parseTemplate {source : String} {options : RenderOptions} {nodes : List Node}
    (h : parseTemplate source options = .ok nodes) : unknownFilterInNodes? nodes = none :=
  (parseTemplate_eq_ok h).2

/-- A source is refused for the name that the survey has as reported. -/
theorem parseTemplate_eq_reported {source : String} {options : RenderOptions} {nodes : List Node}
    {survey : Survey} (hnodes : parseNodes source options.maxNestingDepth = .ok nodes)
    (h : Nodes options.maxNestingDepth (tokenize source.toList).tokens nodes survey) :
    parseTemplate source options =
      match survey.reported? with
      | some name => .error (.unknownFilter name.text name.position)
      | none => .ok nodes := by
  have hfound := (accounts_of_parseNodes h).found
  cases hcall : unknownFilterInNodes? nodes with
  | none =>
      rw [hcall, Option.map_none, eq_comm, Option.map_eq_none_iff] at hfound
      rw [parseTemplate_of_known hnodes hcall, hfound]
  | some call =>
      rw [hcall, Option.map_some, eq_comm, Option.map_eq_some_iff] at hfound
      obtain ⟨name, hname, hmark⟩ := hfound
      simp only [Token.mark, FilterCall.mark, Prod.mk.injEq] at hmark
      rw [parseTemplate_of_unknown hnodes hcall, hname]
      simp only [hmark]

/-- A source passes exactly if every unknown filter name of its tokens is discarded. -/
theorem parseTemplate_outcome (source : String) (options : RenderOptions) :
    (∃ error, parseNodes source options.maxNestingDepth = .error error ∧
        parseTemplate source options = .error (.malformed error)) ∨
      ∃ nodes, parseNodes source options.maxNestingDepth = .ok nodes ∧
        (parseTemplate source options = .ok nodes ∨
          ∃ name position, parseTemplate source options = .error (.unknownFilter name position)) ∧
        (∃ survey, Nodes options.maxNestingDepth (tokenize source.toList).tokens nodes survey) ∧
        ∀ survey, Nodes options.maxNestingDepth (tokenize source.toList).tokens nodes survey →
          (parseTemplate source options = .ok nodes ↔
            ∀ name ∈ filterNames (tokenize source.toList).tokens, name.namesUnknown = true →
              name ∈ survey.discarded) := by
  cases hnodes : parseNodes source options.maxNestingDepth with
  | error error => exact .inl ⟨error, rfl, parseTemplate_of_malformed hnodes⟩
  | ok nodes =>
      obtain ⟨survey, hlayout⟩ := exists_survey hnodes
      refine .inr ⟨nodes, rfl, ?_, ⟨survey, hlayout⟩, ?_⟩
      · rw [parseTemplate_eq_reported hnodes hlayout]
        cases survey.reported? with
        | none => exact .inl rfl
        | some name => exact .inr ⟨name.text, name.position, rfl⟩
      · intro survey hlayout
        have hnodup := filterNames_tokenize_nodup source.toList
        have hnone := (accounts_of_parseNodes hlayout).reported?_eq_none_iff hnodup
        refine Iff.trans ?_ hnone
        rw [parseTemplate_eq_reported hnodes hlayout]
        cases survey.reported? <;> simp

/-- The subject of a `case` without arms is not searched. -/
example : parseTemplate "{% case x | nope %}{% endcase %}" {} = .ok [] :=
  parseTemplate_of_known (by decide +kernel) rfl

/-- The unknown filter that a source is refused for is named by one of its tokens. It is the first
of the unknown ones exactly if that first one is neither discarded nor overtaken. -/
theorem parseTemplate_eq_unknownFilter_iff (source : String) (options : RenderOptions)
    (name : String) (position : Position) :
    parseTemplate source options = .error (.unknownFilter name position) ↔
      ∃ nodes, parseNodes source options.maxNestingDepth = .ok nodes ∧
        (∃ survey, Nodes options.maxNestingDepth (tokenize source.toList).tokens nodes survey) ∧
        ∀ survey, Nodes options.maxNestingDepth (tokenize source.toList).tokens nodes survey →
          ∃ token ∈ filterNames (tokenize source.toList).tokens, token.namesUnknown = true ∧
            token.text = name ∧ token.position = position ∧ survey.reported? = some token ∧
            (firstUnknown (tokenize source.toList).tokens = some token ↔
              ∀ first, firstUnknown (tokenize source.toList).tokens = some first →
                first ∉ survey.discarded ∧ first ∉ survey.overtaken) := by
  constructor
  · intro hrefused
    cases hnodes : parseNodes source options.maxNestingDepth with
    | error error =>
        rw [parseTemplate_of_malformed hnodes] at hrefused
        cases hrefused
    | ok nodes =>
        refine ⟨nodes, rfl, exists_survey hnodes, ?_⟩
        intro survey hlayout
        have haccounts := accounts_of_parseNodes hlayout
        have hnodup := filterNames_tokenize_nodup source.toList
        rw [parseTemplate_eq_reported hnodes hlayout] at hrefused
        cases hreported : survey.reported? with
        | none =>
            rw [hreported] at hrefused
            cases hrefused
        | some token =>
            rw [hreported] at hrefused
            cases hrefused
            exact ⟨token, haccounts.reported_mem hreported, List.find?_some hreported, rfl, rfl,
              rfl, haccounts.reports_first_iff hnodup hreported⟩
  · rintro ⟨nodes, hnodes, ⟨survey, hlayout⟩, hsurveys⟩
    obtain ⟨token, -, -, rfl, rfl, hreported, -⟩ := hsurveys survey hlayout
    rw [parseTemplate_eq_reported hnodes hlayout, hreported]

end TextTemplate
