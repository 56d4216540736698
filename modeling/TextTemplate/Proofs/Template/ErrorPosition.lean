import TextTemplate.Proofs.Render.Failure
import TextTemplate.Proofs.Render.Moved
import TextTemplate.Proofs.Template.NestingLimit
import TextTemplate.Proofs.Token.Places
/-! # Where errors point

The parser and the renderer make up no places: they hand on those of the tokens. So if every place
in a source stays where it is and all others are moved, then the same nodes are parsed and the same
errors met. An error that stays in its place under all such moves is in the source.
-/

namespace TextTemplate

open Position

open scoped Classical in
/-- The position, if it is in the source. All others are moved to the start. -/
noncomputable def Position.movedInto (source : List Char) (position : Position) : Position :=
  if position.IsIn source then position else Position.start

theorem Position.IsIn.movedInto_eq {source : List Char} {position : Position}
    (h : position.IsIn source) : position.movedInto source = position := if_pos h

/-- Moving changes every position that is not in the source. -/
theorem Position.isIn_of_movedInto_eq {source : List Char} {position : Position}
    (h : position.movedInto source = position) : position.IsIn source := by
  rw [← h, movedInto]
  split
  next hin => exact hin
  next => exact isIn_start source

/-- An error that does not move is in the source. -/
theorem TemplateError.isIn_of_moved {source : List Char} {error : TemplateError}
    (h : error.moved (movedInto source) = error) (hkind : error.kind ≠ .invalidDocument) :
    ∀ position ∈ error.position?, position.IsIn source := by
  intro position hposition
  apply isIn_of_movedInto_eq
  cases error with
  | invalidDocument cause position => exact absurd rfl hkind
  | internal breakdown => cases hposition
  | _ =>
      obtain rfl := Option.some.inj hposition
      exact Option.some.inj (congrArg position? h)

/-- The tokens of a source stay where they are. -/
theorem TokenStream.IsIn.moved_eq {source : List Char} {stream : TokenStream}
    (h : stream.IsIn source) : stream.moved (movedInto source) = stream := by
  obtain ⟨tokens, failure?⟩ := stream
  have htokens : tokens.map (Token.moved (movedInto source)) = tokens.map id := by
    apply List.map_congr_left
    intro token hmem
    rw [Token.moved, (h.tokens token hmem).movedInto_eq, id]
  have hfailure : failure?.map (SyntaxError.moved (movedInto source)) = failure? := by
    cases failure? with
    | none => rfl
    | some error => rw [Option.map_some, SyntaxError.moved, (h.failure error rfl).movedInto_eq]
  rw [TokenStream.moved, htokens, List.map_id, hfailure]

theorem Parser.start_moved {f : Position → Position} (hstart : f Position.start = Position.start)
    (stream : TokenStream) : (Parser.start stream).moved f = Parser.start (stream.moved f) := by
  obtain ⟨tokens, failure?⟩ := stream
  simp only [Parser.start, Cursor.moved, TokenStream.moved, hstart, List.length_map]

/-- The parser starts in the source, so it stays there. -/
theorem start_tokenize_moved (source : List Char) :
    (Parser.start (tokenize source)).moved (movedInto source) = Parser.start (tokenize source) := by
  rw [Parser.start_moved (isIn_start source).movedInto_eq, (tokenize_isIn source).moved_eq]

/-- The nodes of a source stay where they are, since its tokens do. -/
theorem movedNodes_of_parseNodes {source : String} {limit : Nat} {nodes : List Node}
    (h : parseNodes source limit = .ok nodes) :
    movedNodes (movedInto source.toList) nodes = nodes := by
  obtain ⟨next, hparse⟩ := parseNodes_eq_ok h
  have hmoved := Parser.template_moved (movedInto source.toList) limit
    (Parser.start (tokenize source.toList))
  rw [start_tokenize_moved, hparse] at hmoved
  exact (congrArg Prod.fst (Except.ok.inj hmoved)).symm

/-- A source that is refused is refused at one of its places. -/
theorem isIn_of_parseNodes {source : String} {limit : Nat} {error : SyntaxError}
    (h : parseNodes source limit = .error error) : error.position.IsIn source.toList := by
  have hmoved := Parser.template_moved (movedInto source.toList) limit
    (Parser.start (tokenize source.toList))
  rw [start_tokenize_moved, parseNodes_eq_error h] at hmoved
  exact isIn_of_movedInto_eq (congrArg SyntaxError.position (Except.error.inj hmoved)).symm

/-- A template is refused at a place in its source, unknown filters included. -/
theorem isIn_of_parseTemplate {source : String} {options : RenderOptions} {error : TemplateError}
    (h : parseTemplate source options = .error error) :
    ∀ position ∈ error.position?, position.IsIn source.toList := by
  cases hnodes : parseNodes source options.maxNestingDepth with
  | error error' =>
      rw [parseTemplate_of_malformed hnodes] at h
      cases h
      rintro _ ⟨⟩
      exact isIn_of_parseNodes hnodes
  | ok nodes =>
      cases hcall : unknownFilterInNodes? nodes with
      | none =>
          rw [parseTemplate_of_known hnodes hcall] at h
          cases h
      | some call =>
          rw [parseTemplate_of_unknown hnodes hcall] at h
          cases h
          have hmoved := unknownFilterInNodes?_moved (movedInto source.toList) nodes
          rw [movedNodes_of_parseNodes hnodes, hcall] at hmoved
          rintro _ ⟨⟩
          exact isIn_of_movedInto_eq (congrArg FilterCall.position (Option.some.inj hmoved)).symm

/-- A render fails at a place in the source of the template. -/
theorem isIn_of_render {source : String} {options : RenderOptions} {nodes : List Node}
    (hparse : parseTemplate source options = .ok nodes) {renderer : Renderer} {root : Value}
    {error : TemplateError} (h : (renderer.render nodes root).1 = .error error) :
    ∀ position ∈ error.position?, position.IsIn source.toList := by
  obtain ⟨hnodes, hknown⟩ := parseTemplate_eq_ok hparse
  have hmoved := congrArg Prod.fst
    (renderer.render_moved (movedInto source.toList) nodes root)
  rw [movedNodes_of_parseNodes hnodes, h] at hmoved
  apply TemplateError.isIn_of_moved (Except.error.inj hmoved).symm
  have honly := Render.onlyFails_nodes renderer.options.maxIterations nodes (.ofDocument root)
    hknown
  rw [renderer.render_eq] at h
  cases hresult : Render.nodes renderer.options.maxIterations nodes (.ofDocument root) with
  | ok state =>
      rw [hresult] at h
      cases h
  | error stopped =>
      obtain ⟨target, reached, -, hazard, -, hcauses⟩ := honly stopped hresult
      rw [hresult] at h
      cases h
      cases hazard with
      | exceeding position =>
          rw [show stopped.error = .iterationLimitExceeded _ position from hcauses]
          nofun
      | sorting input position =>
          rw [hcauses.1]
          nofun

theorem kind_of_readDocument {document : String} {error : TemplateError}
    (h : readDocument document = .error error) : error.kind = .invalidDocument := by
  unfold readDocument at h
  split at h
  · cases h
  · cases h
    rfl

/-- From source to text, every error but one in the document is at a place in the source. -/
theorem isIn_of_renderText {document source : String} {options : RenderOptions}
    {error : TemplateError} (h : renderText document source options = .error error)
    (hkind : error.kind ≠ .invalidDocument) :
    ∀ position ∈ error.position?, position.IsIn source.toList := by
  unfold renderText Template.parse at h
  cases hdocument : readDocument document with
  | error error' =>
      rw [hdocument] at h
      cases h
      exact absurd (kind_of_readDocument hdocument) hkind
  | ok root =>
      cases hparse : parseTemplate source options with
      | error error' =>
          rw [hdocument, hparse] at h
          cases h
          exact isIn_of_parseTemplate hparse
      | ok nodes =>
          rw [hdocument, hparse] at h
          exact isIn_of_render hparse h

/-- An error that comes up when a source is parsed, when its nodes are rendered, or on the way from
two texts to an output points at a place of the source. A breakdown alone points at no place. -/
theorem error_isIn {source : String} {options : RenderOptions} {error : TemplateError}
    (h : parseTemplate source options = .error error ∨
      (∃ nodes, parseTemplate source options = .ok nodes ∧ ∃ (renderer : Renderer) (root : Value),
        (renderer.render nodes root).1 = .error error) ∨
      ∃ document, renderText document source options = .error error ∧
        error.kind ≠ .invalidDocument) :
    (∀ position, error.position? = some position →
      position.IsIn source.toList ∧ position.offset ≤ source.utf8ByteSize) ∧
      (error.position? = none ↔ error.kind = .internalError) := by
  have hin : ∀ position ∈ error.position?, position.IsIn source.toList := by
    rcases h with hparse | ⟨nodes, hparse, renderer, root, hrender⟩ | ⟨document, htext, hkind⟩
    · exact isIn_of_parseTemplate hparse
    · exact isIn_of_render hparse hrender
    · exact isIn_of_renderText htext hkind
  refine ⟨fun position hposition => ?_, TemplateError.position?_eq_none_iff⟩
  have hle := (hin position hposition).offset_le
  rw [byteLength_eq_utf8ByteSize, String.ofList_toList] at hle
  exact ⟨hin position hposition, hle⟩

/-- A strange letter in the second line of a source whose first has a letter of two bytes, and a
loop behind such a line whose second round is not allowed. -/
theorem error_isIn_second_line :
    let strange := "é\n\x7b\x7b ü \x7d\x7d"
    let endless := "é\n{% for x in xs %}{% endfor %}"
    let document := "\x7b\"xs\": [null, null]\x7d"
    let options : RenderOptions := { maxIterations := 1 }
    (parseTemplate strange options =
        .error (.malformed ⟨.unexpectedCharacter 'ü', ⟨2, 4, 6⟩⟩) ∧
      Position.IsIn strange.toList ⟨2, 4, 6⟩ ∧ 6 ≤ strange.utf8ByteSize) ∧
    renderText document endless options =
        .error (.iterationLimitExceeded 1 ⟨2, 1, 3⟩) ∧
      Position.IsIn endless.toList ⟨2, 1, 3⟩ ∧ 3 ≤ endless.utf8ByteSize := by
  intro strange endless document options
  have hstrange : parseTemplate strange options =
      .error (.malformed ⟨.unexpectedCharacter 'ü', ⟨2, 4, 6⟩⟩) :=
    parseTemplate_of_malformed (by decide +kernel)
  have hparse : parseTemplate endless options =
      .ok [.text "é\n", .loop ⟨"x", .path [.field "xs"], false, none, none, ⟨2, 1, 3⟩⟩ [] []] :=
    parseTemplate_of_known (by decide +kernel) rfl
  have hread : readDocument document = .ok (.object [("xs", .array [.null, .null])]) := by
    decide +kernel
  have hendless : renderText document endless options =
      .error (.iterationLimitExceeded 1 ⟨2, 1, 3⟩) := by
    unfold renderText Template.parse
    rw [hread, hparse]
    rfl
  have hkind : (TemplateError.iterationLimitExceeded 1 ⟨2, 1, 3⟩).kind ≠ .invalidDocument := by
    decide
  exact ⟨⟨hstrange, (error_isIn (.inl hstrange)).1 _ rfl⟩, hendless,
    (error_isIn (.inr (.inr ⟨document, hendless, hkind⟩))).1 _ rfl⟩

end TextTemplate
