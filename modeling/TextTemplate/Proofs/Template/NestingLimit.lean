import TextTemplate.Proofs.Parser.BlockLockstep
import TextTemplate.Proofs.Template.BlockStructure
/-! # A greater nesting limit

The nesting limit decides whether a source is refused as nested too deep, and nothing else. It is
held against the levels that are open at one place of the source: what has been closed in front of
that place does not count, however much of it there is.
-/

namespace TextTemplate

open TextTemplate.Parser (InStepFrom TooDeepAhead inStep_template template)

theorem Cursor.moved_id (cursor : Cursor) : cursor.moved id = cursor := by
  have htoken : Token.moved id = id := funext Token.moved_id
  have herror : SyntaxError.moved id = id := funext SyntaxError.moved_id
  obtain ⟨tokens, failure?, last, left, left_eq⟩ := cursor
  simp only [moved, htoken, herror, List.map_id, Option.map_id, id]

/-- Two runs of the parser on one source, with two limits. -/
theorem template_inStep (source : String) {limit limit' : Nat} (hle : limit ≤ limit') :
    InStepFrom ⟨id, limit, limit'⟩ 0 (Parser.start (tokenize source.toList)) (template limit)
      (template limit') (movedNodes id) fun _ change => change = 0 :=
  inStep_template hle _

/-- With a greater limit the parser does the same, unless the smaller one is exceeded. -/
theorem parseNodes_of_limit_le {source : String} {limit limit' : Nat} (hle : limit ≤ limit')
    (hother : ∀ error, parseNodes source limit = .error error → error.cause.isTooDeep = false) :
    parseNodes source limit' = parseNodes source limit := by
  have hruns := template_inStep source hle
  rw [parseNodes_eq_map] at hother
  rw [parseNodes_eq_map, parseNodes_eq_map]
  cases hfirst : template limit (Parser.start (tokenize source.toList)) with
  | ok pair =>
      obtain ⟨front, -, -, -, hsecond⟩ := hruns.ok pair.1 pair.2 hfirst
      rw [Cursor.moved_id, movedNodes_id] at hsecond
      rw [hsecond]
      rfl
  | error error =>
      rw [hfirst] at hother
      have hsecond := (hruns.error error hfirst).2 (.inr (hother error rfl))
      rw [Cursor.moved_id, SyntaxError.moved_id] at hsecond
      rw [hsecond]

/-- A source that needs only so many levels is a template under every greater limit. -/
theorem parseTemplate_of_levels {source : String} {limit : Nat} {nodes : List Node}
    {options : RenderOptions} (h : parseNodes source limit = .ok nodes)
    (hknown : unknownFilterInNodes? nodes = none) (hle : limit ≤ options.maxNestingDepth) :
    parseTemplate source options = .ok nodes := by
  have hlarge : parseNodes source options.maxNestingDepth = parseNodes source limit :=
    parseNodes_of_limit_le hle fun error herror => by
      rw [h] at herror
      cases herror
  exact parseTemplate_of_known (hlarge.trans h) hknown

/-- Where the limit is exceeded, as many levels are open as it allows, and one more is opened. -/
theorem tooDeepAhead_of_parseNodes {source : String} {limit : Nat} {error : SyntaxError}
    (h : parseNodes source limit = .error error) (hdeep : error.cause.isTooDeep = true) :
    TooDeepAhead limit 0 (Parser.start (tokenize source.toList)) error := by
  have hruns := template_inStep source (Nat.le_refl limit)
  rcases (hruns.error error (parseNodes_eq_error h)).1 hdeep with hlexical | hahead
  · -- The lexer knows of no nesting.
    obtain ⟨cause, position⟩ := error
    have hlexical' : cause.isLexical = true := isLexical_of_tokenize hlexical
    cases cause <;> cases hlexical' <;> cases hdeep
  · exact hahead

/-- Sources with the same nodes are templates alike. -/
theorem parseTemplate_congr {source source' : String} {options options' : RenderOptions}
    (h : parseNodes source' options'.maxNestingDepth = parseNodes source options.maxNestingDepth) :
    parseTemplate source' options' = parseTemplate source options := by
  cases hnodes : parseNodes source options.maxNestingDepth with
  | error error =>
      rw [parseTemplate_of_malformed hnodes, parseTemplate_of_malformed (h.trans hnodes)]
  | ok nodes =>
      cases hcall : unknownFilterInNodes? nodes with
      | none =>
          rw [parseTemplate_of_known hnodes hcall, parseTemplate_of_known (h.trans hnodes) hcall]
      | some call =>
          rw [parseTemplate_of_unknown hnodes hcall,
            parseTemplate_of_unknown (h.trans hnodes) hcall]

/-- Unless a source is nested too deep, a greater limit changes nothing about it. If it is, then it
has as many levels open as the limit allows at the place where one more is opened: those that are
closed in front of it do not count. -/
theorem parseTemplate_of_depth_le (source : String) {small large : RenderOptions}
    (hle : small.maxNestingDepth ≤ large.maxNestingDepth) :
    ((∀ limit position,
        parseTemplate source small ≠ .error (.malformed ⟨.nestingTooDeep limit, position⟩)) →
      parseTemplate source large = parseTemplate source small) ∧
      ∀ limit position,
        parseTemplate source small = .error (.malformed ⟨.nestingTooDeep limit, position⟩) →
        limit = small.maxNestingDepth ∧ ∃ front token back,
          (tokenize source.toList).tokens = front ++ token :: back ∧ token.position = position ∧
            levelChange token back = 1 ∧
            levelsOpen front (token :: back) = small.maxNestingDepth := by
  constructor
  · intro hother
    refine parseTemplate_congr (parseNodes_of_limit_le hle ?_)
    rintro ⟨cause, position⟩ herror
    rw [parseTemplate_of_malformed herror] at hother
    cases cause with
    | nestingTooDeep limit => exact absurd rfl (hother limit position)
    | _ => rfl
  · intro limit position herror
    obtain ⟨tokens_eq, opens, full⟩ :=
      tooDeepAhead_of_parseNodes (parseNodes_of_malformed herror) rfl
    exact ⟨rfl, _, _, _, tokens_eq, rfl, opens, (Int.zero_add _).symm.trans full⟩

/-- A bracket is within the limit, also behind another; one in a block is not. -/
theorem parseTemplate_depth_siblings :
    let source := "{{ a[b] }}{{ a[b] }}{% if c %}{{ d[e] }}{% endif %}"
    let output (name key : String) (position : Position) : Node :=
      .output (.path [.field name, .lookup (.path [.field key])]) position
    let nodes : List Node := [output "a" "b" ⟨1, 1, 0⟩, output "a" "b" ⟨1, 11, 10⟩,
      .branch (.path [.field "c"]) [output "d" "e" ⟨1, 31, 30⟩] [] [] ⟨1, 21, 20⟩]
    parseTemplate source { maxNestingDepth := 1 } =
        .error (.malformed ⟨.nestingTooDeep 1, ⟨1, 35, 34⟩⟩) ∧
      (∃ front token back, (tokenize source.toList).tokens = front ++ token :: back ∧
        token.position = ⟨1, 35, 34⟩ ∧ levelChange token back = 1 ∧
        levelsOpen front (token :: back) = 1) ∧
      parseTemplate source { maxNestingDepth := 2 } = .ok nodes ∧
      parseTemplate source { maxNestingDepth := 64 } =
        parseTemplate source { maxNestingDepth := 2 } := by
  intro source output nodes
  have hrefused : parseTemplate source { maxNestingDepth := 1 } =
      .error (.malformed ⟨.nestingTooDeep 1, ⟨1, 35, 34⟩⟩) :=
    parseTemplate_of_malformed (by decide +kernel)
  have hparsed : parseTemplate source { maxNestingDepth := 2 } = .ok nodes :=
    parseTemplate_of_known (by decide +kernel) rfl
  have hle : (1 : Nat) ≤ 64 := by decide
  have hle' : (2 : Nat) ≤ 64 := by decide
  have hfull := (@parseTemplate_of_depth_le source { maxNestingDepth := 1 }
    { maxNestingDepth := 64 } hle).2 1 ⟨1, 35, 34⟩ hrefused
  refine ⟨hrefused, hfull.2, hparsed, (parseTemplate_of_depth_le source hle').1 ?_⟩
  intro limit position
  rw [hparsed]
  rintro ⟨⟩

end TextTemplate
