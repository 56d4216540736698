import TextTemplate.Proofs.Parser.BlockEnclosure
import TextTemplate.Proofs.Template.BlockStructure
/-! # What a malformed template is refused for

The tokens of a source are texts and tags in turn, so a parser between two tags comes upon a text or
a tag, and a parser in a tag comes upon a token of that tag. Three kinds of message are therefore
never given: that the source has ended where a token is expected, that nothing stands where an
operand is expected, and that a text or tag is expected.
-/

namespace TextTemplate

/-- At its start, the parser is where text may stand. -/
theorem isAt_start (source : List Char) :
    Parser.IsAt (Parser.start (tokenize source)) (.between false) where
  enclosed := tokenize_enclosed source
  ordinary error herror := by
    obtain ⟨cause, position⟩ := error
    have hlexical : cause.isLexical = true := isLexical_of_tokenize herror
    cases cause <;> first | rfl | cases hlexical

/-- Every syntax error that a template is refused with is an ordinary one. -/
theorem isOrdinary_of_malformed {source : String} {options : RenderOptions} {error : SyntaxError}
    (h : parseTemplate source options = .error (.malformed error)) :
    error.cause.isOrdinary = true := by
  have htemplate := parseNodes_eq_error (parseNodes_of_malformed h)
  exact Parser.isOrdinary_template_error (isAt_start source.toList) htemplate

/-- Only the end of the template is described as such. -/
theorem Found.eq_endOfTemplate {found : Found} (h : found.describe = "end of template") :
    found = .endOfTemplate := by
  have hlist := congrArg String.toList h
  cases found <;> simp [Found.describe] at hlist ⊢

theorem Found.eq_nothing {found : Found} (h : found.describe = "nothing") : found = .nothing := by
  have hlist := congrArg String.toList h
  cases found <;> simp [Found.describe] at hlist ⊢

theorem Expected.eq_textOrTag {expected : Expected} (h : expected.describe = "text or tag") :
    expected = .textOrTag := by
  cases expected <;> first | rfl | exact absurd h (by decide)

/-- The tokens of a source are texts and tags in turn, up to the first error. No message says that
the source ends or nothing stands where something else is expected, or that a text or tag is. -/
theorem tokens_enclosed (source : String) :
    (∃ chunks cut, Chunked (tokenize source.toList) chunks cut) ∧
      ∀ options found expected position,
        parseTemplate source options =
          .error (.malformed ⟨.unexpectedToken found expected, position⟩) →
        found.describe ≠ "end of template" ∧ found.describe ≠ "nothing" ∧
          expected.describe ≠ "text or tag" := by
  refine ⟨exists_chunks source.toList, ?_⟩
  intro options found expected position hmalformed
  have hordinary := isOrdinary_of_malformed hmalformed
  refine ⟨fun hfound => ?_, fun hfound => ?_, fun hexpected => ?_⟩
  · rw [Found.eq_endOfTemplate hfound] at hordinary
    cases hordinary
  · rw [Found.eq_nothing hfound] at hordinary
    cases hordinary
  · rw [Expected.eq_textOrTag hexpected] at hordinary
    cases found <;> cases hordinary

/-- An output without an expression is refused at the sign that stands in its place. -/
theorem tokens_enclosed_pipe :
    let source := "a\x7b\x7b | \x7d\x7db"
    parseTemplate source {} =
        .error (.malformed ⟨.unexpectedToken (.lexeme "|") .expression, ⟨1, 5, 4⟩⟩) ∧
      Found.describe (.lexeme "|") ≠ "end of template" ∧
      Found.describe (.lexeme "|") ≠ "nothing" ∧
      Expected.describe .expression ≠ "text or tag" := by
  intro source
  have hmalformed : parseTemplate source {} =
      .error (.malformed ⟨.unexpectedToken (.lexeme "|") .expression, ⟨1, 5, 4⟩⟩) :=
    parseTemplate_of_malformed (by decide +kernel)
  exact ⟨hmalformed, (tokens_enclosed source).2 {} _ _ _ hmalformed⟩

end TextTemplate
