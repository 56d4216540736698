import TextTemplate.Proofs.Template.Refusal
import TextTemplate.Proofs.Token.Verbatim
/-! # Verbatim blocks are rendered as they stand

A source that is a single `raw` block comes out as the text between its tags, and a `comment` block
comes out as nothing. No text in between is taken for a tag, an output or an error.
-/

namespace TextTemplate

open Text

/-- What the hyphens on the sides of its tags leave of the text in a block. -/
def trimmedBetween (first last : TagSpacing) (text : List Char) : List Char :=
  let front := if first.hyphenBehind then trimStart text else text
  if last.hyphenBefore then trimEnd front else front

/-- The node of the text that is left, if any is. -/
def textNodes (kept : List Char) : List Node :=
  if kept = [] then [] else [.text (String.ofList kept)]

/-- The text of a `raw` block is its only node, and a `comment` has none. -/
theorem run_template_verbatim {opener : Keyword} {front back : List Token} (kept : List Char)
    (place : Position) (hopener : opener = .raw ∨ opener = .comment)
    (hfront : WordTagTokens opener front) (hback : WordTagTokens opener.endKeyword back) :
    (Parser.template 64).run'
        (Parser.start ⟨front ++ (literalOf kept place ++ back), none⟩) =
      .ok (if opener = .raw then textNodes kept else []) := by
  obtain @⟨⟨_, _, _⟩, ⟨_, _, _⟩, ⟨_, _, _⟩, rfl, rfl, rfl⟩ := hfront
  obtain @⟨⟨_, _, _⟩, ⟨_, _, _⟩, ⟨_, _, _⟩, rfl, rfl, rfl⟩ := hback
  by_cases hkept : kept = []
  · rw [literalOf, textNodes, if_pos hkept, if_pos hkept]
    rcases hopener with rfl | rfl
    · rfl
    · rfl
  · rw [literalOf, textNodes, if_neg hkept, if_neg hkept]
    rcases hopener with rfl | rfl
    · rfl
    · rfl

/-- Text is rendered as it is. -/
theorem render_textNodes (kept : List Char) (root : Value) :
    (Template.mk (textNodes kept) {}).render root = .ok (String.ofList kept) := by
  unfold textNodes
  by_cases hkept : kept = []
  · subst hkept
    rfl
  · rw [if_neg hkept]
    have hrender : (Template.mk [.text (String.ofList kept)] {}).render root =
        .ok ("" ++ String.ofList kept) := rfl
    rw [hrender, String.empty_append]

/-- A verbatim block that is a whole source is parsed as its text, or as nothing if it is a
comment. -/
theorem parseTemplate_verbatim {opener : Keyword} (hopener : opener = .raw ∨ opener = .comment)
    {text : List Char} (hfree : FreeOfEndTag opener.endWord text) (first last : TagSpacing) :
    parseTemplate
        (String.ofList (first.tag opener.word.toList ++ (text ++ last.tag opener.endWord))) {} =
      .ok (if opener = .raw then textNodes (trimmedBetween first last text) else []) := by
  obtain ⟨front, place, back, hfront, hback, htokens⟩ := tokenize_verbatim hopener hfree first last
  have hkept : Lexer.keptText first.hyphenBehind text (last.tag opener.endWord) =
      trimmedBetween first last text := by
    have htrims := Lexer.opensTrimmed_tag last opener.endKeyword []
    rw [List.append_nil] at htrims
    rw [Lexer.keptText, show opener.endWord = opener.endKeyword.word.toList from rfl, htrims]
    rfl
  apply parseTemplate_of_known
  · rw [parseNodes, String.toList_ofList, htokens, hkept]
    exact run_template_verbatim _ place hopener hfront hback
  · rcases hopener with rfl | rfl
    · unfold textNodes
      simp only [↓reduceIte]
      split <;> rfl
    · rfl

/-- Whatever the text between its tags, a `raw` block that is a whole source comes out as the text,
without the white space next to a hyphen, and a `comment` block as nothing. -/
theorem render_verbatim (text : List Char) (first last : TagSpacing) (root : Value) :
    (FreeOfEndTag "endraw".toList text →
        (do
          let source := first.tag "raw".toList ++ (text ++ last.tag "endraw".toList)
          let template ← Template.parse (String.ofList source) {}
          template.render root) = .ok (String.ofList (trimmedBetween first last text))) ∧
      (FreeOfEndTag "endcomment".toList text →
        (do
          let source := first.tag "comment".toList ++ (text ++ last.tag "endcomment".toList)
          let template ← Template.parse (String.ofList source) {}
          template.render root) = .ok "") := by
  constructor
  · intro hfree
    have hparse : parseTemplate (String.ofList
        (first.tag "raw".toList ++ (text ++ last.tag "endraw".toList))) {} =
          .ok (textNodes (trimmedBetween first last text)) :=
      parseTemplate_verbatim (.inl rfl) hfree first last
    simp only [Template.parse, hparse]
    exact render_textNodes _ root
  · intro hfree
    have hparse : parseTemplate (String.ofList
        (first.tag "comment".toList ++ (text ++ last.tag "endcomment".toList))) {} = .ok [] :=
      parseTemplate_verbatim (.inr rfl) hfree first last
    simp only [Template.parse, hparse]
    exact render_textNodes [] root

/-- A stray delimiter, a filter that does not exist and half an end tag are no tags of a source. -/
theorem render_verbatim_stray :
    (do
      let template ← Template.parse
        "\x7b% raw -%\x7d \x7b\x7b x | nope \x7b% endraw \x7b\x7b%- endraw %\x7d" {}
      template.render .null) = .ok "\x7b\x7b x | nope \x7b% endraw \x7b" := by
  have hfree : FreeOfEndTag Keyword.endRaw.word.toList
      " \x7b\x7b x | nope \x7b% endraw \x7b".toList :=
    Lexer.freeOfEndTag_of_splitVerbatim? (by decide)
  have hsource : String.ofList ((TagSpacing.spaced false true).tag "raw".toList ++
      (" \x7b\x7b x | nope \x7b% endraw \x7b".toList ++
        (TagSpacing.spaced true false).tag "endraw".toList)) =
      "\x7b% raw -%\x7d \x7b\x7b x | nope \x7b% endraw \x7b\x7b%- endraw %\x7d" := by decide
  have htext : String.ofList (trimmedBetween (.spaced false true) (.spaced true false)
      " \x7b\x7b x | nope \x7b% endraw \x7b".toList) = "\x7b\x7b x | nope \x7b% endraw \x7b" := by
    decide
  have hrender := (render_verbatim " \x7b\x7b x | nope \x7b% endraw \x7b".toList
    (.spaced false true) (.spaced true false) .null).1 hfree
  simp only [hsource, htext] at hrender
  exact hrender

end TextTemplate
