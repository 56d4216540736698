import TextTemplate.Proofs.Token.WordTag
/-! # Verbatim blocks

A text between the tags of a verbatim block is passed over as it stands, whatever it looks like, if
the end tag does not occur in it. The end tag is found where the text ends: no part of the text can
run into it, since past its first character a tag has no brace that opens.
-/

namespace TextTemplate

open Text

/-- The end tag occurs nowhere in the text. -/
def FreeOfEndTag (word text : List Char) : Prop :=
  ∀ front back, text = front ++ back → ¬ StartsEndTag word back

/-- The characters of a tag behind its first. -/
def TagSpacing.behindBrace (spacing : TagSpacing) (word : List Char) : List Char :=
  '%' :: (hyphenText spacing.hyphenBefore ++ (spacing.gapBefore ++ (word ++ spacing.close)))

/-- There is no other brace in a tag. -/
theorem brace_not_mem_behindBrace (spacing : TagSpacing) (word : Keyword) :
    '\x7b' ∉ spacing.behindBrace word.word.toList := by
  intro hmem
  have hhyphen : ∀ hyphen, '\x7b' ∉ hyphenText hyphen := by decide
  simp only [TagSpacing.behindBrace, TagSpacing.close, List.mem_cons, List.mem_append, hhyphen,
    false_or] at hmem
  rcases hmem with hpercent | hgap | hword | hgap' | hclosing
  · exact absurd hpercent (by decide)
  · exact absurd (spacing.blankBefore _ hgap) (by decide)
  · exact absurd (isAlpha_of_mem_word word _ hword) (by decide)
  · exact absurd (spacing.blankBehind _ hgap') (by decide)
  · exact absurd hclosing (by decide)

/-- A tag that begins in a text in front of a brace lies in the text. -/
theorem startsEndTag_of_append {word : Keyword} {text rest : List Char} (hne : text ≠ [])
    (h : StartsEndTag word.word.toList (text ++ '\x7b' :: rest)) :
    StartsEndTag word.word.toList text := by
  obtain ⟨spacing, after, htag⟩ := startsEndTag_iff_spacing.mp h
  obtain ⟨c, text, rfl⟩ := List.exists_cons_of_ne_nil hne
  have hsplit : spacing.tag word.word.toList = '\x7b' :: spacing.behindBrace word.word.toList := rfl
  rw [hsplit, List.cons_append, List.cons_append, List.cons.injEq] at htag
  obtain ⟨rfl, htag⟩ := htag
  apply startsEndTag_iff_spacing.mpr
  rcases List.append_eq_append_iff.mp htag with ⟨behind, hbehind, hafter⟩ | ⟨behind, hbehind, -⟩
  · cases behind with
    | nil =>
        refine ⟨spacing, [], ?_⟩
        rw [hsplit, hbehind, List.append_nil, List.append_nil]
    | cons d behind =>
        -- The tag would run over the brace.
        cases hafter
        exact absurd (by simp [hbehind]) (brace_not_mem_behindBrace spacing word)
  · refine ⟨spacing, behind, ?_⟩
    rw [hsplit, hbehind, List.cons_append]

namespace Lexer

/-- The lexer looks for an end tag as it is written. -/
theorem startsEndTag_word_iff (word : Keyword) (text : List Char) :
    startsEndTag word.word.toList text = true ↔ StartsEndTag word.word.toList text := by
  apply startsEndTag_iff word.word_ne_nil
  intro c hc
  rw [← List.append_nil word.word.toList] at hc
  have halpha := isAlpha_of_head_word hc
  refine ⟨not_isBlank_of_isAlpha halpha, ?_⟩
  rintro rfl
  exact absurd halpha (by decide)

/-- The end tag is found behind the text. -/
theorem splitVerbatim?_of_free {word : Keyword} {text : List Char}
    (hfree : FreeOfEndTag word.word.toList text) (spacing : TagSpacing) (after : List Char) :
    splitVerbatim? word.word.toList (text ++ (spacing.tag word.word.toList ++ after)) =
      some (text, spacing.tag word.word.toList ++ after) := by
  obtain ⟨rest, hrest⟩ : ∃ rest, spacing.tag word.word.toList ++ after = '\x7b' :: rest := ⟨_, rfl⟩
  induction text with
  | nil =>
      have hend := (startsEndTag_word_iff word _).mpr
        (startsEndTag_iff_spacing.mpr ⟨spacing, after, rfl⟩)
      rw [hrest] at hend
      rw [List.nil_append, hrest, splitVerbatim?, if_pos hend]
  | cons c text ih =>
      have hhere : ¬ startsEndTag word.word.toList
          (c :: (text ++ (spacing.tag word.word.toList ++ after))) = true := by
        rw [startsEndTag_word_iff, hrest]
        intro hend
        exact hfree [] (c :: text) rfl (startsEndTag_of_append (List.cons_ne_nil c text) hend)
      have hbehind : FreeOfEndTag word.word.toList text := by
        intro front back htext
        exact hfree (c :: front) back (by rw [htext, List.cons_append])
      rw [List.cons_append, splitVerbatim?, if_neg hhere, ih hbehind]
      rfl

/-- Where the lexer finds no end tag, there is none. -/
theorem freeOfEndTag_of_splitVerbatim? {word : Keyword} {text : List Char}
    (h : splitVerbatim? word.word.toList text = none) : FreeOfEndTag word.word.toList text := by
  intro front back htext hend
  have hnone := splitVerbatim?_eq_none h front back htext
  rw [(startsEndTag_word_iff word back).mpr hend] at hnone
  cases hnone

/-- Behind a tag of another word the lexer reads text. -/
theorem modeAfter_push {word : Keyword} (hraw : word ≠ .raw) (hcomment : word ≠ .comment)
    (opened : Position) (trim : Bool) :
    modeAfter (OpenTag.push ⟨.logic, opened, none, none⟩ (.keyword word)) trim = .text trim := by
  cases word with
  | raw => exact absurd rfl hraw
  | comment => exact absurd rfl hcomment
  | _ => rfl

/-- Behind the tag of a verbatim block the lexer reads its text. -/
theorem modeAfter_push_verbatim {opener : Keyword} (hopener : opener = .raw ∨ opener = .comment)
    (opened : Position) (trim : Bool) :
    modeAfter (OpenTag.push ⟨.logic, opened, none, none⟩ (.keyword opener)) trim =
      .verbatim opener opened trim := by
  rcases hopener with rfl | rfl
  · rfl
  · rfl

/-- A run of text of which nothing is left yields no token, and the tag behind it comes at once. -/
theorem textStep_of_opensTag (position : Position) (trim : Bool) (run : List Char)
    {after : List Char} (hafter : OpensTag after) :
    ∃ start, textStep position trim run after =
      match literalOf (keptText trim run after) start with
      | [] => step ⟨after, position.advanceBy run, .text false⟩
      | literal :: _ => .token literal ⟨after, position.advanceBy run, .text false⟩ := by
  have hne : after ≠ [] := fun hnil => not_opensTag_nil (hnil ▸ hafter)
  unfold textStep literalOf
  by_cases hkept : keptText trim run after = []
  · refine ⟨position, ?_⟩
    simp only [hkept, List.isEmpty_nil, ↓reduceIte, step_of_opensTag hafter]
    rw [if_neg (by simpa using hne)]
  · refine ⟨if trim then position.advanceBy (run.takeWhile isBlank) else position, ?_⟩
    simp only [hkept, List.isEmpty_iff, ↓reduceIte]

theorem step_nil (position : Position) (trim : Bool) :
    step ⟨[], position, .text trim⟩ = .finished := by
  cases trim <;> rfl

/-- The text of a verbatim block, and the end tag behind it. -/
theorem steps_verbatim {opener word : Keyword} (hword : opener.closing? = some word)
    (hraw : word ≠ .raw) (hcomment : word ≠ .comment) {text : List Char}
    (hfree : FreeOfEndTag word.word.toList text) (spacing : TagSpacing) (trim : Bool)
    (opened position : Position) : ∃ start tokens position', WordTagTokens word tokens ∧
      Steps ⟨text ++ spacing.tag word.word.toList, position, .verbatim opener opened trim⟩
        (literalOf (keptText trim text (spacing.tag word.word.toList)) start ++ tokens)
        ⟨[], position', .text spacing.hyphenBehind⟩ := by
  have hsplit := splitVerbatim?_of_free hfree spacing []
  obtain ⟨tokens, last, htokens, hsteps⟩ :=
    steps_wordTag spacing word (position.advanceBy text) []
  rw [modeAfter_push hraw hcomment] at hsteps
  have hopens : OpensTag (spacing.tag word.word.toList ++ []) :=
    opensTag_of_startsEndTag (startsEndTag_iff_spacing.mpr ⟨spacing, [], rfl⟩)
  rw [List.append_nil] at hsplit hsteps hopens
  obtain ⟨start, hstart⟩ := textStep_of_opensTag position trim text hopens
  have hstep : step ⟨text ++ spacing.tag word.word.toList, position,
      .verbatim opener opened trim⟩ =
        textStep position trim text (spacing.tag word.word.toList) := by
    simp only [step, hword, Option.getD_some, hsplit]
  rw [hstart] at hstep
  refine ⟨start, tokens, last, htokens, ?_⟩
  by_cases hkept : keptText trim text (spacing.tag word.word.toList) = []
  · -- With nothing left of the text, the end tag is opened in the same step.
    rw [literalOf, if_pos hkept] at hstep ⊢
    cases htokens
    cases hsteps with
    | step here rest => exact .step (hstep.trans here) rest
  · rw [literalOf, if_neg hkept] at hstep ⊢
    exact .step hstep hsteps

end Lexer

open Lexer

theorem length_literalOf_le (kept : List Char) (position : Position) :
    (literalOf kept position).length ≤ 1 := by
  unfold literalOf
  split
  · exact Nat.zero_le 1
  · exact Nat.le_refl 1

theorem TagSpacing.le_length_tag (spacing : TagSpacing) (word : List Char) :
    word.length + 4 ≤ (spacing.tag word).length := by
  simp only [TagSpacing.tag, TagSpacing.close, List.length_append, Delimiter.opening_length,
    Delimiter.closing_length]
  omega

/-- The keyword of the tag that ends a verbatim block. -/
def Keyword.endKeyword (opener : Keyword) : Keyword := opener.closing?.getD opener

/-- The tokens of a verbatim block that is a whole source. -/
theorem tokenize_verbatim {opener : Keyword} (hopener : opener = .raw ∨ opener = .comment)
    {text : List Char} (hfree : FreeOfEndTag opener.endWord text) (first last : TagSpacing) :
    ∃ front start back, WordTagTokens opener front ∧ WordTagTokens opener.endKeyword back ∧
      tokenize (first.tag opener.word.toList ++ (text ++ last.tag opener.endWord)) =
        ⟨front ++
          (literalOf (keptText first.hyphenBehind text (last.tag opener.endWord)) start ++ back),
          none⟩ := by
  have hend : opener.closing? = some opener.endKeyword ∧ opener.endKeyword ≠ .raw ∧
      opener.endKeyword ≠ .comment := by
    rcases hopener with rfl | rfl <;> decide
  obtain ⟨hclosing, hraw, hcomment⟩ := hend
  obtain ⟨front, position, hfront, hsteps⟩ :=
    steps_wordTag first opener Position.start (text ++ last.tag opener.endWord)
  rw [modeAfter_push_verbatim hopener] at hsteps
  obtain ⟨start, back, position', hback, hsteps'⟩ :=
    steps_verbatim hclosing hraw hcomment hfree last first.hyphenBehind Position.start position
  refine ⟨front, start, back, hfront, hback,
    tokenize_of_steps (hsteps.append hsteps') (step_nil position' last.hyphenBehind) ?_⟩
  -- The two tags alone have more characters than the block has tokens.
  have hfirst := first.le_length_tag opener.word.toList
  have hlast := last.le_length_tag opener.endWord
  have hliteral :=
    length_literalOf_le (keptText first.hyphenBehind text (last.tag opener.endWord)) start
  obtain ⟨-, -, -⟩ := hfront
  obtain ⟨-, -, -⟩ := hback
  simp only [List.length_append, List.length_cons, List.length_nil]
  omega

end TextTemplate
