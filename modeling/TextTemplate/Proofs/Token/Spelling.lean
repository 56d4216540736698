import TextTemplate.Proofs.Text.Cutting
import TextTemplate.Token.Lexer
/-! # How tokens are spelled

The source text of a token is its own text, with a string in quotes of one kind. What is read inside
a tag is always spelled by the characters it takes, and it takes at least one.
-/

namespace TextTemplate

namespace TokenKind

/-- The kinds of token found between the delimiters of a tag. -/
def isInner : TokenKind → Bool
  | .literal | .outputOpen | .outputClose | .tagOpen | .tagClose => false
  | _ => true

/-- The source text `spelling` is that of a token of this kind with the text `text`. -/
def Spells (kind : TokenKind) (text spelling : List Char) : Prop :=
  if kind = .string then
    ∃ quote, (quote = '"' ∨ quote = '\'') ∧ spelling = quote :: text ++ [quote]
  else spelling = text

theorem spells_of_ne_string {kind : TokenKind} (h : kind ≠ .string) (text : List Char) :
    kind.Spells text text := by
  simp [Spells, h]

theorem spells_ofList {kind : TokenKind} (h : kind ≠ .string) (text : List Char) :
    kind.Spells (String.ofList text).toList text := by
  rw [String.toList_ofList]
  exact spells_of_ne_string h text

end TokenKind

namespace Lexeme

/-- A lexeme made of the characters `spelling`, of which there is at least one. -/
structure SpelledBy (lexeme : Lexeme) (spelling : List Char) : Prop where
  ne_nil : spelling ≠ []
  width_eq : lexeme.width = spelling.length
  spells : lexeme.kind.Spells lexeme.text spelling
  inner : lexeme.kind.isInner = true

theorem spelledBy_plain {kind : TokenKind} {text : List Char} (hne : text ≠ [])
    (hkind : kind ≠ .string) (hinner : kind.isInner = true) :
    (plain kind text).SpelledBy text :=
  ⟨hne, rfl, TokenKind.spells_of_ne_string hkind text, hinner⟩

theorem wordTail_isPrefix (text : List Char) : ∃ after, text = wordTail text ++ after := by
  induction text with
  | nil => exact ⟨[], rfl⟩
  | cons c text ih =>
      obtain ⟨after, hafter⟩ := ih
      have hkept : ∃ after', c :: text = c :: wordTail text ++ after' :=
        ⟨after, by rw [List.cons_append, ← hafter]⟩
      unfold wordTail
      split
      · exact hkept
      · split
        · split
          · exact ⟨[c], rfl⟩
          · split
            · exact hkept
            · exact ⟨_, rfl⟩
        · exact ⟨c :: text, rfl⟩

theorem numberText_isPrefix (fraction : Bool) (text : List Char) :
    ∃ after, text = numberText fraction text ++ after := by
  have hsplit : text.takeWhile Numeral.isDigit ++ text.dropWhile Numeral.isDigit = text :=
    List.takeWhile_append_dropWhile
  have hwhole : ∃ after, text = text.takeWhile Numeral.isDigit ++ after := ⟨_, hsplit.symm⟩
  unfold numberText
  dsimp only
  split
  next c rest hpoint =>
    split
    · refine ⟨(c :: rest).dropWhile Numeral.isDigit, ?_⟩
      rw [List.append_assoc, List.cons_append, List.takeWhile_append_dropWhile, ← hpoint, hsplit]
    · exact hwhole
  next => exact hwhole

theorem numberText_ne_nil {fraction : Bool} {c : Char} {rest : List Char}
    (hc : Numeral.isDigit c = true) : numberText fraction (c :: rest) ≠ [] := by
  unfold numberText
  dsimp only
  rw [List.takeWhile_cons, if_pos hc]
  split
  · split <;> simp
  · simp

theorem spelledBy_ofWord {afterDot : Bool} {text : List Char} (hne : text ≠ []) :
    (ofWord afterDot text).SpelledBy text := by
  unfold ofWord
  split
  · split
    · exact spelledBy_plain hne (by simp) rfl
    · exact spelledBy_plain hne (by simp) rfl
  · exact spelledBy_plain hne (by simp) rfl

/-- The characters that are tokens by themselves, whether or not they also begin longer ones. -/
def signChars : List Char := ['=', '<', '>', '|', ':', ',', '.', '[', ']', '(', ')']

/-- A text that starts with a token: a word, a number, a string or a sign. Of a string only the
first quote has to be there. -/
inductive StartsToken : List Char → Prop
  | word {c : Char} {rest : List Char} (start : isWordStart c = true) : StartsToken (c :: rest)
  | digit {c : Char} {rest : List Char} (digit : Numeral.isDigit c = true) :
      StartsToken (c :: rest)
  | negative {c : Char} {rest : List Char} (digit : Numeral.isDigit c = true) :
      StartsToken ('-' :: c :: rest)
  | quote {c : Char} {rest : List Char} (quote : c = '"' ∨ c = '\'') : StartsToken (c :: rest)
  | sign {c : Char} {rest : List Char} (sign : c ∈ signChars) : StartsToken (c :: rest)
  | unequal {rest : List Char} : StartsToken ('!' :: '=' :: rest)

/-- A text that ends before a token of it does: there is nothing left, or a string without its
second quote. -/
inductive IsCutOff : List Char → Prop
  | nothing : IsCutOff []
  | string {quote : Char} {rest : List Char} (quote_eq : quote = '"' ∨ quote = '\'')
      (endless : quote ∉ rest) : IsCutOff (quote :: rest)

/-- What may come of reading at the start of a text. -/
inductive Outcome (text : List Char) : Except LexemeFault Lexeme → Prop
  | lexeme {lexeme : Lexeme} {spelling after : List Char} (text_eq : text = spelling ++ after)
      (spelled : lexeme.SpelledBy spelling) : Outcome text (.ok lexeme)
  | strange {c : Char} {after : List Char} (text_eq : text = c :: after)
      (starts_none : ¬ StartsToken text) : Outcome text (.error (.unexpected c))
  | unfinished (cut : IsCutOff text) : Outcome text (.error .unfinished)

theorem outcome_sign {kind : TokenKind} {c : Char} {rest : List Char} (hkind : kind ≠ .string)
    (hinner : kind.isInner = true) : Outcome (c :: rest) (.ok (plain kind [c])) :=
  .lexeme (List.singleton_append (x := c)).symm
    (spelledBy_plain (List.cons_ne_nil _ _) hkind hinner)

theorem outcome_pair {kind : TokenKind} {c d : Char} {rest : List Char}
    (hrest : rest.head? = some d) (hkind : kind ≠ .string) (hinner : kind.isInner = true) :
    Outcome (c :: rest) (.ok (plain kind [c, d])) := by
  obtain ⟨behind, rfl⟩ := List.head?_eq_some_iff.mp hrest
  exact .lexeme (List.append_cons [c] d behind)
    (spelledBy_plain (List.cons_ne_nil _ _) hkind hinner)

/-- What is read takes some characters from the text and is spelled by them. A character is refused
only where no token starts, and a text is at its end only where it cuts one off. -/
theorem outcome_read (afterDot : Bool) (text : List Char) : Outcome text (read afterDot text) := by
  cases text with
  | nil => exact .unfinished .nothing
  | cons c rest =>
      simp only [read]
      split
      next =>
        obtain ⟨after, hafter⟩ := wordTail_isPrefix rest
        have hrest : c :: rest = c :: wordTail rest ++ after := by rw [List.cons_append, ← hafter]
        exact .lexeme hrest (spelledBy_ofWord (List.cons_ne_nil _ _))
      next hword =>
        split
        next hdigit =>
          obtain ⟨after, hafter⟩ := numberText_isPrefix (!afterDot) (c :: rest)
          exact .lexeme hafter (spelledBy_plain (numberText_ne_nil hdigit) (by simp) rfl)
        next hdigit =>
          split
          next hminus =>
            simp only [Bool.and_eq_true, decide_eq_true_eq] at hminus
            obtain ⟨after, hafter⟩ := numberText_isPrefix (!afterDot) rest
            have hrest : c :: rest = '-' :: numberText (!afterDot) rest ++ after := by
              rw [List.cons_append, ← hafter, hminus.1]
            exact .lexeme hrest (spelledBy_plain (List.cons_ne_nil _ _) (by simp) rfl)
          next hminus =>
            split
            next hquote =>
              have hquote : c = '"' ∨ c = '\'' := by simpa using hquote
              split
              next content behind hcontent =>
                have hrest := Text.eq_append_of_splitFirst? hcontent
                have hstring : c :: rest = c :: content ++ [c] ++ behind := by
                  rw [hrest, List.cons_append, List.cons_append]
                exact .lexeme hstring ⟨by simp, by simp, ⟨c, hquote, rfl⟩, rfl⟩
              next hnone =>
                refine .unfinished (.string hquote ?_)
                intro hmem
                obtain ⟨front, back, rfl⟩ := List.append_of_mem hmem
                exact (Text.splitFirst?_eq_none_iff (List.cons_ne_nil c [])).mp hnone
                  ⟨front, back, by simp⟩
            next hquote =>
              split
              all_goals first
                | exact outcome_pair ‹_› (by simp) rfl
                | exact outcome_sign (by simp) rfl
                | skip
              refine .strange rfl ?_
              intro hstarts
              cases hstarts with
              | word start => exact hword start
              | digit digit => exact hdigit digit
              | negative digit => simp [digit] at hminus
              | quote quote => simp [quote] at hquote
              | sign sign => simp_all [signChars]
              | unequal => simp_all

theorem spelledBy_of_read {afterDot : Bool} {text : List Char} {lexeme : Lexeme}
    (h : read afterDot text = .ok lexeme) :
    ∃ spelling after, text = spelling ++ after ∧ lexeme.SpelledBy spelling := by
  have houtcome := outcome_read afterDot text
  rw [h] at houtcome
  cases houtcome with
  | lexeme text_eq spelled => exact ⟨_, _, text_eq, spelled⟩

end Lexeme

end TextTemplate
