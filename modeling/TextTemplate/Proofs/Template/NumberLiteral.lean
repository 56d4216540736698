import TextTemplate.Proofs.Json.RoundTrip
import TextTemplate.Proofs.Template.Concatenation
import TextTemplate.Proofs.Template.Join
import TextTemplate.Proofs.Value.Numeric
/-! # Whole numbers in templates and in documents

A whole number can be written into a template or stand in the document. Main statement: the two
agree up to 64 bits, and beyond the template takes the floating-point value next to the number.
-/

namespace TextTemplate

open Text Lexeme Numeral

/-! ## The digits of an integer -/

namespace Numeral

theorem isDigits_digits (n : Nat) : IsDigits (digits n) := by
  obtain ⟨c, rest, heq, -⟩ := exists_digits_eq_cons n
  exact ⟨heq ▸ List.cons_ne_nil c rest, fun _ => isDigit_of_mem_digits⟩

/-- An integer is written as its digits, with a minus sign in front if it is negative. -/
theorem exists_sign_ofInt (n : Int) :
    ∃ mark, IsSign mark (decide (n < 0)) ∧ ofInt n = mark ++ digits n.natAbs := by
  unfold ofInt
  split
  next h => exact ⟨['-'], (decide_eq_true h) ▸ .minus, rfl⟩
  next h => exact ⟨[], (decide_eq_false h) ▸ .none, rfl⟩

/-- What an integer is written with: digits, and perhaps a minus sign in front of them. -/
theorem ofInt_cases (n : Int) : ∃ c rest, (∀ d ∈ c :: rest, isDigit d = true) ∧
    (ofInt n = c :: rest ∨ ofInt n = '-' :: c :: rest) := by
  obtain ⟨c, rest, heq, -⟩ := exists_digits_eq_cons n.natAbs
  refine ⟨c, rest, heq ▸ fun _ => isDigit_of_mem_digits, ?_⟩
  unfold ofInt
  rw [heq]
  split
  · exact .inr rfl
  · exact .inl rfl

theorem signed_natAbs (n : Int) : signed (decide (n < 0)) n.natAbs = n := by
  unfold signed
  split
  next h =>
    have := of_decide_eq_true h
    omega
  next h =>
    have := of_decide_eq_false (Bool.eq_false_iff.mpr h)
    omega

/-- What is written for an integer writes it. -/
theorem writesInt_ofInt (n : Int) : WritesInt (ofInt n) n := by
  obtain ⟨mark, hmark, hof⟩ := exists_sign_ofInt n
  have hwrites := WritesInt.intro hmark (isDigits_digits n.natAbs)
  rwa [value_digits, signed_natAbs, ← hof] at hwrites

/-- An integer that is written is read back if it fits in 64 bits. -/
theorem readInt64?_ofInt (n : Int) :
    readInt64? (ofInt n) = if fitsInt64 n = true then some n else none := by
  obtain ⟨mark, hmark, hof⟩ := exists_sign_ofInt n
  have hdigits := isDigits_digits n.natAbs
  rw [hof, readInt64?_eq, sign_append hmark hdigits.unsigned, if_neg]
  · rw [value_digits, signed_natAbs]
  · rw [isDigits_iff.mp hdigits]
    exact nofun

/-- An integer that is written is read as the nearest float. -/
theorem readBinary64?_ofInt {n : Int} (hne : n ≠ 0) :
    readBinary64? (ofInt n) = some (Binary64.ofInt n) := by
  obtain ⟨negative, hnegative, hwrites⟩ := (writesInt_ofInt n).writes
  rw [hnegative hne] at hwrites
  exact readBinary64?_eq_some_iff.mpr hwrites

end Numeral

/-! ## The values -/

namespace Parser

variable {n : Int}

/-- An integer of 64 bits is the value of its digits in a template. -/
theorem numberValue?_of_lt (hlow : -2 ^ 63 ≤ n) (hhigh : n < 2 ^ 63) :
    numberValue? (String.ofList (ofInt n)) = some (.ofInt n) := by
  have hread := readInt64?_ofInt n
  rw [if_pos (Numeral.fitsInt64_iff.mpr ⟨hlow, hhigh⟩)] at hread
  simp only [numberValue?, String.toList_ofList, hread]

/-- Beyond them it is the floating-point value next to the number. -/
theorem numberValue?_of_ge (hlow : 2 ^ 63 ≤ n) (hhigh : n < 2 ^ 64) :
    ∃ x, Binary64.ofInt n = .finite x ∧
      numberValue? (String.ofList (ofInt n)) = some (.number (.float x)) := by
  obtain ⟨x, hx, -⟩ := Binary64.exists_ofInt_eq_finite (n := n) (by omega)
  have hread := readInt64?_ofInt n
  rw [if_neg (Numeral.not_fitsInt64_of_le hlow)] at hread
  have hfloat := readBinary64?_ofInt (n := n) (by omega)
  rw [hx] at hfloat
  refine ⟨x, hx, ?_⟩
  simp only [numberValue?, String.toList_ofList, hread, hfloat]

end Parser

/-- The digits of a whole number are a document, which is that number. -/
theorem readDocument_ofInt {n : Int} (hfits : (Number.int n).Fits) :
    readDocument (String.ofList (ofInt n)) = .ok (.ofInt n) := by
  have hproper : (Value.ofInt n).ProperWithin Json.greatestDepth :=
    Value.properWithin_number.mpr hfits
  have hread : Json.read (ofInt n) = .ok (.ofInt n) := Json.read_json hproper rfl
  rw [readDocument, String.toList_ofList, hread]

/-! ## The token -/

namespace Lexeme

/-- What follows a number and does not belong to it. -/
def EndsNumber (rest : List Char) : Prop :=
  (∀ c ∈ rest.head?, isDigit c = false) ∧ ∀ c more, rest = '.' :: c :: more → isDigit c = false

theorem endsNumber_space (rest : List Char) : EndsNumber (' ' :: rest) := by
  refine ⟨?_, nofun⟩
  rintro _ ⟨⟩
  rfl

variable {rest : List Char}

/-- A number is taken from its digits up to what ends it. -/
theorem numberText_digits (fraction : Bool) {text : List Char}
    (htext : ∀ c ∈ text, isDigit c = true) (hrest : EndsNumber rest) :
    numberText fraction (text ++ rest) = text := by
  obtain ⟨htake, hdrop⟩ := span_digits htext hrest.1
  unfold numberText
  dsimp only
  rw [htake, hdrop]
  split
  next c more => rw [hrest.2 c more rfl, Bool.and_false, if_neg nofun]
  next => rfl

/-- The digits of an integer are one number, wherever they stand. -/
theorem read_ofInt (afterDot : Bool) (n : Int) (hrest : EndsNumber rest) :
    read afterDot (ofInt n ++ rest) = .ok (plain .number (ofInt n)) := by
  obtain ⟨c, more, hdigits, hof⟩ := ofInt_cases n
  have hc : isDigit c = true := hdigits c List.mem_cons_self
  have hnumber := numberText_digits (!afterDot) hdigits hrest
  rw [List.cons_append] at hnumber
  rcases hof with hof | hof
  · have hstart : isWordStart c = false :=
      of_isDigit (P := fun c => isWordStart c = false) (by decide) hc
    rw [hof, List.cons_append]
    unfold read
    simp only [hstart, hc, Bool.false_eq_true, ↓reduceIte, hnumber]
  · have hsign : isWordStart '-' = false ∧ isDigit '-' = false := by decide
    rw [hof, List.cons_append, List.cons_append]
    unfold read
    simp only [hsign.1, hsign.2, List.head?_cons, Option.any_some, hc, decide_true, Bool.and_self,
      Bool.false_eq_true, ↓reduceIte, hnumber]

end Lexeme

/-- The tokens of an output tag that starts a source and has a single token in it. -/
inductive OutputTagTokens (kind : TokenKind) (text : List Char) : List Token → Prop
  | intro {opening inner closing : Token} (opening_kind : opening.kind = .outputOpen)
      (position : opening.position = .start) (inner_kind : inner.kind = kind)
      (inner_text : inner.text = String.ofList text) (closing_kind : closing.kind = .outputClose) :
      OutputTagTokens kind text [opening, inner, closing]

namespace Lexer

/-- No tag is closed where a number starts. -/
theorem closingAt?_ofInt (delimiter : Delimiter) (n : Int) (rest : List Char) :
    closingAt? delimiter (ofInt n ++ rest) = none := by
  cases hclosing : closingAt? delimiter (ofInt n ++ rest) with
  | none => rfl
  | some found =>
      obtain ⟨width, trim⟩ := found
      obtain ⟨after, htext, -⟩ := closingAt?_eq_some hclosing
      obtain ⟨c, more, hdigits, hof⟩ := ofInt_cases n
      have hc : isDigit c = true := hdigits c List.mem_cons_self
      -- a number has a digit where a tag ends in a brace or a percent sign
      have hne : c ≠ '\x7d' ∧ c ≠ '%' ∧ c ≠ '-' :=
        ⟨ne_of_isDigit hc rfl, ne_of_isDigit hc rfl, ne_of_isDigit hc rfl⟩
      rcases hof with hof | hof <;> rw [hof] at htext <;> cases trim <;> cases delimiter <;>
        simp [hyphenText, Delimiter.closing, hne] at htext

theorem not_isBlank_head_ofInt (n : Int) (rest : List Char) :
    ∀ c, (ofInt n ++ rest).head? = some c → isBlank c = false := by
  intro c hc
  obtain ⟨d, more, hdigits, hof⟩ := ofInt_cases n
  rcases hof with hof | hof
  · rw [hof] at hc
    cases hc
    exact of_isDigit (P := fun c => isBlank c = false) (by decide) (hdigits _ List.mem_cons_self)
  · rw [hof] at hc
    cases hc
    decide

/-- A lexeme that is spelled as it stands can be put into an output tag. -/
theorem tokenize_outputTag {kind : TokenKind} {text : List Char}
    (hread : Lexeme.read false (text ++ [' ', '\x7d', '\x7d']) = .ok (Lexeme.plain kind text))
    (hstays : closingAt? .output (text ++ [' ', '\x7d', '\x7d']) = none)
    (hahead : ∀ c, (text ++ [' ', '\x7d', '\x7d']).head? = some c → isBlank c = false) :
    ∃ tokens, OutputTagTokens kind text tokens ∧
      tokenize ('\x7b' :: '\x7b' :: ' ' :: (text ++ [' ', '\x7d', '\x7d'])) = ⟨tokens, none⟩ := by
  let source := '\x7b' :: '\x7b' :: ' ' :: (text ++ [' ', '\x7d', '\x7d'])
  let behind := Position.start.advanceBy ['\x7b', '\x7b']
  let tag : OpenTag := ⟨.output, .start, none, none⟩
  have hspace : ∀ c ∈ [' '], isBlank c = true := List.forall_mem_singleton.mpr rfl
  have hopen : step (ofSource source) = .token ⟨.outputOpen, "\x7b\x7b", .start⟩
      ⟨[' '] ++ (text ++ [' ', '\x7d', '\x7d']), behind, .inside tag⟩ := by
    have hopens : OpensTag source := ⟨.output, ' ' :: (text ++ [' ', '\x7d', '\x7d']), rfl⟩
    have hcloses :
        occurs Delimiter.output.closing (' ' :: (text ++ [' ', '\x7d', '\x7d'])) = true :=
      occurs_iff.mpr ⟨' ' :: (text ++ [' ']), [], by simp [Delimiter.closing]⟩
    rw [ofSource, step_of_opensTag hopens, openTag_eq]
    exact if_pos hcloses
  have hlexeme := step_inside_append hspace hahead behind tag
  rw [hstays] at hlexeme
  have hstart : (tag.last? == some TokenKind.dot) = false := rfl
  simp only [hstart, hread, Lexeme.plain, List.take_left, List.drop_left] at hlexeme
  have hbrace : ∀ c, ['\x7d', '\x7d'].head? = some c → isBlank c = false := by
    rintro _ ⟨⟩
    rfl
  have hclose := step_inside_append hspace hbrace ((behind.advanceBy [' ']).advanceBy text)
    (tag.push kind)
  have hclosing : closingAt? (tag.push kind).delimiter ['\x7d', '\x7d'] = some (2, false) := rfl
  rw [hclosing] at hclose
  have hsteps := Steps.step hopen (.step hlexeme (.step hclose .refl))
  refine ⟨_, .intro rfl rfl rfl rfl rfl, tokenize_of_steps hsteps (step_nil _ false) ?_⟩
  simp

/-- An output tag around an integer has that number for its only token inside. -/
theorem tokenize_ofInt (n : Int) : ∃ tokens, OutputTagTokens .number (ofInt n) tokens ∧
    tokenize ('\x7b' :: '\x7b' :: ' ' :: (ofInt n ++ [' ', '\x7d', '\x7d'])) = ⟨tokens, none⟩ :=
  tokenize_outputTag (read_ofInt false n (endsNumber_space _)) (closingAt?_ofInt _ n _)
    (not_isBlank_head_ofInt n _)

end Lexer

/-! ## The template -/

namespace Grammar

theorem primary_number {token : Token} {value : Value} (kind : token.kind = .number)
    (value_eq : Parser.numberValue? token.text = some value) (depth : Nat) :
    Primary depth [token] (.literal value) := by
  obtain ⟨number, rfl, hnumber⟩ := Parser.numberValue?_eq_some_iff.mp value_eq
  cases depth with
  | zero => exact .number kind hnumber
  | succ depth => exact .number kind hnumber

end Grammar

/-- An output tag with an integer in it. -/
def integerTag (n : Int) : String := "\x7b\x7b " ++ String.ofList (ofInt n) ++ " \x7d\x7d"

/-- An output tag with the whole document. -/
def documentTag : String := "\x7b\x7b model \x7d\x7d"

theorem parseNodes_documentTag :
    parseNodes documentTag 0 = .ok [.output (.path [.field "model"]) ⟨1, 1, 0⟩] := by decide +kernel

/-- An output tag around an integer is parsed as the literal that the number is read as. -/
theorem parseTemplate_integerTag {n : Int} {value : Value}
    (hvalue : Parser.numberValue? (String.ofList (ofInt n)) = some value)
    (options : RenderOptions) :
    parseTemplate (integerTag n) options = .ok [.output (.literal value) ⟨1, 1, 0⟩] := by
  obtain ⟨_, ⟨hopening, hposition, hkind, htext, hclosing⟩, htokens⟩ := Lexer.tokenize_ofInt n
  have hsource : (integerTag n).toList =
      '\x7b' :: '\x7b' :: ' ' :: (ofInt n ++ [' ', '\x7d', '\x7d']) := by
    simp [integerTag]
  rw [← htext] at hvalue
  have hnumber := Grammar.primary_number hkind hvalue options.maxNestingDepth
  have houtput := Grammar.expression_of_primary hnumber
  refine parseTemplate_of_known (parseNodes_eq_ok_iff.mpr ?_) rfl
  unfold Position.start at hposition
  rw [hsource, htokens, Grammar.nodes_eq, ← hposition]
  exact ⟨rfl, _, .cons (.output hopening houtput hclosing) .nil⟩

/-- The document is written as the text of its value. -/
theorem renderText_documentTag {document : String} {root : Value}
    (hread : readDocument document = .ok root) (options : RenderOptions) :
    renderText document documentTag options = .ok root.toText := by
  have hmodel : (Scope.ofDocument root).get? "model" = some root := rfl
  have hparse := parseTemplate_of_levels parseNodes_documentTag rfl
    options.maxNestingDepth.zero_le
  have houtput := Render.nodes_output_alone options.maxIterations ⟨1, 1, 0⟩
    (Context.evaluate_field hmodel)
  rw [renderText_eq hread hparse]
  exact congrArg Render.reported houtput

theorem renderText_integerTag {n : Int} {value : Value}
    (hvalue : Parser.numberValue? (String.ofList (ofInt n)) = some value) {document : String}
    {root : Value} (hread : readDocument document = .ok root) (options : RenderOptions) :
    renderText document (integerTag n) options = .ok value.toText := by
  have hliteral : Context.evaluate ⟨Scope.ofDocument root, options.maxIterations⟩
      (.literal value) = .ok value := rfl
  rw [renderText_eq hread (parseTemplate_integerTag hvalue options)]
  exact congrArg Render.reported (Render.nodes_output_alone _ ⟨1, 1, 0⟩ hliteral)

/-- A whole number stands for itself in a document, and up to 64 bits in a template as well. Beyond
them the template has the floating-point value next to it instead. -/
theorem integer_literal_agrees_iff {n : Int} (hfits : (Number.int n).Fits) :
    let text := String.ofList (ofInt n)
    (readDocument text = .ok (.ofInt n) ∧
      ∀ options, renderText text documentTag options = .ok text) ∧
    (∀ afterDot rest, Lexeme.EndsNumber rest →
      Lexeme.read afterDot (ofInt n ++ rest) = .ok (Lexeme.plain .number (ofInt n))) ∧
    ∃ value, Parser.numberValue? text = some value ∧
      (∀ options, parseTemplate (integerTag n) options =
        .ok [.output (.literal value) ⟨1, 1, 0⟩]) ∧
      (∀ {document : String} {root : Value}, readDocument document = .ok root → ∀ options,
        renderText document (integerTag n) options = .ok value.toText) ∧
      (value = .ofInt n ↔ n < 2 ^ 63) ∧ (n < 2 ^ 63 → value.toText = text) ∧
      (2 ^ 63 ≤ n → ∃ x, Binary64.ofInt n = .finite x ∧ value = .number (.float x)) := by
  intro text
  have hdocument := readDocument_ofInt hfits
  have htext : (Value.ofInt n).toText = text := rfl
  obtain ⟨hlow, hhigh⟩ := hfits
  refine ⟨⟨hdocument, fun options => renderText_documentTag hdocument options⟩,
    fun afterDot rest => Lexeme.read_ofInt afterDot n, ?_⟩
  rcases lt_or_ge n (2 ^ 63) with hsmall | hlarge
  · have hvalue := Parser.numberValue?_of_lt hlow hsmall
    exact ⟨.ofInt n, hvalue, parseTemplate_integerTag hvalue, renderText_integerTag hvalue,
      iff_of_true rfl hsmall, fun _ => htext, fun hlarge => absurd hlarge (not_le.mpr hsmall)⟩
  · obtain ⟨x, hx, hvalue⟩ := Parser.numberValue?_of_ge hlarge (by omega)
    exact ⟨.number (.float x), hvalue, parseTemplate_integerTag hvalue,
      renderText_integerTag hvalue, iff_of_false nofun (not_lt.mpr hlarge),
      fun hsmall => absurd hsmall (not_lt.mpr hlarge), fun _ => ⟨x, hx, rfl⟩⟩

/-- The least whole number is the same in both; the greatest is rounded in a template and printed
with other digits. -/
theorem integer_literal_agrees_iff_ends :
    let least := "-9223372036854775808"
    let greatest := "18446744073709551615"
    let options : RenderOptions := {}
    ((Number.int (-2 ^ 63)).Fits ∧ renderText least documentTag options = .ok least ∧
        renderText least "\x7b\x7b -9223372036854775808 \x7d\x7d" options = .ok least) ∧
      (Number.int (2 ^ 64 - 1)).Fits ∧ renderText greatest documentTag options = .ok greatest ∧
        renderText greatest "\x7b\x7b 18446744073709551615 \x7d\x7d" options =
          .ok "18446744073709552000" := by
  intro least greatest options
  have hleast : (Number.int (-2 ^ 63)).Fits := ⟨by decide, by decide⟩
  have hgreatest : (Number.int (2 ^ 64 - 1)).Fits := ⟨by decide, by decide⟩
  have hdigits : ofInt (-2 ^ 63) = least.toList := by decide +kernel
  have hdigits' : ofInt (2 ^ 64 - 1) = greatest.toList := by decide +kernel
  obtain ⟨⟨hread, hdocument⟩, -, value, -, -, hrender, -, hexact, -⟩ :=
    integer_literal_agrees_iff hleast
  obtain ⟨⟨hread', hdocument'⟩, -, rounded, -, -, hrender', -, -, hfloat⟩ :=
    integer_literal_agrees_iff hgreatest
  have hprinted := hrender hread options
  have hprinted' := hrender' hread' options
  rw [hexact (by decide), integerTag, hdigits, String.ofList_toList] at hprinted
  rw [hdigits, String.ofList_toList] at hdocument
  -- the value next to the greatest number is the power of two behind it
  have hnearest : Binary64.ofInt (2 ^ 64 - 1) = .finite ⟨false, 2 ^ 52, 12⟩ := by decide
  have htext : (Value.number (.float ⟨false, 2 ^ 52, 12⟩)).toText = "18446744073709552000" := by
    decide +kernel
  obtain ⟨x, hx, rfl⟩ := hfloat (by decide)
  obtain rfl := Binary64.finite.inj (hx.symm.trans hnearest)
  rw [htext, integerTag, hdigits', String.ofList_toList] at hprinted'
  rw [hdigits', String.ofList_toList] at hdocument'
  exact ⟨⟨hleast, hdocument options, hprinted⟩, hgreatest, hdocument' options, hprinted'⟩

end TextTemplate
