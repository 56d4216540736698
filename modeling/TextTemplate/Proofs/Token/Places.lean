import Mathlib.Data.List.Induction
import TextTemplate.Proofs.Token.Span
/-! # Places in a source

A place in a source is known by the text in front of it: the line feeds in that text tell its line,
what follows the last of them its column, and the bytes of the whole its offset. The lexer reports
places only that are places in its source.
-/

namespace TextTemplate

open Position

/-- What follows the last line feed of a text. -/
def lastLine (text : List Char) : List Char := (text.reverse.takeWhile (· ≠ '\n')).reverse

theorem lastLine_concat_feed (text : List Char) : lastLine (text ++ ['\n']) = [] := by
  simp [lastLine]

theorem lastLine_concat {c : Char} (h : c ≠ '\n') (text : List Char) :
    lastLine (text ++ [c]) = lastLine text ++ [c] := by
  simp [lastLine, h]

/-- A line goes on with what has no line feed. -/
theorem lastLine_append (text text' : List Char) :
    lastLine (text ++ text') =
      if text'.count '\n' = 0 then lastLine text ++ text' else lastLine text' := by
  induction text' using List.reverseRecOn with
  | nil => simp
  | append_singleton text' c ih =>
      rw [← List.append_assoc, List.count_append]
      by_cases hfeed : c = '\n'
      · subst hfeed
        rw [lastLine_concat_feed, lastLine_concat_feed, if_neg (by simp)]
      · rw [lastLine_concat hfeed, lastLine_concat hfeed, ih]
        simp only [List.count_singleton, beq_iff_eq, hfeed, ↓reduceIte, Nat.add_zero]
        split <;> simp

/-- The place behind a text, told by what is in it. -/
theorem positionBehind_eq (text : List Char) :
    positionBehind text =
      ⟨1 + text.count '\n', 1 + (lastLine text).length, byteLength text⟩ := by
  induction text using List.reverseRecOn with
  | nil => rfl
  | append_singleton text c ih =>
      have hstep : positionBehind (text ++ [c]) = (positionBehind text).advance c := by
        rw [positionBehind_append]
        rfl
      rw [hstep, ih, byteLength_append, List.count_append]
      by_cases hfeed : c = '\n'
      · subst hfeed
        simp [advance, lastLine_concat_feed, byteLength, Nat.add_assoc]
      · simp [advance, hfeed, lastLine_concat hfeed, byteLength, Nat.add_assoc]

/-- The position names a place in the source: its offset is that of a character or of the end, and
its line and column are those of the text in front of it. -/
def Position.IsIn (source : List Char) (position : Position) : Prop :=
  ∃ before after, source = before ++ after ∧ position.offset = byteLength before ∧
    position.line = 1 + before.count '\n' ∧ position.column = 1 + (lastLine before).length

/-- A position in the source is no further than its end. -/
theorem Position.IsIn.offset_le {source : List Char} {position : Position}
    (h : position.IsIn source) : position.offset ≤ byteLength source := by
  obtain ⟨before, after, rfl, hoffset, -, -⟩ := h
  exact hoffset ▸ byteLength_le_append before after

theorem byteLength_eq_utf8ByteSize (text : List Char) :
    byteLength text = (String.ofList text).utf8ByteSize := by
  induction text with
  | nil => rfl
  | cons c text ih =>
      have hchar : (String.ofList [c]).utf8ByteSize = c.utf8Size := by simp
      rw [byteLength, ih, ← List.singleton_append, String.ofList_append,
        String.utf8ByteSize_append, hchar]

/-- The place behind the first part of a source is in the source. -/
theorem isIn_positionBehind {source before : List Char} (h : before <+: source) :
    (positionBehind before).IsIn source := by
  obtain ⟨after, rfl⟩ := h
  rw [positionBehind_eq]
  exact ⟨before, after, rfl, rfl, rfl, rfl⟩

theorem isIn_start (source : List Char) : Position.start.IsIn source :=
  isIn_positionBehind List.nil_prefix

/-- The places that are remembered inside a tag, and behind one, are in the source. -/
def Place.IsIn (source : List Char) : Place → Prop
  | .text _ (some (_, opened)) => opened.IsIn source
  | .inside _ read => ∀ token ∈ read, token.position.IsIn source
  | _ => True

/-- The places of the tokens and of the error of a stream are in the source. -/
structure TokenStream.IsIn (source : List Char) (stream : TokenStream) : Prop where
  tokens : ∀ token ∈ stream.tokens, token.position.IsIn source
  failure : ∀ error, stream.failure? = some error → error.position.IsIn source

theorem TokenStream.IsIn.behind {source : List Char} {stream : TokenStream} {tokens : List Token}
    (h : stream.IsIn source) (htokens : ∀ token ∈ tokens, token.position.IsIn source) :
    (stream.behind tokens).IsIn source :=
  ⟨List.forall_mem_append.mpr ⟨htokens, h.tokens⟩, h.failure⟩

theorem isIn_failed {source : List Char} {cause : SyntaxCause} {position : Position}
    (h : position.IsIn source) : (⟨[], some ⟨cause, position⟩⟩ : TokenStream).IsIn source := by
  refine ⟨nofun, ?_⟩
  rintro _ ⟨⟩
  exact h

/-- The verbatim block that a tag opens is opened at a token of the tag. -/
theorem isIn_verbatimOpener? {source : List Char} {delimiter : Delimiter} {read : List Token}
    (h : ∀ token ∈ read, token.position.IsIn source) (hyphen : Bool) :
    (Place.text hyphen (verbatimOpener? delimiter read)).IsIn source := by
  unfold verbatimOpener?
  split
  next opening first more =>
    have hopening := h opening List.mem_cons_self
    split
    · exact hopening
    · exact hopening
    · trivial
  next => trivial

/-- What the lexer reports from a place on is in the source. -/
theorem Scanned.isIn {source before text : List Char} {place : Place} {stream : TokenStream}
    (h : Scanned place before text stream) (hsource : source = before ++ text)
    (hplace : place.IsIn source) : stream.IsIn source := by
  induction h with
  | @run _ _ _ before run after lead kept trail stream stops hyphened trimming rest ih =>
      have hprefix : before ++ lead <+: source :=
        ⟨kept ++ (trail ++ after), by rw [hsource, trimming.run_eq]; simp⟩
      refine (ih (by rw [hsource, List.append_assoc]) trivial).behind ?_
      intro token hmem
      unfold literalOf at hmem
      split at hmem
      · cases hmem
      · rw [List.mem_singleton.mp hmem]
        exact isIn_positionBehind hprefix
  | unclosed endless => exact isIn_failed hplace
  | finished => exact ⟨nofun, nofun⟩
  | @opening _ _ _ _ token _ _ spelling longest token_eq rest ih =>
      have htoken : ∀ token' ∈ [token], token'.position.IsIn source := by
        rw [List.forall_mem_singleton, token_eq]
        exact isIn_positionBehind ⟨_, hsource.symm⟩
      exact (ih (by rw [hsource, List.append_assoc]) htoken).behind htoken
  | unterminated => exact isIn_failed (isIn_positionBehind ⟨_, hsource.symm⟩)
  | @inner _ read before gap text after token _ blank ne_nil inside spells position_eq rest ih =>
      have hsplit : source = before ++ gap ++ (text ++ after) := by rw [hsource]; simp
      have htoken : ∀ token' ∈ [token], token'.position.IsIn source := by
        rw [List.forall_mem_singleton, position_eq]
        exact isIn_positionBehind ⟨_, hsplit.symm⟩
      have hread := List.forall_mem_append.mpr ⟨hplace, htoken⟩
      exact (ih (by rw [hsplit]; simp) hread).behind htoken
  | @closing _ read hyphen before gap text after token _ blank spelling token_eq rest ih =>
      have hsplit : source = before ++ gap ++ (text ++ after) := by rw [hsource]; simp
      have htoken : ∀ token' ∈ [token], token'.position.IsIn source := by
        rw [List.forall_mem_singleton, token_eq]
        exact isIn_positionBehind ⟨_, hsplit.symm⟩
      exact (ih (by rw [hsplit]; simp) (isIn_verbatimOpener? hplace hyphen)).behind htoken
  | @strange _ _ before gap after c blank =>
      have hsplit : source = before ++ gap ++ c :: after := by rw [hsource, List.append_assoc]
      exact isIn_failed (isIn_positionBehind ⟨_, hsplit.symm⟩)
  | unfinished => exact isIn_failed (hplace _ List.mem_cons_self)

/-- The tokens of a source and its lexical error are in the source. -/
theorem tokenize_isIn (source : List Char) : (tokenize source).IsIn source :=
  (scanned_tokenize source).isIn (List.nil_append source).symm trivial

end TextTemplate
