import TextTemplate.Proofs.Token.Coverage
/-! # Where tokens stand in their source

The span of a token goes from the byte offset of its first character to behind its last, the quotes
of a string included. Spans are not empty, do not overlap and come in the order of the source, so no
two tokens of a source are equal and there are no more tokens than bytes.
-/

namespace TextTemplate

open Position

theorem byteLength_append (text text' : List Char) :
    byteLength (text ++ text') = byteLength text + byteLength text' := by
  induction text with
  | nil => simp [byteLength]
  | cons c text ih =>
      rw [List.cons_append, byteLength, byteLength, ih]
      omega

theorem byteLength_le_append (text text' : List Char) :
    byteLength text ≤ byteLength (text ++ text') := by
  rw [byteLength_append]
  exact Nat.le_add_right _ _

theorem byteLength_pos {text : List Char} (h : text ≠ []) : 0 < byteLength text := by
  cases text with
  | nil => exact absurd rfl h
  | cons c text =>
      have hsize := Char.utf8Size_pos c
      rw [byteLength]
      omega

/-- A position moves on by the bytes of the text. -/
theorem Position.offset_advanceBy (position : Position) (text : List Char) :
    (position.advanceBy text).offset = position.offset + byteLength text := by
  induction text generalizing position with
  | nil => rfl
  | cons c text ih =>
      have hstep : (position.advance c).offset = position.offset + c.utf8Size := by
        unfold advance
        split <;> rfl
      change ((position.advance c).advanceBy text).offset = _
      rw [ih, hstep, byteLength]
      omega

theorem offset_positionBehind (text : List Char) :
    (positionBehind text).offset = byteLength text := by
  rw [positionBehind, Position.offset_advanceBy]
  exact Nat.zero_add _

namespace Token

/-- The byte offset of the first character of a token. -/
def start (token : Token) : Nat := token.position.offset

/-- The byte offset behind the last character of a token. -/
def stop (token : Token) : Nat :=
  token.start + byteLength token.text.toList + if token.kind = .string then 2 else 0

/-- A token starts where its spelling does and stops where it ends. -/
theorem stop_of_spells {token : Token} {before spelling : List Char}
    (hspells : token.kind.Spells token.text.toList spelling)
    (hposition : token.position = positionBehind before) :
    token.start = byteLength before ∧ token.stop = byteLength (before ++ spelling) := by
  have hstart : token.start = byteLength before := by
    rw [start, hposition, offset_positionBehind]
  refine ⟨hstart, ?_⟩
  rw [stop, hstart, byteLength_append]
  unfold TokenKind.Spells at hspells
  split at hspells
  next hstring =>
    obtain ⟨quote, hquote, rfl⟩ := hspells
    have hsize : quote.utf8Size = 1 := by
      rcases hquote with rfl | rfl <;> rfl
    rw [if_pos hstring, List.cons_append, byteLength, byteLength_append, byteLength, byteLength,
      hsize]
    omega
  next hother =>
    rw [if_neg hother, hspells]
    omega

/-- The tokens stand one behind the other, between two byte offsets. -/
def InOrder : Nat → Nat → List Token → Prop
  | first, last, [] => first ≤ last
  | first, last, token :: rest =>
    first ≤ token.start ∧ token.start < token.stop ∧ InOrder token.stop last rest

theorem InOrder.mono {first first' last : Nat} {tokens : List Token}
    (h : InOrder first last tokens) (hle : first' ≤ first) : InOrder first' last tokens := by
  cases tokens with
  | nil => exact Nat.le_trans hle h
  | cons token rest => exact ⟨Nat.le_trans hle h.1, h.2⟩

/-- Tokens in order lie between the bounds, and each has a character at least. -/
theorem InOrder.bounds {first last : Nat} {tokens : List Token} (h : InOrder first last tokens) :
    ∀ token ∈ tokens, first ≤ token.start ∧ token.start < token.stop ∧ token.stop ≤ last := by
  induction tokens generalizing first with
  | nil => simp
  | cons token rest ih =>
      obtain ⟨hfirst, hspan, hrest⟩ := h
      intro other hother
      rcases List.mem_cons.mp hother with rfl | hmem
      · refine ⟨hfirst, hspan, ?_⟩
        cases rest with
        | nil => exact hrest
        | cons next rest =>
            have hnext := ih hrest next (by simp)
            omega
      · have hbounds := ih hrest other hmem
        omega

/-- Of two tokens in order, the earlier one stops before the later one starts. -/
theorem InOrder.pairwise {first last : Nat} {tokens : List Token} (h : InOrder first last tokens) :
    tokens.Pairwise fun token later => token.stop ≤ later.start := by
  induction tokens generalizing first with
  | nil => exact .nil
  | cons token rest ih =>
      obtain ⟨hfirst, hspan, hrest⟩ := h
      exact .cons (fun later hlater => (hrest.bounds later hlater).1) (ih hrest)

theorem InOrder.cons_of_spells (token : Token) {before spelling : List Char} {last : Nat}
    {rest : List Token} (hspells : token.kind.Spells token.text.toList spelling)
    (hposition : token.position = positionBehind before) (hne : spelling ≠ [])
    (h : InOrder (byteLength (before ++ spelling)) last rest) :
    InOrder (byteLength before) last (token :: rest) := by
  obtain ⟨hstart, hstop⟩ := stop_of_spells hspells hposition
  have hpos := byteLength_pos hne
  rw [byteLength_append] at hstop
  refine ⟨Nat.le_of_eq hstart.symm, by omega, ?_⟩
  rwa [hstop, ← byteLength_append]

end Token

open Token

/-- The tokens that a text yields stand one behind the other in it. -/
theorem Scanned.inOrder {place : Place} {before text : List Char} {stream : TokenStream}
    (h : Scanned place before text stream) :
    InOrder (byteLength before) (byteLength (before ++ text)) stream.tokens := by
  induction h with
  | run stops hyphened trimming rest ih =>
      rename_i before run after lead kept trail stream
      -- The literal stands between the white space that the hyphens have taken off.
      have hrun : before ++ run = before ++ lead ++ kept ++ trail := by
        rw [trimming.run_eq]
        simp only [List.append_assoc]
      rw [← List.append_assoc]
      simp only [TokenStream.behind, literalOf]
      split
      next => exact ih.mono (byteLength_le_append _ _)
      next hkept =>
        have hrest := ih.mono (hrun ▸ byteLength_le_append _ trail)
        have hspells := TokenKind.spells_ofList (by simp : TokenKind.literal ≠ .string) kept
        have hliteral := InOrder.cons_of_spells ⟨.literal, String.ofList kept, _⟩ hspells
          rfl hkept hrest
        exact hliteral.mono (byteLength_le_append _ _)
  | unclosed endless => exact byteLength_le_append _ _
  | finished => exact byteLength_le_append _ _
  | @opening delimiter hyphen before after token stream text spelling longest token_eq rest ih =>
      subst token_eq
      rw [← List.append_assoc]
      have hkind : delimiter.openKind ≠ .string := by cases delimiter <;> simp [Delimiter.openKind]
      have hne : text ≠ [] := by cases delimiter <;> simp [spelling, Delimiter.opening]
      exact InOrder.cons_of_spells _ (TokenKind.spells_ofList hkind text) rfl hne ih
  | unterminated => exact byteLength_le_append _ _
  | inner blank ne_nil inside spells position_eq rest ih =>
      simp only [← List.append_assoc]
      exact (InOrder.cons_of_spells _ spells position_eq ne_nil ih).mono (byteLength_le_append _ _)
  | @closing delimiter read hyphen before gap text after token stream blank spelling token_eq rest
      ih =>
      subst token_eq
      simp only [← List.append_assoc]
      have hkind : delimiter.closeKind ≠ .string := by
        cases delimiter <;> simp [Delimiter.closeKind]
      have hne : text ≠ [] := by cases delimiter <;> simp [spelling, Delimiter.closing]
      have htoken := InOrder.cons_of_spells ⟨delimiter.closeKind, String.ofList text, _⟩
        (TokenKind.spells_ofList hkind text) rfl hne ih
      exact htoken.mono (byteLength_le_append _ _)
  | strange blank => exact byteLength_le_append _ _
  | unfinished => exact byteLength_le_append _ _

theorem tokenize_inOrder (source : List Char) :
    InOrder 0 (byteLength source) (tokenize source).tokens :=
  (scanned_tokenize source).inOrder

/-- Tokens that stand at different places are different. -/
theorem tokenize_nodup (source : List Char) : (tokenize source).tokens.Nodup := by
  have horder := tokenize_inOrder source
  refine List.Pairwise.imp_of_mem ?_ horder.pairwise
  intro token later htoken _ hle heq
  have hspan := (horder.bounds token htoken).2.1
  rw [← heq] at hle
  omega

/-- The spans of the tokens of a source are not empty, lie in it, and come in its order without
overlap. Between them nothing is lost but what `Scanned` lets go: white space between the tokens of
a tag, and the white space that hyphens take off the runs of text. -/
theorem tokenize_lossless (source : List Char) :
    ((tokenize source).tokens.Pairwise fun token later => token.stop ≤ later.start) ∧
      (∀ token ∈ (tokenize source).tokens,
        token.start < token.stop ∧ token.stop ≤ byteLength source) ∧
      Scanned (.text false none) [] source (tokenize source) := by
  have horder := tokenize_inOrder source
  refine ⟨horder.pairwise, ?_, scanned_tokenize source⟩
  intro token htoken
  exact (horder.bounds token htoken).2

end TextTemplate
