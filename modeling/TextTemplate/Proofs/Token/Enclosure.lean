import Mathlib.Data.List.Chain
import TextTemplate.Proofs.Token.Coverage
/-! # Texts and tags in turn

The tokens of a source are literal texts and tags. A tag is an opening delimiter, the tokens in it
and the closing delimiter of its kind; there is no tag in a tag, and no text next to a text. Only an
error cuts a tag off, so wherever a tag is open there is a token to come, or an error.
-/

namespace TextTemplate

/-- A text, or a tag with what stands between its delimiters. -/
inductive Chunk where
  | text (token : Token) (kind : token.kind = .literal)
  | tag (delimiter : Delimiter) (opening : Token) (inner : List Token) (closing : Token)
      (opening_kind : opening.kind = delimiter.openKind)
      (inner_kind : ∀ token ∈ inner, token.kind.isInner = true)
      (closing_kind : closing.kind = delimiter.closeKind)

namespace Chunk

/-- The tokens of a text or tag. -/
def tokens : Chunk → List Token
  | .text token _ => [token]
  | .tag _ opening inner closing _ _ _ => opening :: (inner ++ [closing])

/-- Not both are texts. -/
def Apart : Chunk → Chunk → Prop
  | .text _ _, .text _ _ => False
  | _, _ => True

end Chunk

/-- Nothing, or a tag that lacks its closing delimiter. -/
inductive Unclosed : List Token → Prop
  | nil : Unclosed []
  | tag {delimiter : Delimiter} {opening : Token} {inner : List Token}
      (opening_kind : opening.kind = delimiter.openKind)
      (inner_kind : ∀ token ∈ inner, token.kind.isInner = true) : Unclosed (opening :: inner)

/-- The tokens of a stream: texts and tags in turn, and the start of a tag if an error comes up in
one. -/
structure Chunked (stream : TokenStream) (chunks : List Chunk) (cut : List Token) : Prop where
  tokens_eq : stream.tokens = chunks.flatMap Chunk.tokens ++ cut
  apart : chunks.IsChain Chunk.Apart
  unclosed : Unclosed cut
  failure : cut ≠ [] → stream.failure?.isSome = true

/-- Where the tokens ahead are looked at: between texts and tags, right behind a text or not, or in
a tag. -/
inductive StreamPlace where
  | between (behindText : Bool)
  | within (delimiter : Delimiter)

/-- From this place on, with a stream that ends in `failure?`, the tokens are those of texts and
tags in turn. -/
inductive Enclosed (failure? : Option SyntaxError) : StreamPlace → List Token → Prop
  | finished {behindText : Bool} : Enclosed failure? (.between behindText) []
  | cutOff {delimiter : Delimiter} (failure : failure?.isSome = true) :
      Enclosed failure? (.within delimiter) []
  | text {token : Token} {rest : List Token} (kind : token.kind = .literal)
      (more : Enclosed failure? (.between true) rest) :
      Enclosed failure? (.between false) (token :: rest)
  | opening {behindText : Bool} {delimiter : Delimiter} {token : Token} {rest : List Token}
      (kind : token.kind = delimiter.openKind)
      (more : Enclosed failure? (.within delimiter) rest) :
      Enclosed failure? (.between behindText) (token :: rest)
  | inner {delimiter : Delimiter} {token : Token} {rest : List Token}
      (kind : token.kind.isInner = true) (more : Enclosed failure? (.within delimiter) rest) :
      Enclosed failure? (.within delimiter) (token :: rest)
  | closing {delimiter : Delimiter} {token : Token} {rest : List Token}
      (kind : token.kind = delimiter.closeKind)
      (more : Enclosed failure? (.between false) rest) :
      Enclosed failure? (.within delimiter) (token :: rest)

section Enclosed

variable {failure? : Option SyntaxError} {tokens : List Token}

/-- What may stand behind a text may stand anywhere between tags. -/
theorem Enclosed.of_behindText (h : Enclosed failure? (.between true) tokens) (behindText : Bool) :
    Enclosed failure? (.between behindText) tokens := by
  cases h with
  | finished => exact .finished
  | opening kind more => exact .opening kind more

/-- The chunks that the tokens from some place on consist of. In a tag, its rest comes first. -/
def StreamPlace.Chunks (failure? : Option SyntaxError) (tokens : List Token) : StreamPlace → Prop
  | .between behindText => ∃ chunks cut, Chunked ⟨tokens, failure?⟩ chunks cut ∧
      (behindText = true → ∀ token kind, chunks.head? ≠ some (.text token kind))
  | .within delimiter => ∃ inner rest, tokens = inner ++ rest ∧
      (∀ token ∈ inner, token.kind.isInner = true) ∧
      (rest = [] ∧ failure?.isSome = true ∨ ∃ closing behind chunks cut,
        rest = closing :: behind ∧ closing.kind = delimiter.closeKind ∧
          Chunked ⟨behind, failure?⟩ chunks cut)

/-- A literal is a chunk of its own if no literal stands behind it. -/
theorem Chunked.behindText {chunks : List Chunk} {cut : List Token} {token : Token}
    (h : Chunked ⟨tokens, failure?⟩ chunks cut) (kind : token.kind = .literal)
    (hhead : ∀ token kind, chunks.head? ≠ some (.text token kind)) :
    Chunked ⟨token :: tokens, failure?⟩ (.text token kind :: chunks) cut where
  tokens_eq := congrArg (token :: ·) h.tokens_eq
  apart := by
    refine List.isChain_cons.mpr ⟨?_, h.apart⟩
    intro next hnext
    cases next with
    | text other kind' => exact absurd hnext (hhead other kind')
    | tag => trivial
  unclosed := h.unclosed
  failure := h.failure

/-- A tag is a chunk, with what is between its delimiters. -/
theorem Chunked.behindTag {delimiter : Delimiter} {opening closing : Token} {inner : List Token}
    {chunks : List Chunk} {cut : List Token} (h : Chunked ⟨tokens, failure?⟩ chunks cut)
    (opening_kind : opening.kind = delimiter.openKind)
    (inner_kind : ∀ token ∈ inner, token.kind.isInner = true)
    (closing_kind : closing.kind = delimiter.closeKind) :
    Chunked ⟨opening :: (inner ++ closing :: tokens), failure?⟩
      (.tag delimiter opening inner closing opening_kind inner_kind closing_kind :: chunks)
      cut where
  tokens_eq := by
    have htokens : tokens = chunks.flatMap Chunk.tokens ++ cut := h.tokens_eq
    simp [Chunk.tokens, htokens]
  apart := List.isChain_cons.mpr ⟨fun _ _ => trivial, h.apart⟩
  unclosed := h.unclosed
  failure := h.failure

/-- What is enclosed falls into chunks. -/
theorem Enclosed.chunks {place : StreamPlace} (h : Enclosed failure? place tokens) :
    place.Chunks failure? tokens := by
  induction h with
  | finished => exact ⟨[], [], ⟨rfl, .nil, .nil, fun hcut => absurd rfl hcut⟩, by simp⟩
  | cutOff failure => exact ⟨[], [], rfl, by simp, .inl ⟨rfl, failure⟩⟩
  | @text token rest kind more ih =>
      obtain ⟨chunks, cut, hchunks, hhead⟩ := ih
      exact ⟨_, cut, hchunks.behindText kind (hhead rfl), by simp⟩
  | @opening behindText delimiter token rest kind more ih =>
      obtain ⟨inner, behind, rfl, hinner, hbehind⟩ := ih
      rcases hbehind with ⟨rfl, hfailure⟩ | ⟨closing, after, chunks, cut, rfl, hclosing, hchunks⟩
      · exact ⟨[], token :: inner, ⟨by simp, .nil, .tag kind hinner, fun _ => hfailure⟩, by simp⟩
      · exact ⟨_, cut, hchunks.behindTag kind hinner hclosing, by simp⟩
  | @inner delimiter token rest kind more ih =>
      obtain ⟨inner, behind, rfl, hinner, hbehind⟩ := ih
      exact ⟨token :: inner, behind, rfl, List.forall_mem_cons.mpr ⟨kind, hinner⟩, hbehind⟩
  | @closing delimiter token rest kind more ih =>
      obtain ⟨chunks, cut, hchunks, -⟩ := ih
      exact ⟨[], token :: rest, rfl, by simp, .inr ⟨token, rest, chunks, cut, rfl, kind, hchunks⟩⟩

end Enclosed

/-- The place of a stream that is read from a place of the source. Where a run of text has ended,
there is none ahead. -/
def Place.stream : Place → StreamPlace
  | .text _ _ => .between false
  | .tag => .between true
  | .inside delimiter _ => .within delimiter

/-- What a text yields are texts and tags in turn. -/
theorem Scanned.enclosed {place : Place} {before text : List Char} {stream : TokenStream}
    (h : Scanned place before text stream) :
    Enclosed stream.failure? place.stream stream.tokens := by
  induction h with
  | run stops hyphened trimming rest ih =>
      -- A run of which nothing is left yields no token; a tag may follow it, but no text.
      simp only [TokenStream.behind, literalOf]
      split
      next => exact ih.of_behindText false
      next => exact .text rfl ih
  | unclosed endless => exact .finished
  | finished => exact .finished
  | opening spelling longest token_eq rest ih =>
      subst token_eq
      exact .opening rfl ih
  | unterminated => exact .finished
  | inner blank ne_nil inside spells position_eq rest ih => exact .inner inside ih
  | closing blank spelling token_eq rest ih =>
      subst token_eq
      exact .closing rfl ih
  | strange blank => exact .cutOff rfl
  | unfinished => exact .cutOff rfl

theorem tokenize_enclosed (source : List Char) :
    Enclosed (tokenize source).failure? (.between false) (tokenize source).tokens :=
  (scanned_tokenize source).enclosed

/-- The tokens of a source are those of texts and tags in turn. -/
theorem exists_chunks (source : List Char) :
    ∃ chunks cut, Chunked (tokenize source) chunks cut := by
  obtain ⟨chunks, cut, hchunks, -⟩ := (tokenize_enclosed source).chunks
  exact ⟨chunks, cut, hchunks⟩

end TextTemplate
