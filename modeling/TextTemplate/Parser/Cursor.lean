import TextTemplate.Token.Lexer
/-! # Reading tokens

A parser takes tokens from the front of a stream. A source with a lexical error ends in it: the
error comes up when a token behind it is asked for, and not before. Loops are bounded by the number
of tokens left, since each round takes at least one.
-/

namespace TextTemplate

/-- A token stream read up to some place, and the place of the last token taken. -/
structure Cursor where
  tokens : List Token
  failure? : Option SyntaxError
  last : Position
  /-- The number of tokens left. -/
  left : Nat := tokens.length
  left_eq : left = tokens.length := by rfl
deriving Repr

/-- A computation that takes tokens. -/
abbrev Parser (α : Type) := StateT Cursor (Except SyntaxError) α

namespace Parser

/-- The cursor at the start of a stream. -/
def start (stream : TokenStream) : Cursor :=
  { tokens := stream.tokens, failure? := stream.failure?, last := Position.start }

/-- Fail with a cause at a place. -/
def fail {α : Type} (cause : SyntaxCause) (position : Position) : Parser α := fun _ =>
  .error ⟨cause, position⟩

/-- Fail at a token that is not the one expected. -/
def unexpected {α : Type} (token : Token) (expected : Expected) : Parser α :=
  fail (.unexpectedToken token.found expected) token.position

/-- The next token, left in place; none at the end. -/
def peek? : Parser (Option Token) := fun cursor =>
  match cursor.tokens with
  | token :: _ => .ok (some token, cursor)
  | [] =>
    match cursor.failure? with
    | some error => .error error
    | none => .ok (none, cursor)

/-- The next token; none at the end. -/
def advance? : Parser (Option Token) := fun cursor =>
  match h : cursor.tokens with
  | token :: rest =>
    let left_eq : cursor.left - 1 = rest.length := by simp [cursor.left_eq, h]
    .ok (some token, ⟨rest, cursor.failure?, token.position, cursor.left - 1, left_eq⟩)
  | [] =>
    match cursor.failure? with
    | some error => .error error
    | none => .ok (none, cursor)

/-- The next token, which has to be there. -/
def take (expected : Expected) : Parser Token := do
  match ← advance? with
  | some token => pure token
  | none => fail (.unexpectedToken .endOfTemplate expected) (← get).last

/-- The next token, which has to be of the given kind. -/
def expect (kind : TokenKind) (expected : Expected) : Parser Token := do
  let token ← take expected
  if token.kind = kind then pure token else unexpected token expected

/-- Take the next token if it is of the given kind. -/
def eat (kind : TokenKind) : Parser Bool := do
  match ← peek? with
  | some token =>
    if token.kind = kind then do
      let _ ← advance?
      pure true
    else pure false
  | none => pure false

/-- Take the next token if it is of one of two kinds. -/
def eatEither (kind other : TokenKind) : Parser Bool := do
  if ← eat kind then pure true else eat other

/-- The number of tokens left. -/
def remaining : Parser Nat := fun cursor => .ok (cursor.left, cursor)

/-- What at most `fuel` rounds yield, up to the first round that yields nothing. -/
def manyUpTo {α : Type} (round : Parser (Option α)) : Nat → Parser (List α)
  | 0 => pure []
  | fuel + 1 => do
    match ← round with
    | none => pure []
    | some item =>
      let rest ← manyUpTo round fuel
      pure (item :: rest)

/-- What the rounds yield, up to the first that yields nothing. A round that yields something takes
a token. -/
def many {α : Type} (round : Parser (Option α)) : Parser (List α) := do
  manyUpTo round ((← remaining) + 1)

end Parser

end TextTemplate
