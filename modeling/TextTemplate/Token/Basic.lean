import TextTemplate.Keyword
import TextTemplate.Position
/-! # Tokens

What a template source consists of: runs of literal text, the delimiters of output tags and logic
tags, and the words and signs inside them.
-/

namespace TextTemplate

/-- The two kinds of tag: output and logic. -/
inductive Delimiter where
  | output
  | logic
deriving DecidableEq, Repr

namespace Delimiter

/-- The two characters that open a tag. -/
def opening : Delimiter → List Char
  | .output => ['\x7b', '\x7b']
  | .logic => ['\x7b', '%']

/-- The two characters that close a tag. -/
def closing : Delimiter → List Char
  | .output => ['\x7d', '\x7d']
  | .logic => ['%', '\x7d']

end Delimiter

/-- The kinds of token. Delimiters may carry a hyphen, which trims the text next to the tag. -/
inductive TokenKind where
  | literal
  | outputOpen
  | outputClose
  | tagOpen
  | tagClose
  | identifier
  | keyword (word : Keyword)
  | string
  | number
  | operator
  | assign
  | pipe
  | colon
  | comma
  | dot
  | dotDot
  | leftBracket
  | rightBracket
  | leftParen
  | rightParen
deriving DecidableEq, Repr

/-- A token, its text, and the place of its first character. The text of a string leaves out the
quotes. -/
structure Token where
  kind : TokenKind
  text : String
  position : Position
deriving DecidableEq, Repr

end TextTemplate
