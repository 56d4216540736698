import TextTemplate.Json.Fault
import TextTemplate.Token.Basic
/-! # Errors

Everything that can go wrong between a source text and its output. An error is a cause together
with the place it points at; the wording is in `SyntaxError.message` and `TemplateError.message`
alone.
-/

namespace TextTemplate

/-- What stands where something else was expected. -/
inductive Found where
  | endOfTemplate
  | nothing
  | text
  | string (content : String)
  | lexeme (spelling : String)
deriving DecidableEq, Repr

/-- How messages name what was found. -/
def Found.describe : Found → String
  | .endOfTemplate => "end of template"
  | .nothing => "nothing"
  | .text => "text"
  | .string content => "string \"" ++ content ++ "\""
  | .lexeme spelling => "`" ++ spelling ++ "`"

/-- What a token looks like to someone who expected another. -/
def Token.found (token : Token) : Found :=
  match token.kind with
  | .literal => .text
  | .string => .string token.text
  | _ => .lexeme token.text

/-- What the grammar asks for at some place. -/
inductive Expected where
  | textOrTag
  | tagName
  | outputClose
  | tagClose
  | variableName
  | assignSign
  | loopVariable
  | inWord
  | colon
  | filterName
  | expression
  | number
  | comparison
  | rangeDots
  | rightParen
  | rightBracket
  | fieldName
deriving DecidableEq, Repr

/-- How messages name what is expected. -/
def Expected.describe : Expected → String
  | .textOrTag => "text or tag"
  | .tagName => "tag name"
  | .outputClose => "`\x7d\x7d`"
  | .tagClose => "`%\x7d`"
  | .variableName => "variable name"
  | .assignSign => "`=`"
  | .loopVariable => "loop variable"
  | .inWord => "`in`"
  | .colon => "`:`"
  | .filterName => "filter name"
  | .expression => "expression"
  | .number => "number"
  | .comparison => "comparison operator"
  | .rangeDots => "`..`"
  | .rightParen => "`)`"
  | .rightBracket => "`]`"
  | .fieldName => "field name"

/-- Why a source is not a template. -/
inductive SyntaxCause where
  | unterminatedTag (delimiter : Delimiter)
  | unclosedBlock (tag : Keyword)
  | mismatchedBlock (tag : Keyword) (expected : Option Keyword)
  | unknownTag (name : String)
  | unexpectedToken (found : Found) (expected : Expected)
  | unexpectedCharacter (found : Char)
  | nestingTooDeep (limit : Nat)
deriving DecidableEq, Repr

/-- A cause and the place in the source it points at. -/
structure SyntaxError where
  cause : SyntaxCause
  position : Position
deriving DecidableEq, Repr

/-- The wording of a syntax error. -/
def SyntaxError.message (error : SyntaxError) : String :=
  let place := error.position.describe
  match error.cause with
  | .unterminatedTag delimiter =>
    "unterminated tag `" ++ String.ofList delimiter.opening ++ "` starting at " ++ place
  | .unclosedBlock tag => "`" ++ tag.word ++ "` block opened at " ++ place ++ " is never closed"
  | .mismatchedBlock tag expected =>
    "unexpected `" ++ tag.word ++ "` at " ++ place ++
      match expected with
      | some closing => " (expected `" ++ closing.word ++ "`)"
      | none => ""
  | .unknownTag name => "unknown tag `" ++ name ++ "` at " ++ place
  | .unexpectedToken found expected =>
    "unexpected " ++ found.describe ++ " at " ++ place ++ ", expected " ++ expected.describe
  | .unexpectedCharacter found => "unexpected character `" ++ found.toString ++ "` at " ++ place
  | .nestingTooDeep limit => "nesting deeper than " ++ toString limit ++ " levels at " ++ place

/-- The categories of failure that a render reports. -/
inductive ErrorKind where
  | invalidDocument
  | syntaxError
  | unknownFilter
  | iterationLimitExceeded
  | internalError
deriving DecidableEq, Repr

namespace ErrorKind

/-- All categories. -/
def all : List ErrorKind :=
  [.invalidDocument, .syntaxError, .unknownFilter, .iterationLimitExceeded, .internalError]

/-- How reports name a category. -/
def name : ErrorKind → String
  | .invalidDocument => "InvalidDocument"
  | .syntaxError => "SyntaxError"
  | .unknownFilter => "UnknownFilter"
  | .iterationLimitExceeded => "IterationLimitExceeded"
  | .internalError => "InternalError"

/-- The category of a given name. -/
def ofName? (text : String) : Option ErrorKind := all.find? fun kind => kind.name == text

end ErrorKind

/-- What a render can break down on. -/
inductive Breakdown where
  | inconsistentOrder
deriving DecidableEq, Repr

/-- The wording of a breakdown. -/
def Breakdown.message : Breakdown → String
  | .inconsistentOrder =>
    "user-provided comparison function does not correctly implement a total order"

/-- Why a template does not render against a document. Positions are places in the template, except
for a document that is no JSON text, where they are places in the document; a breakdown has none. -/
inductive TemplateError where
  | invalidDocument (cause : Json.Cause) (position : Position)
  | malformed (error : SyntaxError)
  | unknownFilter (name : String) (position : Position)
  | iterationLimitExceeded (limit : Nat) (position : Position)
  | internal (breakdown : Breakdown)
deriving DecidableEq, Repr

namespace TemplateError

/-- The category of an error. -/
def kind : TemplateError → ErrorKind
  | .invalidDocument _ _ => .invalidDocument
  | .malformed _ => .syntaxError
  | .unknownFilter _ _ => .unknownFilter
  | .iterationLimitExceeded _ _ => .iterationLimitExceeded
  | .internal _ => .internalError

/-- The place an error points at, if there is one. -/
def position? : TemplateError → Option Position
  | .invalidDocument _ position => some position
  | .malformed error => some error.position
  | .unknownFilter _ position => some position
  | .iterationLimitExceeded _ position => some position
  | .internal _ => none

/-- Every error points at a place, but for a breakdown. -/
theorem position?_eq_none_iff {error : TemplateError} :
    error.position? = none ↔ error.kind = .internalError := by
  cases error <;> simp [position?, kind]

/-- The wording of an error. -/
def message : TemplateError → String
  | .invalidDocument cause position =>
    "Invalid document at " ++ position.describe ++ ": " ++ cause.message
  | .malformed error => "Syntax error: " ++ error.message
  | .unknownFilter name position => "Unknown filter `" ++ name ++ "` at " ++ position.describe
  | .iterationLimitExceeded limit position =>
    "Iteration limit of " ++ toString limit ++ " exceeded at " ++ position.describe
  | .internal breakdown => "Internal error: " ++ breakdown.message

end TemplateError

end TextTemplate
