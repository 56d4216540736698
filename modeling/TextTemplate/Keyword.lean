/-! # Reserved words

The words that mean something inside tags: the names of block tags and their ends, the words that
divide a block, the operators written as words, and the constants.
-/

namespace TextTemplate

/-- A reserved word. -/
inductive Keyword where
  | forTag
  | inWord
  | endFor
  | ifTag
  | elsif
  | elseTag
  | endIf
  | unlessTag
  | endUnless
  | caseTag
  | whenTag
  | endCase
  | assign
  | capture
  | endCapture
  | comment
  | endComment
  | raw
  | endRaw
  | and
  | or
  | contains
  | true
  | false
  | nil
deriving DecidableEq, Repr

namespace Keyword

/-- All reserved words. -/
def all : List Keyword :=
  [.forTag, .inWord, .endFor, .ifTag, .elsif, .elseTag, .endIf, .unlessTag, .endUnless, .caseTag,
   .whenTag, .endCase, .assign, .capture, .endCapture, .comment, .endComment, .raw, .endRaw, .and,
   .or, .contains, .true, .false, .nil]

/-- How a reserved word is written. -/
def word : Keyword → String
  | .forTag => "for"
  | .inWord => "in"
  | .endFor => "endfor"
  | .ifTag => "if"
  | .elsif => "elsif"
  | .elseTag => "else"
  | .endIf => "endif"
  | .unlessTag => "unless"
  | .endUnless => "endunless"
  | .caseTag => "case"
  | .whenTag => "when"
  | .endCase => "endcase"
  | .assign => "assign"
  | .capture => "capture"
  | .endCapture => "endcapture"
  | .comment => "comment"
  | .endComment => "endcomment"
  | .raw => "raw"
  | .endRaw => "endraw"
  | .and => "and"
  | .or => "or"
  | .contains => "contains"
  | .true => "true"
  | .false => "false"
  | .nil => "nil"

/-- The reserved word written as `text`; `null` is another spelling of `nil`. -/
def ofWord? (text : String) : Option Keyword :=
  if text = "null" then some .nil else all.find? fun keyword => keyword.word == text

/-- The word that ends a block opened by a reserved word. -/
def closing? : Keyword → Option Keyword
  | .forTag => some .endFor
  | .ifTag => some .endIf
  | .unlessTag => some .endUnless
  | .caseTag => some .endCase
  | .capture => some .endCapture
  | .comment => some .endComment
  | .raw => some .endRaw
  | _ => none

/-- Whether a word ends or divides a block. -/
def dividesBlock : Keyword → Bool
  | .endFor | .elsif | .elseTag | .endIf | .endUnless | .whenTag | .endCase | .endCapture
  | .endComment | .endRaw => Bool.true
  | _ => Bool.false

end Keyword

end TextTemplate
