import TextTemplate.Json.Fault
import TextTemplate.Text.Hidden
import TextTemplate.Value.Basic
/-! # Rejected JSON texts

Why a text that may well be JSON is not the report or the settings that were asked for. A mismatch
tells what was found and what was expected. One that was noticed while the text was read also has
an index, as faults do; one that was noticed in values already read has none. Texts that came from
outside are shown in double quotes, with a backslash before quotes and backslashes, and with every
character that does not show written by its number.
-/

namespace TextTemplate

namespace Text

/-- A character by its number, in lower-case hexadecimal digits. -/
def byNumber (c : Char) : List Char :=
  ['\\', 'u', '\x7b'] ++ Nat.toDigits 16 c.toNat ++ ['\x7d']

/-- One character inside quotes. -/
def quotedChar (c : Char) : List Char :=
  if c = '"' then ['\\', '"']
  else if c = '\\' then ['\\', '\\']
  else if c = '\n' then ['\\', 'n']
  else if c = '\r' then ['\\', 'r']
  else if c = '\t' then ['\\', 't']
  else if c.toNat = 0 then ['\\', '0']
  else if isHidden c then byNumber c
  else [c]

/-- A text in quotes. -/
def quoted (text : String) : String :=
  String.ofList ('"' :: text.toList.flatMap quotedChar ++ ['"'])

end Text

namespace Json

/-- What a JSON text holds at some place, as far as messages tell it. -/
inductive Shape where
  | null
  | boolean (b : Bool)
  | integer (n : Int)
  | float (x : Finite64)
  | string (s : String)
  | sequence
  | map
deriving DecidableEq, Repr

namespace Shape

/-- The shape of a value. -/
def ofValue : Value → Shape
  | .null => .null
  | .bool b => .boolean b
  | .number (.int n) => .integer n
  | .number (.float x) => .float x
  | .string s => .string s
  | .array _ => .sequence
  | .object _ => .map

/-- How messages name what was found. -/
def describe : Shape → String
  | .null => "null"
  | .boolean b => "boolean `" ++ (if b then "true" else "false") ++ "`"
  | .integer n => "integer `" ++ String.ofList (Number.json (.int n)) ++ "`"
  | .float x => "floating point `" ++ String.ofList (Number.json (.float x)) ++ "`"
  | .string s => "string " ++ Text.quoted s
  | .sequence => "sequence"
  | .map => "map"

end Shape

/-- How a text differs from what was asked for. -/
inductive Mismatch where
  /-- Something of another type. -/
  | wrongType (found : Shape) (expected : String)
  /-- Something of the right type outside the values it may take. -/
  | wrongValue (found : Shape) (expected : String)
  /-- An array with too few or too many elements. -/
  | wrongLength (found : Nat) (expected : String)
  /-- A field that is given twice. -/
  | repeatedField (name : String)
  /-- A field that is not given. -/
  | missingField (name : String)
  /-- A name that stands for none of the alternatives. -/
  | unknownVariant (found : String) (expected : List String)
deriving DecidableEq, Repr

/-- How messages list the names that may be given. -/
def describeNames (names : List String) : String :=
  let quoted := names.map fun name => "`" ++ name ++ "`"
  if names.length ≤ 2 then " or ".intercalate quoted else "one of " ++ ", ".intercalate quoted

/-- The wording of a mismatch. -/
def Mismatch.message : Mismatch → String
  | .wrongType found expected =>
    "invalid type: " ++ found.describe ++ ", expected " ++ expected
  | .wrongValue found expected =>
    "invalid value: " ++ found.describe ++ ", expected " ++ expected
  | .wrongLength found expected =>
    "invalid length " ++ toString found ++ ", expected " ++ expected
  | .repeatedField name => "duplicate field `" ++ name ++ "`"
  | .missingField name => "missing field `" ++ name ++ "`"
  | .unknownVariant found expected =>
    "unknown variant `" ++ found ++ "`, expected " ++ describeNames expected

/-- Why a text is rejected. -/
inductive Reason where
  | malformed (cause : Cause)
  | mismatched (mismatch : Mismatch)
deriving DecidableEq, Repr

/-- The wording of a reason. -/
def Reason.message : Reason → String
  | .malformed cause => cause.message
  | .mismatched mismatch => mismatch.message

/-- A reason and the number of bytes read when it was found, if reading was still going on. -/
structure Rejection where
  reason : Reason
  index? : Option Nat
deriving DecidableEq, Repr

namespace Rejection

/-- The rejection of a text that is not JSON. -/
def ofFault (fault : Fault) : Rejection := ⟨.malformed fault.cause, some fault.index⟩

/-- The wording of a rejection. Lines count from one; the column is the number of bytes read in
that line. -/
def message (rejection : Rejection) (text : List Char) : String :=
  match rejection.index? with
  | none => rejection.reason.message
  | some index =>
    let (line, column) := lineAndColumn text index
    rejection.reason.message ++ " at line " ++ toString line ++ " column " ++ toString column

end Rejection

end Json

end TextTemplate
