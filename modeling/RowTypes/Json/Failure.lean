import RowTypes.Json.Byte
import RowTypes.Number.Shortest
import RowTypes.Text.Quoted

/-!
# Json — failures

Why a document was refused, and where.  A cause of the first kind is about the text, one of the
second about what the text says: a value of the wrong kind, or a field too few or too many.  The
place of a failure follows from the bytes before it alone.
-/

namespace RowTypes.Json

/-- A number as it is read: a whole one of 64 bits, or a double. -/
inductive Number where
  | integer (value : Int)
  | real (negative : Bool) (size : Double)
  deriving DecidableEq

/-- The kind of value that came. -/
inductive Found where
  | null
  | flag (value : Bool)
  | number (value : Number)
  | text (value : String)
  | list
  | object
  deriving DecidableEq

/-- The kind of value that was wanted. -/
inductive Wanted where
  | null
  | flag
  | text
  | list
  | object
  | record (title : String)
  deriving DecidableEq

inductive Cause where
  | endInValue
  | endInObject
  | endInList
  | endInString
  | noValue
  | noWord
  | noColon
  | noListEnd
  | noObjectEnd
  | keyNotText
  | trailingComma
  | trailingBytes
  | badNumber
  | numberTooLarge
  | controlInString
  | badEscape
  | halfPair
  | loneSurrogate
  | wrongType (found : Found) (wanted : Wanted)
  | tooShort (length : Nat) (title : String) (fields : Nat)
  | missingField (name : String)
  | repeatedField (name : String)
  | unknownField (name : String) (known : List String)
  | unknownVariant (name : String) (known : List String)
  deriving DecidableEq

/-- A name between backquotes. -/
def named (s : String) : String := "`" ++ s ++ "`"

def Number.message : Number → String
  | .integer i => "integer " ++ named (toString i)
  | .real negative size => "floating point " ++ named ((if negative then "-" else "") ++ size.text)

def Found.message : Found → String
  | .null => "null"
  | .flag b => "boolean " ++ named (if b then "true" else "false")
  | .number n => n.message
  | .text s => "string " ++ Text.quoted s
  | .list => "sequence"
  | .object => "map"

def Wanted.message : Wanted → String
  | .null => "unit"
  | .flag => "a boolean"
  | .text => "a string"
  | .list => "a sequence"
  | .object => "a map"
  | .record title => "struct " ++ title

def oneOf (known : List String) : String :=
  "expected one of " ++ String.intercalate ", " (known.map named)

def Cause.message : Cause → String
  | .endInValue => "EOF while parsing a value"
  | .endInObject => "EOF while parsing an object"
  | .endInList => "EOF while parsing a list"
  | .endInString => "EOF while parsing a string"
  | .noValue => "expected value"
  | .noWord => "expected ident"
  | .noColon => "expected `:`"
  | .noListEnd => "expected `,` or `]`"
  | .noObjectEnd => "expected `,` or `\x7d`"
  | .keyNotText => "key must be a string"
  | .trailingComma => "trailing comma"
  | .trailingBytes => "trailing characters"
  | .badNumber => "invalid number"
  | .numberTooLarge => "number out of range"
  | .controlInString => "control character (\\u0000-\\u001F) found while parsing a string"
  | .badEscape => "invalid escape"
  | .halfPair => "unexpected end of hex escape"
  | .loneSurrogate => "lone leading surrogate in hex escape"
  | .wrongType found wanted => "invalid type: " ++ found.message ++ ", expected " ++ wanted.message
  | .tooShort length title fields =>
      "invalid length " ++ toString length ++ ", expected struct " ++ title ++ " with " ++
        toString fields ++ " elements"
  | .missingField name => "missing field " ++ named name
  | .repeatedField name => "duplicate field " ++ named name
  | .unknownField name known => "unknown field " ++ named name ++ ", " ++ oneOf known
  | .unknownVariant name known => "unknown variant " ++ named name ++ ", " ++ oneOf known

/-! ### Places -/

/-- Lines count from one, columns are bytes of the line that were taken. -/
structure Place where
  line : Nat
  column : Nat
  deriving DecidableEq

namespace Place

def start : Place := ⟨1, 0⟩

/-- The place behind one more byte. -/
def after (p : Place) (b : UInt8) : Place :=
  if b = Byte.lineFeed then ⟨p.line + 1, 0⟩ else ⟨p.line, p.column + 1⟩

/-- The place behind the bytes `taken`, latest first. -/
def behind (taken : List UInt8) : Place :=
  ⟨taken.count Byte.lineFeed + 1, (taken.takeWhile (· ≠ Byte.lineFeed)).length⟩

end Place

/-! ### Complaints -/

/-- A document is refused for what a reader finds, or because bytes in a string are no text, of
which readers know nothing. -/
inductive Reason where
  | notText
  | because (cause : Cause)
  deriving DecidableEq

def Reason.message : Reason → String
  | .notText => "invalid unicode code point"
  | .because cause => cause.message

/-- A reason with the place it is reported at. -/
structure Complaint where
  reason : Reason
  place : Place
  deriving DecidableEq

def Complaint.message (c : Complaint) : String :=
  c.reason.message ++ " at line " ++ toString c.place.line ++ " column " ++
    toString c.place.column

end RowTypes.Json
