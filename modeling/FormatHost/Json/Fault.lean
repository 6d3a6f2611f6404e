import FormatHost.Text.Quoted
import FormatHost.Text.Utf8

/-! # Faults of JSON texts

A fault is a problem and the rest of the input from where it is reported on. Line and column are
computed from that rest, so no reader has to count.
-/

namespace FormatHost.Json

/-- What stood where something else was wanted. -/
inductive Found where
  | null
  | boolean (value : Bool)
  | integer (value : Int)
  | float (shown : String)
  | string (value : String)
  | sequence
  | map
deriving DecidableEq

def Found.message : Found → String
  | .null => "null"
  | .boolean value => "boolean `" ++ (if value then "true" else "false") ++ "`"
  | .integer value => "integer `" ++ toString value ++ "`"
  | .float shown => "floating point `" ++ shown ++ "`"
  | .string value => "string " ++ Text.quote value
  | .sequence => "sequence"
  | .map => "map"

/-- Why a text is refused. -/
inductive Problem where
  | endInValue
  | endInObject
  | endInList
  | endInString
  | noValue
  | noKeyword
  | noColon
  | noCommaOrBrace
  | noCommaOrBracket
  | keyNotString
  | commaAtEnd
  | trailing
  | badNumber
  | numberTooLarge
  | badEscape
  | controlCharacter
  | loneSurrogate
  | unfinishedSurrogate
  | notUnicode
  | tooDeep
  | wrongType (found : Found) (expected : String)
  | wrongValue (found : Found) (expected : String)
  | duplicateField (name : String)
  | missingField (name : String)
  | wrongLength (length : Nat) (expected : String)
deriving DecidableEq

def Problem.message : Problem → String
  | .endInValue => "EOF while parsing a value"
  | .endInObject => "EOF while parsing an object"
  | .endInList => "EOF while parsing a list"
  | .endInString => "EOF while parsing a string"
  | .noValue => "expected value"
  | .noKeyword => "expected ident"
  | .noColon => "expected `:`"
  | .noCommaOrBrace => "expected `,` or `\x7d`"
  | .noCommaOrBracket => "expected `,` or `]`"
  | .keyNotString => "key must be a string"
  | .commaAtEnd => "trailing comma"
  | .trailing => "trailing characters"
  | .badNumber => "invalid number"
  | .numberTooLarge => "number out of range"
  | .badEscape => "invalid escape"
  | .controlCharacter => "control character (\\u0000-\\u001F) found while parsing a string"
  | .loneSurrogate => "lone leading surrogate in hex escape"
  | .unfinishedSurrogate => "unexpected end of hex escape"
  | .notUnicode => "invalid unicode code point"
  | .tooDeep => "recursion limit exceeded"
  | .wrongType found expected => "invalid type: " ++ found.message ++ ", expected " ++ expected
  | .wrongValue found expected => "invalid value: " ++ found.message ++ ", expected " ++ expected
  | .duplicateField name => "duplicate field `" ++ name ++ "`"
  | .missingField name => "missing field `" ++ name ++ "`"
  | .wrongLength length expected =>
    "invalid length " ++ toString length ++ ", expected " ++ expected

/-- A problem and the input after the place it is reported at. -/
structure Fault where
  problem : Problem
  rest : Bytes
deriving DecidableEq

def lineFeed : UInt8 := 0x0A

/-- The part of a text before the place of a fault. -/
def Fault.before (fault : Fault) (text : Bytes) : Bytes :=
  text.take (text.length - fault.rest.length)

/-- The line of a fault, counted from one. -/
def Fault.line (fault : Fault) (text : Bytes) : Nat :=
  1 + (fault.before text).count lineFeed

/-- The number of bytes between the start of the line and a fault. -/
def Fault.column (fault : Fault) (text : Bytes) : Nat :=
  ((fault.before text).reverse.takeWhile (· != lineFeed)).length

def Fault.message (fault : Fault) (text : Bytes) : String :=
  fault.problem.message ++ " at line " ++ toString (fault.line text) ++ " column " ++
    toString (fault.column text)

end FormatHost.Json
