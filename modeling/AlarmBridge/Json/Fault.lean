import AlarmBridge.Decimal.Shortest
import AlarmBridge.Text.Quoted
import AlarmBridge.Time.Rfc3339

/-! Why a text is not the JSON of a record: faults of its form, values of the wrong kind, and fields
that are missing or given twice, with the message of each. -/

set_option autoImplicit false

namespace AlarmBridge.Json

/-- A number as a text spells it: whole, or rounded to binary64 when it has a fraction, an exponent
or too many digits. -/
inductive Number
  | whole (value : Int)
  | float (negative : Bool) (magnitude : Decimal.Binary64)
deriving Repr, DecidableEq, Inhabited

/-- What was found where something else was wanted. -/
inductive Found
  | null
  | boolean (value : Bool)
  | number (value : Number)
  | text (value : List Char)
  | sequence
  | map
deriving Repr, DecidableEq, Inhabited

inductive Wanted
  | text
  | boolean
  | unsigned (bits : Nat)
  | sequence
  | unit
  | path
  | timestamp
  | record (name : String)
deriving Repr, DecidableEq, Inhabited

/-- Why reading stopped. -/
inductive Fault
  | endInValue
  | endInList
  | endInObject
  | endInString
  | expectedColon
  | expectedListComma
  | expectedObjectComma
  | expectedWord
  | expectedValue
  | invalidEscape
  | invalidNumber
  | numberOutOfRange
  | controlCharacter
  | keyNotString
  | loneSurrogate
  | unfinishedSurrogate
  | trailingComma
  | trailingCharacters
  | wrongType (found : Found) (wanted : Wanted)
  | wrongValue (found : Number) (wanted : Wanted)
  | wrongLength (length : Nat) (record : String) (fields : Nat)
  | missingField (name : String)
  | duplicateField (name : String)
  | badTimestamp (fault : Time.TimestampFault)
deriving Repr, DecidableEq, Inhabited

def Number.describe : Number → String
  | .whole value => s!"integer `{value}`"
  | .float negative magnitude =>
    "floating point `" ++ String.ofList (Decimal.signedText negative magnitude) ++ "`"

def Found.describe : Found → String
  | .null => "null"
  | .boolean value => "boolean `" ++ (if value then "true" else "false") ++ "`"
  | .number value => value.describe
  | .text value => "string " ++ String.ofList (Text.quoted value)
  | .sequence => "sequence"
  | .map => "map"

def Wanted.describe : Wanted → String
  | .text => "a string"
  | .boolean => "a boolean"
  | .unsigned bits => s!"u{bits}"
  | .sequence => "a sequence"
  | .unit => "unit"
  | .path => "path string"
  | .timestamp => "an RFC 3339 formatted date and time string"
  | .record name => "struct " ++ name

/-- The message of a fault, without the line and the column that end it. -/
def Fault.message : Fault → String
  | .endInValue => "EOF while parsing a value"
  | .endInList => "EOF while parsing a list"
  | .endInObject => "EOF while parsing an object"
  | .endInString => "EOF while parsing a string"
  | .expectedColon => "expected `:`"
  | .expectedListComma => "expected `,` or `]`"
  | .expectedObjectComma => "expected `,` or `\x7d`"
  | .expectedWord => "expected ident"
  | .expectedValue => "expected value"
  | .invalidEscape => "invalid escape"
  | .invalidNumber => "invalid number"
  | .numberOutOfRange => "number out of range"
  | .controlCharacter => "control character (\\u0000-\\u001F) found while parsing a string"
  | .keyNotString => "key must be a string"
  | .loneSurrogate => "lone leading surrogate in hex escape"
  | .unfinishedSurrogate => "unexpected end of hex escape"
  | .trailingComma => "trailing comma"
  | .trailingCharacters => "trailing characters"
  | .wrongType found wanted =>
    "invalid type: " ++ found.describe ++ ", expected " ++ wanted.describe
  | .wrongValue found wanted =>
    "invalid value: " ++ found.describe ++ ", expected " ++ wanted.describe
  | .wrongLength length record fields =>
    s!"invalid length {length}, expected struct {record} with {fields} " ++
      (if fields = 1 then "element" else "elements")
  | .missingField name => "missing field `" ++ name ++ "`"
  | .duplicateField name => "duplicate field `" ++ name ++ "`"
  | .badTimestamp fault => fault.message

end AlarmBridge.Json
