import EventClient.Text.Bytes

/-!
What can be wrong with a JSON text, where it is wrong, and how that is told. A fault carries the
text that is still unread at its place, which together with the whole text gives line and column.
-/
namespace EventClient.Json

/-- Why a well-formed value is not what a record asks for. -/
inductive Mismatch where
  | kind
  | range
  | count
  | missing (name : String)
  | repeated (name : String)
  | unknownVariant (name : String)
  | content
deriving DecidableEq, Repr

inductive Cause where
  | endInList
  | endInObject
  | endInText
  | endInValue
  | expectedColon
  | expectedItemEnd
  | expectedMemberEnd
  | expectedWord
  | expectedValue
  | invalidEscape
  | invalidNumber
  | numberTooLarge
  | invalidUnicode
  | controlCharacter
  | keyNotText
  | loneSurrogate
  | cutHexEscape
  | trailingComma
  | trailingCharacters
  | nestedTooDeep
  | mismatch (what : Mismatch)
deriving DecidableEq, Repr

/-- Kinds of fault: the text stops early, is no JSON, or holds another value than asked. -/
inductive Category where
  | early
  | malformed
  | unsuitable
deriving DecidableEq, Repr

namespace Cause

def category : Cause → Category
  | .endInList | .endInObject | .endInText | .endInValue => .early
  | .mismatch _ => .unsuitable
  | _ => .malformed

def message : Cause → String
  | .endInList => "EOF while parsing a list"
  | .endInObject => "EOF while parsing an object"
  | .endInText => "EOF while parsing a string"
  | .endInValue => "EOF while parsing a value"
  | .expectedColon => "expected `:`"
  | .expectedItemEnd => "expected `,` or `]`"
  | .expectedMemberEnd => "expected `,` or `\x7d`"
  | .expectedWord => "expected ident"
  | .expectedValue => "expected value"
  | .invalidEscape => "invalid escape"
  | .invalidNumber => "invalid number"
  | .numberTooLarge => "number out of range"
  | .invalidUnicode => "invalid unicode code point"
  | .controlCharacter => "control character (\\u0000-\\u001F) found while parsing a string"
  | .keyNotText => "key must be a string"
  | .loneSurrogate => "lone leading surrogate in hex escape"
  | .cutHexEscape => "unexpected end of hex escape"
  | .trailingComma => "trailing comma"
  | .trailingCharacters => "trailing characters"
  | .nestedTooDeep => "recursion limit exceeded"
  | .mismatch _ => "unsuitable value"

end Cause

structure Fault where
  cause : Cause
  unread : Bytes
deriving DecidableEq, Repr

/-- Lines count from one; the column is the number of bytes of the line that lie before. -/
structure Position where
  line : Nat
  column : Nat
deriving DecidableEq, Repr

namespace Position

def start : Position := ⟨1, 0⟩

def advance (p : Position) (b : UInt8) : Position :=
  if b = 0x0A then ⟨p.line + 1, 0⟩ else ⟨p.line, p.column + 1⟩

def behind (read : Bytes) : Position := read.foldl advance start

end Position

namespace Fault

def position (fault : Fault) (whole : Bytes) : Position :=
  Position.behind (whole.take (whole.length - fault.unread.length))

def message (fault : Fault) (whole : Bytes) : String :=
  let place := fault.position whole
  s!"{fault.cause.message} at line {place.line} column {place.column}"

end Fault

end EventClient.Json
