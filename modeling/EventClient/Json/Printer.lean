import EventClient.Json.Basic
import EventClient.Binary64.Shortest

/-!
The compact text of a JSON value. Every function writes in front of the bytes that follow, so that
a text read back leaves exactly those.
-/
namespace EventClient.Json

def ascii (c : Char) : UInt8 := c.val.toUInt8

def hexDigit (n : Nat) : UInt8 := if n < 10 then (48 + n).toUInt8 else (87 + n).toUInt8

/-- Write one byte of a text: quotes, backslashes and control characters are escaped, the latter by
their short names where they have one. -/
def writeByte (b : UInt8) (rest : Bytes) : Bytes :=
  if b = ascii '"' then ascii '\\' :: ascii '"' :: rest
  else if b = ascii '\\' then ascii '\\' :: ascii '\\' :: rest
  else if 0x20 ≤ b then b :: rest
  else if b = 0x08 then ascii '\\' :: ascii 'b' :: rest
  else if b = 0x09 then ascii '\\' :: ascii 't' :: rest
  else if b = 0x0A then ascii '\\' :: ascii 'n' :: rest
  else if b = 0x0C then ascii '\\' :: ascii 'f' :: rest
  else if b = 0x0D then ascii '\\' :: ascii 'r' :: rest
  else ascii '\\' :: ascii 'u' :: ascii '0' :: ascii '0' ::
    hexDigit (b.toNat / 16) :: hexDigit (b.toNat % 16) :: rest

def writeText (text : String) (rest : Bytes) : Bytes :=
  ascii '"' :: (Text.bytes text).foldr writeByte (ascii '"' :: rest)

def writeNat (n : Nat) (rest : Bytes) : Bytes :=
  if n < 10 then (48 + n).toUInt8 :: rest
  else writeNat (n / 10) ((48 + n % 10).toUInt8 :: rest)
termination_by n

def writeInt (value : Int) (rest : Bytes) : Bytes :=
  if value < 0 then ascii '-' :: writeNat value.natAbs rest else writeNat value.natAbs rest

/-- How a double is written: positionally, always with a fraction, where the power of its first
digit lies between the bounds, and otherwise with an exponent that has a sign. -/
structure RealStyle where
  lowest : Int
  highest : Int

def realStyle : RealStyle := ⟨-5, 15⟩

def zeros (count : Nat) (rest : Bytes) : Bytes := List.replicate count (ascii '0') ++ rest

def writeDecimal (style : RealStyle) (d : Binary64.Decimal) (rest : Bytes) : Bytes :=
  let digits := writeNat d.digits []
  let first : Int := d.power + digits.length - 1
  if style.lowest ≤ first ∧ first ≤ style.highest then
    if 0 ≤ d.power then digits ++ zeros d.power.toNat (ascii '.' :: ascii '0' :: rest)
    else if 0 ≤ first then
      digits.take (first.toNat + 1) ++ ascii '.' :: digits.drop (first.toNat + 1) ++ rest
    else ascii '0' :: ascii '.' :: zeros (-first - 1).toNat (digits ++ rest)
  else
    let fraction := if digits.length = 1 then [] else ascii '.' :: digits.drop 1
    let sign := if first < 0 then ascii '-' else ascii '+'
    digits.take 1 ++ fraction ++ ascii 'e' :: sign :: writeNat first.natAbs rest

def writeReal (x : Binary64) (rest : Bytes) : Bytes :=
  if x.negative then ascii '-' :: writeDecimal realStyle x.shortest rest
  else writeDecimal realStyle x.shortest rest

def writeNumber : JsonNumber → Bytes → Bytes
  | .integer value, rest => writeInt value rest
  | .real value, rest => writeReal value rest

def writeWord (word : String) (rest : Bytes) : Bytes := Text.bytes word ++ rest

mutual

def write : Json → Bytes → Bytes
  | .null, rest => writeWord "null" rest
  | .bool true, rest => writeWord "true" rest
  | .bool false, rest => writeWord "false" rest
  | .number value, rest => writeNumber value rest
  | .string value, rest => writeText value rest
  | .list [], rest => ascii '[' :: ascii ']' :: rest
  | .list (item :: items), rest => ascii '[' :: item.write (writeItems items rest)
  | .object [], rest => ascii '\x7b' :: ascii '\x7d' :: rest
  | .object ((name, value) :: members), rest =>
    ascii '\x7b' :: writeText name (ascii ':' :: value.write (writeMembers members rest))

/-- The items after the first, and the bracket that ends the list. -/
def writeItems : List Json → Bytes → Bytes
  | [], rest => ascii ']' :: rest
  | item :: items, rest => ascii ',' :: item.write (writeItems items rest)

def writeMembers : List (String × Json) → Bytes → Bytes
  | [], rest => ascii '\x7d' :: rest
  | (name, value) :: members, rest =>
    ascii ',' :: writeText name (ascii ':' :: value.write (writeMembers members rest))

end

def encode (value : Json) : Bytes := value.write []

end EventClient.Json
