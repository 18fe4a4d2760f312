import EventClient.Json.Basic
import EventClient.Json.Fault
import EventClient.Json.Printer

/-!
Reading JSON values from the front of a text. A reader gives what it read with the bytes behind it,
or the first fault. Lists and objects are read step by step (`nextItem`, `nextKey`, `endList`,
`endObject`), so that whoever asks for particular members shares the rules on commas and brackets.
-/
namespace EventClient.Json

def fail {α : Type} (cause : Cause) (unread : Bytes) : Except Fault α :=
  .error ⟨cause, unread⟩

/-- A fault whose place is behind the next byte. -/
def failNext {α : Type} (cause : Cause) (unread : Bytes) : Except Fault α :=
  .error ⟨cause, unread.tail⟩

def nestingLimit : Nat := 127

def isSpace (b : UInt8) : Bool := b == 0x20 || b == 0x0A || b == 0x09 || b == 0x0D

def skipSpace (text : Bytes) : Bytes := text.dropWhile isSpace

def isDigit (b : UInt8) : Bool := 0x30 ≤ b && b ≤ 0x39

def digitValue (b : UInt8) : Nat := b.toNat - 48

/-- The rest of a word whose first letter was seen. -/
def readWord : Bytes → Bytes → Except Fault Bytes
  | [], text => .ok text
  | _ :: _, [] => fail .endInValue []
  | letter :: word, b :: text => if b = letter then readWord word text else fail .expectedWord text

/-! ### Numbers -/

/-- Integers beyond this bound are read as doubles. -/
def integerBound : Nat := UInt64.size

/-- Exponents beyond this bound are not counted any further. -/
def exponentBound : Nat := 2147483648

/-- Digits added to a significand while it stays in bounds: the significand, how many digits were
added, and the text from the first byte that was not. -/
def takeDigits (significand count : Nat) : Bytes → Nat × Nat × Bytes
  | [] => (significand, count, [])
  | b :: text =>
    if isDigit b && decide (significand * 10 + digitValue b < integerBound) then
      takeDigits (significand * 10 + digitValue b) (count + 1) text
    else (significand, count, b :: text)

def startsWithDigit (text : Bytes) : Bool := text.head?.any isDigit

def isExponentMark (b : UInt8) : Bool := b == ascii 'e' || b == ascii 'E'

def toReal (negative : Bool) (significand : Nat) (power : Int) (text : Bytes) :
    Except Fault (JsonNumber × Bytes) :=
  match Binary64.ofDecimal? significand power with
  | some x => .ok (.real (if negative then x.negate else x), text)
  | none => fail .numberTooLarge text

/-- The digits of an exponent; `none` once they are beyond all bounds, the digit that went too far
being read. -/
def takeExponent (value : Nat) : Bytes → Option Nat × Bytes
  | [] => (some value, [])
  | b :: text =>
    if isDigit b then
      if value * 10 + digitValue b < exponentBound then
        takeExponent (value * 10 + digitValue b) text
      else (none, text)
    else (some value, b :: text)

/-- The number, from behind the mark of the exponent. -/
def readExponent (negative : Bool) (significand : Nat) (power : Int) (text : Bytes) :
    Except Fault (JsonNumber × Bytes) :=
  let signed (down : Bool) (text : Bytes) : Except Fault (JsonNumber × Bytes) :=
    match text with
    | [] => fail .endInValue []
    | b :: text =>
      if isDigit b then
        match takeExponent (digitValue b) text with
        | (some value, text) =>
          toReal negative significand (if down then power - value else power + value) text
        | (none, text) =>
          if significand != 0 && !down then fail .numberTooLarge text
          else toReal negative 0 0 (text.dropWhile isDigit)
      else fail .invalidNumber text
  match text with
  | b :: rest =>
    if b = ascii '+' then signed false rest
    else if b = ascii '-' then signed true rest
    else signed false text
  | [] => signed false []

/-- The number, from behind its last counted digit: an exponent may follow. -/
def readScaled (negative : Bool) (significand : Nat) (power : Int) (text : Bytes) :
    Except Fault (JsonNumber × Bytes) :=
  match text with
  | b :: rest =>
    if isExponentMark b then readExponent negative significand power rest
    else toReal negative significand power text
  | [] => toReal negative significand power []

/-- The number, from behind its decimal point. Digits that no longer fit are dropped. -/
def readFraction (negative : Bool) (significand : Nat) (power : Int) (text : Bytes) :
    Except Fault (JsonNumber × Bytes) :=
  match takeDigits significand 0 text with
  | (value, count, rest) =>
    if startsWithDigit rest then
      readScaled negative value (power - count) (rest.dropWhile isDigit)
    else if count = 0 then
      if rest.isEmpty then fail .endInValue [] else failNext .invalidNumber rest
    else readScaled negative value (power - count) rest

/-- An integer if it fits, else the nearest double; minus zero is a double. -/
def integerOrReal (negative : Bool) (significand : Nat) (text : Bytes) :
    Except Fault (JsonNumber × Bytes) :=
  if !negative then .ok (.integer significand, text)
  else if 0 < significand && decide (significand ≤ 9223372036854775808) then
    .ok (.integer (-(significand : Int)), text)
  else toReal negative significand 0 text

/-- The number, from behind the digits before its point. -/
def readAfterDigits (negative : Bool) (significand : Nat) (text : Bytes) :
    Except Fault (JsonNumber × Bytes) :=
  match text with
  | b :: rest =>
    if b = ascii '.' then readFraction negative significand 0 rest
    else if isExponentMark b then readExponent negative significand 0 rest
    else integerOrReal negative significand text
  | [] => integerOrReal negative significand []

/-- A number with more digits than an integer may have: the rest of them only count. -/
def readLong (negative : Bool) (significand : Nat) (text : Bytes) :
    Except Fault (JsonNumber × Bytes) :=
  let power : Int := (text.takeWhile isDigit).length
  match text.dropWhile isDigit with
  | b :: rest =>
    if b = ascii '.' then readFraction negative significand power rest
    else readScaled negative significand power (b :: rest)
  | [] => readScaled negative significand power []

def readMagnitude (negative : Bool) : Bytes → Except Fault (JsonNumber × Bytes)
  | [] => fail .endInValue []
  | b :: text =>
    if b = ascii '0' then
      if startsWithDigit text then failNext .invalidNumber text
      else readAfterDigits negative 0 text
    else if isDigit b then
      match takeDigits (digitValue b) 0 text with
      | (significand, _, rest) =>
        if startsWithDigit rest then readLong negative significand rest
        else readAfterDigits negative significand rest
    else fail .invalidNumber text

/-- A number whose first byte, a minus sign or a digit, is at the front. -/
def readNumber : Bytes → Except Fault (JsonNumber × Bytes)
  | [] => fail .endInValue []
  | b :: text => if b = ascii '-' then readMagnitude true text else readMagnitude false (b :: text)

/-! ### Texts -/

def hexValue? (b : UInt8) : Option Nat :=
  if isDigit b then some (b.toNat - 48)
  else if 0x61 ≤ b && b ≤ 0x66 then some (b.toNat - 87)
  else if 0x41 ≤ b && b ≤ 0x46 then some (b.toNat - 55)
  else none

def hexUnit? (a b c d : UInt8) : Option Nat := do
  return (((← hexValue? a) * 16 + (← hexValue? b)) * 16 + (← hexValue? c)) * 16 + (← hexValue? d)

def shortEscape? (letter : UInt8) : Option UInt8 :=
  if letter = ascii '"' then some 0x22
  else if letter = ascii '\\' then some 0x5C
  else if letter = ascii '/' then some 0x2F
  else if letter = ascii 'b' then some 0x08
  else if letter = ascii 'f' then some 0x0C
  else if letter = ascii 'n' then some 0x0A
  else if letter = ascii 'r' then some 0x0D
  else if letter = ascii 't' then some 0x09
  else none

def isLeading (unit : Nat) : Bool := decide (0xD800 ≤ unit ∧ unit ≤ 0xDBFF)

def isTrailing (unit : Nat) : Bool := decide (0xDC00 ≤ unit ∧ unit ≤ 0xDFFF)

def paired (leading trailing : Nat) : Nat :=
  (leading - 0xD800) * 0x400 + (trailing - 0xDC00) + 0x10000

/-- Put the bytes of a character onto bytes kept in reverse. -/
def pushChar (codePoint : Nat) (read : Bytes) : Bytes :=
  (Text.encodeChar (Char.ofNat codePoint)).reverse ++ read

/-- The bytes of a text up to its closing quote, those read so far being kept in reverse. -/
def takeText (read : Bytes) : Bytes → Except Fault (Bytes × Bytes)
  | [] => fail .endInText []
  | b :: text =>
    if b = ascii '"' then .ok (read.reverse, text)
    else if b = ascii '\\' then
      match text with
      | [] => fail .endInText []
      | letter :: text =>
        match shortEscape? letter with
        | some escaped => takeText (escaped :: read) text
        | none =>
          if letter = ascii 'u' then
            match text with
            | h1 :: h2 :: h3 :: h4 :: text =>
              match hexUnit? h1 h2 h3 h4 with
              | none => fail .invalidEscape text
              | some unit =>
                if isTrailing unit then fail .loneSurrogate text
                else if isLeading unit then
                  match text with
                  | [] => fail .endInText []
                  | [mark] =>
                    if mark = ascii '\\' then fail .endInText [] else fail .cutHexEscape []
                  | mark :: letter :: text =>
                    if mark ≠ ascii '\\' then fail .cutHexEscape (letter :: text)
                    else if letter ≠ ascii 'u' then fail .cutHexEscape text
                    else
                      match text with
                      | h1 :: h2 :: h3 :: h4 :: text =>
                        match hexUnit? h1 h2 h3 h4 with
                        | none => fail .invalidEscape text
                        | some second =>
                          if isTrailing second then
                            takeText (pushChar (paired unit second) read) text
                          else fail .loneSurrogate text
                      | _ => fail .endInText []
                else takeText (pushChar unit read) text
            | _ => fail .endInText []
          else fail .invalidEscape text
    else if b < 0x20 then fail .controlCharacter text
    else takeText (b :: read) text

def readText (text : Bytes) : Except Fault (String × Bytes) :=
  match takeText [] text with
  | .error fault => .error fault
  | .ok (content, rest) =>
    match Text.ofBytes? content with
    | some value => .ok (value, rest)
    | none => fail .invalidUnicode rest

/-! ### Lists and objects -/

/-- Whether another item follows; if so it is at the front, else the closing bracket is. -/
def nextItem (first : Bool) (text : Bytes) : Except Fault (Bool × Bytes) :=
  match skipSpace text with
  | [] => fail .endInList []
  | b :: rest =>
    if b = ascii ']' then .ok (false, b :: rest)
    else if first then .ok (true, b :: rest)
    else if b = ascii ',' then
      match skipSpace rest with
      | [] => fail .endInValue []
      | c :: rest => if c = ascii ']' then fail .trailingComma rest else .ok (true, c :: rest)
    else fail .expectedItemEnd rest

def endList (text : Bytes) : Except Fault Bytes :=
  match skipSpace text with
  | [] => fail .endInList []
  | b :: rest =>
    if b = ascii ']' then .ok rest
    else if b = ascii ',' then
      match skipSpace rest with
      | [] => fail .trailingCharacters []
      | c :: rest =>
        if c = ascii ']' then fail .trailingComma rest else fail .trailingCharacters rest
    else fail .trailingCharacters rest

/-- The name of the next member, the text being behind it; `none` if the closing bracket follows. -/
def nextKey (first : Bool) (text : Bytes) : Except Fault (Option String × Bytes) :=
  let key (rest : Bytes) : Except Fault (Option String × Bytes) :=
    match readText rest with
    | .ok (name, rest) => .ok (some name, rest)
    | .error fault => .error fault
  match skipSpace text with
  | [] => fail .endInObject []
  | b :: rest =>
    if b = ascii '\x7d' then .ok (none, b :: rest)
    else if first then
      if b = ascii '"' then key rest else fail .keyNotText rest
    else if b = ascii ',' then
      match skipSpace rest with
      | [] => fail .endInValue []
      | c :: rest =>
        if c = ascii '"' then key rest
        else if c = ascii '\x7d' then fail .trailingComma rest
        else fail .keyNotText rest
    else fail .expectedMemberEnd rest

def endObject (text : Bytes) : Except Fault Bytes :=
  match skipSpace text with
  | [] => fail .endInObject []
  | b :: rest =>
    if b = ascii '\x7d' then .ok rest
    else if b = ascii ',' then fail .trailingComma rest
    else fail .trailingCharacters rest

def colon (text : Bytes) : Except Fault Bytes :=
  match skipSpace text with
  | [] => fail .endInObject []
  | b :: rest => if b = ascii ':' then .ok rest else fail .expectedColon rest

/-- The items of a list up to its closing bracket, those read so far being kept in reverse. -/
def readItems {α : Type} (item : Bytes → Except Fault (α × Bytes)) :
    Nat → List α → Bytes → Except Fault (List α × Bytes)
  | 0, _, text => fail .endInList text
  | steps + 1, read, text => do
    match ← nextItem read.isEmpty text with
    | (false, text) => .ok (read.reverse, text)
    | (true, text) =>
      let (value, text) ← item text
      readItems item steps (value :: read) text

/-- The members of an object up to its closing bracket. -/
def readMembers {α : Type} (value : Bytes → Except Fault (α × Bytes)) :
    Nat → List (String × α) → Bytes → Except Fault (List (String × α) × Bytes)
  | 0, _, text => fail .endInObject text
  | steps + 1, read, text => do
    match ← nextKey read.isEmpty text with
    | (none, text) => .ok (read.reverse, text)
    | (some name, text) =>
      let (member, text) ← value (← colon text)
      readMembers value steps ((name, member) :: read) text

/-! ### Values -/

/-- A value that is no list and no object, `first` being its first byte. -/
def readScalar (first : UInt8) (rest : Bytes) : Except Fault (Json × Bytes) :=
  if first = ascii 'n' then do
    return (.null, ← readWord (Text.bytes "ull") rest)
  else if first = ascii 't' then do
    return (.bool true, ← readWord (Text.bytes "rue") rest)
  else if first = ascii 'f' then do
    return (.bool false, ← readWord (Text.bytes "alse") rest)
  else if first = ascii '-' || isDigit first then do
    let (value, rest) ← readNumber (first :: rest)
    return (.number value, rest)
  else if first = ascii '"' then do
    let (value, rest) ← readText rest
    return (.string value, rest)
  else fail .expectedValue rest

/-- A value, `inner` being the reader for what stands in its brackets, if brackets are allowed. -/
def readWith (steps : Nat) (inner : Option (Bytes → Except Fault (Json × Bytes)))
    (text : Bytes) : Except Fault (Json × Bytes) :=
  match skipSpace text with
  | [] => fail .endInValue []
  | b :: rest =>
    if b = ascii '[' then
      match inner with
      | none => fail .nestedTooDeep rest
      | some item => do
        let (items, rest) ← readItems item steps [] rest
        return (.list items, ← endList rest)
    else if b = ascii '\x7b' then
      match inner with
      | none => fail .nestedTooDeep rest
      | some value => do
        let (members, rest) ← readMembers value steps [] rest
        return (.object members, ← endObject rest)
    else readScalar b rest

def readValue (steps : Nat) : Nat → Bytes → Except Fault (Json × Bytes)
  | 0 => readWith steps none
  | levels + 1 => readWith steps (some (readValue steps levels))

def atEnd (text : Bytes) : Except Fault Unit :=
  match skipSpace text with
  | [] => .ok ()
  | _ :: rest => fail .trailingCharacters rest

def parse (text : Bytes) : Except Fault Json := do
  let (value, rest) ← readValue (text.length + 1) nestingLimit text
  atEnd rest
  return value.canonical

end EventClient.Json
