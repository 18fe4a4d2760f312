import EventClient.Json.Reader

/-!
Passing over a value that nobody asked for. Brackets may nest to any depth here: the open ones are
kept in a list. The content of texts is not looked at beyond its escapes, and numbers only have to
be well formed.
-/
namespace EventClient.Json

inductive Bracket where
  | list
  | object
deriving DecidableEq, Repr

def skipText : Bytes → Except Fault Bytes
  | [] => fail .endInText []
  | b :: text =>
    if b = ascii '"' then .ok text
    else if b = ascii '\\' then
      match text with
      | [] => fail .endInText []
      | letter :: text =>
        if (shortEscape? letter).isSome then skipText text
        else if letter = ascii 'u' then
          match text with
          | h1 :: h2 :: h3 :: h4 :: text =>
            if (hexUnit? h1 h2 h3 h4).isSome then skipText text else fail .invalidEscape text
          | _ => fail .endInText []
        else fail .invalidEscape text
    else if b < 0x20 then fail .controlCharacter text
    else skipText text

/-- Pass over an exponent, from behind its mark. -/
def skipExponent (text : Bytes) : Except Fault Bytes :=
  let digits (text : Bytes) : Except Fault Bytes :=
    match text with
    | [] => fail .invalidNumber []
    | b :: rest => if isDigit b then .ok (rest.dropWhile isDigit) else fail .invalidNumber rest
  match text with
  | b :: rest => if b = ascii '+' ∨ b = ascii '-' then digits rest else digits text
  | [] => digits []

def skipExponentMark (text : Bytes) : Except Fault Bytes :=
  match text with
  | b :: rest => if isExponentMark b then skipExponent rest else .ok text
  | [] => .ok []

/-- Pass over what may follow the digits before the point. -/
def skipAfterDigits (text : Bytes) : Except Fault Bytes :=
  match text with
  | b :: rest =>
    if b = ascii '.' then
      if startsWithDigit rest then skipExponentMark (rest.dropWhile isDigit)
      else failNext .invalidNumber rest
    else skipExponentMark text
  | [] => .ok []

def skipMagnitude : Bytes → Except Fault Bytes
  | [] => fail .invalidNumber []
  | b :: text =>
    if b = ascii '0' then
      if startsWithDigit text then failNext .invalidNumber text else skipAfterDigits text
    else if isDigit b then skipAfterDigits (text.dropWhile isDigit)
    else fail .invalidNumber text

/-- Pass over a value that is no list and no object, `first` being its first byte. -/
def skipScalar (first : UInt8) (rest : Bytes) : Except Fault Bytes :=
  if first = ascii 'n' then readWord (Text.bytes "ull") rest
  else if first = ascii 't' then readWord (Text.bytes "rue") rest
  else if first = ascii 'f' then readWord (Text.bytes "alse") rest
  else if first = ascii '-' then skipMagnitude rest
  else if isDigit first then skipMagnitude (first :: rest)
  else if first = ascii '"' then skipText rest
  else fail .expectedValue rest

def skipKey (text : Bytes) : Except Fault Bytes :=
  match skipSpace text with
  | [] => fail .endInObject []
  | b :: rest =>
    if b = ascii '"' then do colon (← skipText rest)
    else fail .keyNotText rest

/-- Where passing over a value stands. -/
inductive Passing where
  | value
  /-- The content of a bracket that was just opened follows. -/
  | opened
  | ended
deriving DecidableEq, Repr

namespace Bracket

def closing : Bracket → UInt8
  | .list => ascii ']'
  | .object => ascii '\x7d'

def cut : Bracket → Cause
  | .list => .endInList
  | .object => .endInObject

/-- The fault of a byte that neither goes on nor closes. -/
def unseparated : Bracket → Cause
  | .list => .expectedItemEnd
  | .object => .expectedMemberEnd

/-- Pass over what stands in front of a value inside. -/
def skipLabel : Bracket → Bytes → Except Fault Bytes
  | .list, text => .ok text
  | .object, text => skipKey text

end Bracket

/-- Go on until no bracket is open; `steps` is at least three times the length of the text. -/
def skipOpen : Nat → Passing → List Bracket → Bytes → Except Fault Bytes
  | 0, _, _, text => fail .endInValue text
  | steps + 1, .value, outer, text =>
    match skipSpace text with
    | [] => fail .endInValue []
    | b :: rest =>
      if b = ascii '[' then skipOpen steps .opened (.list :: outer) rest
      else if b = ascii '\x7b' then skipOpen steps .opened (.object :: outer) rest
      else do skipOpen steps .ended outer (← skipScalar b rest)
  | _ + 1, .opened, [], text => .ok text
  | steps + 1, .opened, bracket :: outer, text =>
    match skipSpace text with
    | [] => fail bracket.cut []
    | b :: rest =>
      if b = bracket.closing then skipOpen steps .ended outer rest
      else do skipOpen steps .value (bracket :: outer) (← bracket.skipLabel (b :: rest))
  | _ + 1, .ended, [], text => .ok text
  | steps + 1, .ended, bracket :: outer, text =>
    match skipSpace text with
    | [] => fail bracket.cut []
    | b :: rest =>
      if b = bracket.closing then skipOpen steps .ended outer rest
      else if b = ascii ',' then do
        skipOpen steps .value (bracket :: outer) (← bracket.skipLabel rest)
      else fail bracket.unseparated rest

def skipValue (steps : Nat) (text : Bytes) : Except Fault Bytes :=
  skipOpen (3 * steps) .value [] text

end EventClient.Json
