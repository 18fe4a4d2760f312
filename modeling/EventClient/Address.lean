/-!
Addresses of a daemon: an internet address of either version, the number of the service there, and
their text. The text of a long address leaves out its longest run of zero groups, and a group is
never written with leading zeros; reading accepts every spelling of an address and nothing else.
-/
namespace EventClient

/-- The eight groups of a long address are kept in order. -/
inductive Host where
  | short (a b c d : UInt8)
  | long (groups : List UInt16) (scope : UInt32)
deriving DecidableEq, Repr

structure Address where
  host : Host
  service : UInt16
deriving DecidableEq, Repr

namespace Address

/-! ### Writing -/

def shortText (a b c d : UInt8) : String := s!"{a.toNat}.{b.toNat}.{c.toNat}.{d.toNat}"

def hexText (group : UInt16) : String := String.ofList (Nat.toDigits 16 group.toNat)

def groupsText (groups : List UInt16) : String := ":".intercalate (groups.map hexText)

def zeroRun (groups : List UInt16) : Nat := (groups.takeWhile (· == 0)).length

/-- Where the longest run of zero groups starts and how long it is, the first of equal ones. -/
def longestZeroRun (groups : List UInt16) : Nat × Nat :=
  (List.range groups.length).foldl
    (fun best start =>
      let length := zeroRun (groups.drop start)
      if best.2 < length then (start, length) else best)
    (0, 0)

def longText (groups : List UInt16) : String :=
  match groups with
  | [0, 0, 0, 0, 0, 0xFFFF, high, low] =>
    "::ffff:" ++ shortText (high >>> 8).toUInt8 high.toUInt8 (low >>> 8).toUInt8 low.toUInt8
  | _ =>
    match longestZeroRun groups with
    | (start, length) =>
      if 1 < length then
        groupsText (groups.take start) ++ "::" ++ groupsText (groups.drop (start + length))
      else groupsText groups

def text (address : Address) : String :=
  match address.host with
  | .short a b c d => s!"{shortText a b c d}:{address.service.toNat}"
  | .long groups scope =>
    let zone := if scope = 0 then "" else s!"%{scope.toNat}"
    s!"[{longText groups}{zone}]:{address.service.toNat}"

instance : ToString Address := ⟨text⟩

/-! ### Reading -/

/-- The value of a digit in a base of at most sixteen. -/
def digit? (base : Nat) (c : Char) : Option Nat :=
  let value :=
    if c.isDigit then c.toNat - 48
    else if 'a' ≤ c ∧ c ≤ 'f' then c.toNat - 87
    else if 'A' ≤ c ∧ c ≤ 'F' then c.toNat - 55
    else 16
  if value < base then some value else none

/-- The number at the front, with its count of digits. -/
def number (base : Nat) (text : List Char) : Nat × Nat × List Char :=
  let digits := text.takeWhile fun c => (digit? base c).isSome
  (digits.foldl (fun value c => value * base + (digit? base c).getD 0) 0, digits.length,
    text.drop digits.length)

/-- A decimal number up to a bound, leading zeros being allowed. -/
def bounded? (bound : Nat) (text : List Char) : Option (Nat × List Char) :=
  match number 10 text with
  | (value, count, rest) => if count = 0 ∨ bound < value then none else some (value, rest)

/-- One byte of a short address: at most three digits, none of them a leading zero. -/
def byte? (text : List Char) : Option (UInt8 × List Char) :=
  match number 10 text with
  | (value, count, rest) =>
    if count = 0 ∨ 3 < count ∨ 255 < value ∨ (1 < count ∧ text.head? = some '0') then none
    else some (value.toUInt8, rest)

def expect? (c : Char) : List Char → Option (List Char)
  | [] => none
  | first :: rest => if first = c then some rest else none

def short? (text : List Char) : Option ((UInt8 × UInt8 × UInt8 × UInt8) × List Char) := do
  let (a, text) ← byte? text
  let (b, text) ← byte? (← expect? '.' text)
  let (c, text) ← byte? (← expect? '.' text)
  let (d, text) ← byte? (← expect? '.' text)
  return ((a, b, c, d), text)

def group? (text : List Char) : Option (UInt16 × List Char) :=
  match number 16 text with
  | (value, count, rest) => if count = 0 ∨ 4 < count then none else some (value.toUInt16, rest)

def pair (high low : UInt8) : UInt16 := high.toUInt16 <<< 8 ||| low.toUInt16

/-- Up to `limit` groups, the last two of which may be written as a short address; whether they
were is told. -/
def groups (limit : Nat) (first : Bool) (text : List Char) : List UInt16 × Bool × List Char :=
  match limit with
  | 0 => ([], false, text)
  | left + 1 =>
    let separated := if first then some text else expect? ':' text
    match (if 0 < left then separated.bind short? else none) with
    | some ((a, b, c, d), rest) => ([pair a b, pair c d], true, rest)
    | none =>
      match separated.bind group? with
      | some (group, rest) =>
        match groups left false rest with
        | (more, embedded, rest) => (group :: more, embedded, rest)
      | none => ([], false, text)

/-- The eight groups of a long address, one run of zeros being left out with two colons. -/
def long? (text : List Char) : Option (List UInt16 × List Char) :=
  match groups 8 true text with
  | (head, embedded, rest) =>
    if head.length = 8 then some (head, rest)
    else if embedded then none
    else do
      let rest ← expect? ':' rest
      let rest ← expect? ':' rest
      match groups (7 - head.length) true rest with
      | (tail, _, rest) =>
        return (head ++ List.replicate (8 - head.length - tail.length) 0 ++ tail, rest)

def service? (text : List Char) : Option UInt16 := do
  let (service, rest) ← bounded? 65535 (← expect? ':' text)
  if rest.isEmpty then return service.toUInt16 else none

def scope? (text : List Char) : Option (UInt32 × List Char) :=
  match expect? '%' text with
  | none => some (0, text)
  | some rest =>
    match bounded? (UInt32.size - 1) rest with
    | some (scope, rest) => some (scope.toUInt32, rest)
    | none => some (0, text)

def parse? (text : String) : Option Address :=
  let chars := text.toList
  match short? chars with
  | some ((a, b, c, d), rest) => (service? rest).map fun service => ⟨.short a b c d, service⟩
  | none => do
    let (groups, rest) ← long? (← expect? '[' chars)
    let (scope, rest) ← scope? rest
    let service ← service? (← expect? ']' rest)
    return ⟨.long groups scope, service⟩

end Address

end EventClient
