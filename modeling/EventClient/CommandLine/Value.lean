import EventClient.Address
import EventClient.CommandLine.Setting
import EventClient.Settings
import EventClient.Target

/-!
The values of settings: what the texts that give them mean, and which texts a setting takes.
-/
namespace EventClient.CommandLine

inductive TraceLevel where
  | off
  | limited
  | everything
deriving DecidableEq, Repr

namespace TraceLevel

def ofText? : String → Option TraceLevel
  | "none" => some .off
  | "limited" => some .limited
  | "all" => some .everything
  | _ => none

def patterns : TraceLevel → List String
  | .off => []
  | .limited => [Settings.debugLimited]
  | .everything => [Settings.debugAll]

end TraceLevel

def digits? (chars : List Char) : Option Nat :=
  if chars.isEmpty ∨ !chars.all Char.isDigit then none
  else some (chars.foldl (fun value c => value * 10 + (c.toNat - '0'.toNat)) 0)

/-- A number below a bound, written with or without a plus sign. -/
def natural? (bound : Nat) (text : String) : Option Nat :=
  let value := match text.toList with
    | '+' :: chars => digits? chars
    | chars => digits? chars
  value.filter (· < bound)

/-- A signed number that turns out not to be negative. -/
def unsigned? (bound : Nat) (text : String) : Option Nat :=
  match text.toList with
  | '-' :: chars => (digits? chars).filter (· = 0)
  | _ => natural? bound text

def wordBound : Nat := UInt32.size

def word? (text : String) : Option Nat := unsigned? wordBound text

def longWord? (text : String) : Option Nat := natural? UInt64.size text

def path? (text : String) : Option Path := if text = "" then none else some (.ofText text)

def names (values : List String) : List String := values.flatMap (·.splitOn ",")

/-- Whether a setting takes a text as its value; one without values is only given or not. -/
def Setting.accepts : Setting → String → Bool
  | .address, text => (Address.parse? text).isSome
  | .tracing, text => (TraceLevel.ofText? text).isSome
  | .binary, text => (path? text).isSome
  | .process, text | .count, text => (word? text).isSome
  | .interval, text => (longWord? text).isSome
  | _, _ => true

end EventClient.CommandLine
