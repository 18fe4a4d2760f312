import EventClient.Binary64.Rounding
import EventClient.Text.Bytes

/-!
JSON values. Objects keep their members as they were written; the canonical form orders them by
name and keeps the last of several members with one name.
-/
namespace EventClient

/-- Integers of up to 64 bits, signed or not, stay exact; any other number is a double. -/
inductive JsonNumber where
  | integer (value : Int)
  | real (value : Binary64)
deriving DecidableEq, Repr, Inhabited

inductive Json where
  | null
  | bool (value : Bool)
  | number (value : JsonNumber)
  | string (value : String)
  | list (items : List Json)
  | object (members : List (String × Json))
deriving Repr, Inhabited

namespace Json

def ofNat (n : Nat) : Json := .number (.integer n)

def ofInt (n : Int) : Json := .number (.integer n)

def isObject : Json → Bool
  | .object _ => true
  | _ => false

/-- Put a member into a list ordered by name, in place of one with the same name. -/
def insertMember (name : String) (value : Json) : List (String × Json) → List (String × Json)
  | [] => [(name, value)]
  | (other, held) :: rest =>
    if name = other then (name, value) :: rest
    else if Text.precedes name other then (name, value) :: (other, held) :: rest
    else (other, held) :: insertMember name value rest

/-- Members in order of their names, the last one of each name. -/
def orderMembers (members : List (String × Json)) : List (String × Json) :=
  members.foldl (fun ordered member => insertMember member.1 member.2 ordered) []

mutual

def canonical : Json → Json
  | .list items => .list (canonicalItems items)
  | .object members => .object (orderMembers (canonicalMembers members))
  | value => value

def canonicalItems : List Json → List Json
  | [] => []
  | item :: rest => item.canonical :: canonicalItems rest

def canonicalMembers : List (String × Json) → List (String × Json)
  | [] => []
  | (name, value) :: rest => (name, value.canonical) :: canonicalMembers rest

end

end Json

end EventClient
