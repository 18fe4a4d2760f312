import EventClient.Error
import EventClient.Text.Blank
import EventClient.Text.Bytes

/-!
The set of event names that a program subscribes to, in byte order. Edits in place may put blank
names into it; those are found when the set is checked before it is pushed.
-/
namespace EventClient

/-- Names in strictly ascending byte order. -/
structure Subscriptions where
  names : List String
deriving DecidableEq, Repr

namespace Subscriptions

def empty : Subscriptions := ⟨[]⟩

instance : Inhabited Subscriptions := ⟨empty⟩

/-- Put a name in its place among ordered names, once. -/
def insertName (name : String) : List String → List String
  | [] => [name]
  | first :: rest =>
    if name = first then first :: rest
    else if Text.precedes name first then name :: first :: rest
    else first :: insertName name rest

def contains (s : Subscriptions) (name : String) : Bool := s.names.contains name

def insert (s : Subscriptions) (name : String) : Subscriptions := ⟨insertName name s.names⟩

def erase (s : Subscriptions) (name : String) : Subscriptions := ⟨s.names.filter (· != name)⟩

/-- Put a name into the set; whether it was not there before. -/
def insertNew (s : Subscriptions) (name : String) : Bool × Subscriptions :=
  (!s.contains name, s.insert name)

/-- Take a name out of the set; whether it was there. -/
def takeOut (s : Subscriptions) (name : String) : Bool × Subscriptions :=
  (s.contains name, s.erase name)

def ofNames (names : List String) : Subscriptions := names.foldl insert empty

def size (s : Subscriptions) : Nat := s.names.length

def isEmpty (s : Subscriptions) : Bool := s.names.isEmpty

/-- No name is blank. -/
def check (s : Subscriptions) : Except ClientError Unit :=
  if s.names.any Text.isBlankText then .error .blankSubscription else .ok ()

/-- The set of some names, none of which may be blank. -/
def ofNames? (names : List String) : Except ClientError Subscriptions := do
  let s := ofNames names
  s.check
  return s

end Subscriptions

end EventClient
