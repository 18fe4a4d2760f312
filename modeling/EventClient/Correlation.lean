/-!
What links a request to its completion: the kind of request and a number that is given out once per
kind and context.
-/
namespace EventClient

structure CorrelationId where
  value : UInt64
deriving DecidableEq, Repr, Inhabited

namespace CorrelationId

/-- The id that is given out after `count` others. -/
def nth (count : Nat) : CorrelationId := ⟨.ofNat count⟩

def text (id : CorrelationId) : String := toString id.value.toNat

instance : ToString CorrelationId := ⟨text⟩

end CorrelationId

/-- The two kinds of request that are answered by a completion. -/
inductive RequestKind where
  | send
  | list
deriving DecidableEq, Repr

namespace RequestKind

def label : RequestKind → String
  | .send => "event send"
  | .list => "application list"

/-- The short name that a listing of the registry shows. -/
def shortName : RequestKind → String
  | .send => "Send"
  | .list => "List"

end RequestKind

end EventClient
