import EventClient.Error

/-!
The table of requests that wait for their completion, for one kind of request. Its entries are kept
in ascending order of their ids, so listings need no sorting, and ids are given out in counting
order whatever happens to the entries.
-/
namespace EventClient

/-- A callback that waits for its completion, with the data handed back to it. -/
structure Pending (κ : Type) where
  id : CorrelationId
  callback : κ
  userData : Option String
deriving Repr

namespace Pending

variable {κ : Type}

def debugText (entry : Pending κ) : String :=
  s!"PendingCallback \x7b id: CorrelationId({entry.id.text}), " ++
    s!"has_user_data: {entry.userData.isSome} \x7d"

/-- Put an entry in front of the first one with a greater id. -/
def insert (entry : Pending κ) : List (Pending κ) → List (Pending κ)
  | [] => [entry]
  | first :: rest =>
    if entry.id.value < first.id.value then entry :: first :: rest else first :: insert entry rest

end Pending

structure Registry (κ : Type) where
  kind : RequestKind
  /-- How many ids were given out. -/
  issued : Nat
  pending : List (Pending κ)
deriving Repr

namespace Registry

variable {κ : Type}

def empty (kind : RequestKind) : Registry κ := ⟨kind, 0, []⟩

def nextId (r : Registry κ) : CorrelationId := .nth r.issued

def issue (r : Registry κ) : CorrelationId × Registry κ :=
  (r.nextId, { r with issued := r.issued + 1 })

def entry? (r : Registry κ) (id : CorrelationId) : Option (Pending κ) :=
  r.pending.find? (·.id == id)

def isOutstanding (r : Registry κ) (id : CorrelationId) : Bool := r.pending.any (·.id == id)

def ids (r : Registry κ) : List CorrelationId := r.pending.map (·.id)

def size (r : Registry κ) : Nat := r.pending.length

def erase (r : Registry κ) (id : CorrelationId) : Registry κ :=
  { r with pending := r.pending.filter (·.id != id) }

/-- Store an entry under its id; an id that is taken keeps its first entry. -/
def hold (r : Registry κ) (entry : Pending κ) : Except ClientError (Registry κ) :=
  if r.isOutstanding entry.id then .error (.alreadyRegistered r.kind entry.id)
  else .ok { r with pending := entry.insert r.pending }

/-- Take the entry that a completion is for. -/
def settle (r : Registry κ) (id : CorrelationId) :
    Except ClientError (Pending κ × Registry κ) :=
  match r.entry? id with
  | some entry => .ok (entry, r.erase id)
  | none => .error (.unknownCorrelation r.kind id)

/-- Take the entry of a request that never left, if there is one. -/
def withdraw (r : Registry κ) (id : CorrelationId) : Option (Pending κ) × Registry κ :=
  (r.entry? id, r.erase id)

/-- Take all entries, in ascending order of their ids. -/
def clear (r : Registry κ) : List (Pending κ) × Registry κ :=
  (r.pending, { r with pending := [] })

def debugText (r : Registry κ) : String :=
  let listed := ", ".intercalate (r.ids.map fun id => s!"CorrelationId({id.text})")
  s!"CallbackRegistry \x7b kind: {r.kind.shortName}, next_id: {r.nextId.text}, " ++
    s!"outstanding: [{listed}] \x7d"

end Registry

end EventClient
