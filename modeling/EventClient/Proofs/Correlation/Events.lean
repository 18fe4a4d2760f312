import EventClient.Proofs.Client.Contexts
import EventClient.Proofs.Registry

/-!
What a run shows of the correlation of requests with their completions: requests that got an id,
dispatches with the invocation that each led to, and releases. The events are read off the calls
that are made and the answers that they get, and no state is kept for them.
-/
namespace EventClient

def Delivery.kind? : Delivery → Option RequestKind
  | .sent _ => some .send
  | .listed _ => some .list
  | .event _ | .status _ => none

namespace Notification

/-- A completion of the request of a kind that has an id. -/
def Completes (kind : RequestKind) (id : CorrelationId) : Notification → Prop
  | .sendCompleted id' _ => kind = .send ∧ id' = id
  | .applicationsListed id' _ => kind = .list ∧ id' = id
  | .event _ | .subscriptionStatus _ => False

/-- What a callback is handed of a notification: all of its fields but the id. -/
def delivery : Notification → Delivery
  | .sendCompleted _ result => .sent result
  | .applicationsListed _ result => .listed result
  | .event broadcast => .event broadcast
  | .subscriptionStatus broadcast => .status broadcast

theorem completes_unique {n : Notification} {kind kind' : RequestKind} {id id' : CorrelationId}
    (h : n.Completes kind id) (h' : n.Completes kind' id') : id = id' := by
  cases n with
  | sendCompleted | applicationsListed => exact h.2.symm.trans h'.2
  | event | subscriptionStatus => exact h.elim

/-- A completion is handed over as one of its own kind. -/
theorem kind?_delivery {n : Notification} {kind : RequestKind} {id : CorrelationId}
    (h : n.Completes kind id) : n.delivery.kind? = some kind := by
  cases n with
  | sendCompleted | applicationsListed => exact congrArg some h.1.symm
  | event | subscriptionStatus => exact h.elim

end Notification

/-- The invocation of the callback of one request. -/
def Invocation.Answers {κ : Type} (i : Invocation κ) (c : ContextId) (kind : RequestKind)
    (id : CorrelationId) : Prop :=
  i.context = c ∧ i.answers = some id ∧ i.delivery.kind? = some kind

instance {κ : Type} (i : Invocation κ) (c : ContextId) (kind : RequestKind) (id : CorrelationId) :
    Decidable (i.Answers c kind id) :=
  inferInstanceAs (Decidable (_ ∧ _ ∧ _))

namespace Client

variable {T κ : Type}

inductive Event (κ : Type) where
  /-- A request took the next id of its kind, and the transport answered the call with that id. -/
  | requested (c : ContextId) (kind : RequestKind) (entry : Pending κ)
      (answer : Except ClientError Unit)
  /-- A notification was dispatched; it failed, or it led to an invocation or to none. -/
  | dispatched (c : ContextId) (n : Notification)
      (outcome : Except ClientError (Option (Invocation κ)))
  | released (c : ContextId)

namespace Event

def invocation? : Event κ → Option (Invocation κ)
  | .dispatched _ _ (.ok i) => i
  | _ => none

/-- A request of a kind for a context that got an id. -/
def Requests (c : ContextId) (kind : RequestKind) (id : CorrelationId) : Event κ → Prop
  | .requested c' kind' entry _ => c' = c ∧ kind' = kind ∧ entry.id = id
  | _ => False

instance (c : ContextId) (kind : RequestKind) (id : CorrelationId) (e : Event κ) :
    Decidable (e.Requests c kind id) :=
  match e with
  | .requested .. => inferInstanceAs (Decidable (_ ∧ _ ∧ _))
  | .dispatched .. | .released _ => inferInstanceAs (Decidable False)

/-- The dispatch of a completion, whatever came of it. -/
def Completes (c : ContextId) (kind : RequestKind) (id : CorrelationId) : Event κ → Prop
  | .dispatched c' n _ => c' = c ∧ n.Completes kind id
  | _ => False

/-- Neither a completion of a request nor the release of its context. -/
def Spares (c : ContextId) (kind : RequestKind) (id : CorrelationId) (e : Event κ) : Prop :=
  ¬ e.Completes c kind id ∧ ∀ c', e = .released c' → c' ≠ c

end Event

def invoked (h : List (Event κ)) : List (Invocation κ) := h.filterMap Event.invocation?

def runs (h : List (Event κ)) (c : ContextId) (kind : RequestKind) (id : CorrelationId) :
    List (Invocation κ) :=
  (invoked h).filter fun i => i.Answers c kind id

def requests (h : List (Event κ)) (c : ContextId) (kind : RequestKind) (id : CorrelationId) :
    List (Event κ) :=
  h.filter fun e => e.Requests c kind id

/-- The registry of a kind of a context; a context that is not there has none outstanding. -/
def registry (s : Client T κ) (c : ContextId) (kind : RequestKind) : Registry κ :=
  ((s.context? c).map (·.registry kind)).getD (.empty kind)

variable [Transport T]

def requestEvent (t : T) (c : ContextId) (context : Context κ) (kind : RequestKind) (callback : κ)
    (userData : Option String) (call : CorrelationId → Call) : Event κ :=
  let id := (context.registry kind).nextId
  .requested c kind { id, callback, userData } (Transport.perform t (call id)).2

/-- What a move means for correlation, if anything. -/
def Move.event? (s : Client T κ) : Move T κ → Option (Event κ)
  | .program (.send c event payload target callback userData) =>
    (s.context? c).bind fun context =>
      match context.checkSend event payload target with
      | .error _ => none
      | .ok () =>
        some <| requestEvent s.transport c context .send callback userData
          fun id => .sendEvent event payload id target
  | .program (.list c scope callback userData) =>
    (s.context? c).bind fun context =>
      match context.checkActive with
      | .error _ => none
      | .ok () =>
        some <| requestEvent s.transport c context .list callback userData
          fun id => .listApplications id scope
  | .program (.route c n) => some (.dispatched c n (s.route c n).1)
  | .program .release => s.current.map .released
  | _ => none

def events (s : Client T κ) (moves : List (Move T κ)) : List (Event κ) :=
  (s.history moves).filterMap fun (found, move) => move.event? found

theorem events_cons (s : Client T κ) (move : Move T κ) (moves : List (Move T κ)) :
    s.events (move :: moves) = (move.event? s).toList ++ (move.apply s).events moves := by
  cases h : move.event? s <;> simp [events, history, h]

theorem invoked_append (h h' : List (Event κ)) : invoked (h ++ h') = invoked h ++ invoked h' :=
  List.filterMap_append

theorem runs_append (h h' : List (Event κ)) (c : ContextId) (kind : RequestKind)
    (id : CorrelationId) : runs (h ++ h') c kind id = runs h c kind id ++ runs h' c kind id := by
  rw [runs, invoked_append, List.filter_append]
  rfl

theorem requests_append (h h' : List (Event κ)) (c : ContextId) (kind : RequestKind)
    (id : CorrelationId) :
    requests (h ++ h') c kind id = requests h c kind id ++ requests h' c kind id :=
  List.filter_append ..

end Client

end EventClient
