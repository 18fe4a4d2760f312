import EventClient.Client.Lifecycle

/-!
Routing of notifications: a completion takes the callback that waits for it, a broadcast goes to
the handler that is set when its dispatch starts. What the callback then does is a parameter, an
arbitrary change of the whole client.
-/
namespace EventClient.Client

variable {T κ : Type}

/-- What one invocation does to the client. -/
abbrev Reaction (T κ : Type) := Invocation κ → Client T κ → Client T κ

/-- The invocation that a completion leads to: none once the context is released. -/
def routeCompletion (s : Client T κ) (c : ContextId) (slot : Slot κ) (kind : RequestKind)
    (id : CorrelationId) (delivery : Delivery) (completed : Entry) :
    Except ClientError (Option (Invocation κ)) × Client T κ :=
  match slot.context.settle kind id with
  | .error e => (.error e, s)
  | .ok none => (.ok none, s.note [.completionDropped kind id])
  | .ok (some (entry, context, entries)) =>
    let s := (s.withSlot c { slot with context }).note (entries ++ [completed])
    let invocation : Invocation κ :=
      { context := c, answers := some id, callback := entry.callback, userData := entry.userData
        runs := 0, delivery }
    (.ok (some invocation), s)

/-- The invocation of a handler, which counts how often it ran. -/
def runHandler (c : ContextId) (handler : Handler κ) (delivery : Delivery) :
    Invocation κ × Handler κ :=
  ({ context := c, answers := none, callback := handler.callback, userData := handler.userData
     runs := handler.runs, delivery },
    { handler with runs := handler.runs + 1 })

def route (s : Client T κ) (c : ContextId) (n : Notification) :
    Except ClientError (Option (Invocation κ)) × Client T κ :=
  match s.slot? c with
  | none => (.ok none, s)
  | some slot =>
    match n with
    | .sendCompleted id result =>
      s.routeCompletion c slot .send id (.sent result) (.sendCompleted id result.status)
    | .applicationsListed id result =>
      s.routeCompletion c slot .list id (.listed result)
        (.listCompleted id result.status result.applications.length)
    | .event broadcast =>
      match slot.context.eventHandler with
      | none => (.ok none, s.note [.eventDiscarded broadcast.name])
      | some handler =>
        let (invocation, handler) := runHandler c handler (.event broadcast)
        let context := { slot.context with eventHandler := some handler }
        (.ok (some invocation), s.withSlot c { slot with context })
    | .subscriptionStatus broadcast =>
      match slot.context.statusHandler with
      | none => (.ok none, s.note [.statusDiscarded broadcast.id])
      | some handler =>
        let (invocation, handler) := runHandler c handler (.status broadcast)
        let context := { slot.context with statusHandler := some handler }
        (.ok (some invocation), s.withSlot c { slot with context })

def dispatch (react : Reaction T κ) (s : Client T κ) (c : ContextId) (n : Notification) :
    Except ClientError Unit × Client T κ :=
  match s.route c n with
  | (.error e, s) => (.error e, s)
  | (.ok none, s) => (.ok (), s)
  | (.ok (some invocation), s) => (.ok (), react invocation s)

end EventClient.Client
