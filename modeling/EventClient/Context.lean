import EventClient.Journal
import EventClient.Registry
import EventClient.Subscriptions
import EventClient.Text.Quoted
import EventClient.Transport

/-!
One context: the requests that wait for their completion, one registry for each kind, the
subscribed events and the two handlers for broadcasts. A request is held in its registry before the
transport is handed its call and taken out again if the call is refused. Once released, a context
issues nothing more.
-/
namespace EventClient

/-- What runs on every broadcast of a kind, and how often it ran. -/
structure Handler (κ : Type) where
  callback : κ
  userData : Option String
  runs : Nat := 0
deriving Repr

/-- How many callbacks were dropped when a context was released. -/
structure Dropped where
  sends : Nat
  lists : Nat
deriving DecidableEq, Repr

structure Context (κ : Type) where
  sends : Registry κ := .empty .send
  lists : Registry κ := .empty .list
  subscriptions : Subscriptions := .empty
  eventHandler : Option (Handler κ) := none
  statusHandler : Option (Handler κ) := none
  released : Bool := false
deriving Repr

/-- What an operation on a context leaves behind. -/
structure Performed (T κ α : Type) where
  result : Except ClientError α
  context : Context κ
  transport : T
  entries : List Entry := []

namespace Context

variable {T κ : Type}

def registry (c : Context κ) : RequestKind → Registry κ
  | .send => c.sends
  | .list => c.lists

def withRegistry (c : Context κ) (kind : RequestKind) (r : Registry κ) : Context κ :=
  match kind with
  | .send => { c with sends := r }
  | .list => { c with lists := r }

def checkActive (c : Context κ) : Except ClientError Unit :=
  if c.released then .error .contextReleased else .ok ()

/-- Event data are a JSON object. -/
def checkPayload (payload : String) : Except ClientError Unit :=
  let text := Text.bytes payload
  match Json.parse text with
  | .error fault => .error (.malformedPayload (fault.message text))
  | .ok value => if value.isObject then .ok () else .error .payloadNotObject

/-- Everything that is asked of an event before it gets an id. -/
def checkSend (c : Context κ) (event payload : String) (target : Target) :
    Except ClientError Unit := do
  c.checkActive
  if Text.isBlankText event then .error .blankEvent
  checkPayload payload
  target.check

variable [Transport T]

/-- Hand over a call that changes nothing in the context. -/
def issue (c : Context κ) (t : T) (call : Call) (entries : List Entry) : Performed T κ Unit :=
  match Transport.perform t call with
  | (t, .ok ()) => { result := .ok (), context := c, transport := t, entries }
  | (t, .error e) => { result := .error e, context := c, transport := t }

/-- Take an id, hold a callback under it, and hand over the call that carries it. -/
def request (c : Context κ) (t : T) (kind : RequestKind) (callback : κ)
    (userData : Option String) (call : CorrelationId → Call) (issued : CorrelationId → Entry) :
    Performed T κ CorrelationId :=
  let (id, registry) := (c.registry kind).issue
  match registry.hold { id, callback, userData } with
  | .error e => { result := .error e, context := c.withRegistry kind registry, transport := t }
  | .ok held =>
    let registered := Entry.registered kind id held.size
    match Transport.perform t (call id) with
    | (t, .ok ()) =>
      { result := .ok id, context := c.withRegistry kind held, transport := t
        entries := [registered, issued id] }
    | (t, .error e) =>
      { result := .error e, context := c.withRegistry kind (held.withdraw id).2, transport := t
        entries := [registered] }

def send (c : Context κ) (t : T) (event payload : String) (target : Target) (callback : κ)
    (userData : Option String) : Performed T κ CorrelationId :=
  match c.checkSend event payload target with
  | .error e => { result := .error e, context := c, transport := t }
  | .ok () =>
    c.request t .send callback userData (fun id => .sendEvent event payload id target)
      (fun id => .sendIssued id event)

def list (c : Context κ) (t : T) (scope : Scope) (callback : κ) (userData : Option String) :
    Performed T κ CorrelationId :=
  match c.checkActive with
  | .error e => { result := .error e, context := c, transport := t }
  | .ok () =>
    c.request t .list callback userData (fun id => .listApplications id scope) (.listIssued scope)

def pushSubscriptions (c : Context κ) (t : T) : Performed T κ Unit :=
  c.issue t (.subscribe c.subscriptions.names) [.subscriptionsIssued c.subscriptions.size]

/-- Subscribe to exactly the given names. They stay the context's own even if the transport refuses
the call. -/
def subscribe (c : Context κ) (t : T) (names : List String) : Performed T κ Unit :=
  match c.checkActive, Subscriptions.ofNames? names with
  | .error e, _ | .ok (), .error e => { result := .error e, context := c, transport := t }
  | .ok (), .ok subscriptions => { c with subscriptions }.pushSubscriptions t

/-- Subscribe to the names as they were edited. -/
def renewSubscriptions (c : Context κ) (t : T) : Performed T κ Unit :=
  match c.checkActive, c.subscriptions.check with
  | .error e, _ | .ok (), .error e => { result := .error e, context := c, transport := t }
  | .ok (), .ok () => c.pushSubscriptions t

def bridgeSignals (c : Context κ) (t : T) : Performed T κ Unit :=
  match c.checkActive with
  | .error e => { result := .error e, context := c, transport := t }
  | .ok () => c.issue t .bridgeSignals []

omit [Transport T]

/-- Edit the subscribed names without telling the framework. -/
def editSubscriptions (c : Context κ) (clear : Bool) (erased inserted : List String) :
    Context κ :=
  let kept := if clear then Subscriptions.empty else c.subscriptions
  { c with subscriptions := inserted.foldl .insert (erased.foldl .erase kept) }

/-- Take the callback that a completion is for; `none` once the context is released, because its
callbacks were dropped then. -/
def settle (c : Context κ) (kind : RequestKind) (id : CorrelationId) :
    Except ClientError (Option (Pending κ × Context κ × List Entry)) :=
  if c.released then .ok none
  else
    match (c.registry kind).settle id with
    | .error e => .error e
    | .ok (entry, registry) =>
      .ok (some (entry, c.withRegistry kind registry, [.resolved kind id registry.size]))

/-- Release the context: whatever waits is dropped, and so are the handlers. -/
def shutDown (c : Context κ) : Dropped × Context κ × List Entry :=
  let (sends, sendRegistry) := c.sends.clear
  let (lists, listRegistry) := c.lists.clear
  let dropped : Dropped := ⟨sends.length, lists.length⟩
  let context : Context κ :=
    { c with sends := sendRegistry, lists := listRegistry, eventHandler := none,
             statusHandler := none, released := true }
  let entries :=
    if 0 < dropped.sends ∨ 0 < dropped.lists then
      [Entry.callbacksDropped dropped.sends dropped.lists]
    else []
  (dropped, context, entries)

def debugText (c : Context κ) : String :=
  let names := ", ".intercalate (c.subscriptions.names.map Text.quoted)
  s!"Context \x7b send_callbacks: {c.sends.debugText}, list_callbacks: {c.lists.debugText}, " ++
    s!"subscriptions: SubscriptionSet \x7b names: \x7b{names}\x7d \x7d, " ++
    s!"has_event_handler: {c.eventHandler.isSome}, " ++
    s!"has_status_handler: {c.statusHandler.isSome}, released: {c.released} \x7d"

end Context

end EventClient
