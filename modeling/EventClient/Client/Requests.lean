import EventClient.Client.Basic

/-!
What a program does with a context that it has a handle of: requests, which the transport carries,
and changes of the context's own handlers and subscriptions, which tell nobody.
-/
namespace EventClient.Client

variable {T κ : Type}

/-- The handle at an index, by default the one that was acquired last; `none` if there is none or
it was dropped. -/
def handle? (s : Client T κ) (index : Option Nat) : Option Handle :=
  match index with
  | some i => s.handles[i]?.join
  | none => s.handles.getLast?.join

def dropHandle (s : Client T κ) (index : Option Nat) : Client T κ :=
  { s with handles := s.handles.set (index.getD (s.handles.length - 1)) none }

def setEventHandler (s : Client T κ) (c : ContextId) (handler : Option (Handler κ)) :
    Client T κ :=
  s.updateContext c fun context => { context with eventHandler := handler }

def setStatusHandler (s : Client T κ) (c : ContextId) (handler : Option (Handler κ)) :
    Client T κ :=
  s.updateContext c fun context => { context with statusHandler := handler }

def editSubscriptions (s : Client T κ) (c : ContextId) (clear : Bool)
    (erased inserted : List String) : Client T κ :=
  s.updateContext c (·.editSubscriptions clear erased inserted)

/-- Whether a send and whether a list with this id wait for their completion. -/
def isOutstanding (s : Client T κ) (c : ContextId) (id : CorrelationId) : Bool × Bool :=
  match s.slot? c with
  | some slot => (slot.context.sends.isOutstanding id, slot.context.lists.isOutstanding id)
  | none => (false, false)

/-- The texts that show a context, a handle of it, and the dispatch of its notifications. -/
def shown (s : Client T κ) (c : ContextId) : String × String × String :=
  let context := ((s.slot? c).map (·.context.debugText)).getD ""
  let handle := "ContextHandle \x7b .. \x7d"
  (context, handle, s!"Dispatcher \x7b context: {handle} \x7d")

variable [Transport T]

def send (s : Client T κ) (c : ContextId) (event payload : String) (target : Target) (callback : κ)
    (userData : Option String) : Except ClientError CorrelationId × Client T κ :=
  s.onContext c fun context t => context.send t event payload target callback userData

def list (s : Client T κ) (c : ContextId) (scope : Scope) (callback : κ)
    (userData : Option String) : Except ClientError CorrelationId × Client T κ :=
  s.onContext c fun context t => context.list t scope callback userData

def subscribe (s : Client T κ) (c : ContextId) (names : List String) :
    Except ClientError Unit × Client T κ :=
  s.onContext c fun context t => context.subscribe t names

def renewSubscriptions (s : Client T κ) (c : ContextId) : Except ClientError Unit × Client T κ :=
  s.onContext c fun context t => context.renewSubscriptions t

def bridgeSignals (s : Client T κ) (c : ContextId) : Except ClientError Unit × Client T κ :=
  s.onContext c fun context t => context.bridgeSignals t

end EventClient.Client
