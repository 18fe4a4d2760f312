import EventClient.Request

/-!
The boundary between a client and whatever carries its requests. A transport is handed calls one at
a time and answers at once whether each was taken; what the framework makes of a call comes later,
as notifications on the channel that was opened with the context.
-/
namespace EventClient

/-- Contexts are numbered in the order in which opening them was tried. -/
abbrev ContextId := Nat

inductive Call where
  /-- Open a session for a context, to whose channel its notifications go. -/
  | openContext (context : ContextId)
  | closeContext
  | subscribe (events : List String)
  | sendEvent (event payload : String) (id : CorrelationId) (target : Target)
  | listApplications (id : CorrelationId) (scope : Scope)
  | setTracing (patterns : List TracePattern)
  | bridgeSignals
deriving DecidableEq, Repr

class Transport (T : Type) where
  /-- Hand over a call; a call that is refused never left. -/
  perform : T → Call → T × Except ClientError Unit
  /-- The context whose channel notifications can still be put on. -/
  holder : T → Option ContextId

end EventClient
