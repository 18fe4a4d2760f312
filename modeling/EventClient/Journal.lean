import EventClient.Request

/-!
What a client notes about its own work, entry by entry, and the line that each entry makes.
-/
namespace EventClient

inductive Severity where
  | debug
  | info
  | warning
  | error
deriving DecidableEq, Repr

def Severity.label : Severity → String
  | .debug => "DEBUG"
  | .info => "INFO"
  | .warning => "WARN"
  | .error => "ERROR"

inductive Entry where
  | registered (kind : RequestKind) (id : CorrelationId) (outstanding : Nat)
  | resolved (kind : RequestKind) (id : CorrelationId) (outstanding : Nat)
  | sendIssued (id : CorrelationId) (event : String)
  | listIssued (scope : Scope) (id : CorrelationId)
  | subscriptionsIssued (count : Nat)
  | sendCompleted (id : CorrelationId) (status : Int32)
  | listCompleted (id : CorrelationId) (status : Int32) (count : Nat)
  | completionDropped (kind : RequestKind) (id : CorrelationId)
  | eventDiscarded (name : String)
  | statusDiscarded (id : Int32)
  | callbacksDropped (sends lists : Nat)
  | contextCreated
  | contextReleased
  | releaseFailed (error : ClientError)
  | tracingEnabled (patterns : List TracePattern)
  | loopStarted
  | loopStopped
  | loopFailed (error : ClientError)
  | channelLost
deriving DecidableEq, Repr

namespace Entry

def severity : Entry → Severity
  | .contextCreated | .contextReleased | .tracingEnabled _ | .loopStarted | .loopStopped => .info
  | .callbacksDropped _ _ | .releaseFailed _ => .warning
  | .loopFailed _ | .channelLost => .error
  | _ => .debug

def message : Entry → String
  | .registered kind id n => s!"Registered {kind.label} callback {id.text} ({n} outstanding)"
  | .resolved kind id n => s!"Resolved {kind.label} callback {id.text} ({n} outstanding)"
  | .sendIssued id event => s!"Issued event send {id.text} for event {event}"
  | .listIssued scope id => s!"Issued {scope.name} application list {id.text}"
  | .subscriptionsIssued count => s!"Issued subscription update for {count} events"
  | .sendCompleted id status => s!"Event send {id.text} completed with status {status.toInt}"
  | .listCompleted id status count =>
    s!"Application list {id.text} completed with status {status.toInt} ({count} applications)"
  | .completionDropped kind id =>
    s!"Dropping {kind.label} completion {id.text} for released context"
  | .eventDiscarded name => s!"No event handler set, discarding event {name}"
  | .statusDiscarded id => s!"No status handler set, discarding subscription status {id.toInt}"
  | .callbacksDropped sends lists =>
    s!"Releasing context with {sends} event send and {lists} application list callbacks " ++
      "outstanding; they will not be invoked"
  | .contextCreated => "Application framework context created"
  | .contextReleased => "Application framework context released"
  | .releaseFailed e => s!"Failed to release application framework context: {e.message}"
  | .tracingEnabled patterns =>
    "Framework debugging enabled for " ++ ", ".intercalate (patterns.map TracePattern.text)
  | .loopStarted => "Event loop started"
  | .loopStopped => "Event loop stopped"
  | .loopFailed e => s!"Event loop stopped by dispatch failure: {e.message}"
  | .channelLost => "Transport closed the channel of an unreleased context"

def line (e : Entry) : String := s!"{e.severity.label} {e.message}"

end Entry

end EventClient
