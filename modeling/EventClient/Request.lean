import EventClient.Notification
import EventClient.TracePattern

/-!
What a client asks of the framework, as the daemon reads it. Event data travel as a value rather
than as text, and targets with the user's number.
-/
namespace EventClient

inductive Scope where
  | running
  | all
deriving DecidableEq, Repr

namespace Scope

def name : Scope → String
  | .running => "running"
  | .all => "all"

def toJson (s : Scope) : Json := .string s.name

def decoder : Json.Decoder Scope :=
  Json.Decoder.variantName [("running", .running), ("all", .all)]

end Scope

inductive Request where
  | createContext (session : UInt64)
  | destroyContext (session : UInt64)
  | subscribe (events : List String)
  | sendEvent (event : String) (data : Json) (id : CorrelationId) (target : ResolvedTarget)
  | listApplications (id : CorrelationId) (scope : Scope)
  | setDebug (patterns : List TracePattern)
  | bridgeSignals
deriving Repr

namespace Request

def method : Request → String
  | .createContext _ => "create_context"
  | .destroyContext _ => "destroy_context"
  | .subscribe _ => "subscribe"
  | .sendEvent .. => "send_event"
  | .listApplications _ _ => "list_applications"
  | .setDebug _ => "set_debug"
  | .bridgeSignals => "bridge_signals"

/-- The content of the variant, which bridging of signals has none of. -/
def params : Request → Except ClientError (Option Json)
  | .createContext session | .destroyContext session =>
    .ok <| some <| .object [("session", .ofNat session.toNat)]
  | .subscribe events => .ok <| some <| .object [("events", .list (events.map .string))]
  | .sendEvent event data id target => do
    return some <| .object [
      ("event", .string event),
      ("data", data),
      ("id", id.toJson),
      ("target", ← target.toJson)]
  | .listApplications id scope =>
    .ok <| some <| .object [("id", id.toJson), ("scope", scope.toJson)]
  | .setDebug patterns =>
    .ok <| some <| .object [("patterns", .list (patterns.map TracePattern.toJson))]
  | .bridgeSignals => .ok none

def toJson (r : Request) : Except ClientError Json := do
  match ← r.params with
  | some params => return .object [("method", .string r.method), ("params", params)]
  | none => return .object [("method", .string r.method)]

/-- The text of a request, as it is put into a frame. -/
def encode (r : Request) : Except ClientError Bytes := do return (← r.toJson).encode

def sessionRecord (make : UInt64 → Request) : Json.Record Request :=
  (Json.Record.required "session" .uint64).map make

def subscribeRecord : Json.Record Request :=
  (Json.Record.required "events" (.list .string)).map .subscribe

def sendRecord : Json.Record Request :=
  let fields :=
    (Json.Record.required "event" .string).and <|
    (Json.Record.required "data" .json).and <|
    (Json.Record.required "id" CorrelationId.decoder).and <|
    Json.Record.required "target" ResolvedTarget.decoder
  fields.map fun (event, data, id, target) => .sendEvent event data id target

def listRecord : Json.Record Request :=
  let fields :=
    (Json.Record.required "id" CorrelationId.decoder).and <|
    Json.Record.required "scope" Scope.decoder
  fields.map fun (id, scope) => .listApplications id scope

def debugRecord : Json.Record Request :=
  (Json.Record.required "patterns" TracePattern.decoder.list).map .setDebug

def variants : List (Json.Variant Request) := [
  { method := "create_context", params := (sessionRecord .createContext).objectDecoder },
  { method := "destroy_context", params := (sessionRecord .destroyContext).objectDecoder },
  { method := "subscribe", params := subscribeRecord.objectDecoder },
  { method := "send_event", params := sendRecord.objectDecoder },
  { method := "list_applications", params := listRecord.objectDecoder },
  { method := "set_debug", params := debugRecord.objectDecoder },
  { method := "bridge_signals", params := .nothing .bridgeSignals, alone := some .bridgeSignals }]

def decoder : Json.Decoder Request := Json.Variant.decoder variants

end Request

end EventClient
