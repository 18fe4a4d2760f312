import EventClient.Application
import EventClient.Settings

/-!
What the framework tells its clients: completions of single requests, which carry the id of their
request, and broadcasts of events and of the outcome of subscription updates. On the wire each is a
variant told by its method, addressed to one session.
-/
namespace EventClient

structure SendResult where
  eventId : Int32
  status : Int32
  message : String
deriving DecidableEq, Repr

structure ListResult where
  requestId : Int32
  status : Int32
  message : String
  applications : List Application
deriving DecidableEq, Repr

structure EventBroadcast where
  name : String
  payload : String
deriving DecidableEq, Repr

/-- The outcome of a subscription update, which no id ties to the update. -/
structure StatusBroadcast where
  id : Int32
  status : Int32
  message : String
  payload : String
deriving DecidableEq, Repr

def isOk (status : Int32) : Bool := status == Settings.statusOk

/-- What a result holds if its status is a success. -/
def ifOk {α : Type} (status : Int32) (message : String) (value : α) : Except RequestFailure α :=
  if isOk status then .ok value else .error ⟨status, message⟩

def SendResult.check (r : SendResult) : Except RequestFailure Int32 :=
  ifOk r.status r.message r.eventId

def ListResult.check (r : ListResult) : Except RequestFailure (List Application) :=
  ifOk r.status r.message r.applications

inductive Notification where
  | sendCompleted (id : CorrelationId) (result : SendResult)
  | applicationsListed (id : CorrelationId) (result : ListResult)
  | event (broadcast : EventBroadcast)
  | subscriptionStatus (broadcast : StatusBroadcast)
deriving DecidableEq, Repr

namespace CorrelationId

def toJson (id : CorrelationId) : Json := .ofNat id.value.toNat

def decoder : Json.Decoder CorrelationId := Json.Decoder.uint64.map CorrelationId.mk

end CorrelationId

namespace Notification

def method : Notification → String
  | .sendCompleted _ _ => "send_completed"
  | .applicationsListed _ _ => "applications_listed"
  | .event _ => "event"
  | .subscriptionStatus _ => "subscription_status"

def params : Notification → Except ClientError Json
  | .sendCompleted id r => .ok <| .object [
      ("id", id.toJson),
      ("event_id", .ofInt r.eventId.toInt),
      ("status", .ofInt r.status.toInt),
      ("message", .string r.message)]
  | .applicationsListed id r => do
    return .object [
      ("id", id.toJson),
      ("request_id", .ofInt r.requestId.toInt),
      ("status", .ofInt r.status.toInt),
      ("message", .string r.message),
      ("applications", .list (← r.applications.mapM Application.toJson))]
  | .event b => .ok <| .object [("name", .string b.name), ("payload", .string b.payload)]
  | .subscriptionStatus b => .ok <| .object [
      ("id", .ofInt b.id.toInt),
      ("status", .ofInt b.status.toInt),
      ("message", .string b.message),
      ("payload", .string b.payload)]

def toJson (n : Notification) : Except ClientError Json := do
  return .object [("method", .string n.method), ("params", ← n.params)]

/-- The payload of a broadcast that has none. -/
def noPayload : String := "\x7b\x7d"

def sendRecord : Json.Record Notification :=
  let fields :=
    (Json.Record.required "id" CorrelationId.decoder).and <|
    (Json.Record.required "event_id" .int32).and <|
    (Json.Record.required "status" .int32).and <|
    Json.Record.defaulted "message" .string ""
  fields.map fun (id, eventId, status, message) => .sendCompleted id { eventId, status, message }

def listRecord : Json.Record Notification :=
  let fields :=
    (Json.Record.required "id" CorrelationId.decoder).and <|
    (Json.Record.required "request_id" .int32).and <|
    (Json.Record.required "status" .int32).and <|
    (Json.Record.defaulted "message" .string "").and <|
    Json.Record.defaulted "applications" Application.decoder.list []
  fields.map fun (id, requestId, status, message, applications) =>
    .applicationsListed id { requestId, status, message, applications }

def eventRecord : Json.Record Notification :=
  let fields :=
    (Json.Record.required "name" .string).and <|
    Json.Record.defaulted "payload" .string noPayload
  fields.map fun (name, payload) => .event { name, payload }

def statusRecord : Json.Record Notification :=
  let fields :=
    (Json.Record.required "id" .int32).and <|
    (Json.Record.required "status" .int32).and <|
    (Json.Record.defaulted "message" .string "").and <|
    Json.Record.defaulted "payload" .string noPayload
  fields.map fun (id, status, message, payload) =>
    .subscriptionStatus { id, status, message, payload }

def variants : List (Json.Variant Notification) := [
  { method := "send_completed", params := sendRecord.objectDecoder },
  { method := "applications_listed", params := listRecord.objectDecoder },
  { method := "event", params := eventRecord.objectDecoder },
  { method := "subscription_status", params := statusRecord.objectDecoder }]

def decoder : Json.Decoder Notification := Json.Variant.decoder variants

/-- The notification that a text holds, if it holds one. -/
def ofText? (text : String) : Option Notification := (decoder.decode (Text.bytes text)).toOption

end Notification

/-- A notification for the session of one context. -/
structure SessionNotification where
  session : UInt64
  notification : Notification
deriving DecidableEq, Repr

namespace SessionNotification

def toJson (n : SessionNotification) : Except ClientError Json := do
  return .object [
    ("session", .ofNat n.session.toNat),
    ("notification", ← n.notification.toJson)]

def record : Json.Record SessionNotification :=
  let fields :=
    (Json.Record.required "session" .uint64).and <|
    Json.Record.required "notification" Notification.decoder
  fields.map fun (session, notification) => { session, notification }

def decoder : Json.Decoder SessionNotification := record.decoder

end SessionNotification

end EventClient
