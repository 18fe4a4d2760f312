import EventClient.Target

/-!
What the framework reports about one application.
-/
namespace EventClient

structure Application where
  appId : String
  description : String := ""
  desktop : Path := ⟨[]⟩
  userId : UInt32
  args : List String := []
deriving DecidableEq, Repr

namespace Application

def toJson (a : Application) : Except ClientError Json := do
  return .object [
    ("app_id", .string a.appId),
    ("description", .string a.description),
    ("desktop", ← a.desktop.toJson),
    ("user_id", Json.ofNat a.userId.toNat),
    ("args", .list (a.args.map .string))]

def record : Json.Record Application :=
  let fields :=
    (Json.Record.required "app_id" .string).and <|
    (Json.Record.defaulted "description" .string "").and <|
    (Json.Record.defaulted "desktop" Path.decoder ⟨[]⟩).and <|
    (Json.Record.required "user_id" .uint32).and <|
    Json.Record.defaulted "args" (.list .string) []
  fields.map fun (appId, description, desktop, userId, args) =>
    { appId, description, desktop, userId, args }

def decoder : Json.Decoder Application := record.decoder

end Application

end EventClient
