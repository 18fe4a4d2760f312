import EventClient.Accounts
import EventClient.Error
import EventClient.Json.Decoder

/-!
Which applications an event goes to. Every selector is optional and those that are set combine; a
target without any selects nothing and is refused. For the daemon the name of a user is replaced by
the user's number.
-/
namespace EventClient

/-- The path of a file, any bytes at all. -/
structure Path where
  bytes : Bytes
deriving DecidableEq, Repr, Inhabited

namespace Path

def ofText (text : String) : Path := ⟨Text.bytes text⟩

/-- The path as a text, as far as it is one. -/
def text (path : Path) : String := (Text.ofBytes? path.bytes).getD ""

/-- Only a path that is a text can be written. -/
def toJson (path : Path) : Except ClientError Json :=
  match Text.ofBytes? path.bytes with
  | some text => .ok (.string text)
  | none => .error .pathNotText

def decoder : Json.Decoder Path := Json.Decoder.string.map ofText

end Path

namespace Json

/-- A member that is only written when it is set. -/
def member {α : Type} (name : String) (write : α → Except ClientError Json) :
    Option α → Except ClientError (List (String × Json))
  | none => .ok []
  | some value => do return [(name, ← write value)]

end Json

structure Target where
  label : Option String := none
  appId : Option String := none
  binary : Option Path := none
  user : Option String := none
  process : Option UInt32 := none
deriving DecidableEq, Repr, Inhabited

/-- A target as the daemon is told it. -/
structure ResolvedTarget where
  label : Option String := none
  appId : Option String := none
  binary : Option Path := none
  user : Option UInt32 := none
  process : Option UInt32 := none
deriving DecidableEq, Repr, Inhabited

namespace Target

def isUsable (t : Target) : Bool :=
  t.label.isSome || t.appId.isSome || t.binary.isSome || t.user.isSome || t.process.isSome

def check (t : Target) : Except ClientError Unit :=
  if t.isUsable then .ok () else .error .noTarget

def toJson (t : Target) : Except ClientError Json := do
  let label ← Json.member "label" (fun text => .ok (.string text)) t.label
  let appId ← Json.member "app_id" (fun text => .ok (.string text)) t.appId
  let binary ← Json.member "binary" Path.toJson t.binary
  let user ← Json.member "user" (fun text => .ok (.string text)) t.user
  let process ← Json.member "process" (fun n => .ok (Json.ofNat n.toNat)) t.process
  return .object (label ++ appId ++ binary ++ user ++ process)

def record : Json.Record Target :=
  let fields :=
    (Json.Record.optional "label" .string).and <|
    (Json.Record.optional "app_id" .string).and <|
    (Json.Record.optional "binary" Path.decoder).and <|
    (Json.Record.optional "user" .string).and <|
    Json.Record.optional "process" .uint32
  fields.map fun (label, appId, binary, user, process) => { label, appId, binary, user, process }

def decoder : Json.Decoder Target := record.decoder

/-- With the user's number in place of the name. -/
def resolve (accounts : Accounts) (t : Target) : Except ClientError ResolvedTarget := do
  let user ← match t.user with
    | none => .ok none
    | some name => (accounts.find name).map some
  return { label := t.label, appId := t.appId, binary := t.binary, user, process := t.process }

end Target

namespace ResolvedTarget

def toJson (t : ResolvedTarget) : Except ClientError Json := do
  let label ← Json.member "label" (fun text => .ok (.string text)) t.label
  let appId ← Json.member "appid" (fun text => .ok (.string text)) t.appId
  let binary ← Json.member "binary" Path.toJson t.binary
  let user ← Json.member "user" (fun n => .ok (Json.ofNat n.toNat)) t.user
  let process ← Json.member "process" (fun n => .ok (Json.ofNat n.toNat)) t.process
  return .object (label ++ appId ++ binary ++ user ++ process)

def record : Json.Record ResolvedTarget :=
  let fields :=
    (Json.Record.optional "label" .string).and <|
    (Json.Record.optional "appid" .string).and <|
    (Json.Record.optional "binary" Path.decoder).and <|
    (Json.Record.optional "user" .uint32).and <|
    Json.Record.optional "process" .uint32
  fields.map fun (label, appId, binary, user, process) => { label, appId, binary, user, process }

def decoder : Json.Decoder ResolvedTarget := record.decoder

end ResolvedTarget

end EventClient
