import EventClient.Client.Basic
import EventClient.Frame

/-!
A connection to a daemon. Every context that is opened on it is a session of its own. A call is
queued as the payload of one frame, a writer puts queued payloads on the wire until one does not
fit into a frame, and a reader hands the notifications of the open session to its channel. The
connection is closed once the daemon's side ends or breaks the framing.
-/
namespace EventClient

/-- The session of the context that is open on a connection. -/
structure Session where
  number : UInt64
  channel : ContextId
deriving DecidableEq, Repr

structure Connection where
  address : Address
  accounts : Accounts := .standard
  session : Option Session := none
  /-- The number of the next session; one whose opening failed keeps its number. -/
  nextSession : UInt64 := 1
  /-- The reader has ended. -/
  closed : Bool := false
  /-- The writer has not ended. -/
  writing : Bool := true
  /-- Payloads that wait for the writer. -/
  queue : List Bytes := []
  /-- Payloads on the wire that the daemon did not read yet. -/
  wire : List Bytes := []
  /-- Bytes from the daemon that are no whole frame yet. -/
  arrived : Bytes := []
  /-- The daemon still has its end of the connection. -/
  attended : Bool := true
deriving Repr

namespace Connection

/-! ### Calls -/

def lost (t : Connection) : ClientError := .connectionLost t.address

def enqueue (t : Connection) (request : Request) : Connection × Except ClientError Unit :=
  if t.closed then (t, .error t.lost)
  else
    match request.encode with
    | .error e => (t, .error e)
    | .ok payload =>
      if t.writing then ({ t with queue := t.queue ++ [payload] }, .ok ()) else (t, .error t.lost)

/-- Open a session for a context, which takes the place of one that is open. -/
def openSession (t : Connection) (c : ContextId) : Connection × Except ClientError Unit :=
  let number := t.nextSession
  let t := { t with nextSession := number + 1 }
  if t.closed then (t, .error t.lost)
  else { t with session := some ⟨number, c⟩ }.enqueue (.createContext number)

/-- Close the open session; without one there is nothing to do. -/
def closeSession (t : Connection) : Connection × Except ClientError Unit :=
  match t.session with
  | none => (t, .ok ())
  | some session => { t with session := none }.enqueue (.destroyContext session.number)

def sendRequest (accounts : Accounts) (event payload : String) (id : CorrelationId)
    (target : Target) : Except ClientError Request :=
  let text := Text.bytes payload
  match Json.parse text with
  | .error fault => .error (.json (fault.message text))
  | .ok data => do return .sendEvent event data id (← target.resolve accounts)

def perform (t : Connection) (call : Call) : Connection × Except ClientError Unit :=
  match call with
  | .openContext c => t.openSession c
  | .closeContext => t.closeSession
  | .subscribe events => t.enqueue (.subscribe events)
  | .sendEvent event payload id target =>
    match sendRequest t.accounts event payload id target with
    | .ok request => t.enqueue request
    | .error e => (t, .error e)
  | .listApplications id scope => t.enqueue (.listApplications id scope)
  | .setTracing patterns => t.enqueue (.setDebug patterns)
  | .bridgeSignals => t.enqueue .bridgeSignals

instance : Transport Connection where
  perform := perform
  holder t := t.session.map (·.channel)

def debugText (t : Connection) : String :=
  s!"IpcTransport \x7b addr: {t.address.text}, .. \x7d"

/-! ### The writer -/

/-- Put the oldest queued payload on the wire; the writer ends at one that is too large. -/
def writeNext (t : Connection) : Connection :=
  match t.queue with
  | [] => t
  | payload :: queue =>
    if !t.writing then t
    else if Frame.fits payload then { t with queue, wire := t.wire ++ [payload] }
    else { t with queue, writing := false }

/-- Put everything that is queued on the wire, as far as the writer gets. -/
def writeQueued (t : Connection) : Connection := t.queue.foldl (fun t _ => t.writeNext) t

/-- A write to the daemon failed, which ends the writer. -/
def breakWriter (t : Connection) : Connection := { t with writing := false }

def takeWire (t : Connection) : Bytes × Connection :=
  (t.wire.flatMap Frame.encode, { t with wire := [] })

/-! ### The reader -/

inductive Arrival where
  | incomplete
  | frame (payload rest : Bytes)
  | oversized
deriving DecidableEq, Repr

def arrival (arrived : Bytes) : Arrival :=
  if arrived.length < 4 then .incomplete
  else
    let size := Frame.announced (arrived.take 4)
    let rest := arrived.drop 4
    if Settings.maxFrameSize < size then .oversized
    else if rest.length < size then .incomplete
    else .frame (rest.take size) (rest.drop size)

/-- End the reader: the open session's channel closes, and no call is taken any more. -/
def close (t : Connection) : Connection := { t with closed := true, session := none }

/-- The channel that the payload of a frame goes to and the notification in it: none if it holds
none or one for another session. -/
def addressee? (t : Connection) (payload : Bytes) : Option (ContextId × Notification) :=
  match SessionNotification.decoder.decode payload with
  | .error _ => none
  | .ok n =>
    t.session.bind fun session =>
      if session.number = n.session then some (session.channel, n.notification) else none

variable {κ : Type}

/-- Hand the payload of one frame to the channel it goes to; one that has no receiver any more is
dropped. -/
def receive (s : Client Connection κ) (payload : Bytes) : Client Connection κ :=
  match s.transport.addressee? payload with
  | none => s
  | some (c, n) => (s.deliver c n).2

def withTransport (s : Client Connection κ) (f : Connection → Connection) : Client Connection κ :=
  { s with transport := f s.transport }

/-- Read frames from what has arrived, at most `steps` of them. -/
def readArrived : Nat → Client Connection κ → Client Connection κ
  | 0, s => s
  | steps + 1, s =>
    if s.transport.closed then s
    else
      match arrival s.transport.arrived with
      | .incomplete => s
      | .oversized => withTransport s close
      | .frame payload rest =>
        readArrived steps (receive (withTransport s ({ · with arrived := rest })) payload)

def arrive (s : Client Connection κ) (bytes : Bytes) : Client Connection κ :=
  let s := withTransport s fun t => { t with arrived := t.arrived ++ bytes }
  readArrived s.transport.arrived.length s

/-! ### The daemon's side -/

inductive Command where
  /-- Read requests, as many as there are up to a number. -/
  | read (count : Nat)
  | send (text : String)
  | sendBytes (bytes : Bytes)
  | hangUp
  | describe
deriving Repr

/-- The daemon reads requests; behind the last one it sees the end once the writer has ended. -/
def daemonRead (t : Connection) (count : Nat) : Answer × Connection :=
  let frames := t.wire.take count
  (.frames frames (frames.length < count && !t.writing), { t with wire := t.wire.drop count })

def obey (s : Client Connection κ) (command : Command) : Answer × Client Connection κ :=
  match command with
  | .describe => (.connection s.transport.debugText, s)
  | .read count =>
    if s.transport.attended then
      let (answer, transport) := s.transport.daemonRead count
      (answer, { s with transport })
    else (.missing .daemon, s)
  | .send text =>
    if s.transport.attended then (.done, arrive s (Frame.encode (Text.bytes text)))
    else (.missing .daemon, s)
  | .sendBytes bytes =>
    if s.transport.attended then (.done, arrive s bytes) else (.missing .daemon, s)
  | .hangUp =>
    if s.transport.attended then
      (.done, withTransport s fun t => { t.close with attended := false })
    else (.missing .daemon, s)

end Connection

end EventClient
