import EventClient.Address
import EventClient.Correlation

/-!
Everything that an operation can fail with, and the wording of each. Failures that the framework
reports for a request after it was issued are values handed to callbacks and are not among these.
-/
namespace EventClient

inductive IoErrorKind where
  | notFound
  | connectionReset
  | unexpectedEnd
  | brokenPipe
  | timedOut
  | nothingWritten
  | other
deriving DecidableEq, Repr

structure IoError where
  kind : IoErrorKind
  message : String
deriving DecidableEq, Repr

inductive ClientError where
  | invalidArgument (argument message : String)
  | unknownUser (name : String)
  | unknownCorrelation (kind : RequestKind) (id : CorrelationId)
  | contextReleased
  | loopAlreadyRunning
  | channelClosed
  | transport (message : String)
  | connectionLost (address : Address)
  | io (error : IoError)
  | json (message : String)
  | other (message : String)
deriving DecidableEq, Repr

namespace ClientError

def message : ClientError → String
  | .invalidArgument argument message => s!"Invalid argument for {argument}: {message}"
  | .unknownUser name => s!"Failed to convert user name {name} to a user id"
  | .unknownCorrelation kind id =>
    s!"Internal app framework error: no pending {kind.label} callback for id {id.text}. " ++
      "This is a bug."
  | .contextReleased => "Application framework context has been released"
  | .loopAlreadyRunning => "Event loop is already running"
  | .channelClosed => "Transport closed the notification channel of an unreleased context"
  | .transport message => s!"Transport error: {message}"
  | .connectionLost address => s!"Connection to application framework at {address.text} lost"
  | .io error => s!"IO error: {error.message}"
  | .json message => s!"JSON error: {message}"
  | .other message => message

/-- A broken contract between client and framework; the event loop stops with it. -/
def isFatal : ClientError → Bool
  | .unknownCorrelation _ _ => true
  | _ => false

def isInvalidArgument : ClientError → Bool
  | .invalidArgument _ _ | .unknownUser _ => true
  | _ => false

/-- The wording of the error that lies behind, where there is one. -/
def source? : ClientError → Option String
  | .io error => some error.message
  | .json message => some message
  | _ => none

/-! ### The causes of a rejected argument -/

def noTarget : ClientError := .invalidArgument "target" "No target application was specified"

def blankEvent : ClientError := .invalidArgument "event" "Event name cannot be empty"

def blankSubscription : ClientError :=
  .invalidArgument "subscriptions" "Event name cannot be empty"

def malformedPayload (fault : String) : ClientError :=
  .invalidArgument "payload" s!"Event data is not valid JSON: {fault}"

def payloadNotObject : ClientError :=
  .invalidArgument "payload" "Event data must be a JSON object"

def emptyPattern : ClientError := .invalidArgument "debug" "Debug string cannot be empty"

def namelessUnit : ClientError :=
  .invalidArgument "debug" "Source unit name missing after '@'"

def alreadyRegistered (kind : RequestKind) (id : CorrelationId) : ClientError :=
  .invalidArgument "correlation_id" s!"{kind.label} callback {id.text} is already registered"

def frameTooLarge (size limit : Nat) : ClientError :=
  .invalidArgument "ipc_frame" s!"IPC message size {size} exceeds maximum {limit}"

/-- A path whose bytes are no text cannot be written. -/
def pathNotText : ClientError := .json "path contains invalid UTF-8 characters"

end ClientError

/-- A status other than success, as a completion reports it. -/
structure RequestFailure where
  status : Int32
  message : String
deriving DecidableEq, Repr

namespace RequestFailure

def text (failure : RequestFailure) : String :=
  s!"Request failed with status {failure.status.toInt}: {failure.message}"

end RequestFailure

end EventClient
