import EventClient.Client.Loop
import EventClient.Client.Requests
import EventClient.CommandLine.Options

/-!
The commands as users of a client. Each issues its requests and then runs the context's loop. What
a command prints is read off the invocations of its callbacks, and a send asks its loop to stop when
as many completions were shown as sends were planned, of which the later bundles may be issued while
the loop runs.
-/
namespace EventClient.CommandLine

/-- What a callback of a command does with what it is handed. -/
inductive Task where
  | showEvent
  | noteStatus
  /-- Show the outcome of a send, one of `total`. -/
  | reportSend (context : ContextId) (event : String) (total : Nat)
  | showApplications (context : ContextId)
deriving DecidableEq, Repr

/-! ### What is printed -/

def applicationLine (a : Application) : String :=
  "\t".intercalate [a.appId, s!"uid={a.userId.toNat}", a.desktop.text, a.description]

def sendLine (event : String) (result : SendResult) : String :=
  match result.check with
  | .ok id => s!"{event}: delivered as event {id.toInt}"
  | .error failure => s!"{event}: {failure.text}"

def listLines (result : ListResult) : List String :=
  match result.check with
  | .ok [] => ["No applications"]
  | .ok applications => applications.map applicationLine
  | .error failure => [s!"Listing failed: {failure.text}"]

def lines (i : Invocation Task) : List String :=
  match i.callback, i.delivery with
  | .showEvent, .event broadcast => [s!"{broadcast.name} {broadcast.payload}"]
  | .reportSend _ event _, .sent result => [sendLine event result]
  | .showApplications _, .listed result => listLines result
  | _, _ => []

/-- The lines that were printed after the first `count` invocations. -/
def linesSince {T : Type} (count : Nat) (s : Client T Task) : List String :=
  (s.traces.drop count).flatMap fun trace => lines trace.invocation

/-! ### Callbacks -/

variable {T : Type}

def isReport : Task → Bool
  | .reportSend .. => true
  | _ => false

def shownSends (s : Client T Task) : Nat :=
  s.traces.countP fun trace => isReport trace.invocation.callback

def react : Client.Reaction T Task := fun i s =>
  let s := { s with traces := s.traces ++ [{ invocation := i }] }
  match i.callback with
  | .reportSend c _ total => if shownSends s = total then s.requestStop c else s
  | .showApplications c => s.requestStop c
  | .showEvent | .noteStatus => s

/-! ### Requests -/

variable [Transport T]

/-- Send one bundle; the first send that is refused ends it. -/
def sendEvents (c : ContextId) (plan : SendPlan) : List String → Client T Task →
    Except ClientError Unit × Client T Task
  | [], s => (.ok (), s)
  | event :: events, s =>
    match s.send c event plan.payload plan.target (.reportSend c event plan.total) none with
    | (.ok _, s) => sendEvents c plan events s
    | (.error e, s) => (.error e, s)

def sendBundle (c : ContextId) (plan : SendPlan) (s : Client T Task) :
    Except ClientError Unit × Client T Task :=
  sendEvents c plan plan.events s

def prepareListening (c : ContextId) (events : List String) (s : Client T Task) :
    Except ClientError Unit × Client T Task :=
  let s := s.setEventHandler c (some { callback := .showEvent, userData := none })
  let s := s.setStatusHandler c (some { callback := .noteStatus, userData := none })
  match s.bridgeSignals c with
  | (.error e, s) => (.error e, s)
  | (.ok (), s) => s.subscribe c events

def requestList (c : ContextId) (running : Bool) (s : Client T Task) :
    Except ClientError Unit × Client T Task :=
  match s.list c (if running then .running else .all) (.showApplications c) none with
  | (.ok _, s) => (.ok (), s)
  | (.error e, s) => (.error e, s)

/-- Issue what a command asks for before its loop starts. -/
def issue (c : ContextId) (command : Command) (s : Client T Task) :
    Except ClientError Unit × Client T Task :=
  match command with
  | .listen events => prepareListening c events s
  | .send plan => sendBundle c plan s
  | .list running => requestList c running s

/-! ### Runs -/

structure Run (T : Type) where
  client : Client T Task
  context : ContextId
  command : Command
  /-- How many bundles of a send were issued. -/
  bundles : Nat := 1
  /-- What stopped the issuing of bundles. -/
  stopped : Option ClientError := none

inductive Stage (T : Type) where
  | running (run : Run T)
  | over (result : Except ClientError Unit) (client : Client T Task)

def Command.isIdle : Command → Bool
  | .send plan => plan.total == 0
  | _ => false

def enableTracing (level : TraceLevel) (s : Client T Task) :
    Except ClientError Unit × Client T Task :=
  match level.patterns with
  | [] => (.ok (), s)
  | patterns => s.enableTracing patterns

/-- The end of a run: the context is released, and failing to do so outweighs how the command
ended. -/
def finish (result : Except ClientError Unit) (s : Client T Task) : Stage T :=
  match s.release with
  | (.ok _, s) => .over result s
  | (.error e, s) => .over (.error e) s

def startCommand (c : ContextId) (command : Command) (s : Client T Task) : Stage T :=
  if command.isIdle then finish (.ok ()) s
  else
    match issue c command s with
    | (.error e, s) => finish (.error e) s
    | (.ok (), s) =>
      match s.startLoop c with
      | (.error e, s) => finish (.error e) s
      | (.ok (), s) => .running { client := s, context := c, command }

/-- Start a command: enable tracing, open a context, issue the requests, start the loop. -/
def start (options : Options) (s : Client T Task) : Stage T :=
  match enableTracing options.tracing s with
  | (.error e, s) => .over (.error e) s.dropLifecycle
  | (.ok (), s) =>
    match s.acquire with
    | (.error e, s) => .over (.error e) s.dropLifecycle
    | (.ok c, s) => startCommand c options.command (s.hold c).2

/-- The time before the next bundle, if there is one. -/
def Run.pause? (run : Run T) : Option Nat :=
  match run.command with
  | .send plan =>
    if run.bundles < plan.count ∧ run.stopped.isNone then some plan.intervalMs else none
  | _ => none

/-- Issue the next bundle; a send that is refused asks the loop to stop. -/
def Run.issueBundle (run : Run T) : Run T :=
  match run.command with
  | .send plan =>
    match sendBundle run.context plan run.client with
    | (.ok (), s) => { run with client := s, bundles := run.bundles + 1 }
    | (.error e, s) => { run with client := s.requestStop run.context, stopped := some e }
  | _ => run

/-- How a loop that is over ends its command. -/
def Run.result (run : Run T) : Client.Poll → Except ClientError Unit
  | .failed e => .error e
  | _ => match run.stopped with
    | some e => .error e
    | none => .ok ()

/-- Dispatch what has arrived; no callback of a command adds to it. -/
def Run.poll (run : Run T) : Stage T :=
  match run.client.pollLoop react (run.client.queued run.context + 1) run.context with
  | (.pending, s) => .running { run with client := s }
  | (outcome, s) => finish (run.result outcome) s

end EventClient.CommandLine
