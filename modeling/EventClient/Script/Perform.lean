import EventClient.Client.Loop
import EventClient.Script.Basic
import EventClient.Transport.Connection
import EventClient.Transport.Loopback

/-!
Carrying out scripts. Every invocation of a callback is kept with what its steps answered, in the
place where it started, so that invocations nested in it come after it. Nesting is bounded by
`fuel`, and so is the number of notifications that one taking may dispatch.
-/
namespace EventClient.Script

instance : Endpoint Loopback where
  Command := Loopback.Command
  obey command s := Loopback.obey s command
  startStep := Loopback.settle
  progress t := t

instance : Endpoint Connection where
  Command := Connection.Command
  obey command s := Connection.obey s command
  startStep t := t
  progress := Connection.writeQueued

variable {T : Type} [Endpoint T]

/-- What a script's callbacks are for a transport. -/
abbrev Callback (T : Type) [Endpoint T] := ScriptedCallback (Endpoint.Command T)

abbrev State (T : Type) [Endpoint T] := Client T (Callback T)

abbrev StepOf (T : Type) [Endpoint T] := Step (Endpoint.Command T)

def progress (s : State T) : State T := { s with transport := Endpoint.progress s.transport }

/-! ### Callbacks -/

def isTaken (i : Invocation (Callback T)) : Bool :=
  i.callback.times.all (i.runs < ·) &&
    match i.callback.only, i.delivery with
    | some name, .event broadcast => broadcast.name == name
    | _, _ => true

def takeAll (take : StepOf T → State T → Answer × State T) :
    List (StepOf T) → State T → List Answer × State T
  | [], s => ([], s)
  | step :: steps, s =>
    match take step s with
    | (answer, s) =>
      match takeAll take steps s with
      | (answers, s) => (answer :: answers, s)

def react (take : StepOf T → State T → Answer × State T) :
    Client.Reaction T (Callback T) := fun i s =>
  let place := s.traces.length
  let s := { s with traces := s.traces ++ [{ invocation := i }] }
  if isTaken i then
    match takeAll take i.callback.steps s with
    | (answers, s) =>
      { s with traces := s.traces.modify place fun trace => { trace with answers } }
  else s

/-! ### Answers -/

def ofPoll : Client.Poll → Answer
  | .pending => .pending
  | .finished => .done
  | .failed e => .failed e
  | .unfinished => .stuck

def ofId : Except ClientError CorrelationId → Answer
  | .ok id => .issued id
  | .error e => .failed e

/-! ### Steps -/

variable (react : Client.Reaction T (Callback T)) (limit : Nat)

/-- Operations that dispatch keep their context alive until they are over. -/
def during {α : Type} (s : State T) (c : ContextId) (operate : State T → α × State T) :
    α × State T :=
  (operate (s.enter c)).map id (·.leave c)

def dispatchText (s : State T) (c : ContextId) (text : String) : Answer × State T :=
  match Notification.ofText? text with
  | none => (.malformed, s)
  | some n => (during s c fun s => s.dispatch react c n).map .ofResult id

def dispatchPending (s : State T) (c : ContextId) : Answer × State T :=
  match during s c fun s => s.dispatchPending react limit c with
  | (.ok count, s) => (.dispatched count, s)
  | (.error outcome, s) => (ofPoll outcome, s)

def runLoop (s : State T) (c : ContextId) : Answer × State T :=
  match during s c fun s => s.runOnce react limit c with
  | (.ok outcome, s) => (ofPoll outcome, s)
  | (.error e, s) => (.failed e, s)

def startLoop (s : State T) (c : ContextId) : Answer × State T :=
  match during s c fun s => s.startKept react limit c with
  | (.ok (.pending, loop), s) => (.started loop, s)
  | (.ok (outcome, _), s) => (ofPoll outcome, s)
  | (.error e, s) => (.failed e, s)

/-- A loop that has to wait would wait for ever, because the script goes no further. -/
def runToEnd (s : State T) (c : ContextId) : Answer × State T :=
  match runLoop react limit s c with
  | (.pending, s) => (.stuck, s)
  | (answer, s) => (answer, s)

def onContext (s : State T) (index : Option Nat) (c : ContextId) :
    ContextAction (Callback T) → Answer × State T
  | .send event payload target callback userData =>
    (s.send c event payload target callback userData).map ofId id
  | .list scope callback userData => (s.list c scope callback userData).map ofId id
  | .onEvent callback userData => (.done, s.setEventHandler c (some { callback, userData }))
  | .onStatus callback userData => (.done, s.setStatusHandler c (some { callback, userData }))
  | .ignoreEvents => (.done, s.setEventHandler c none)
  | .ignoreStatus => (.done, s.setStatusHandler c none)
  | .subscribe names => (s.subscribe c names).map .ofResult id
  | .editSubscriptions clear erased inserted =>
    (.done, s.editSubscriptions c clear erased inserted)
  | .renewSubscriptions => (s.renewSubscriptions c).map .ofResult id
  | .bridgeSignals => (s.bridgeSignals c).map .ofResult id
  | .stopLoop => (.done, s.requestStop c)
  | .isOutstanding id =>
    let (send, list) := s.isOutstanding c id
    (.outstanding send list, s)
  | .describe =>
    let (context, handle, dispatcher) := s.shown c
    (.shown context handle dispatcher, s)
  | .dropHandle => (.done, s.dropHandle index)
  | .dispatchPending => dispatchPending react limit s c
  | .dispatchText text => dispatchText react s c text
  | .runLoop => runLoop react limit s c
  | .startLoop => startLoop react limit s c
  | .runToEnd => runToEnd react limit s c

/-- Ask the lifecycle for its context and hold a handle of it. -/
def acquire (s : State T) : Answer × State T :=
  if s.owned then
    match s.acquire with
    | (.error e, s) => (.failed e, s)
    | (.ok c, s) =>
      let ((handle, number), s) := s.hold c
      (.acquired handle number, s)
  else (.missing .lifecycle, s)

def release (s : State T) : Answer × State T :=
  if s.owned then
    match s.release with
    | (.error e, s) => (.failed e, s)
    | (.ok dropped, s) => (.released dropped, s)
  else (.missing .lifecycle, s)

def enableTracing (s : State T) (patterns : List String) : Answer × State T :=
  if s.owned then (s.enableTracing patterns).map .ofResult id else (.missing .lifecycle, s)

def dropLifecycle (s : State T) : State T := if s.owned then s.dropLifecycle else s

def emitInto (s : State T) (sink : Nat) (text : String) : Answer × State T :=
  match Notification.ofText? text, s.sinks[sink]? with
  | none, _ => (.malformed, s)
  | some _, none => (.missing .sink, s)
  | some n, some c => (s.deliver c n).map .ofResult id

/-- Whether a kept channel takes nothing any more; no answer where none was kept. -/
def isSinkClosed (s : State T) (sink : Nat) : Answer :=
  .flag (s.sinks[sink]?.map fun c => !s.isHeld c)

def pollLoop (s : State T) (loop : Nat) : Answer × State T :=
  match s.pollKept react limit loop with
  | (none, s) => (.missing .loop, s)
  | (some outcome, s) => (ofPoll outcome, s)

def cancelLoop (s : State T) (loop : Nat) : Answer × State T :=
  match s.cancelKept loop with
  | (true, s) => (.cancelled, s)
  | (false, s) => (.missing .loop, s)

def act (s : State T) : Action (Endpoint.Command T) (Callback T) → Answer × State T
  | .acquire => acquire s
  | .release => release s
  | .isActive => (.flag (if s.owned then some s.current.isSome else none), s)
  | .enableTracing patterns => enableTracing s patterns
  | .dropLifecycle => (.flag (some s.owned), dropLifecycle s)
  | .newLifecycle => (.done, { dropLifecycle s with owned := true })
  | .command command => Endpoint.obey command s
  | .emitInto sink text => emitInto s sink text
  | .isSinkClosed sink => (isSinkClosed s sink, s)
  | .pollLoop loop => pollLoop react limit s loop
  | .cancelLoop loop => cancelLoop s loop
  | .use index action =>
    match s.handle? index with
    | none => (.missing .handle, s)
    | some handle => onContext react limit s index handle.context action

omit react

def take : Nat → StepOf T → State T → Answer × State T
  | 0, _, s => (.stuck, s)
  | fuel + 1, .mk action, s =>
    (act (Script.react (take fuel)) (fuel + 1) s action).map id progress

/-- A step with everything that shows of it: what it answered, what was invoked and noted. -/
structure Report (T : Type) [Endpoint T] where
  answer : Answer
  state : State T
  traces : List (Trace (Callback T))
  entries : List Entry

/-- Take a step of a script, as the only thing that is going on. -/
def report (fuel : Nat) (step : StepOf T) (s : State T) : Report T :=
  let s := { s with transport := Endpoint.startStep s.transport, traces := [], journal := [] }
  let (answer, state) := take fuel step s
  { answer, state, traces := state.traces, entries := state.journal.reverse }

end EventClient.Script
