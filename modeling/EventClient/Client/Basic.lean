import EventClient.Context

/-!
A program's view of the framework: its transport, the contexts it opened, the one its lifecycle
holds, the handles and loops it has of them, and what was noted and invoked on the way. A context's
channel takes notifications as long as something still refers to the context, and is closed once
nobody can put anything on it any more.
-/
namespace EventClient

/-- A context with its inbound channel. -/
structure Slot (κ : Type) where
  context : Context κ := {}
  /-- Notifications that were put on the channel and not taken yet, the oldest first. -/
  queue : List Notification := []
  /-- Somebody takes from the channel; nobody else may. -/
  leased : Bool := false
  /-- The running loop was asked to stop. -/
  stopRequested : Bool := false
deriving Repr

def Slot.fresh {κ : Type} : Slot κ := { context := {} }

inductive Delivery where
  | sent (result : SendResult)
  | listed (result : ListResult)
  | event (broadcast : EventBroadcast)
  | status (broadcast : StatusBroadcast)
deriving DecidableEq, Repr

structure Invocation (κ : Type) where
  context : ContextId
  /-- The request that it answers, where it answers one. -/
  answers : Option CorrelationId
  callback : κ
  userData : Option String
  /-- How often the same handler ran before. -/
  runs : Nat
  delivery : Delivery
deriving Repr

/-- A handle as the program holds it: handles of one context show one number. -/
structure Handle where
  context : ContextId
  number : Nat
deriving DecidableEq, Repr

/-- A loop that the program started and did not see the end of. -/
inductive StartedLoop where
  | waiting (context : ContextId)
  | polled (context : ContextId)
  | gone
deriving DecidableEq, Repr

namespace StartedLoop

def context? : StartedLoop → Option ContextId
  | .waiting context | .polled context => some context
  | .gone => none

end StartedLoop

inductive Missing where
  | handle
  | lifecycle
  | sink
  | loop
  | daemon
deriving DecidableEq, Repr

inductive Answer where
  | done
  | failed (error : ClientError)
  | missing (what : Missing)
  /-- A text held no notification. -/
  | malformed
  | acquired (handle number : Nat)
  | released (dropped : Option Dropped)
  | flag (value : Option Bool)
  | issued (id : CorrelationId)
  | outstanding (send list : Bool)
  | shown (context handle dispatcher : String)
  | dispatched (count : Nat)
  | pending
  | started (loop : Nat)
  | cancelled
  | calls (recorded : List Call)
  | lastCall (recorded : Option Call)
  /-- Frames that a daemon read, and whether the client ended the stream behind them. -/
  | frames (payloads : List Bytes) (ended : Bool)
  | connection (shown : String)
  /-- Nothing more can happen, yet the step is not over. -/
  | stuck
deriving DecidableEq, Repr

def Answer.ofResult : Except ClientError Unit → Answer
  | .ok () => .done
  | .error e => .failed e

/-- An invocation that took place, with what the steps of its callback answered. -/
structure Trace (κ : Type) where
  invocation : Invocation κ
  answers : List Answer := []
deriving Repr

structure Client (T κ : Type) where
  transport : T
  /-- There is a lifecycle. -/
  owned : Bool := true
  current : Option ContextId := none
  /-- The contexts by their ids; `none` where opening one failed. -/
  slots : List (Option (Slot κ)) := []
  handles : List (Option Handle) := []
  nextNumber : Nat := 0
  loops : List StartedLoop := []
  /-- The contexts of the operations under way. -/
  busy : List ContextId := []
  /-- Whether the sending end of every channel is kept, and those that were. -/
  keepsSinks : Bool := false
  sinks : List ContextId := []
  /-- What was noted, the latest entry first. -/
  journal : List Entry := []
  traces : List (Trace κ) := []
deriving Repr

namespace Client

variable {T κ : Type}

def slot? (s : Client T κ) (c : ContextId) : Option (Slot κ) := s.slots[c]?.join

def withSlot (s : Client T κ) (c : ContextId) (slot : Slot κ) : Client T κ :=
  { s with slots := s.slots.set c (some slot) }

def updateSlot (s : Client T κ) (c : ContextId) (f : Slot κ → Slot κ) : Client T κ :=
  match s.slot? c with
  | some slot => s.withSlot c (f slot)
  | none => s

def note (s : Client T κ) (entries : List Entry) : Client T κ :=
  { s with journal := entries.reverse ++ s.journal }

/-- Something still refers to the context, so its channel takes notifications. -/
def isHeld (s : Client T κ) (c : ContextId) : Bool :=
  (s.slot? c).isSome &&
    (s.current == some c || s.handles.any (·.any (·.context == c)) ||
      s.loops.any (·.context? == some c) || s.busy.contains c)

def deliver (s : Client T κ) (c : ContextId) (n : Notification) :
    Except ClientError Unit × Client T κ :=
  if s.isHeld c then
    (.ok (), s.updateSlot c fun slot => { slot with queue := slot.queue ++ [n] })
  else (.error .contextReleased, s)

def nextNotification? (s : Client T κ) (c : ContextId) : Option (Notification × Client T κ) :=
  match s.slot? c with
  | none => none
  | some slot =>
    match slot.queue with
    | [] => none
    | n :: queue => some (n, s.withSlot c { slot with queue })

def queued (s : Client T κ) (c : ContextId) : Nat := ((s.slot? c).map (·.queue.length)).getD 0

def onContext {α : Type} (s : Client T κ) (c : ContextId)
    (operate : Context κ → T → Performed T κ α) : Except ClientError α × Client T κ :=
  match s.slot? c with
  | none => (.error .contextReleased, s)
  | some slot =>
    let performed := operate slot.context s.transport
    let s := s.withSlot c { slot with context := performed.context }
    (performed.result, { s with transport := performed.transport }.note performed.entries)

def updateContext (s : Client T κ) (c : ContextId) (f : Context κ → Context κ) : Client T κ :=
  s.updateSlot c fun slot => { slot with context := f slot.context }

/-- Keep the context alive while an operation on it is under way. -/
def enter (s : Client T κ) (c : ContextId) : Client T κ := { s with busy := c :: s.busy }

def leave (s : Client T κ) (c : ContextId) : Client T κ := { s with busy := s.busy.erase c }

variable [Transport T]

/-- Somebody can still put notifications on the channel. -/
def isOpen (s : Client T κ) (c : ContextId) : Bool :=
  Transport.holder s.transport == some c || s.sinks.contains c

end Client

end EventClient
