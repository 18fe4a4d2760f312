import EventClient.Client.Basic

/-!
The lifecycle of contexts: at most one is open at a time. It is opened when it is first asked for
and is released on request or when the lifecycle is dropped; its handles then find it released.
-/
namespace EventClient.Client

variable {T κ : Type} [Transport T]

/-- The open context, which is opened if there is none. -/
def acquire (s : Client T κ) : Except ClientError ContextId × Client T κ :=
  match s.current with
  | some c => (.ok c, s)
  | none =>
    let c : ContextId := s.slots.length
    let s := if s.keepsSinks then { s with sinks := s.sinks ++ [c] } else s
    match Transport.perform s.transport (.openContext c) with
    | (transport, .error e) => (.error e, { s with transport, slots := s.slots ++ [none] })
    | (transport, .ok ()) =>
      let s := { s with transport, slots := s.slots ++ [some Slot.fresh], current := some c }
      (.ok c, s.note [.contextCreated])

/-- Release the open context: its callbacks are dropped, its loop is asked to stop, and only then
is its session closed, so that a transport that fails to close it changes none of this. -/
def release (s : Client T κ) : Except ClientError (Option Dropped) × Client T κ :=
  match s.current with
  | none => (.ok none, s)
  | some c =>
    match s.slot? c with
    | none => (.ok none, { s with current := none })
    | some slot =>
      let (dropped, context, entries) := slot.context.shutDown
      let s := { s with current := none }
      let s := (s.withSlot c { slot with context, stopRequested := true }).note entries
      match Transport.perform s.transport .closeContext with
      | (transport, .error e) => (.error e, { s with transport })
      | (transport, .ok ()) => (.ok (some dropped), { s with transport }.note [.contextReleased])

/-- Drop the lifecycle, which releases its context; a failure to do so is only noted. -/
def dropLifecycle (s : Client T κ) : Client T κ :=
  match s.release with
  | (.ok _, s) => { s with owned := false }
  | (.error e, s) => { s.note [.releaseFailed e] with owned := false }

/-- Enable tracing of the framework; nothing is sent unless every pattern is one. -/
def enableTracing (s : Client T κ) (written : List String) :
    Except ClientError Unit × Client T κ :=
  match TracePattern.parseAll written with
  | .error e => (.error e, s)
  | .ok patterns =>
    match Transport.perform s.transport (.setTracing patterns) with
    | (transport, .error e) => (.error e, { s with transport })
    | (transport, .ok ()) => (.ok (), { s with transport }.note [.tracingEnabled patterns])

def numberOf? (s : Client T κ) (c : ContextId) : Option Nat :=
  s.handles.findSome? fun handle =>
    handle.bind fun handle => if handle.context == c then some handle.number else none

/-- Hold a handle of a context; its index and number. -/
def hold (s : Client T κ) (c : ContextId) : (Nat × Nat) × Client T κ :=
  match s.numberOf? c with
  | some number =>
    ((s.handles.length, number), { s with handles := s.handles ++ [some ⟨c, number⟩] })
  | none =>
    ((s.handles.length, s.nextNumber),
      { s with handles := s.handles ++ [some ⟨c, s.nextNumber⟩], nextNumber := s.nextNumber + 1 })

end EventClient.Client
