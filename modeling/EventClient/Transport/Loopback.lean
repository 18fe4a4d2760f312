import EventClient.Client.Basic

/-!
A transport without a framework behind it: calls are recorded, and a program puts notifications on
the open context's channel itself. One call can be made to fail.
-/
namespace EventClient

structure Loopback where
  channel : Option ContextId := none
  /-- The calls that were taken and not cleared since, the oldest first. -/
  calls : List Call := []
  /-- How many of them are older than the step under way. -/
  settled : Nat := 0
  /-- The message that the next call is refused with. -/
  refusal : Option String := none
deriving Repr

namespace Loopback

/-- Record a call, or refuse it if a refusal is set. -/
def record (t : Loopback) (call : Call) : Loopback × Except ClientError Unit :=
  match t.refusal with
  | some message => ({ t with refusal := none }, .error (.transport message))
  | none => ({ t with calls := t.calls ++ [call] }, .ok ())

/-- A context is open once the call that opens it is recorded, and closed whether or not the call
that closes it is. -/
def perform (t : Loopback) (call : Call) : Loopback × Except ClientError Unit :=
  match call with
  | .openContext c =>
    match t.record call with
    | (t, .ok ()) => ({ t with channel := some c }, .ok ())
    | (t, .error e) => (t, .error e)
  | .closeContext => { t with channel := none }.record call
  | _ => t.record call

instance : Transport Loopback where
  perform := perform
  holder t := t.channel

/-- A step starts: the calls recorded so far are none of its own. -/
def settle (t : Loopback) : Loopback := { t with settled := t.calls.length }

def clear (t : Loopback) : Loopback := { t with calls := [], settled := 0 }

/-- The calls of the step under way, as far as they were not cleared. -/
def recent (t : Loopback) : List Call := t.calls.drop t.settled

inductive Command where
  | refuseNext (message : String)
  | disconnect
  | clearCalls
  | showCalls
  | showLastCall
  | emit (n : Notification)
  /-- Put the notification that a text holds on it. -/
  | emitText (text : String)
deriving Repr

variable {κ : Type}

def emit (s : Client Loopback κ) (n : Notification) :
    Except ClientError Unit × Client Loopback κ :=
  match s.transport.channel with
  | none => (.error .contextReleased, s)
  | some c => s.deliver c n

def obey (s : Client Loopback κ) : Command → Answer × Client Loopback κ
  | .refuseNext message =>
    (.done, { s with transport := { s.transport with refusal := some message } })
  | .disconnect => (.done, { s with transport := { s.transport with channel := none } })
  | .clearCalls => (.done, { s with transport := s.transport.clear })
  | .showCalls => (.calls s.transport.calls, s)
  | .showLastCall => (.lastCall s.transport.calls.getLast?, s)
  | .emit n => (emit s n).map .ofResult id
  | .emitText text =>
    match Notification.ofText? text with
    | none => (.malformed, s)
    | some n => (emit s n).map .ofResult id

end Loopback

end EventClient
