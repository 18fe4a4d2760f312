import EventClient.CommandLine.Exit
import EventClient.CommandLine.Run
import EventClient.Transport.Connection
import Std.Async.TCP
import Std.Async.Timer

/-!
The program: it connects to the daemon, moves bytes between the socket and the connection, and
prints what the command shows.
-/
namespace EventClient.CommandLine

open Std.Async

abbrev Socket := TCP.Socket.Client

def socketAddress (address : Address) : Std.Net.SocketAddress :=
  match address.host with
  | .short a b c d => .v4 ⟨⟨#v[a, b, c, d]⟩, address.service⟩
  | .long groups _ => .v6 ⟨⟨Vector.ofFn fun i => groups.getD i 0⟩, address.service⟩

def connect? (address : Address) : IO (Option Socket) := do
  try
    let socket ← TCP.Socket.Client.mk
    let connecting : Async Bool := do
      socket.connect (socketAddress address)
      return true
    let waiting : Async Bool := do
      sleep (.ofNat Settings.connectTimeoutMs)
      return false
    let connected ← (Async.race connecting waiting).block
    return if connected then some socket else none
  catch _ => return none

/-- What a run waits for. -/
inductive Arrived where
  | bytes (received : ByteArray)
  | ended
  | due

def await (socket : Socket) (pause : Option Nat) : IO Arrived := do
  try
    let receiving : Selectable Arrived := .case (socket.recvSelector 65536) fun received =>
      return match received with
        | some received => .bytes received
        | none => .ended
    match pause with
    | none => (Selectable.one #[receiving]).block
    | some pause =>
      let timer ← (Selector.sleep (.ofNat pause)).block
      (Selectable.one #[receiving, .case timer fun _ => return .due]).block
  catch _ => return .ended

def flush (socket : Socket) (s : Client Connection Task) : IO (Client Connection Task) := do
  let (bytes, transport) := s.transport.writeQueued.takeWire
  let s := { s with transport }
  if bytes.isEmpty then return s
  try
    (socket.send ⟨bytes.toArray⟩).block
    return s
  catch _ => return Connection.withTransport s Connection.breakWriter

def conclude (exit : Exit) : IO UInt32 := do
  for line in exit.complaint do IO.eprintln line
  return exit.status.toUInt32

/-- What is left of a pause that ends at a time. -/
def remaining (run : Run Connection) (deadline : Nat) : IO (Option Nat) := do
  match run.pause? with
  | none => return none
  | some _ => return some (deadline - (← IO.monoMsNow))

def nextDeadline (run : Run Connection) : IO Nat := do
  return (← IO.monoMsNow) + run.pause?.getD 0

/-- Forget what was noted, after showing it if that is wanted. -/
def showJournal (verbose : Bool) (s : Client Connection Task) : IO (Client Connection Task) := do
  if verbose then
    for entry in s.journal.reverse do IO.eprintln entry.line
  return { s with journal := [] }

partial def serve (socket : Socket) (verbose : Bool) (deadline printed : Nat)
    (run : Run Connection) : IO UInt32 := do
  let s ← flush socket (← showJournal verbose run.client)
  let stage := { run with client := s }.poll
  let s := match stage with
    | .running run => run.client
    | .over _ s => s
  for line in linesSince printed s do IO.println line
  (← IO.getStdout).flush
  match stage with
  | .over result s =>
    let _ ← flush socket (← showJournal verbose s)
    conclude (.ofResult result)
  | .running run =>
    let continueWith (s : Client Connection Task) : IO UInt32 :=
      serve socket verbose deadline s.traces.length { run with client := s }
    match ← await socket (← remaining run deadline) with
    | .bytes received => continueWith (Connection.arrive run.client received.data.toList)
    | .ended => continueWith (Connection.withTransport run.client Connection.close)
    | .due =>
      let run := run.issueBundle
      serve socket verbose (← nextDeadline run) run.client.traces.length run

def perform (options : Options) : IO UInt32 := do
  match ← connect? options.address with
  | none => conclude (.unreachable options.address)
  | some socket =>
    match start options { transport := { address := options.address } } with
    | .over result s =>
      let _ ← flush socket (← showJournal options.verbose s)
      conclude (.ofResult result)
    | .running run => serve socket options.verbose (← nextDeadline run) 0 run

def usage : String :=
  "Usage: appfw [--addr ADDRESS] [--debug none|limited|all] [-v] listen|send|list ..."

/-- Tell how the program is used, on the error output if that was not asked for. -/
def refuse (refusal : Refusal) : IO UInt32 := do
  match refusal with
  | .help => IO.println usage
  | .malformed => IO.eprintln usage
  conclude (.ofRefusal refusal)

end EventClient.CommandLine

open EventClient CommandLine in
def main (words : List String) : IO UInt32 := do
  match Options.parse (← IO.getEnv Settings.addressVariable) words with
  | .ok options => perform options
  | .error refusal => refuse refusal
