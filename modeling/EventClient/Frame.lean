import EventClient.Error
import EventClient.Settings
import EventClient.Text.Bytes

/-!
Frames: payloads of bounded size, each behind its length in four bytes, the highest first. Streams
are read in pieces of any size and written to sinks that may take any part of what they are
offered; neither shows in the frames.
-/
namespace EventClient

namespace Frame

def header (size : Nat) : Bytes :=
  [(size / 16777216).toUInt8, (size / 65536).toUInt8, (size / 256).toUInt8, size.toUInt8]

def announced (header : Bytes) : Nat :=
  header.foldl (fun size b => size * 256 + b.toNat) 0

def fits (payload : Bytes) : Bool := decide (payload.length ≤ Settings.maxFrameSize)

def tooLarge (size : Nat) : ClientError := .frameTooLarge size Settings.maxFrameSize

def encode (payload : Bytes) : Bytes := header payload.length ++ payload

end Frame

/-! ### Reading -/

/-- What is still to come from a stream, piece by piece as it arrives, and how it ends. -/
structure Source where
  pieces : List Bytes
  failure : Option IoError := none
deriving DecidableEq, Repr

namespace Source

def rest (s : Source) : Bytes := s.pieces.flatten

/-- Bytes in pieces of one size but for the last; `steps` is at least their number. Pieces of no
size carry nothing, so there are none. -/
def chunks (size : Nat) : Nat → Bytes → List Bytes
  | 0, _ => []
  | steps + 1, bytes =>
    if bytes.isEmpty ∨ size = 0 then [] else bytes.take size :: chunks size steps (bytes.drop size)

/-- Bytes that arrive in pieces of one size, or all at once. -/
def ofBytes (bytes : Bytes) (chunk : Option Nat) (failure : Option IoError) : Source :=
  match chunk with
  | none => { pieces := [bytes], failure }
  | some size => { pieces := chunks size bytes.length bytes, failure }

/-- Take bytes off the front, the pieces taken so far being kept in reverse; `none` if there are
too few. -/
def takeFrom (taken : List Bytes) (size : Nat) : List Bytes → Option (Bytes × List Bytes)
  | [] => if size = 0 then some (taken.reverse.flatten, []) else none
  | piece :: pieces =>
    let front := piece.take size
    if front.length = size then
      some ((front :: taken).reverse.flatten, piece.drop size :: pieces)
    else takeFrom (front :: taken) (size - front.length) pieces

inductive Taken where
  | full (bytes : Bytes) (source : Source)
  /-- The stream ended or failed before; everything in it was taken. -/
  | short (failure : Option IoError)

def take (size : Nat) (s : Source) : Taken :=
  match takeFrom [] size s.pieces with
  | some (bytes, pieces) => .full bytes { s with pieces }
  | none => .short s.failure

/-- Nothing but the end is left. -/
def drained (s : Source) : Source := { s with pieces := [] }

end Source

namespace Frame

inductive Outcome where
  | frame (payload : Bytes)
  | ended
  | failed (error : ClientError)
deriving DecidableEq, Repr

def cutShort : IoError := ⟨.unexpectedEnd, "early eof"⟩

/-- A stream that ends where a length should stand has ended, wherever within the length that is;
so has one that fails there with an unexpected end. -/
def endInHeader : Option IoError → Outcome
  | none => .ended
  | some failure => if failure.kind = .unexpectedEnd then .ended else .failed (.io failure)

def endInPayload (failure : Option IoError) : Outcome :=
  .failed (.io (failure.getD cutShort))

/-- Read one frame. Nothing behind the length of an oversized one is taken. -/
def read (s : Source) : Outcome × Source :=
  match s.take 4 with
  | .short failure => (endInHeader failure, s.drained)
  | .full header s =>
    let size := announced header
    if Settings.maxFrameSize < size then (.failed (tooLarge size), s)
    else
      match s.take size with
      | .short failure => (endInPayload failure, s.drained)
      | .full payload s => (.frame payload, s)

/-- Read frames until there are no more: the payloads, how it ended, and what was not read. `steps`
exceeds the number of frames. -/
def readAll : Nat → Source → List Bytes × Outcome × Source
  | 0, s => ([], .ended, s)
  | steps + 1, s =>
    match read s with
    | (.frame payload, s) =>
      match readAll steps s with
      | (payloads, outcome, s) => (payload :: payloads, outcome, s)
    | (outcome, s) => ([], outcome, s)

end Frame

/-! ### Writing -/

/-- Where bytes are written to: what it took, the latest piece first, how much it takes at once and
in all, and how it refuses and flushes. -/
structure Sink where
  pieces : List Bytes := []
  chunk : Option Nat := none
  room : Option Nat := none
  refusal : Option IoError := none
  flushFailure : Option IoError := none
deriving DecidableEq, Repr

namespace Sink

def written (s : Sink) : Bytes := s.pieces.reverse.flatten

/-- The part of some bytes that one write takes. -/
def accepted (s : Sink) (bytes : Bytes) : Bytes :=
  let bytes := match s.chunk with | some chunk => bytes.take chunk | none => bytes
  match s.room with | some room => bytes.take room | none => bytes

def nothingTaken : IoError := ⟨.nothingWritten, "write zero"⟩

/-- Write until nothing is left; `steps` is at least the number of bytes. -/
def writeAll : Nat → Sink → Bytes → Except IoError Unit × Sink
  | _, s, [] => (.ok (), s)
  | 0, s, _ :: _ => (.error nothingTaken, s)
  | steps + 1, s, bytes@(_ :: _) =>
    match s.accepted bytes with
    | [] => (.error (s.refusal.getD nothingTaken), s)
    | piece@(_ :: _) =>
      let room := s.room.map (· - piece.length)
      writeAll steps { s with pieces := piece :: s.pieces, room } (bytes.drop piece.length)

def flush (s : Sink) : Except IoError Unit :=
  match s.flushFailure with
  | some failure => .error failure
  | none => .ok ()

end Sink

namespace Frame

/-- Write one frame: its length, its payload, and a flush. An oversized payload is refused before
anything is written. -/
def write (payload : Bytes) (s : Sink) : Except ClientError Unit × Sink :=
  if !fits payload then (.error (tooLarge payload.length), s)
  else
    match s.writeAll 4 (header payload.length) with
    | (.error failure, s) => (.error (.io failure), s)
    | (.ok (), s) =>
      match s.writeAll payload.length payload with
      | (.error failure, s) => (.error (.io failure), s)
      | (.ok (), s) => (s.flush.mapError .io, s)

/-- Write payloads one after another, whatever becomes of each. -/
def writeEach : List Bytes → Sink → List (Except ClientError Unit) × Sink
  | [], s => ([], s)
  | payload :: payloads, s =>
    match write payload s with
    | (result, s) =>
      match writeEach payloads s with
      | (results, s) => (result :: results, s)

end Frame

end EventClient
