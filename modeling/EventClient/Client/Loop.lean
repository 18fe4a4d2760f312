import EventClient.Client.Routing

/-!
Taking notifications off a context's channel. One taker at a time holds the channel's lease; it is
given back however the taking ends, with everything that was not taken still queued. A loop looks
for a stop request before each notification, and what was requested before it started does not
count.
-/
namespace EventClient.Client

variable {T κ : Type}

def lease (s : Client T κ) (c : ContextId) : Except ClientError Unit × Client T κ :=
  match s.slot? c with
  | none => (.error .loopAlreadyRunning, s)
  | some slot =>
    if slot.leased then (.error .loopAlreadyRunning, s)
    else (.ok (), s.withSlot c { slot with leased := true })

def giveBack (s : Client T κ) (c : ContextId) : Client T κ :=
  s.updateSlot c fun slot => { slot with leased := false }

def requestStop (s : Client T κ) (c : ContextId) : Client T κ :=
  s.updateSlot c fun slot => { slot with stopRequested := true }

def isStopRequested (s : Client T κ) (c : ContextId) : Bool :=
  (s.slot? c).any (·.stopRequested)

def isReleased (s : Client T κ) (c : ContextId) : Bool := (s.slot? c).any (·.context.released)

/-- Start a loop; earlier stop requests are forgotten. -/
def startLoop (s : Client T κ) (c : ContextId) : Except ClientError Unit × Client T κ :=
  match s.lease c with
  | (.error e, s) => (.error e, s)
  | (.ok (), s) =>
    (.ok (), (s.updateSlot c fun slot => { slot with stopRequested := false }).note [.loopStarted])

/-- How a poll of a loop ends. -/
inductive Poll where
  /-- The channel is empty and open. -/
  | pending
  | finished
  | failed (error : ClientError)
  /-- The bound on the number of notifications was reached. -/
  | unfinished
deriving DecidableEq, Repr

variable [Transport T]

/-- Dispatch until a stop is requested, a dispatch fails, or the channel is empty; at most
`limit` notifications. It is assumed that a channel hands out what it holds whenever it is asked: no
scheduler makes a poll wait that has already taken much and could take more. -/
def poll (react : Reaction T κ) (c : ContextId) : Nat → Client T κ → Poll × Client T κ
  | 0, s => (.unfinished, s)
  | limit + 1, s =>
    if s.isStopRequested c then (.finished, s)
    else
      match s.nextNotification? c with
      | some (n, s) =>
        match s.dispatch react c n with
        | (.ok (), s) => poll react c limit s
        | (.error e, s) => (.failed e, s.note [.loopFailed e])
      | none =>
        if s.isOpen c then (.pending, s)
        else if s.isReleased c then (.finished, s)
        else (.failed .channelClosed, s.note [.channelLost])

def endLoop (s : Client T κ) (c : ContextId) : Client T κ := (s.giveBack c).note [.loopStopped]

/-- Poll a started loop; it is ended unless it has to wait. -/
def pollLoop (react : Reaction T κ) (limit : Nat) (s : Client T κ) (c : ContextId) :
    Poll × Client T κ :=
  match poll react c limit s with
  | (.pending, s) => (.pending, s)
  | (outcome, s) => (outcome, s.endLoop c)

/-- Dispatch until the channel is empty; the number of notifications. -/
def drain (react : Reaction T κ) (c : ContextId) :
    Nat → Nat → Client T κ → Except Poll Nat × Client T κ
  | 0, _, s => (.error .unfinished, s)
  | limit + 1, count, s =>
    match s.nextNotification? c with
    | none => (.ok count, s)
    | some (n, s) =>
      match s.dispatch react c n with
      | (.ok (), s) => drain react c limit (count + 1) s
      | (.error e, s) => (.error (.failed e), s)

/-- Dispatch what the channel holds, without waiting for more. -/
def dispatchPending (react : Reaction T κ) (limit : Nat) (s : Client T κ) (c : ContextId) :
    Except Poll Nat × Client T κ :=
  match s.lease c with
  | (.error e, s) => (.error (.failed e), s)
  | (.ok (), s) =>
    let (result, s) := drain react c limit 0 s
    (result, s.giveBack c)

/-- Start a loop, poll it once and abandon it if it has to wait; everything that it did not take
stays queued. -/
def runOnce (react : Reaction T κ) (limit : Nat) (s : Client T κ) (c : ContextId) :
    Except ClientError Poll × Client T κ :=
  match s.startLoop c with
  | (.error e, s) => (.error e, s)
  | (.ok (), s) =>
    match s.pollLoop react limit c with
    | (.pending, s) => (.ok .pending, s.giveBack c)
    | (outcome, s) => (.ok outcome, s)

/-- Start a loop and poll it once; one that has to wait is kept, and its index is given. -/
def startKept (react : Reaction T κ) (limit : Nat) (s : Client T κ) (c : ContextId) :
    Except ClientError (Poll × Nat) × Client T κ :=
  match s.startLoop c with
  | (.error e, s) => (.error e, s)
  | (.ok (), s) =>
    match s.pollLoop react limit c with
    | (.pending, s) =>
      (.ok (.pending, s.loops.length), { s with loops := s.loops ++ [.waiting c] })
    | (outcome, s) => (.ok (outcome, s.loops.length), s)

/-- Poll a loop that was kept; `none` if it is over or being polled. -/
def pollKept (react : Reaction T κ) (limit : Nat) (s : Client T κ) (loop : Nat) :
    Option Poll × Client T κ :=
  match s.loops[loop]? with
  | some (.waiting c) =>
    match { s with loops := s.loops.set loop (.polled c) }.pollLoop react limit c with
    | (.pending, s) => (some .pending, { s with loops := s.loops.set loop (.waiting c) })
    | (outcome, s) => (some outcome, { s with loops := s.loops.set loop .gone })
  | _ => (none, s)

/-- Abandon a loop that was kept; whether there was one. -/
def cancelKept (s : Client T κ) (loop : Nat) : Bool × Client T κ :=
  match s.loops[loop]? with
  | some (.waiting c) => (true, { s with loops := s.loops.set loop .gone }.giveBack c)
  | _ => (false, s)

end EventClient.Client
