import EventClient.CommandLine.Level

/-!
What a command line asks for. A setting of the whole program that is given with the command wins
over the same one in front of it; the daemon's address may also come from the environment, which is
looked at wherever the words do not give it.
-/
namespace EventClient.CommandLine

/-- What to send: bundles of one send for each event, some time apart. -/
structure SendPlan where
  events : List String
  payload : String
  target : Target
  count : Nat
  intervalMs : Nat
deriving DecidableEq, Repr

def SendPlan.total (plan : SendPlan) : Nat := plan.events.length * plan.count

inductive Command where
  | listen (events : List String)
  | send (plan : SendPlan)
  | list (running : Bool)
deriving DecidableEq, Repr

structure Options where
  address : Address
  tracing : TraceLevel
  verbose : Bool
  command : Command
deriving DecidableEq, Repr

/-! ### Values -/

/-- A value that has to be what the setting takes. -/
def require {α : Type} : Option α → Except Refusal α
  | some value => .ok value
  | none => .error .malformed

def readWith {α : Type} (read : String → Option α) : Option String → Except Refusal (Option α)
  | none => .ok none
  | some value => (require (read value)).map some

/-! ### Settings of the whole program -/

/-- The settings of the whole program as one part of the words gives them. -/
structure Shared where
  address : Option Address
  /-- The address that the environment gives to this part. -/
  ambient : Option Address
  tracing : Option TraceLevel
  verbose : Bool
deriving DecidableEq, Repr

def Shared.ofLevel (environment : Option String) (level : Level) : Except Refusal Shared := do
  let address ← readWith Address.parse? (level.value? .address)
  let ambient ← if address.isSome then .ok none else readWith Address.parse? environment
  let tracing ← readWith TraceLevel.ofText? (level.value? .tracing)
  return { address, ambient, tracing, verbose := level.has .verbose }

/-- The address where nothing gives another. -/
def defaultAddress : Address := ⟨.short 127 0 0 1, 4337⟩

def Shared.options (outer inner : Shared) (command : Command) : Options :=
  let given := inner.address <|> outer.address <|> inner.ambient <|> outer.ambient
  { address := given.getD defaultAddress
    tracing := (inner.tracing <|> outer.tracing).getD .off
    verbose := inner.verbose || outer.verbose
    command }

/-! ### Commands -/

def eventsOf (level : Level) : Except Refusal (List String) :=
  if level.has .events then .ok (names (level.values .events)) else .error .malformed

def targetOf (level : Level) : Except Refusal Target := do
  let binary ← readWith path? (level.value? .binary)
  let process ← readWith word? (level.value? .process)
  return { label := level.value? .label, appId := level.value? .appId, binary
           user := level.value? .user, process := process.map .ofNat }

def planOf (level : Level) : Except Refusal SendPlan := do
  let events ← eventsOf level
  let target ← targetOf level
  let count ← readWith word? (level.value? .count)
  let interval ← readWith longWord? (level.value? .interval)
  if !(Setting.selectors.any level.has) then .error .malformed
  return { events, payload := (level.value? .payload).getD "\x7b\x7d", target
           count := count.getD 1, intervalMs := interval.getD 1000 }

def commandOf (level : Level) : CommandName → Except Refusal Command
  | .listen => (eventsOf level).map .listen
  | .send => (planOf level).map .send
  | .list => .ok (.list (level.has .running))

/-- What some words ask for in an environment that may give an address. The environment, what is
left out, and a setting held in front of the command are looked at after the command's words. -/
def Options.parse (environment : Option String) (words : List String) :
    Except Refusal Options := do
  let outer ← Level.read Setting.shared true {} words
  let (name, words) ← require outer.command
  let inner ← Level.read name.settings false {} words
  let outer ← outer.settle
  let outerShared ← Shared.ofLevel environment outer
  let innerShared ← Shared.ofLevel environment inner
  let command ← commandOf inner name
  return outerShared.options innerShared command

end EventClient.CommandLine
