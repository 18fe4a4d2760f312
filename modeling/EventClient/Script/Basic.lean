import EventClient.Client.Requests

/-!
Programs that use a client, written down as data: a sequence of steps, in which a callback is again
a sequence of steps. So what a callback may do in the middle of a dispatch is everything that a
program may do.
-/
namespace EventClient

/-- A callback as data. What it does is limited to its first invocations, and to events of one
name, where a limit is set. -/
structure Scripted (σ : Type) where
  label : Nat
  times : Option Nat := none
  only : Option String := none
  steps : List σ
deriving Repr, Inhabited

/-- What a script does with a context that it holds a handle of; `κ` is a callback. -/
inductive ContextAction (κ : Type) where
  | send (event payload : String) (target : Target) (callback : κ) (userData : Option String)
  | list (scope : Scope) (callback : κ) (userData : Option String)
  | onEvent (callback : κ) (userData : Option String)
  | onStatus (callback : κ) (userData : Option String)
  | ignoreEvents
  | ignoreStatus
  | subscribe (names : List String)
  | editSubscriptions (clear : Bool) (erased inserted : List String)
  | renewSubscriptions
  | bridgeSignals
  | stopLoop
  | isOutstanding (id : CorrelationId)
  | describe
  | dropHandle
  | dispatchPending
  | dispatchText (text : String)
  | runLoop
  | startLoop
  | runToEnd

/-- What one step does; `γ` is what can be asked of the transport. -/
inductive Action (γ κ : Type) where
  | acquire
  | release
  | isActive
  | enableTracing (patterns : List String)
  | dropLifecycle
  | newLifecycle
  | command (command : γ)
  /-- Put the notification that a text holds on a channel whose sending end was kept. -/
  | emitInto (sink : Nat) (text : String)
  | isSinkClosed (sink : Nat)
  | pollLoop (loop : Nat)
  | cancelLoop (loop : Nat)
  /-- Use the handle at an index, by default the one that was acquired last. -/
  | use (handle : Option Nat) (action : ContextAction κ)

/-- A step of a script, whose callbacks are again scripts. -/
inductive Step (γ : Type) where
  | mk (action : Action γ (Scripted (Step γ)))

instance {γ : Type} : Inhabited (Step γ) := ⟨.mk .isActive⟩

abbrev ScriptedCallback (γ : Type) := Scripted (Step γ)

/-- A transport together with what a script can ask of it besides carrying calls. -/
class Endpoint (T : Type) extends Transport T where
  Command : Type
  obey {κ : Type} : Command → Client T κ → Answer × Client T κ
  /-- What a transport keeps in mind when a step starts that no other is part of. -/
  startStep : T → T
  progress : T → T

end EventClient
