import EventClient.Proofs.Client.Reentry
import EventClient.Script.Perform

/-!
Scripts are runs: every step of a script, with all that its callbacks do in the middle of it, is a
sequence of moves, and the callbacks that it traces are those that the moves invoke. So what holds
of all sequences of moves holds of all scripts on either transport.
-/
namespace EventClient

open Client (Reaches)

namespace Loopback

variable {κ : Type}

theorem reaches_emit (s : Client Loopback κ) (n : Notification) : Reaches s (emit s n).2 := by
  simp only [emit]
  split
  · exact .refl s
  · exact .deliver s _ n

theorem reaches_obey (s : Client Loopback κ) (command : Command) :
    Reaches s (obey s command).2 := by
  cases command with
  | refuseNext message => exact .transport s fun t => { t with refusal := some message }
  | disconnect => exact .transport s fun t => { t with channel := none }
  | clearCalls => exact .transport s clear
  | showCalls | showLastCall => exact .refl s
  | emit n => exact reaches_emit s n
  | emitText text =>
      simp only [obey]
      split
      · exact .refl s
      · exact reaches_emit s _

end Loopback

namespace Connection

variable {κ : Type}

theorem reaches_withTransport (s : Client Connection κ) (f : Connection → Connection) :
    Reaches s (withTransport s f) :=
  .transport s f

theorem reaches_receive (s : Client Connection κ) (payload : Bytes) :
    Reaches s (receive s payload) := by
  simp only [receive]
  split
  · exact .refl s
  · exact .deliver s _ _

theorem reaches_readArrived (steps : Nat) (s : Client Connection κ) :
    Reaches s (readArrived steps s) := by
  induction steps generalizing s with
  | zero => exact .refl s
  | succ steps ih =>
      simp only [readArrived]
      split
      · exact .refl s
      · split
        · exact .refl s
        · exact .transport s close
        · next payload rest _ =>
            have taken := reaches_withTransport s ({ · with arrived := rest })
            exact (taken.trans (reaches_receive _ payload)).trans (ih _)

theorem reaches_arrive (s : Client Connection κ) (bytes : Bytes) : Reaches s (arrive s bytes) :=
  (reaches_withTransport s _).trans (reaches_readArrived _ _)

theorem reaches_obey (s : Client Connection κ) (command : Command) :
    Reaches s (obey s command).2 := by
  cases command with
  | describe => exact .refl s
  | read count =>
      simp only [obey]
      split
      · exact .transport s fun t => (t.daemonRead count).2
      · exact .refl s
  | send text =>
      simp only [obey]
      split
      · exact reaches_arrive s _
      · exact .refl s
  | sendBytes bytes =>
      simp only [obey]
      split
      · exact reaches_arrive s bytes
      · exact .refl s
  | hangUp =>
      simp only [obey]
      split
      · exact .transport s fun t => { t.close with attended := false }
      · exact .refl s

end Connection

namespace Script

variable {T : Type} [Endpoint T]

/-- What a script asks of its transport is made of moves. -/
def Obeys (T : Type) [Endpoint T] : Prop :=
  ∀ command (s : State T), Reaches s (Endpoint.obey command s).2

theorem obeys_loopback : Obeys Loopback := fun command s => Loopback.reaches_obey s command

theorem obeys_connection : Obeys Connection := fun command s => Connection.reaches_obey s command

/-! ### Callbacks -/

theorem traced_modify (traces : List (Trace (Callback T))) (place : Nat) (answers : List Answer) :
    (traces.modify place fun trace => { trace with answers }).map (·.invocation) =
      traces.map (·.invocation) := by
  induction traces generalizing place with
  | nil => rw [List.modify_nil]
  | cons trace traces ih =>
      cases place with
      | zero => rfl
      | succ place => rw [List.modify_succ_cons, List.map_cons, List.map_cons, ih]

section
variable {take : StepOf T → State T → Answer × State T}
  (takes : ∀ step s, Reaches s (take step s).2)
include takes

theorem reaches_takeAll (steps : List (StepOf T)) (s : State T) :
    Reaches s (takeAll take steps s).2 := by
  induction steps generalizing s with
  | nil => exact .refl s
  | cons step steps ih => exact (takes step s).trans (ih _)

/-- What a callback's steps answered is filled in when they are over. -/
theorem react_reenters : (react take).Reenters := by
  apply Reaches.reenters
  intro i s
  simp only [react]
  split
  · refine (reaches_takeAll takes i.callback.steps _).trans (.books rfl rfl rfl ?_)
    exact traced_modify _ _ _
  · exact .refl _

end

/-! ### Steps -/

section
variable {react : Client.Reaction T (Callback T)} (reenters : react.Reenters) (limit : Nat)

theorem reaches_during {α : Type} (s : State T) (c : ContextId)
    {operate : State T → α × State T} (h : ∀ s, Reaches s (operate s).2) :
    Reaches s (during s c operate).2 := by
  have entered : Reaches s (s.enter c) := .books rfl rfl rfl rfl
  have left : Reaches (operate (s.enter c)).2 ((operate (s.enter c)).2.leave c) :=
    .books rfl rfl rfl rfl
  exact (entered.trans (h _)).trans left

include reenters

theorem reaches_dispatchText (s : State T) (c : ContextId) (text : String) :
    Reaches s (dispatchText react s c text).2 := by
  simp only [dispatchText]
  split
  · exact .refl s
  · exact reaches_during s c fun s => .dispatch reenters s c _

theorem reaches_dispatchPending (s : State T) (c : ContextId) :
    Reaches s (dispatchPending react limit s c).2 := by
  have reached := reaches_during s c fun s => Reaches.dispatchPending reenters limit s c
  simp only [dispatchPending]
  split <;> next h => rwa [h] at reached

theorem reaches_runLoop (s : State T) (c : ContextId) :
    Reaches s (runLoop react limit s c).2 := by
  have reached := reaches_during s c fun s => Reaches.runOnce reenters limit s c
  simp only [runLoop]
  split <;> next h => rwa [h] at reached

theorem reaches_startLoop (s : State T) (c : ContextId) :
    Reaches s (startLoop react limit s c).2 := by
  have reached := reaches_during s c fun s => Reaches.startKept reenters limit s c
  simp only [startLoop]
  split <;> next h => rwa [h] at reached

theorem reaches_runToEnd (s : State T) (c : ContextId) :
    Reaches s (runToEnd react limit s c).2 := by
  have reached := reaches_runLoop reenters limit s c
  simp only [runToEnd]
  split <;> next h => rwa [h] at reached

theorem reaches_pollLoop (s : State T) (loop : Nat) :
    Reaches s (pollLoop react limit s loop).2 := by
  have polled := Reaches.pollKept reenters limit s loop
  simp only [pollLoop]
  split <;> next h => rwa [h] at polled

theorem reaches_onContext (s : State T) (index : Option Nat) (c : ContextId)
    (action : ContextAction (Callback T)) :
    Reaches s (onContext react limit s index c action).2 := by
  cases action with
  | send event payload target callback userData =>
      exact .send s c event payload target callback userData
  | list scope callback userData => exact .list s c scope callback userData
  | onEvent callback userData =>
      exact .updateSlot s c (.setEventHandler c (some { callback, userData })) rfl rfl
  | onStatus callback userData =>
      exact .updateSlot s c (.setStatusHandler c (some { callback, userData })) rfl rfl
  | ignoreEvents => exact .updateSlot s c (.setEventHandler c none) rfl rfl
  | ignoreStatus => exact .updateSlot s c (.setStatusHandler c none) rfl rfl
  | subscribe names => exact .onContext s c (.subscribe c names) rfl rfl
  | editSubscriptions clear erased inserted =>
      exact .updateSlot s c (.editSubscriptions c clear erased inserted) rfl rfl
  | renewSubscriptions => exact .onContext s c (.renewSubscriptions c) rfl rfl
  | bridgeSignals => exact .onContext s c (.bridgeSignals c) rfl rfl
  | stopLoop => exact .updateSlot s c (.requestStop c) rfl rfl
  | isOutstanding | describe => exact .refl s
  | dropHandle => exact .books rfl rfl rfl rfl
  | dispatchPending => exact reaches_dispatchPending reenters limit s c
  | dispatchText text => exact reaches_dispatchText reenters s c text
  | runLoop => exact reaches_runLoop reenters limit s c
  | startLoop => exact reaches_startLoop reenters limit s c
  | runToEnd => exact reaches_runToEnd reenters limit s c

end

theorem reaches_acquire (s : State T) : Reaches s (acquire s).2 := by
  have acquired := Reaches.acquire s
  simp only [acquire]
  split
  · split
    · next h => rwa [h] at acquired
    · next c s' h =>
        rw [h] at acquired
        have held : Reaches s' (s'.hold c).2 := by
          simp only [Client.hold]
          split <;> exact .books rfl rfl rfl rfl
        exact acquired.trans held
  · exact .refl s

theorem reaches_release (s : State T) : Reaches s (release s).2 := by
  have released := Reaches.release s
  simp only [release]
  split
  · split <;> next h => rwa [h] at released
  · exact .refl s

theorem reaches_enableTracing (s : State T) (patterns : List String) :
    Reaches s (enableTracing s patterns).2 := by
  simp only [enableTracing]
  split
  · exact .enableTracing s patterns
  · exact .refl s

theorem reaches_dropLifecycle (s : State T) : Reaches s (dropLifecycle s) := by
  simp only [dropLifecycle]
  split
  · exact .dropLifecycle s
  · exact .refl s

theorem reaches_emitInto (s : State T) (sink : Nat) (text : String) :
    Reaches s (emitInto s sink text).2 := by
  simp only [emitInto]
  split
  · exact .refl s
  · exact .refl s
  · exact .deliver s _ _

theorem reaches_cancelLoop (s : State T) (loop : Nat) : Reaches s (cancelLoop s loop).2 := by
  have cancelled := Reaches.cancelKept s loop
  simp only [cancelLoop]
  split <;> next h => rwa [h] at cancelled

theorem reaches_act (obeys : Obeys T) {react : Client.Reaction T (Callback T)}
    (reenters : react.Reenters) (limit : Nat) (s : State T)
    (action : Action (Endpoint.Command T) (Callback T)) :
    Reaches s (act react limit s action).2 := by
  cases action with
  | acquire => exact reaches_acquire s
  | release => exact reaches_release s
  | isActive | isSinkClosed => exact .refl s
  | enableTracing patterns => exact reaches_enableTracing s patterns
  | dropLifecycle => exact reaches_dropLifecycle s
  | newLifecycle => exact (reaches_dropLifecycle s).trans (.books rfl rfl rfl rfl)
  | command command => exact obeys command s
  | emitInto sink text => exact reaches_emitInto s sink text
  | pollLoop loop => exact reaches_pollLoop reenters limit s loop
  | cancelLoop loop => exact reaches_cancelLoop s loop
  | use index action =>
      simp only [act]
      split
      · exact .refl s
      · exact reaches_onContext reenters limit s index _ action

/-- The induction is on the depth to which callbacks are nested. -/
theorem reaches_take (obeys : Obeys T) (fuel : Nat) (step : StepOf T) (s : State T) :
    Reaches s (take fuel step s).2 := by
  induction fuel generalizing step s with
  | zero => exact .refl s
  | succ fuel ih =>
      obtain ⟨action⟩ := step
      have acted := reaches_act obeys (react_reenters ih) (fuel + 1) s action
      exact acted.trans (.transport _ Endpoint.progress)

/-- A whole script is one sequence of moves. -/
theorem reaches_script (obeys : Obeys T) (fuel : Nat) (steps : List (StepOf T)) (s : State T) :
    Reaches s (takeAll (take fuel) steps s).2 :=
  reaches_takeAll (reaches_take obeys fuel) steps s

end Script

end EventClient
