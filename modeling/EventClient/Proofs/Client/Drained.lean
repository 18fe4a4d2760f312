import EventClient.Proofs.Client.Contexts

/-!
A released context has nothing that waits: its release clears both registries, and a request is
refused before it gets an id from then on. So a late completion finds no callback to invoke.
-/
namespace EventClient

namespace Context

variable {T κ : Type}

/-- Nothing waits in a context once it is released. -/
def Drained (context : Context κ) : Prop :=
  context.released = true → ∀ kind id, Registry.entry? (context.registry kind) id = none

theorem drained_request [Transport T] {context : Context κ} (active : context.released = false)
    (t : T) (kind : RequestKind) (callback : κ) (userData : Option String)
    (call : CorrelationId → Call) (issued : CorrelationId → Entry) :
    (context.request t kind callback userData call issued).context.Drained := by
  intro released
  obtain ⟨r, hr⟩ := request_context context t kind callback userData call issued
  rw [hr, withRegistry_released, active] at released
  cases released

theorem drained_route {context : Context κ} (h : context.Drained) (c : ContextId)
    (n : Notification) : (context.route c n).2.Drained := by
  have completion (kind : RequestKind) (id : CorrelationId) (delivery : Delivery) :
      (context.complete c kind id delivery).2.Drained := by
    rw [complete]
    cases hr : context.released with
    | true =>
        rw [settle_released hr]
        exact h
    | false =>
        rw [settle_active hr]
        cases Registry.entry? (context.registry kind) id with
        | none => exact h
        | some entry =>
            intro released
            rw [withRegistry_released, hr] at released
            cases released
  cases n with
  | sendCompleted id result => exact completion _ _ _
  | applicationsListed id result => exact completion _ _ _
  | event broadcast =>
      rw [route]
      dsimp only
      cases context.eventHandler <;> exact h
  | subscriptionStatus broadcast =>
      rw [route]
      dsimp only
      cases context.statusHandler <;> exact h

theorem drained_shutDown (context : Context κ) : context.shutDown.2.1.Drained := by
  intro _ kind id
  cases kind <;> rfl

theorem drained_afterAct [Transport T] {context : Context κ} (h : context.Drained) (t : T)
    (current : Option ContextId) (c : ContextId) (act : Client.Act T κ) :
    (context.afterAct t current c act).Drained := by
  have same {new : Context κ} (released : new.released = context.released)
      (registry : ∀ kind, new.registry kind = context.registry kind) : new.Drained := by
    intro hnew kind id
    rw [registry]
    exact h (released.symm.trans hnew) kind id
  have change := change_afterAct context t current c act
  generalize context.afterAct t current c act = new at change ⊢
  cases change with
  | same => exact h
  | request active => exact drained_request active t _ _ _ _ _
  | subscriptions | eventHandler | statusHandler => exact same rfl fun kind => by cases kind <;> rfl
  | route n => exact drained_route h c n
  | shutDown => exact drained_shutDown context

end Context

namespace Client

variable {T κ : Type}

def Drained (s : Client T κ) : Prop :=
  ∀ c context, s.context? c = some context → context.Drained

theorem drained_start (t : T) : (start t : Client T κ).Drained := by
  intro c context h
  cases h

variable [Transport T]

theorem drained_apply {s : Client T κ} (h : s.Drained) (move : Move T κ) :
    (move.apply s).Drained := by
  intro c context hcontext
  rcases context?_apply s move c with changed | ⟨_, _, opened⟩
  · rw [hcontext] at changed
    obtain ⟨old, hold, rfl⟩ := Option.map_eq_some_iff.mp changed.symm
    split
    · exact Context.drained_afterAct (h c old hold) s.transport _ _ _
    · exact h c old hold
  · rw [hcontext] at opened
    cases opened
    intro released
    cases released

theorem drained_after {s : Client T κ} (h : s.Drained) (moves : List (Move T κ)) :
    (s.after moves).Drained := by
  induction moves generalizing s with
  | nil => exact h
  | cons move moves ih => exact ih (drained_apply h move)

end Client

end EventClient
