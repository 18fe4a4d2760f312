import EventClient.Proofs.Correlation.Events

/-!
The handlers of a context. Which registration a handler has is decided by the last act that set or
cleared it; all that a dispatch changes about it is the number of its runs.
-/
namespace EventClient

def Handler.registration {κ : Type} (handler : Handler κ) : κ × Option String :=
  (handler.callback, handler.userData)

def Invocation.registration {κ : Type} (i : Invocation κ) : κ × Option String :=
  (i.callback, i.userData)

namespace Context

variable {T κ : Type}

/-- The handler that a notification goes to; completions go to none. -/
def handler? (context : Context κ) : Notification → Option (Handler κ)
  | .event _ => context.eventHandler
  | .subscriptionStatus _ => context.statusHandler
  | .sendCompleted _ _ | .applicationsListed _ _ => none

theorem handler?_withRegistry (context : Context κ) (kind : RequestKind) (r : Registry κ)
    (n : Notification) : (context.withRegistry kind r).handler? n = context.handler? n := by
  cases n with
  | event => exact withRegistry_eventHandler context kind r
  | subscriptionStatus => exact withRegistry_statusHandler context kind r
  | sendCompleted | applicationsListed => rfl

theorem handler?_complete (context : Context κ) (c : ContextId) (kind : RequestKind)
    (id : CorrelationId) (delivery : Delivery) (n : Notification) :
    (context.complete c kind id delivery).2.handler? n = context.handler? n := by
  simp only [complete, settle]
  cases context.released with
  | true => rfl
  | false =>
      cases (context.registry kind).settle id with
      | error e => rfl
      | ok settled => exact handler?_withRegistry context kind settled.2 n

/-- A dispatch counts a run of the handler that it goes to and leaves the registrations alone. -/
theorem registration_route (context : Context κ) (c : ContextId) (n' n : Notification) :
    ((context.route c n').2.handler? n).map Handler.registration =
      (context.handler? n).map Handler.registration := by
  cases n' with
  | sendCompleted | applicationsListed => exact congrArg _ (handler?_complete ..)
  | event =>
      rw [route]
      dsimp only
      cases h : context.eventHandler with
      | none => rfl
      | some handler =>
          cases n with
          | event => simp [handler?, h, Client.runHandler, Handler.registration]
          | subscriptionStatus | sendCompleted | applicationsListed => rfl
  | subscriptionStatus =>
      rw [route]
      dsimp only
      cases h : context.statusHandler with
      | none => rfl
      | some handler =>
          cases n with
          | subscriptionStatus => simp [handler?, h, Client.runHandler, Handler.registration]
          | event | sendCompleted | applicationsListed => rfl

/-- Broadcasts, and all that comes after the release, find nothing but the handlers. -/
theorem route_handler {context : Context κ} (c : ContextId) {n : Notification}
    (h : context.released = true ∨ n.delivery.kind? = none) :
    (context.route c n).1 =
      .ok ((context.handler? n).map fun handler => (Client.runHandler c handler n.delivery).1) := by
  cases n with
  | sendCompleted | applicationsListed =>
      have released : context.released = true := by
        rcases h with released | broadcast
        · exact released
        · cases broadcast
      rw [route, complete, settle_released released]
      rfl
  | event =>
      simp only [route]
      dsimp only [handler?]
      cases context.eventHandler <;> rfl
  | subscriptionStatus =>
      simp only [route]
      dsimp only [handler?]
      cases context.statusHandler <;> rfl

theorem handler?_request [Transport T] (context : Context κ) (t : T) (kind : RequestKind)
    (callback : κ) (userData : Option String) (call : CorrelationId → Call)
    (issued : CorrelationId → Entry) (n : Notification) :
    (context.request t kind callback userData call issued).context.handler? n =
      context.handler? n := by
  obtain ⟨r, hr⟩ := request_context context t kind callback userData call issued
  rw [hr, handler?_withRegistry]

end Context

namespace Client

variable {T κ : Type}

/-- The handler that a move sets for a context and the kind of a notification. -/
def Move.registers? (c : ContextId) (n : Notification) : Move T κ → Option (Option (Handler κ))
  | .program (.setEventHandler c' handler) =>
    match n with
    | .event _ => if c = c' then some handler else none
    | _ => none
  | .program (.setStatusHandler c' handler) =>
    match n with
    | .subscriptionStatus _ => if c = c' then some handler else none
    | _ => none
  | _ => none

/-- The handler that some moves leave for a context and the kind of a notification: the one that
was set last and not cleared since. -/
def registered (c : ContextId) (n : Notification) (moves : List (Move T κ)) :
    Option (Handler κ) :=
  (moves.filterMap (Move.registers? c n)).getLast?.join

theorem registered_concat (c : ContextId) (n : Notification) (moves : List (Move T κ))
    (move : Move T κ) :
    registered c n (moves ++ [move]) = (move.registers? c n).getD (registered c n moves) := by
  rw [registered, List.filterMap_append, List.filterMap_cons]
  cases move.registers? c n with
  | none => simp [registered]
  | some handler => simp

/-- What was registered before a handler was set or cleared does not matter any more. -/
theorem registered_append {c : ContextId} {n : Notification} {back : List (Move T κ)}
    (registers : ∃ move ∈ back, (move.registers? c n).isSome) (front : List (Move T κ)) :
    registered c n (front ++ back) = registered c n back := by
  obtain ⟨move, there, some⟩ := registers
  obtain ⟨handler, sets⟩ := Option.isSome_iff_exists.mp some
  have nonempty : back.filterMap (Move.registers? c n) ≠ [] :=
    List.ne_nil_of_mem (List.mem_filterMap.mpr ⟨move, there, sets⟩)
  rw [registered, registered, List.filterMap_append, List.getLast?_append,
    List.getLast?_eq_some_getLast nonempty, Option.some_or]

/-- What is registered some move has set. -/
theorem registers_of_registered {c : ContextId} {n : Notification} {moves : List (Move T κ)}
    {handler : Handler κ} (h : registered c n moves = some handler) :
    ∃ move ∈ moves, move.registers? c n = some (some handler) :=
  List.mem_filterMap.mp (List.mem_of_getLast? (Option.join_eq_some_iff.mp h))

/-- Completions go to no handler, so none is registered for them. -/
theorem registered_completion (c : ContextId) {n : Notification} {kind : RequestKind}
    (completion : n.delivery.kind? = some kind) (moves : List (Move T κ)) :
    registered c n moves = none := by
  have nothing (move : Move T κ) : move.registers? c n = none := by
    simp only [Move.registers?]
    cases n with
    | sendCompleted | applicationsListed => split <;> rfl
    | event | subscriptionStatus => cases completion
  rw [registered, List.filterMap_eq_nil_iff.mpr fun move _ => nothing move]
  rfl

/-- Unless it is its release, an act leaves a context with the handler that it registers, and else
with the one that there was. -/
theorem registration_afterAct [Transport T] (context : Context κ) (t : T)
    (current : Option ContextId) (c : ContextId) (act : Act T κ) (n : Notification)
    (stays : act = .release → current ≠ some c) :
    ((context.afterAct t current c act).handler? n).map Handler.registration =
      (((Move.program act).registers? c n).getD (context.handler? n)).map
        Handler.registration := by
  -- An act on another context leaves this one as it is.
  have here {c' : ContextId} {new : Context κ}
      (same : (new.handler? n).map Handler.registration =
        (context.handler? n).map Handler.registration) :
      ((if c = c' then new else context).handler? n).map Handler.registration =
        (context.handler? n).map Handler.registration := by
    split
    · exact same
    · rfl
  cases act with
  | send c' event payload target callback userData =>
      apply here
      simp only [Context.send]
      split
      · rfl
      · rw [Context.handler?_request]
  | list c' scope callback userData =>
      apply here
      simp only [Context.list]
      split
      · rfl
      · rw [Context.handler?_request]
  | subscribe c' names =>
      apply here
      obtain ⟨subscriptions, changed⟩ := Context.subscribe_context context t names
      rw [changed]
      cases n <;> rfl
  | editSubscriptions c' => exact here (by cases n <;> rfl)
  | setEventHandler c' handler =>
      unfold Context.afterAct Move.registers?
      dsimp only
      cases n with
      | event => split <;> rfl
      | sendCompleted | applicationsListed | subscriptionStatus => exact here rfl
  | setStatusHandler c' handler =>
      unfold Context.afterAct Move.registers?
      dsimp only
      cases n with
      | subscriptionStatus => split <;> rfl
      | sendCompleted | applicationsListed | event => exact here rfl
  | route c' n' => exact here (Context.registration_route context c n' n)
  | release =>
      have same : context.afterAct t current c (.release : Act T κ) = context :=
        if_neg (stays rfl)
      rw [same]
      rfl
  | acquire | enableTracing | renewSubscriptions | bridgeSignals | lease | giveBack
  | requestStop | forgetStop | takeNext | keepBooks => rfl

end Client

end EventClient
