import EventClient.Proofs.Client.Drained
import EventClient.Proofs.Correlation.Events

/-!
What one move can do to a registry, with the event that shows of it. Every law about the entries of
a registry is proved from these six cases.
-/
namespace EventClient

namespace Context

variable {κ : Type}

theorem complete_invocation {context : Context κ} {c : ContextId} {kind : RequestKind}
    {id : CorrelationId} {delivery : Delivery} {i : Invocation κ}
    (h : (context.complete c kind id delivery).1 = .ok (some i)) :
    i.context = c ∧ i.delivery = delivery := by
  rw [complete] at h
  split at h <;> cases h
  exact ⟨rfl, rfl⟩

/-- A completion runs the callback that waits in the context's own registry. -/
theorem complete_entry {context : Context κ} {c : ContextId} {kind : RequestKind}
    {id : CorrelationId} {delivery : Delivery} {i : Invocation κ}
    (h : (context.complete c kind id delivery).1 = .ok (some i)) :
    ∃ entry, Registry.entry? (context.registry kind) id = some entry ∧
      i.callback = entry.callback ∧ i.userData = entry.userData := by
  simp only [complete] at h
  cases released : context.released with
  | true =>
      rw [settle_released released] at h
      cases h
  | false =>
      rw [settle_active released] at h
      cases waits : Registry.entry? (context.registry kind) id with
      | none =>
          rw [waits] at h
          cases h
      | some entry =>
          rw [waits] at h
          cases h
          exact ⟨entry, rfl, rfl, rfl⟩

/-- What a notification leads to runs for the context that it was dispatched to, and is handed the
notification's own fields. -/
theorem route_invocation {context : Context κ} {c : ContextId} {n : Notification}
    {i : Invocation κ} (h : (context.route c n).1 = .ok (some i)) :
    i.context = c ∧ i.delivery = n.delivery := by
  cases n with
  | sendCompleted id result => exact complete_invocation h
  | applicationsListed id result => exact complete_invocation h
  | event broadcast =>
      simp only [route] at h
      split at h <;> cases h
      exact ⟨rfl, rfl⟩
  | subscriptionStatus broadcast =>
      simp only [route] at h
      split at h <;> cases h
      exact ⟨rfl, rfl⟩

theorem route_entry {context : Context κ} {c : ContextId} {n : Notification} {i : Invocation κ}
    (h : (context.route c n).1 = .ok (some i)) {kind : RequestKind} {id : CorrelationId}
    (completes : n.Completes kind id) :
    ∃ entry, Registry.entry? (context.registry kind) id = some entry ∧
      i.callback = entry.callback ∧ i.userData = entry.userData := by
  cases n with
  | sendCompleted | applicationsListed =>
      obtain ⟨rfl, rfl⟩ := completes
      exact complete_entry h
  | event | subscriptionStatus => exact completes.elim

end Context

namespace Client

variable {T κ : Type}

theorem registry_of_context {s : Client T κ} {c : ContextId} {context : Context κ}
    (h : s.context? c = some context) (kind : RequestKind) :
    s.registry c kind = context.registry kind := by
  rw [registry, h]
  rfl

theorem registry_of_absent {s : Client T κ} {c : ContextId} (h : s.context? c = none)
    (kind : RequestKind) : s.registry c kind = .empty kind := by
  rw [registry, h]
  rfl

/-- An event that is no request of a kind of a context, invokes none of its callbacks, and spares
whatever waits. -/
def Event.Leaves (c : ContextId) (kind : RequestKind) (r : Registry κ) (e : Event κ) : Prop :=
  (∀ id, ¬ e.Requests c kind id) ∧ (∀ i id, e.invocation? = some i → ¬ i.Answers c kind id) ∧
    ∀ id entry, r.entry? id = some entry → e.Spares c kind id

/-- What a move does to a registry, with the event of the move. -/
inductive RegistryStep (c : ContextId) (kind : RequestKind) :
    Registry κ → Option (Event κ) → Registry κ → Prop where
  | idle {r : Registry κ} {event? : Option (Event κ)}
      (leaves : ∀ e, event? = some e → e.Leaves c kind r) : RegistryStep c kind r event? r
  | accepted {r held : Registry κ} {entry : Pending κ} (id : entry.id = r.nextId)
      (hold : r.issue.2.hold entry = .ok held) :
      RegistryStep c kind r (some (.requested c kind entry (.ok ()))) held
  | refused {r held : Registry κ} {entry : Pending κ} {e : ClientError} (id : entry.id = r.nextId)
      (hold : r.issue.2.hold entry = .ok held) :
      RegistryStep c kind r (some (.requested c kind entry (.error e))) (held.withdraw entry.id).2
  /-- The id was taken, which is never so while ids are not given out twice. -/
  | clashed {r : Registry κ} {entry : Pending κ} {answer : Except ClientError Unit}
      {e : ClientError} (id : entry.id = r.nextId) (hold : r.issue.2.hold entry = .error e) :
      RegistryStep c kind r (some (.requested c kind entry answer)) r.issue.2
  | settled {r : Registry κ} {n : Notification} {id : CorrelationId} {entry : Pending κ}
      (waits : r.entry? id = some entry) (completes : n.Completes kind id) :
      RegistryStep c kind r
        (some (.dispatched c n
          (.ok (some ⟨c, some id, entry.callback, entry.userData, 0, n.delivery⟩))))
        (r.erase id)
  | cleared {r : Registry κ} : RegistryStep c kind r (some (.released c)) r.clear.2

theorem requested_leaves {c c' : ContextId} {kind kind' : RequestKind}
    (other : ¬ (c' = c ∧ kind' = kind)) (entry : Pending κ) (answer : Except ClientError Unit)
    (r : Registry κ) : (Event.requested c' kind' entry answer).Leaves c kind r := by
  refine ⟨?_, ?_, ?_⟩
  · rintro id ⟨hc, hkind, _⟩
    exact other ⟨hc, hkind⟩
  · intro i id hi
    cases hi
  · intro id entry _
    exact ⟨fun completes => completes, fun c' released => by cases released⟩

/-- A dispatch leaves what it neither answers nor completes. -/
theorem dispatched_leaves {c c' : ContextId} {kind : RequestKind} {n : Notification}
    {outcome : Except ClientError (Option (Invocation κ))} {r : Registry κ}
    (answers : ∀ i id, outcome = .ok (some i) → ¬ i.Answers c kind id)
    (completes : ∀ id, c' = c → n.Completes kind id → r.entry? id = none) :
    (Event.dispatched c' n outcome).Leaves c kind r := by
  refine ⟨fun _ requests => requests, ?_, ?_⟩
  · intro i id hi
    apply answers i id
    cases outcome with
    | error e => cases hi
    | ok i? => exact congrArg Except.ok hi
  · intro id entry waits
    refine ⟨?_, fun c' released => by cases released⟩
    rintro ⟨hc, hn⟩
    rw [completes id hc hn] at waits
    cases waits

theorem released_leaves {c c' : ContextId} (elsewhere : c' ≠ c) (kind : RequestKind)
    (r : Registry κ) : (Event.released c').Leaves c kind r := by
  refine ⟨fun _ requests => requests, fun i id hi => (by cases hi), ?_⟩
  intro id entry _
  refine ⟨fun completes => completes, ?_⟩
  intro c'' same
  cases same
  exact elsewhere

theorem route_invocation_context {s : Client T κ} {c : ContextId} {n : Notification}
    {i : Invocation κ} (h : (s.route c n).1 = .ok (some i)) : i.context = c := by
  cases hslot : s.slot? c with
  | none =>
      rw [route_none hslot] at h
      cases h
  | some slot =>
      rw [(route_eq hslot n).1] at h
      exact (Context.route_invocation h).1

variable [Transport T]

theorem requestStep (c : ContextId) (context : Context κ) (t : T) (kind : RequestKind)
    (callback : κ) (userData : Option String) (call : CorrelationId → Call)
    (issued : CorrelationId → Entry) (kind' : RequestKind) :
    RegistryStep c kind' (context.registry kind')
      (some (requestEvent t c context kind callback userData call))
      ((context.request t kind callback userData call issued).context.registry kind') := by
  by_cases other : kind' = kind
  · subst other
    simp only [Context.request, requestEvent]
    simp only [Registry.issue]
    cases hold : Registry.hold (context.registry kind').issue.2
        { id := (context.registry kind').nextId, callback, userData } with
    | error e =>
        simp only [Registry.issue] at hold
        simp only [hold, Context.registry_withRegistry, if_true]
        exact .clashed rfl hold
    | ok held =>
        simp only [Registry.issue] at hold
        simp only [hold]
        cases answer : Transport.perform t (call (context.registry kind').nextId) with
        | mk t' result =>
        cases result with
        | ok _ =>
            simp only [Context.registry_withRegistry, if_true]
            exact .accepted rfl hold
        | error e =>
            simp only [Context.registry_withRegistry, if_true]
            exact .refused rfl hold
  · obtain ⟨r, hr⟩ := Context.request_context context t kind callback userData call issued
    rw [hr, Context.registry_withRegistry, if_neg other]
    apply RegistryStep.idle
    intro e he
    cases he
    exact requested_leaves (fun same => other same.2.symm) _ _ _

theorem completeStep {context : Context κ} (drained : context.Drained) (c : ContextId)
    (kind' : RequestKind) (id : CorrelationId) (n : Notification)
    (completes : ∀ kind id', n.Completes kind id' ↔ kind = kind' ∧ id' = id)
    (kind : RequestKind) :
    RegistryStep c kind (context.registry kind)
      (some (.dispatched c n (context.complete c kind' id n.delivery).1))
      ((context.complete c kind' id n.delivery).2.registry kind) := by
  simp only [Context.complete]
  cases hr : context.released with
  | true =>
      rw [Context.settle_released hr]
      apply RegistryStep.idle
      intro e he
      cases he
      exact dispatched_leaves (fun i id hi => by cases hi) fun id _ _ => drained hr kind id
  | false =>
      rw [Context.settle_active hr]
      cases waits : Registry.entry? (context.registry kind') id with
      | none =>
          apply RegistryStep.idle
          intro e he
          cases he
          refine dispatched_leaves (fun i id hi => by cases hi) ?_
          intro id' _ hn
          obtain ⟨rfl, rfl⟩ := (completes kind id').mp hn
          exact waits
      | some entry =>
          dsimp only
          rw [Context.registry_withRegistry]
          by_cases same : kind = kind'
          · subst same
            rw [if_pos rfl]
            exact .settled waits ((completes kind id).mpr ⟨rfl, rfl⟩)
          · rw [if_neg same]
            apply RegistryStep.idle
            intro e he
            cases he
            refine dispatched_leaves ?_ fun id' _ hn => (same ((completes kind id').mp hn).1).elim
            rintro i id' hi ⟨_, _, hkind⟩
            cases hi
            rw [Notification.kind?_delivery ((completes kind' id).mpr ⟨rfl, rfl⟩)] at hkind
            cases hkind
            exact same rfl

theorem broadcastStep (c : ContextId) (kind : RequestKind) {n : Notification}
    {outcome : Except ClientError (Option (Invocation κ))} {r : Registry κ}
    (broadcast : ∀ id, ¬ n.Completes kind id) (unanswered : n.delivery.kind? = none)
    (delivered : ∀ i, outcome = .ok (some i) → i.delivery = n.delivery) :
    RegistryStep c kind r (some (.dispatched c n outcome)) r := by
  apply RegistryStep.idle
  intro e he
  cases he
  refine dispatched_leaves ?_ fun id _ hn => (broadcast id hn).elim
  rintro i id hi ⟨_, _, hkind⟩
  rw [delivered i hi, unanswered] at hkind
  cases hkind

theorem routeStep {context : Context κ} (drained : context.Drained) (c : ContextId)
    (n : Notification) (kind : RequestKind) :
    RegistryStep c kind (context.registry kind)
      (some (.dispatched c n (context.route c n).1)) ((context.route c n).2.registry kind) := by
  cases n with
  | sendCompleted id result =>
      refine completeStep drained c .send id (.sendCompleted id result) ?_ kind
      intro kind id'
      exact and_congr_right fun _ => eq_comm
  | applicationsListed id result =>
      refine completeStep drained c .list id (.applicationsListed id result) ?_ kind
      intro kind id'
      exact and_congr_right fun _ => eq_comm
  | event broadcast =>
      have same : (context.route c (.event broadcast)).2.registry kind = context.registry kind := by
        rw [Context.route]
        dsimp only
        cases context.eventHandler <;> cases kind <;> rfl
      rw [same]
      exact broadcastStep c kind (fun _ h => h) rfl fun i hi => (Context.route_invocation hi).2
  | subscriptionStatus broadcast =>
      have same : (context.route c (.subscriptionStatus broadcast)).2.registry kind =
          context.registry kind := by
        rw [Context.route]
        dsimp only
        cases context.statusHandler <;> cases kind <;> rfl
      rw [same]
      exact broadcastStep c kind (fun _ h => h) rfl fun i hi => (Context.route_invocation hi).2

theorem event_leaves_elsewhere {s : Client T κ} {c : ContextId} {act : Act T κ}
    (elsewhere : act.subject? s ≠ some c) (kind : RequestKind) (r : Registry κ) {e : Event κ}
    (h : (Move.program act).event? s = some e) : e.Leaves c kind r := by
  cases act with
  | send c' event payload target callback userData =>
      obtain ⟨_, _, h⟩ := Option.bind_eq_some_iff.mp h
      split at h <;> cases h
      exact requested_leaves (fun same => elsewhere (congrArg some same.1)) _ _ r
  | list c' scope callback userData =>
      obtain ⟨_, _, h⟩ := Option.bind_eq_some_iff.mp h
      split at h <;> cases h
      exact requested_leaves (fun same => elsewhere (congrArg some same.1)) _ _ r
  | route c' n =>
      cases h
      refine dispatched_leaves ?_ fun _ same _ => (elsewhere (congrArg some same)).elim
      rintro i id hi ⟨hcontext, _⟩
      have here : c' = c := (route_invocation_context hi).symm.trans hcontext
      exact elsewhere (congrArg some here)
  | release =>
      obtain ⟨c', hcurrent, rfl⟩ := Option.map_eq_some_iff.mp h
      apply released_leaves
      rintro rfl
      exact elsewhere hcurrent
  | acquire | enableTracing | subscribe | editSubscriptions | renewSubscriptions
  | bridgeSignals | setEventHandler | setStatusHandler | lease | giveBack | requestStop
  | forgetStop | takeNext | keepBooks => cases h

/-- A context that is not there is not asked, and answers nothing. -/
theorem event_leaves_absent {s : Client T κ} {c : ContextId} (absent : s.context? c = none)
    (act : Act T κ) (kind : RequestKind) {e : Event κ}
    (h : (Move.program act).event? s = some e) : e.Leaves c kind (.empty kind) := by
  by_cases here : act.subject? s = some c
  · cases act with
    | send c' event payload target callback userData =>
        cases here
        simp [Move.event?, absent] at h
    | list c' scope callback userData =>
        cases here
        simp [Move.event?, absent] at h
    | route c' n =>
        cases here
        cases h
        refine dispatched_leaves ?_ fun _ _ _ => rfl
        intro i id hi
        rw [route_none (Option.map_eq_none_iff.mp absent)] at hi
        cases hi
    | release =>
        obtain ⟨c', _, rfl⟩ := Option.map_eq_some_iff.mp h
        exact ⟨fun _ hr => hr, fun _ _ hi => (by cases hi), fun _ _ waits => (by cases waits)⟩
    | acquire | enableTracing | subscribe | editSubscriptions | renewSubscriptions
    | bridgeSignals | setEventHandler | setStatusHandler | lease | giveBack | requestStop
    | forgetStop | takeNext | keepBooks => cases h
  · exact event_leaves_elsewhere here kind _ h

/-- The step that an act makes a registry of its own context take. -/
theorem subjectStep {s : Client T κ} {c : ContextId} {context : Context κ}
    (hc : s.context? c = some context) (drained : context.Drained) {act : Act T κ}
    (here : act.subject? s = some c) (kind : RequestKind) :
    RegistryStep c kind (context.registry kind) ((Move.program act).event? s)
      ((context.afterAct s.transport s.current c act).registry kind) := by
  have silent {r r' : Registry κ} (h : r' = r) : RegistryStep c kind r none r' := by
    rw [h]
    exact .idle fun e he => by cases he
  cases act with
  | send c' event payload target callback userData =>
      cases here
      simp only [Move.event?, Context.afterAct, hc, if_pos, Context.send, Option.bind_some]
      cases context.checkSend event payload target with
      | error e => exact silent rfl
      | ok _ => exact requestStep ..
  | list c' scope callback userData =>
      cases here
      simp only [Move.event?, Context.afterAct, hc, if_pos, Context.list, Option.bind_some]
      cases context.checkActive with
      | error e => exact silent rfl
      | ok _ => exact requestStep ..
  | route c' n =>
      cases here
      obtain ⟨slot, hslot, rfl⟩ := Option.map_eq_some_iff.mp hc
      simp only [Move.event?, Context.afterAct, if_pos, (route_eq hslot n).1]
      exact routeStep drained c n kind
  | release =>
      have current : s.current = some c := here
      have cleared : context.shutDown.2.1.registry kind = (context.registry kind).clear.2 := by
        cases kind <;> rfl
      simp only [Move.event?, Context.afterAct, current, if_pos, cleared]
      exact .cleared
  | subscribe c' names =>
      cases here
      simp only [Context.afterAct, if_pos]
      obtain ⟨subscriptions, changed⟩ := Context.subscribe_context context s.transport names
      rw [changed]
      cases kind <;> exact silent rfl
  | editSubscriptions c' | setEventHandler c' | setStatusHandler c' =>
      cases here
      simp only [Context.afterAct, if_pos]
      cases kind <;> exact silent rfl
  | acquire | enableTracing | renewSubscriptions | bridgeSignals | lease | giveBack
  | requestStop | forgetStop | takeNext | keepBooks => exact silent rfl

/-- Whatever happens to a client, each registry of each context takes one of the six steps. -/
theorem registryStep {s : Client T κ} (drained : s.Drained) (move : Move T κ) (c : ContextId)
    (kind : RequestKind) :
    RegistryStep c kind (s.registry c kind) (move.event? s) ((move.apply s).registry c kind) := by
  cases hc : s.context? c with
  | none =>
      have empty : (move.apply s).registry c kind = .empty kind := by
        rcases context?_apply s move c with kept | ⟨_, _, opened⟩
        · rw [hc] at kept
          exact registry_of_absent kept kind
        · rw [registry_of_context opened]
          cases kind <;> rfl
      rw [empty, registry_of_absent hc]
      cases move with
      | program act => exact .idle fun e he => event_leaves_absent hc act kind he
      | deliver c' n => exact .idle fun e he => by cases he
      | transport change => exact .idle fun e he => by cases he
  | some context =>
      have changed := (context?_apply s move c).resolve_right fun h => by
        rw [hc] at h
        cases h.2.1
      rw [hc] at changed
      rw [registry_of_context hc, registry_of_context changed]
      cases move with
      | program act =>
          by_cases here : act.subject? s = some c
          · exact subjectStep hc (drained c context hc) here kind
          · simp only [afterAct_elsewhere here]
            exact .idle fun e he => event_leaves_elsewhere here kind _ he
      | deliver c' n => exact .idle fun e he => by cases he
      | transport change => exact .idle fun e he => by cases he

omit [Transport T] in
theorem RegistryStep.ascending {c : ContextId} {kind : RequestKind} {r r' : Registry κ}
    {event? : Option (Event κ)} (step : RegistryStep c kind r event? r')
    (ascending : Pending.Ascending r.pending) : Pending.Ascending r'.pending := by
  cases step with
  | idle | clashed => exact ascending
  | accepted _ hold => exact Registry.ascending_hold hold ascending
  | refused _ hold => exact Registry.ascending_erase (Registry.ascending_hold hold ascending) _
  | settled => exact Registry.ascending_erase ascending _
  | cleared => exact List.Pairwise.nil

/-- In every registry of a run the entries stand in ascending order of their ids, each id once. -/
theorem ascending_after (t : T) (moves : List (Move T κ)) (c : ContextId) (kind : RequestKind) :
    Pending.Ascending (((start t).after moves).registry c kind).pending := by
  have kept {s : Client T κ} (drained : s.Drained)
      (ascending : Pending.Ascending (s.registry c kind).pending) :
      Pending.Ascending ((s.after moves).registry c kind).pending := by
    induction moves generalizing s with
    | nil => exact ascending
    | cons move moves ih =>
        exact ih (drained_apply drained move)
          ((registryStep drained move c kind).ascending ascending)
  exact kept (drained_start t) List.Pairwise.nil

end Client

end EventClient
