import EventClient.Proofs.Client.Run
import EventClient.Proofs.Context

/-!
What a move does to one context. A context changes only by acts that name it and by the release of
the lifecycle's current one, and each of these changes it as a function of the context and the
transport alone.
-/
namespace EventClient

namespace Context

variable {T κ : Type}

/-- A completion as its context sees it: the invocation that it leads to, and what the invoked
callback finds. -/
def complete (context : Context κ) (c : ContextId) (kind : RequestKind) (id : CorrelationId)
    (delivery : Delivery) : Except ClientError (Option (Invocation κ)) × Context κ :=
  match context.settle kind id with
  | .error e => (.error e, context)
  | .ok none => (.ok none, context)
  | .ok (some (entry, left, _)) =>
    (.ok (some ⟨c, some id, entry.callback, entry.userData, 0, delivery⟩), left)

/-- The dispatch of a notification as its context sees it. -/
def route (context : Context κ) (c : ContextId) (n : Notification) :
    Except ClientError (Option (Invocation κ)) × Context κ :=
  match n with
  | .sendCompleted id result => context.complete c .send id (.sent result)
  | .applicationsListed id result => context.complete c .list id (.listed result)
  | .event broadcast =>
    match context.eventHandler with
    | none => (.ok none, context)
    | some handler =>
      let (invocation, handler) := Client.runHandler c handler (.event broadcast)
      (.ok (some invocation), { context with eventHandler := some handler })
  | .subscriptionStatus broadcast =>
    match context.statusHandler with
    | none => (.ok none, context)
    | some handler =>
      let (invocation, handler) := Client.runHandler c handler (.status broadcast)
      (.ok (some invocation), { context with statusHandler := some handler })

variable [Transport T]

/-- What an act does to the context with a number, given the lifecycle's current one. -/
def afterAct (context : Context κ) (t : T) (current : Option ContextId) (c : ContextId) :
    Client.Act T κ → Context κ
  | .send c' event payload target callback userData =>
    if c = c' then (context.send t event payload target callback userData).context else context
  | .list c' scope callback userData =>
    if c = c' then (context.list t scope callback userData).context else context
  | .subscribe c' names => if c = c' then (context.subscribe t names).context else context
  | .editSubscriptions c' clear erased inserted =>
    if c = c' then context.editSubscriptions clear erased inserted else context
  | .setEventHandler c' handler =>
    if c = c' then { context with eventHandler := handler } else context
  | .setStatusHandler c' handler =>
    if c = c' then { context with statusHandler := handler } else context
  | .route c' n => if c = c' then (context.route c n).2 else context
  | .release => if current = some c then context.shutDown.2.1 else context
  | _ => context

/-- The ways in which an act changes a context. Only an active one takes a request, and only the
release of the current one shuts it down. -/
inductive Change (context : Context κ) (t : T) (current : Option ContextId) (c : ContextId)
    (act : Client.Act T κ) : Context κ → Prop where
  | same : Change context t current c act context
  | request (active : context.released = false) (kind : RequestKind) (callback : κ)
      (userData : Option String) (call : CorrelationId → Call) (issued : CorrelationId → Entry) :
      Change context t current c act (context.request t kind callback userData call issued).context
  | subscriptions (subscriptions : Subscriptions) :
      Change context t current c act { context with subscriptions }
  | eventHandler (handler : Option (Handler κ)) :
      Change context t current c act { context with eventHandler := handler }
  | statusHandler (handler : Option (Handler κ)) :
      Change context t current c act { context with statusHandler := handler }
  | route (n : Notification) : Change context t current c act (context.route c n).2
  | shutDown (release : act = .release) (here : current = some c) :
      Change context t current c act context.shutDown.2.1

theorem change_afterAct (context : Context κ) (t : T) (current : Option ContextId)
    (c : ContextId) (act : Client.Act T κ) :
    Change context t current c act (context.afterAct t current c act) := by
  -- An act on another context leaves this one as it is.
  have here {c' : ContextId} {new : Context κ} (h : Change context t current c act new) :
      Change context t current c act (if c = c' then new else context) := by
    split
    · exact h
    · exact .same
  cases act with
  | send c' event payload target callback userData =>
      apply here
      simp only [send]
      cases check : context.checkSend event payload target with
      | error e => exact .same
      | ok _ => exact .request (checkSend_ok check) ..
  | list c' scope callback userData =>
      apply here
      simp only [list]
      cases check : context.checkActive with
      | error e => exact .same
      | ok _ => exact .request (checkActive_ok check) ..
  | subscribe c' names =>
      apply here
      obtain ⟨subscriptions, changed⟩ := subscribe_context context t names
      rw [changed]
      exact .subscriptions subscriptions
  | editSubscriptions c' => exact here (.subscriptions _)
  | setEventHandler c' handler => exact here (.eventHandler handler)
  | setStatusHandler c' handler => exact here (.statusHandler handler)
  | route c' n => exact here (.route n)
  | release =>
      simp only [afterAct]
      split
      · next current => exact .shutDown rfl current
      · exact .same
  | acquire | enableTracing | renewSubscriptions | bridgeSignals | lease | giveBack
  | requestStop | forgetStop | takeNext | keepBooks => exact .same

end Context

namespace Client

variable {T κ : Type}

/-- The context that an act names, or the current one if it is a release. -/
def Act.subject? (s : Client T κ) : Act T κ → Option ContextId
  | .send c .. | .list c .. | .subscribe c _ | .editSubscriptions c .. | .renewSubscriptions c
  | .bridgeSignals c | .setEventHandler c _ | .setStatusHandler c _ | .lease c | .giveBack c
  | .requestStop c | .forgetStop c | .takeNext c | .route c _ => some c
  | .release => s.current
  | .acquire | .enableTracing _ | .keepBooks _ => none

theorem afterAct_elsewhere [Transport T] {s : Client T κ} {c : ContextId} {act : Act T κ}
    (elsewhere : act.subject? s ≠ some c) (context : Context κ) (t : T) :
    context.afterAct t s.current c act = context := by
  cases act with
  | send c' | list c' | subscribe c' | editSubscriptions c' | setEventHandler c'
  | setStatusHandler c' | route c' =>
      exact if_neg fun here => elsewhere (congrArg some here.symm)
  | release => exact if_neg elsewhere
  | acquire | enableTracing | renewSubscriptions | bridgeSignals | lease | giveBack
  | requestStop | forgetStop | takeNext | keepBooks => rfl

def context? (s : Client T κ) (c : ContextId) : Option (Context κ) :=
  (s.slot? c).map (·.context)

/-- What the routing of a notification leaves: one context replaced, and nothing else changed but
what was noted. -/
structure Replaces (s s' : Client T κ) (c : ContextId) (slot : Slot κ) (context : Context κ) :
    Prop where
  slots : ∀ c', s'.slot? c' = if c' = c then some { slot with context } else s.slot? c'
  transport : s'.transport = s.transport
  current : s'.current = s.current
  traces : s'.traces = s.traces
  count : s'.slots.length = s.slots.length

theorem replaces_same {s : Client T κ} {c : ContextId} {slot : Slot κ}
    (h : s.slot? c = some slot) (entries : List Entry) :
    Replaces s (s.note entries) c slot slot.context := by
  refine ⟨?_, rfl, rfl, rfl, rfl⟩
  intro c'
  split
  · next heq => rw [heq, slot?_note, h]
  · rfl

theorem replaces_withSlot {s : Client T κ} {c : ContextId} {slot : Slot κ}
    (h : s.slot? c = some slot) (context : Context κ) (entries : List Entry) :
    Replaces s ((s.withSlot c { slot with context }).note entries) c slot context :=
  ⟨slot?_withSlot h _, rfl, rfl, rfl, List.length_set⟩

theorem routeCompletion_eq {s : Client T κ} {c : ContextId} {slot : Slot κ}
    (h : s.slot? c = some slot) (kind : RequestKind) (id : CorrelationId) (delivery : Delivery)
    (completed : Entry) :
    let outcome := slot.context.complete c kind id delivery
    (s.routeCompletion c slot kind id delivery completed).1 = outcome.1 ∧
      Replaces s (s.routeCompletion c slot kind id delivery completed).2 c slot outcome.2 := by
  rw [routeCompletion, Context.complete]
  cases slot.context.settle kind id with
  | error e => exact ⟨rfl, replaces_same h []⟩
  | ok settled =>
      cases settled with
      | none => exact ⟨rfl, replaces_same h _⟩
      | some taken => exact ⟨rfl, replaces_withSlot h _ _⟩

theorem route_none {s : Client T κ} {c : ContextId} (h : s.slot? c = none) (n : Notification) :
    s.route c n = (.ok none, s) := by
  rw [route, h]

/-- Routing is the context's own affair: nothing else of the client takes part. -/
theorem route_eq {s : Client T κ} {c : ContextId} {slot : Slot κ} (h : s.slot? c = some slot)
    (n : Notification) :
    (s.route c n).1 = (slot.context.route c n).1 ∧
      Replaces s (s.route c n).2 c slot (slot.context.route c n).2 := by
  simp only [route, Context.route]
  rw [h]
  cases n with
  | sendCompleted id result => exact routeCompletion_eq h .send id (.sent result) _
  | applicationsListed id result => exact routeCompletion_eq h .list id (.listed result) _
  | event broadcast =>
      dsimp only
      cases slot.context.eventHandler with
      | none => exact ⟨rfl, replaces_same h _⟩
      | some handler => exact ⟨rfl, replaces_withSlot h _ []⟩
  | subscriptionStatus broadcast =>
      dsimp only
      cases slot.context.statusHandler with
      | none => exact ⟨rfl, replaces_same h _⟩
      | some handler => exact ⟨rfl, replaces_withSlot h _ []⟩

theorem route_outcome (s : Client T κ) (c : ContextId) (n : Notification) :
    (s.route c n).1 =
      match s.context? c with
      | none => .ok none
      | some context => (context.route c n).1 := by
  rw [context?]
  cases h : s.slot? c with
  | none => rw [route_none h]; rfl
  | some slot => exact (route_eq h n).1

theorem context?_of_slots {s s' : Client T κ} (h : s'.slots = s.slots) (c : ContextId) :
    s'.context? c = s.context? c := by
  rw [context?, context?, slot?, slot?, h]

theorem context?_updateSlot (s : Client T κ) (c : ContextId) (f : Slot κ → Slot κ)
    (hf : ∀ slot, (f slot).context = slot.context) (c' : ContextId) :
    (s.updateSlot c f).context? c' = s.context? c' := by
  rw [context?, context?, slot?_updateSlot]
  split
  · next heq =>
      rw [heq]
      cases s.slot? c with
      | none => rfl
      | some slot => exact congrArg some (hf slot)
  · rfl

theorem context?_updateContext (s : Client T κ) (c : ContextId) (f : Context κ → Context κ)
    (c' : ContextId) :
    (s.updateContext c f).context? c' =
      (s.context? c').map fun context => if c' = c then f context else context := by
  rw [context?, context?, updateContext, slot?_updateSlot]
  split
  · next heq => subst heq; cases s.slot? c' <;> rfl
  · cases s.slot? c' <;> rfl

theorem context?_onContext {α : Type} (s : Client T κ) (c : ContextId)
    (operate : Context κ → T → Performed T κ α) (c' : ContextId) :
    (s.onContext c operate).2.context? c' =
      (s.context? c').map fun context =>
        if c' = c then (operate context s.transport).context else context := by
  rw [context?, context?, slot?_onContext]
  split
  · next heq => subst heq; cases s.slot? c' <;> rfl
  · cases s.slot? c' <;> rfl

theorem onContext_result {α : Type} {s : Client T κ} {c : ContextId} {context : Context κ}
    (hc : s.context? c = some context) (operate : Context κ → T → Performed T κ α) :
    (s.onContext c operate).1 = (operate context s.transport).result := by
  obtain ⟨slot, hslot, rfl⟩ := Option.map_eq_some_iff.mp hc
  rw [onContext, hslot]

theorem context?_route (s : Client T κ) (c : ContextId) (n : Notification) (c' : ContextId) :
    (s.route c n).2.context? c' =
      (s.context? c').map fun context => if c' = c then (context.route c n).2 else context := by
  cases h : s.slot? c with
  | none =>
      rw [route_none h]
      by_cases heq : c' = c
      · rw [context?, heq, h]; rfl
      · simp [heq]
  | some slot =>
      rw [context?, (route_eq h n).2.slots, context?]
      by_cases heq : c' = c
      · rw [heq, h]; simp
      · simp only [heq, if_false]
        cases s.slot? c' <;> rfl

theorem context?_nextNotification (s : Client T κ) (c c' : ContextId) :
    (((s.nextNotification? c).map (·.2)).getD s).context? c' = s.context? c' := by
  simp only [nextNotification?]
  cases h : s.slot? c with
  | none => rfl
  | some slot =>
      cases hq : slot.queue with
      | nil =>
          simp only [hq]
          rfl
      | cons n queue =>
          rw [context?, context?]
          simp only [hq, Option.map_some, Option.getD_some, slot?_withSlot h]
          split
          · next heq => rw [heq, h]; rfl
          · rfl

variable [Transport T]

/-- A move changes an opened context as `afterAct` says; only asking for one opens
others, afresh. -/
theorem context?_apply (s : Client T κ) (move : Move T κ) (c : ContextId) :
    (move.apply s).context? c = (s.context? c).map (fun context =>
        match move with
        | .program act => context.afterAct s.transport s.current c act
        | _ => context) ∨
      (move = .program .acquire ∧ s.context? c = none ∧
        (move.apply s).context? c = some {}) := by
  have kept : (s.context? c).map (fun context => context) = s.context? c := by simp
  cases move with
  | deliver c' n =>
      left
      rw [kept, context?, context?, Move.apply, slot?_deliver]
      split
      · next h => rw [h.1]; cases s.slot? c' <;> rfl
      · rfl
  | transport change => exact .inl kept.symm
  | program act =>
      cases act with
      | acquire =>
          rcases slot?_acquire s c with same | ⟨absent, opened⟩
          · left
            exact (congrArg (Option.map Slot.context) same).trans kept.symm
          · right
            exact ⟨rfl, by rw [context?, absent]; rfl,
              congrArg (Option.map Slot.context) opened⟩
      | release =>
          left
          simp only [Move.apply, Act.apply, Context.afterAct, context?, slot?_release]
          split
          · cases s.slot? c <;> rfl
          · exact kept.symm
      | enableTracing patterns =>
          left
          exact (context?_of_slots (slots_enableTracing s patterns) c).trans kept.symm
      | send c' event payload target callback userData =>
          left
          exact context?_onContext ..
      | list c' scope callback userData =>
          left
          exact context?_onContext ..
      | subscribe c' names =>
          left
          exact context?_onContext ..
      | editSubscriptions c' clear erased inserted =>
          left
          exact context?_updateContext ..
      | renewSubscriptions c' =>
          left
          refine (context?_onContext ..).trans ?_
          simp only [Context.renewSubscriptions_context, ite_self]
          rfl
      | bridgeSignals c' =>
          left
          refine (context?_onContext ..).trans ?_
          simp only [Context.bridgeSignals_context, ite_self]
          rfl
      | setEventHandler c' handler =>
          left
          exact context?_updateContext ..
      | setStatusHandler c' handler =>
          left
          exact context?_updateContext ..
      | lease c' =>
          left
          rw [Move.apply, Act.apply, context?, slot?_lease]
          refine Eq.trans ?_ kept.symm
          split
          · next heq => rw [context?, heq]; cases s.slot? c' <;> rfl
          · rfl
      | giveBack c' =>
          left
          have same := context?_updateSlot s c' (fun slot => { slot with leased := false })
            (fun _ => rfl) c
          exact same.trans kept.symm
      | requestStop c' =>
          left
          have same := context?_updateSlot s c' (fun slot => { slot with stopRequested := true })
            (fun _ => rfl) c
          exact same.trans kept.symm
      | forgetStop c' =>
          left
          have same := context?_updateSlot s c' (fun slot => { slot with stopRequested := false })
            (fun _ => rfl) c
          exact same.trans kept.symm
      | takeNext c' =>
          left
          exact (context?_nextNotification s c' c).trans kept.symm
      | route c' n =>
          left
          refine (context?_route s c' n c).trans ?_
          congr 1
          funext context
          by_cases heq : c = c'
          · subst heq; simp [Context.afterAct]
          · simp [Context.afterAct, heq]
      | keepBooks books => exact .inl kept.symm

end Client

end EventClient
