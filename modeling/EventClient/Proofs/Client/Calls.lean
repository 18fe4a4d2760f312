import EventClient.Proofs.Client.Queues

/-!
What a program hands to the transport. An act hands over at most one call, only asking for a context
that is not open opens a session, and a context's own requests come from one that is active.
-/
namespace EventClient

def Call.opens : Call → Bool
  | .openContext _ => true
  | _ => false

namespace Context

variable {T κ : Type} [Transport T]

theorem issue_transport (context : Context κ) (t : T) (call : Call) (entries : List Entry) :
    (context.issue t call entries).transport = (Transport.perform t call).1 := by
  simp only [issue]
  split <;> next answer => rw [answer]

/-- A request is handed over under the next id of its kind, or not at all. -/
theorem request_transport (context : Context κ) (t : T) (kind : RequestKind) (callback : κ)
    (userData : Option String) (call : CorrelationId → Call) (issued : CorrelationId → Entry) :
    (context.request t kind callback userData call issued).transport = t ∨
      (context.request t kind callback userData call issued).transport =
        (Transport.perform t (call (context.registry kind).nextId)).1 := by
  simp only [request, Registry.issue]
  split
  · exact .inl rfl
  · split <;> next answer => exact .inr (by rw [answer])

end Context

namespace Client

variable {T κ : Type}

theorem length_updateSlot (s : Client T κ) (c : ContextId) (f : Slot κ → Slot κ) :
    (s.updateSlot c f).slots.length = s.slots.length := by
  simp only [updateSlot]
  split
  · exact List.length_set ..
  · rfl

theorem length_onContext {α : Type} (s : Client T κ) (c : ContextId)
    (operate : Context κ → T → Performed T κ α) :
    (s.onContext c operate).2.slots.length = s.slots.length := by
  simp only [onContext]
  split
  · rfl
  · exact List.length_set ..

theorem length_route (s : Client T κ) (c : ContextId) (n : Notification) :
    (s.route c n).2.slots.length = s.slots.length := by
  cases hslot : s.slot? c with
  | none => rw [route_none hslot]
  | some slot => exact (route_eq hslot n).2.count

theorem transport_route (s : Client T κ) (c : ContextId) (n : Notification) :
    (s.route c n).2.transport = s.transport := by
  cases hslot : s.slot? c with
  | none => rw [route_none hslot]
  | some slot => exact (route_eq hslot n).2.transport

theorem current_route (s : Client T κ) (c : ContextId) (n : Notification) :
    (s.route c n).2.current = s.current := by
  cases hslot : s.slot? c with
  | none => rw [route_none hslot]
  | some slot => exact (route_eq hslot n).2.current

theorem transport_updateSlot (s : Client T κ) (c : ContextId) (f : Slot κ → Slot κ) :
    (s.updateSlot c f).transport = s.transport := by
  simp only [updateSlot]
  split <;> rfl

theorem current_onContext {α : Type} (s : Client T κ) (c : ContextId)
    (operate : Context κ → T → Performed T κ α) :
    (s.onContext c operate).2.current = s.current := by
  simp only [onContext]
  split <;> rfl

theorem current_updateSlot (s : Client T κ) (c : ContextId) (f : Slot κ → Slot κ) :
    (s.updateSlot c f).current = s.current := by
  simp only [updateSlot]
  split <;> rfl

theorem transport_deliver (s : Client T κ) (c : ContextId) (n : Notification) :
    (s.deliver c n).2.transport = s.transport := by
  simp only [deliver]
  split
  · exact transport_updateSlot ..
  · rfl

theorem current_deliver (s : Client T κ) (c : ContextId) (n : Notification) :
    (s.deliver c n).2.current = s.current := by
  simp only [deliver]
  split
  · exact current_updateSlot ..
  · rfl

/-- The calls that an act can hand over. A context's own requests come from one that is active, and
only once they passed every check. -/
inductive Asks (s : Client T κ) : Act T κ → Call → Prop where
  | opens (free : s.current = none) : Asks s .acquire (.openContext s.slots.length)
  | closes {c : ContextId} {context : Context κ} (current : s.current = some c)
      (here : s.context? c = some context) : Asks s .release .closeContext
  | traces {written : List String} {patterns : List TracePattern}
      (parsed : TracePattern.parseAll written = .ok patterns) :
      Asks s (.enableTracing written) (.setTracing patterns)
  | sends {c : ContextId} {context : Context κ} {event payload : String} {target : Target}
      {callback : κ} {userData : Option String} (here : s.context? c = some context)
      (checked : context.checkSend event payload target = .ok ()) :
      Asks s (.send c event payload target callback userData)
        (.sendEvent event payload context.sends.nextId target)
  | lists {c : ContextId} {context : Context κ} {scope : Scope} {callback : κ}
      {userData : Option String} (here : s.context? c = some context)
      (checked : context.checkActive = .ok ()) :
      Asks s (.list c scope callback userData) (.listApplications context.lists.nextId scope)
  | subscribes {c : ContextId} {context : Context κ} {names : List String}
      {subscriptions : Subscriptions} (here : s.context? c = some context)
      (checked : context.checkActive = .ok ())
      (named : Subscriptions.ofNames? names = .ok subscriptions) :
      Asks s (.subscribe c names) (.subscribe subscriptions.names)
  | renews {c : ContextId} {context : Context κ} (here : s.context? c = some context)
      (checked : context.checkActive = .ok ()) (named : context.subscriptions.check = .ok ()) :
      Asks s (.renewSubscriptions c) (.subscribe context.subscriptions.names)
  | bridges {c : ContextId} {context : Context κ} (here : s.context? c = some context)
      (checked : context.checkActive = .ok ()) : Asks s (.bridgeSignals c) .bridgeSignals

/-- Only asking for a context while none is open opens a session. -/
theorem Asks.opening {s : Client T κ} {act : Act T κ} {call : Call} (h : s.Asks act call)
    (opens : call.opens = true) : act = .acquire ∧ s.current = none := by
  cases h with
  | opens free => exact ⟨rfl, free⟩
  | closes | traces | sends | lists | subscribes | renews | bridges => cases opens

variable [Transport T]

/-- Nothing is handed over, or one of the calls that the act can ask for. -/
def Hands (s : Client T κ) (act : Act T κ) (t : T) : Prop :=
  t = s.transport ∨ ∃ call, s.Asks act call ∧ t = (Transport.perform s.transport call).1

theorem hands_onContext {α : Type} {s : Client T κ} {c : ContextId} {act : Act T κ}
    {operate : Context κ → T → Performed T κ α}
    (h : ∀ context, s.context? c = some context →
      s.Hands act (operate context s.transport).transport) :
    s.Hands act (s.onContext c operate).2.transport := by
  simp only [onContext]
  cases hslot : s.slot? c with
  | none => exact .inl rfl
  | some slot => exact h slot.context (by rw [context?, hslot]; rfl)

theorem transport_release {s : Client T κ} {c : ContextId} {context : Context κ}
    (current : s.current = some c) (here : s.context? c = some context) :
    s.release.2.transport = (Transport.perform s.transport .closeContext).1 := by
  obtain ⟨slot, hslot, _⟩ := Option.map_eq_some_iff.mp here
  exact (release_current current hslot).2.1

theorem transport_acquire {s : Client T κ} (free : s.current = none) :
    s.acquire.2.transport = (Transport.perform s.transport (.openContext s.slots.length)).1 := by
  cases answer : Transport.perform s.transport (.openContext s.slots.length) with
  | mk t result =>
  cases result with
  | error e => exact (acquire_refused free answer).2.1
  | ok _ => exact (acquire_opened free answer).2.1

theorem hands_act (s : Client T κ) (act : Act T κ) : s.Hands act (act.apply s).transport := by
  cases act with
  | acquire =>
      cases hcurrent : s.current with
      | none => exact .inr ⟨_, .opens hcurrent, transport_acquire hcurrent⟩
      | some c =>
          rw [Act.apply, acquire_current hcurrent]
          exact .inl rfl
  | release =>
      cases hcurrent : s.current with
      | none =>
          rw [Act.apply, release_none hcurrent]
          exact .inl rfl
      | some c =>
          cases here : s.context? c with
          | some context => exact .inr ⟨_, .closes hcurrent here, transport_release hcurrent here⟩
          | none =>
              have absent := Option.map_eq_none_iff.mp here
              simp only [Act.apply, release, hcurrent, absent]
              exact .inl rfl
  | enableTracing written =>
      simp only [Act.apply, enableTracing]
      split
      · exact .inl rfl
      · next parsed =>
          split <;> next answer =>
            exact .inr ⟨_, .traces parsed, (congrArg Prod.fst answer).symm⟩
  | send c event payload target callback userData =>
      apply hands_onContext
      intro context here
      simp only [Context.send]
      split
      · exact .inl rfl
      · next checked =>
          refine (context.request_transport s.transport .send callback userData _ _).imp_right ?_
          exact fun handed => ⟨_, .sends here checked, handed⟩
  | list c scope callback userData =>
      apply hands_onContext
      intro context here
      simp only [Context.list]
      split
      · exact .inl rfl
      · next checked =>
          refine (context.request_transport s.transport .list callback userData _ _).imp_right ?_
          exact fun handed => ⟨_, .lists here checked, handed⟩
  | subscribe c names =>
      apply hands_onContext
      intro context here
      simp only [Context.subscribe]
      split
      · exact .inl rfl
      · exact .inl rfl
      · next checked named =>
          exact .inr ⟨_, .subscribes here checked named, Context.issue_transport ..⟩
  | renewSubscriptions c =>
      apply hands_onContext
      intro context here
      simp only [Context.renewSubscriptions]
      split
      · exact .inl rfl
      · exact .inl rfl
      · next checked named =>
          exact .inr ⟨_, .renews here checked named, Context.issue_transport ..⟩
  | bridgeSignals c =>
      apply hands_onContext
      intro context here
      simp only [Context.bridgeSignals]
      split
      · exact .inl rfl
      · next checked => exact .inr ⟨_, .bridges here checked, Context.issue_transport ..⟩
  | route c n => exact .inl (transport_route s c n)
  | takeNext c =>
      left
      rcases nextNotification?_eq s c with ⟨none, _⟩ | ⟨n, s', taken, _, _, _, _, same, _⟩
      · rw [Act.apply, none]
        rfl
      · rw [Act.apply, taken]
        exact same
  | lease c =>
      left
      simp only [Act.apply, lease]
      repeat' split
      all_goals rfl
  | editSubscriptions | setEventHandler | setStatusHandler | giveBack | requestStop
  | forgetStop => exact .inl (transport_updateSlot ..)
  | keepBooks => exact .inl rfl

/-- The lifecycle's choice of a context is changed by itself alone. -/
theorem current_act (s : Client T κ) (act : Act T κ) :
    (act.apply s).current =
      match act with
      | .acquire => s.acquire.2.current
      | .release => none
      | _ => s.current := by
  cases act with
  | acquire => rfl
  | release =>
      cases hcurrent : s.current with
      | none => rw [Act.apply, release_none hcurrent, hcurrent]
      | some c =>
          cases hslot : s.slot? c with
          | none => simp only [Act.apply, release, hcurrent, hslot]
          | some slot => exact (release_current hcurrent hslot).2.2.1
  | enableTracing written =>
      simp only [Act.apply, enableTracing]
      repeat' split
      all_goals rfl
  | send | list | subscribe | renewSubscriptions | bridgeSignals => exact current_onContext ..
  | editSubscriptions | setEventHandler | setStatusHandler | giveBack | requestStop
  | forgetStop => exact current_updateSlot ..
  | lease c =>
      simp only [Act.apply, lease]
      repeat' split
      all_goals rfl
  | takeNext c =>
      rcases nextNotification?_eq s c with ⟨none, _⟩ | ⟨n, s', taken, _, _, _, _, _, same⟩
      · rw [Act.apply, none]
        rfl
      · rw [Act.apply, taken]
        exact same
  | route c n => exact current_route s c n
  | keepBooks => rfl

theorem current_release (s : Client T κ) : s.release.2.current = none := current_act s .release

theorem current_act_other {act : Act T κ} (acquires : act ≠ .acquire) (releases : act ≠ .release)
    (s : Client T κ) : (act.apply s).current = s.current := by
  refine (current_act s act).trans ?_
  split
  · exact (acquires rfl).elim
  · exact (releases rfl).elim
  · rfl

/-- Contexts are numbered by the acts that try to open one. -/
theorem length_slots_act (s : Client T κ) (act : Act T κ) :
    (act.apply s).slots.length =
      match act with
      | .acquire => if s.current = none then s.slots.length + 1 else s.slots.length
      | _ => s.slots.length := by
  cases act with
  | acquire =>
      cases hcurrent : s.current with
      | some c =>
          rw [Act.apply, acquire_current hcurrent]
          rfl
      | none =>
          cases answer : Transport.perform s.transport (.openContext s.slots.length) with
          | mk t result =>
          cases result with
          | error e =>
              rw [Act.apply, (acquire_refused hcurrent answer).2.2.2.1, List.length_append]
              rfl
          | ok _ =>
              rw [Act.apply, (acquire_opened hcurrent answer).2.2.2.1, List.length_append]
              rfl
  | release =>
      cases hcurrent : s.current with
      | none => rw [Act.apply, release_none hcurrent]
      | some c =>
          cases hslot : s.slot? c with
          | none => simp only [Act.apply, release, hcurrent, hslot]
          | some slot =>
              rw [Act.apply, (release_current hcurrent hslot).2.2.2.1, withSlot, List.length_set]
  | enableTracing patterns =>
      simp only [Act.apply, enableTracing]
      repeat' split
      all_goals rfl
  | send | list | subscribe | renewSubscriptions | bridgeSignals => exact length_onContext ..
  | editSubscriptions | setEventHandler | setStatusHandler | giveBack | requestStop
  | forgetStop => exact length_updateSlot ..
  | lease c =>
      simp only [Act.apply, lease]
      split
      · rfl
      · split
        · rfl
        · exact List.length_set ..
  | takeNext c =>
      rcases nextNotification?_eq s c with ⟨none, _⟩ | ⟨n, s', taken, _, _, _, same, _⟩
      · rw [Act.apply, none]
        rfl
      · rw [Act.apply, taken]
        exact same
  | route c n => exact length_route s c n
  | keepBooks => rfl

/-- A number that was tried and has no context never gets one. -/
theorem absent_apply {s : Client T κ} {c : ContextId} (tried : c < s.slots.length)
    (absent : s.context? c = none) (move : Move T κ) :
    c < (move.apply s).slots.length ∧ (move.apply s).context? c = none := by
  have kept {s' : Client T κ} (count : s'.slots.length = s.slots.length) : c < s'.slots.length := by
    rwa [count]
  constructor
  · cases move with
    | deliver c' n =>
        apply kept
        simp only [Move.apply, deliver]
        split
        · exact length_updateSlot ..
        · rfl
    | transport change => exact tried
    | program act =>
        have count := length_slots_act s act
        cases act with
        | acquire =>
            simp only [Move.apply, count]
            split
            · exact Nat.lt_succ_of_lt tried
            · exact tried
        | _ => exact kept count
  · rcases context?_apply s move c with changed | ⟨rfl, _, opened⟩
    · rw [changed, absent]
      rfl
    · have unopened : s.slot? c = none := Option.map_eq_none_iff.mp absent
      rcases acquire_cases s with ⟨_, _, same⟩ | ⟨_, _, _, slots⟩ | ⟨_, _, _, slots⟩
      · exact (congrArg (·.2.context? c) same).trans absent
      · exact (congrArg (Option.map Slot.context) (slots c)).trans absent
      · have same := slots c
        rw [if_neg (Nat.ne_of_lt tried)] at same
        exact (congrArg (Option.map Slot.context) same).trans absent

theorem absent_after {s : Client T κ} {c : ContextId} (tried : c < s.slots.length)
    (absent : s.context? c = none) (moves : List (Move T κ)) :
    c < (s.after moves).slots.length ∧ (s.after moves).context? c = none := by
  induction moves generalizing s with
  | nil => exact ⟨tried, absent⟩
  | cons move moves ih =>
      obtain ⟨tried', absent'⟩ := absent_apply tried absent move
      exact ih tried' absent'

end Client

end EventClient
