import EventClient.Proofs.Client.Calls
import EventClient.Proofs.Correlation.Events

/-!
A client seen without one of its contexts. What a program does through a handle of a released
context is refused or shows in this context only, and no other act can tell what is in there.
-/
namespace EventClient.Client

variable {T κ : Type}

/-- The context whose handle an act is done through. -/
def Act.through? : Act T κ → Option ContextId
  | .send c .. | .list c .. | .subscribe c _ | .editSubscriptions c .. | .renewSubscriptions c
  | .bridgeSignals c | .setEventHandler c _ | .setStatusHandler c _ | .lease c | .giveBack c
  | .requestStop c | .forgetStop c | .takeNext c | .route c _ => some c
  | .acquire | .release | .enableTracing _ | .keepBooks _ => none

def Move.through? : Move T κ → Option ContextId
  | .program act => act.through?
  | .deliver .. | .transport _ => none

/-- Two clients have the same transport, lifecycle and contexts but for one context, and that one is
released in both or in none. -/
structure AgreesBeyond (c : ContextId) (s s' : Client T κ) : Prop where
  transport : s'.transport = s.transport
  owned : s'.owned = s.owned
  current : s'.current = s.current
  count : s'.slots.length = s.slots.length
  others : ∀ c', c' ≠ c → s'.slot? c' = s.slot? c'
  released : s'.isReleased c = s.isReleased c

theorem AgreesBeyond.refl (c : ContextId) (s : Client T κ) : AgreesBeyond c s s :=
  ⟨rfl, rfl, rfl, rfl, fun _ _ => rfl, rfl⟩

theorem AgreesBeyond.trans {c : ContextId} {s₁ s₂ s₃ : Client T κ} (h : AgreesBeyond c s₁ s₂)
    (h' : AgreesBeyond c s₂ s₃) : AgreesBeyond c s₁ s₃ where
  transport := h'.transport.trans h.transport
  owned := h'.owned.trans h.owned
  current := h'.current.trans h.current
  count := h'.count.trans h.count
  others := fun c' other => (h'.others c' other).trans (h.others c' other)
  released := h'.released.trans h.released

/-- A client without one of its contexts and without what was noted. -/
def besides (s : Client T κ) (c : ContextId) : Client T κ :=
  { s with slots := s.slots.set c none, journal := [] }

theorem slot?_besides {s : Client T κ} {c c' : ContextId} (other : c' ≠ c) :
    (s.besides c).slot? c' = s.slot? c' := by
  rw [slot?, besides, slot?, List.getElem?_set_ne (Ne.symm other)]

@[simp] theorem besides_note (s : Client T κ) (c : ContextId) (entries : List Entry) :
    (s.note entries).besides c = s.besides c := rfl

@[simp] theorem besides_withSlot (s : Client T κ) (c : ContextId) (slot : Slot κ) :
    (s.withSlot c slot).besides c = s.besides c := by
  simp [besides, withSlot]

@[simp] theorem besides_updateSlot (s : Client T κ) (c : ContextId) (f : Slot κ → Slot κ) :
    (s.updateSlot c f).besides c = s.besides c := by
  simp only [updateSlot]
  split
  · exact besides_withSlot ..
  · rfl

theorem agreesBeyond_of_besides {s s' : Client T κ} {c : ContextId}
    (same : s'.besides c = s.besides c) (released : s'.isReleased c = s.isReleased c) :
    AgreesBeyond c s s' where
  transport := (congrArg (·.transport) same :)
  owned := (congrArg (·.owned) same :)
  current := (congrArg (·.current) same :)
  count := by simpa [besides] using congrArg (·.slots.length) same
  others := by
    intro c' other
    have here := congrArg (·.slot? c') same
    simpa only [slot?_besides other] using here
  released := released

/-! ### Requests through a handle of a released context -/

theorem withSlot_same {s : Client T κ} {c : ContextId} {slot : Slot κ}
    (h : s.slot? c = some slot) : s.withSlot c slot = s := by
  have here : s.slots[c]? = some (some slot) := by
    rw [slot?] at h
    exact Option.join_eq_some_iff.mp h
  have same : s.slots.set c (some slot) = s.slots := by
    obtain ⟨bound, found⟩ := List.getElem?_eq_some_iff.mp here
    rw [← found, List.set_getElem_self]
  rw [withSlot, same]

/-- An operation that its context refuses leaves the whole client as it was. -/
theorem onContext_refused {α : Type} {s : Client T κ} {c : ContextId} {slot : Slot κ}
    (h : s.slot? c = some slot) {operate : Context κ → T → Performed T κ α} {e : ClientError}
    (refused : operate slot.context s.transport = ⟨.error e, slot.context, s.transport, []⟩) :
    s.onContext c operate = (.error e, s) := by
  simp only [onContext, h, refused, withSlot_same h]
  rfl

/-! ### Acts that are done elsewhere -/

theorem besides_besides (s : Client T κ) (c : ContextId) :
    (s.besides c).besides c = s.besides c := by
  simp [besides]

/-- What is put in a slot is put there with or without the blanked context. -/
theorem besides_withSlot_comm (s : Client T κ) (c c' : ContextId) (slot : Slot κ) :
    ((s.besides c).withSlot c' slot).besides c = (s.withSlot c' slot).besides c := by
  by_cases heq : c' = c
  · subst heq
    simp [besides_besides]
  · simp [besides, withSlot, List.set_comm _ _ heq]

theorem besides_updateSlot_comm (s : Client T κ) {c c' : ContextId} (other : c' ≠ c)
    (f : Slot κ → Slot κ) :
    ((s.besides c).updateSlot c' f).besides c = (s.updateSlot c' f).besides c := by
  simp only [updateSlot, slot?_besides other]
  cases s.slot? c' with
  | none => exact besides_besides s c
  | some slot => exact besides_withSlot_comm ..

theorem besides_onContext_comm {α : Type} (s : Client T κ) {c c' : ContextId} (other : c' ≠ c)
    (operate : Context κ → T → Performed T κ α) :
    ((s.besides c).onContext c' operate).2.besides c = (s.onContext c' operate).2.besides c := by
  simp only [onContext, slot?_besides other]
  cases s.slot? c' with
  | none => exact besides_besides s c
  | some slot =>
      let performed := operate slot.context s.transport
      have moved := besides_withSlot_comm s c c' { slot with context := performed.context }
      exact congrArg (fun left : Client T κ => { left with transport := performed.transport }) moved

theorem besides_lease_comm (s : Client T κ) {c c' : ContextId} (other : c' ≠ c) :
    ((s.besides c).lease c').2.besides c = (s.lease c').2.besides c := by
  simp only [lease, slot?_besides other]
  cases s.slot? c' with
  | none => exact besides_besides s c
  | some slot =>
      dsimp only
      split
      · exact besides_besides s c
      · exact besides_withSlot_comm ..

theorem besides_takeNext_comm (s : Client T κ) {c c' : ContextId} (other : c' ≠ c) :
    ((((s.besides c).nextNotification? c').map (·.2)).getD (s.besides c)).besides c =
      (((s.nextNotification? c').map (·.2)).getD s).besides c := by
  simp only [nextNotification?, slot?_besides other]
  cases s.slot? c' with
  | none => exact besides_besides s c
  | some slot =>
      dsimp only
      cases slot.queue with
      | nil => exact besides_besides s c
      | cons n queue => exact besides_withSlot_comm ..

theorem besides_route_comm (s : Client T κ) {c c' : ContextId} (other : c' ≠ c)
    (n : Notification) :
    ((s.besides c).route c' n).2.besides c = (s.route c' n).2.besides c := by
  simp only [route, slot?_besides other]
  cases s.slot? c' with
  | none => exact besides_besides s c
  | some slot =>
      cases n with
      | sendCompleted | applicationsListed =>
          simp only [routeCompletion]
          split
          · exact besides_besides s c
          · exact besides_besides s c
          · exact besides_withSlot_comm s c c' _
      | event =>
          dsimp only
          cases slot.context.eventHandler with
          | none => exact besides_besides s c
          | some handler => exact besides_withSlot_comm ..
      | subscriptionStatus =>
          dsimp only
          cases slot.context.statusHandler with
          | none => exact besides_besides s c
          | some handler => exact besides_withSlot_comm ..

theorem besides_deliver_comm (s : Client T κ) (c c' : ContextId) (n : Notification) :
    ((s.besides c).deliver c' n).2.besides c = (s.deliver c' n).2.besides c := by
  by_cases heq : c' = c
  · subst heq
    have alone (s : Client T κ) : (s.deliver c' n).2.besides c' = s.besides c' := by
      simp only [deliver]
      split
      · exact besides_updateSlot ..
      · rfl
    rw [alone, alone, besides_besides]
  · have held : (s.besides c).isHeld c' = s.isHeld c' := by
      rw [isHeld, slot?_besides heq]
      rfl
    simp only [deliver, held]
    split
    · exact besides_updateSlot_comm s heq _
    · exact besides_besides s c

variable [Transport T]

/-- Every request through a handle of a context is refused, and nothing at all changes. -/
structure Refuses (s : Client T κ) (c : ContextId) : Prop where
  send : ∀ event payload target callback userData,
    s.send c event payload target callback userData = (.error .contextReleased, s)
  list : ∀ scope callback userData,
    s.list c scope callback userData = (.error .contextReleased, s)
  subscribe : ∀ names, s.subscribe c names = (.error .contextReleased, s)
  renewSubscriptions : s.renewSubscriptions c = (.error .contextReleased, s)
  bridgeSignals : s.bridgeSignals c = (.error .contextReleased, s)

theorem refuses_released {s : Client T κ} {c : ContextId} {context : Context κ}
    (here : s.context? c = some context) (released : context.released = true) : s.Refuses c := by
  obtain ⟨slot, hslot, rfl⟩ := Option.map_eq_some_iff.mp here
  have inactive := Context.checkActive_released released
  constructor
  case send =>
    intro event payload target callback userData
    apply onContext_refused hslot
    simp only [Context.send, Context.checkSend_released released]
  case list =>
    intro scope callback userData
    apply onContext_refused hslot
    simp only [Context.list, inactive]
  case subscribe =>
    intro names
    apply onContext_refused hslot
    simp only [Context.subscribe, inactive]
  case renewSubscriptions =>
    apply onContext_refused hslot
    simp only [Context.renewSubscriptions, inactive]
  case bridgeSignals =>
    apply onContext_refused hslot
    simp only [Context.bridgeSignals, inactive]

omit [Transport T] in
/-- A completion for a released context is only noted. -/
theorem dispatch_completion_released {s : Client T κ} {c : ContextId} {context : Context κ}
    (here : s.context? c = some context) (released : context.released = true)
    {n : Notification} {kind : RequestKind} {id : CorrelationId} (completes : n.Completes kind id)
    (react : Reaction T κ) :
    s.dispatch react c n = (.ok (), s.note [.completionDropped kind id]) := by
  obtain ⟨slot, hslot, rfl⟩ := Option.map_eq_some_iff.mp here
  cases n with
  | sendCompleted | applicationsListed =>
      obtain ⟨rfl, rfl⟩ := completes
      simp only [dispatch, route, hslot, routeCompletion, Context.settle_released released]
  | event | subscriptionStatus => exact completes.elim

/-! ### Acts through a handle of a released context -/

omit [Transport T] in
theorem besides_lease (s : Client T κ) (c : ContextId) : (s.lease c).2.besides c = s.besides c := by
  simp only [lease]
  split
  · rfl
  · split
    · rfl
    · exact besides_withSlot ..

omit [Transport T] in
theorem besides_takeNext (s : Client T κ) (c : ContextId) :
    (((s.nextNotification? c).map (·.2)).getD s).besides c = s.besides c := by
  simp only [nextNotification?]
  cases s.slot? c with
  | none => rfl
  | some slot =>
      dsimp only
      cases slot.queue with
      | nil => rfl
      | cons n queue => exact besides_withSlot ..

omit [Transport T] in
theorem besides_routeCompletion (s : Client T κ) (c : ContextId) (slot : Slot κ)
    (kind : RequestKind) (id : CorrelationId) (delivery : Delivery) (completed : Entry) :
    (s.routeCompletion c slot kind id delivery completed).2.besides c = s.besides c := by
  simp only [routeCompletion]
  split
  · rfl
  · rfl
  · simp

omit [Transport T] in
theorem besides_route (s : Client T κ) (c : ContextId) (n : Notification) :
    (s.route c n).2.besides c = s.besides c := by
  simp only [route]
  cases s.slot? c with
  | none => rfl
  | some slot =>
      cases n with
      | sendCompleted | applicationsListed => exact besides_routeCompletion ..
      | event =>
          dsimp only
          cases slot.context.eventHandler <;> simp
      | subscriptionStatus =>
          dsimp only
          cases slot.context.statusHandler <;> simp

/-- What is done through a handle of a released context shows in this context only. -/
theorem besides_act {s : Client T κ} {c : ContextId} (refuses : s.Refuses c) {act : Act T κ}
    (through : act.through? = some c) : (act.apply s).besides c = s.besides c := by
  cases act with
  | send => cases through; rw [Act.apply, refuses.send]
  | list => cases through; rw [Act.apply, refuses.list]
  | subscribe => cases through; rw [Act.apply, refuses.subscribe]
  | renewSubscriptions => cases through; rw [Act.apply, refuses.renewSubscriptions]
  | bridgeSignals => cases through; rw [Act.apply, refuses.bridgeSignals]
  | editSubscriptions | setEventHandler | setStatusHandler | giveBack | requestStop | forgetStop =>
      cases through
      exact besides_updateSlot ..
  | lease => cases through; exact besides_lease ..
  | takeNext => cases through; exact besides_takeNext ..
  | route => cases through; exact besides_route ..
  | acquire | release | enableTracing | keepBooks => cases through

/-- Whatever number the blanked context has, the next one gets the number that it gets anyway. -/
theorem besides_acquire_comm {s : Client T κ} {c : ContextId} (bound : c < s.slots.length) :
    (s.besides c).acquire.2.besides c = s.acquire.2.besides c := by
  have length : (s.besides c).slots.length = s.slots.length := List.length_set
  have opened (slot : Option (Slot κ)) :
      ((s.slots.set c none) ++ [slot]).set c none = (s.slots ++ [slot]).set c none := by
    rw [List.set_append_left _ _ (by simpa using bound), List.set_append_left _ _ bound,
      List.set_set]
  cases hcurrent : s.current with
  | some c' =>
      have same : (s.besides c).current = some c' := hcurrent
      rw [acquire_current hcurrent, acquire_current same, besides_besides]
  | none =>
      cases answer : Transport.perform s.transport (.openContext s.slots.length) with
      | mk t result =>
      cases hsinks : s.keepsSinks <;> cases result <;>
        simp [acquire, besides, hcurrent, hsinks, answer, opened, note]

theorem besides_release_comm {s : Client T κ} {c : ContextId} (other : s.current ≠ some c) :
    (s.besides c).release.2.besides c = s.release.2.besides c := by
  cases hcurrent : s.current with
  | none =>
      have same : (s.besides c).current = none := hcurrent
      rw [release_none hcurrent, release_none same, besides_besides]
  | some c' =>
      have elsewhere : c' ≠ c := fun here => other (by rw [hcurrent, here])
      have same : (s.besides c).current = some c' := hcurrent
      cases hslot : s.slot? c' with
      | none =>
          have absent : (s.besides c).slot? c' = none := (slot?_besides elsewhere).trans hslot
          simp only [release, same, absent, hcurrent, hslot]
          simp [besides]
      | some slot =>
          have here : (s.besides c).slot? c' = some slot := (slot?_besides elsewhere).trans hslot
          simp only [release, same, here, hcurrent, hslot]
          cases answer : Transport.perform s.transport .closeContext with
          | mk t result =>
          cases result <;>
            simp [besides, withSlot, note, answer, List.set_comm _ _ elsewhere]

theorem besides_enableTracing_comm (s : Client T κ) (c : ContextId) (written : List String) :
    ((s.besides c).enableTracing written).2.besides c = (s.enableTracing written).2.besides c := by
  cases parsed : TracePattern.parseAll written with
  | error e => simp [enableTracing, parsed, besides_besides]
  | ok patterns =>
      cases answer : Transport.perform s.transport (.setTracing patterns) with
      | mk t result => cases result <;> simp [enableTracing, parsed, answer, besides, note]

/-- What is not done through a handle of a context does to the rest of the client what it would do
without this context, as long as it is not the current one. -/
theorem besides_move_comm {s : Client T κ} {c : ContextId} (bound : c < s.slots.length)
    (other : s.current ≠ some c) {move : Move T κ} (elsewhere : move.through? ≠ some c) :
    (move.apply (s.besides c)).besides c = (move.apply s).besides c := by
  cases move with
  | deliver c' n => exact besides_deliver_comm s c c' n
  | transport change =>
      exact congrArg (fun left : Client T κ => { left with transport := change s.transport })
        (besides_besides s c)
  | program act =>
      have away {c' : ContextId} (h : act.through? = some c') : c' ≠ c := by
        rintro rfl
        exact elsewhere h
      cases act with
      | acquire => exact besides_acquire_comm bound
      | release => exact besides_release_comm other
      | enableTracing written => exact besides_enableTracing_comm s c written
      | send | list | subscribe | renewSubscriptions | bridgeSignals =>
          exact besides_onContext_comm s (away rfl) _
      | editSubscriptions | setEventHandler | setStatusHandler | giveBack | requestStop
      | forgetStop => exact besides_updateSlot_comm s (away rfl) _
      | lease => exact besides_lease_comm s (away rfl)
      | takeNext => exact besides_takeNext_comm s (away rfl)
      | route c' n => exact besides_route_comm s (away rfl) n
      | keepBooks books => simp [Move.apply, Act.apply, besides, withBooks]

end EventClient.Client
