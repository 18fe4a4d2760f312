import EventClient.Proofs.Correlation.Events

/-!
Callbacks that re-enter the client. Where what callbacks do is made of moves, so is everything that
dispatches to them, and the invocations that a client traces are those that its moves lead to. So
what holds of every sequence of moves holds of dispatches and loops, however deep they are nested.
-/
namespace EventClient.Client

variable {T κ : Type}

def traced (s : Client T κ) : List (Invocation κ) := s.traces.map (·.invocation)

theorem traces_updateSlot (s : Client T κ) (c : ContextId) (f : Slot κ → Slot κ) :
    (s.updateSlot c f).traces = s.traces := by
  simp only [updateSlot]
  split <;> rfl

theorem traces_deliver (s : Client T κ) (c : ContextId) (n : Notification) :
    (s.deliver c n).2.traces = s.traces := by
  simp only [deliver]
  split
  · exact traces_updateSlot s c _
  · rfl

theorem traces_onContext {α : Type} (s : Client T κ) (c : ContextId)
    (operate : Context κ → T → Performed T κ α) : (s.onContext c operate).2.traces = s.traces := by
  simp only [onContext]
  split <;> rfl

theorem traces_lease (s : Client T κ) (c : ContextId) : (s.lease c).2.traces = s.traces := by
  simp only [lease]
  repeat' split
  all_goals rfl

theorem traces_routeCompletion (s : Client T κ) (c : ContextId) (slot : Slot κ)
    (kind : RequestKind) (id : CorrelationId) (delivery : Delivery) (completed : Entry) :
    (s.routeCompletion c slot kind id delivery completed).2.traces = s.traces := by
  simp only [routeCompletion]
  split <;> rfl

theorem traces_route (s : Client T κ) (c : ContextId) (n : Notification) :
    (s.route c n).2.traces = s.traces := by
  simp only [route]
  cases s.slot? c with
  | none => rfl
  | some slot =>
      cases n with
      | sendCompleted | applicationsListed => exact traces_routeCompletion ..
      | event =>
          dsimp only
          split <;> rfl
      | subscriptionStatus =>
          dsimp only
          split <;> rfl

variable [Transport T]

/-- Some moves turn one client into another, which traced what they invoked. -/
def Reaches (s s' : Client T κ) : Prop :=
  ∃ moves, s' = s.after moves ∧ s'.traced = s.traced ++ invoked (s.events moves)

/-- What callbacks do is made of moves, and each is traced where it starts. -/
def Reaction.Reenters (react : Reaction T κ) : Prop :=
  ∀ i s, ∃ moves, react i s = s.after moves ∧
    (react i s).traced = s.traced ++ i :: invoked (s.events moves)

theorem events_append (s : Client T κ) (first second : List (Move T κ)) :
    s.events (first ++ second) = s.events first ++ (s.after first).events second := by
  rw [events, history_append, List.filterMap_append]
  rfl

/-! ### One move -/

namespace Reaches

theorem refl (s : Client T κ) : Reaches s s := ⟨[], rfl, (List.append_nil _).symm⟩

theorem trans {s₁ s₂ s₃ : Client T κ} (h : Reaches s₁ s₂) (h' : Reaches s₂ s₃) :
    Reaches s₁ s₃ := by
  obtain ⟨first, rfl, traced⟩ := h
  obtain ⟨second, rfl, traced'⟩ := h'
  refine ⟨first ++ second, (after_append s₁ first second).symm, ?_⟩
  rw [traced', traced, events_append, invoked_append, List.append_assoc]

theorem quiet {s : Client T κ} (move : Move T κ) (same : (move.apply s).traces = s.traces)
    (none : (move.event? s).bind Event.invocation? = none) : Reaches s (move.apply s) := by
  refine ⟨[move], rfl, ?_⟩
  have nothing : invoked (s.events [move]) = [] := by
    rw [events_cons]
    cases h : move.event? s with
    | none => rfl
    | some e => simpa [h, invoked, events, history] using none
  rw [nothing, List.append_nil, traced, same, traced]

theorem books {s s' : Client T κ} (transport : s'.transport = s.transport)
    (current : s'.current = s.current) (slots : s'.slots = s.slots)
    (traced : s'.traced = s.traced) : Reaches s s' := by
  refine ⟨[.program (.keepBooks s')], ?_, ?_⟩
  · simp only [after_cons, after_nil, Move.apply, Act.apply, withBooks, ← transport, ← current,
      ← slots]
  · rw [traced]
    exact (List.append_nil _).symm

theorem transport (s : Client T κ) (change : T → T) :
    Reaches s { s with transport := change s.transport } :=
  quiet (.transport change) rfl rfl

theorem deliver (s : Client T κ) (c : ContextId) (n : Notification) :
    Reaches s (s.deliver c n).2 :=
  quiet (.deliver c n) (traces_deliver s c n) rfl

theorem acquire (s : Client T κ) : Reaches s s.acquire.2 := by
  apply quiet (.program .acquire) _ rfl
  cases hcurrent : s.current with
  | some c => rw [Move.apply, Act.apply, acquire_current hcurrent]
  | none =>
      cases answer : Transport.perform s.transport (.openContext s.slots.length) with
      | mk t result =>
      cases result with
      | error e => exact (acquire_refused hcurrent answer).2.2.2.2
      | ok _ => exact (acquire_opened hcurrent answer).2.2.2.2

theorem release (s : Client T κ) : Reaches s s.release.2 := by
  apply quiet (.program .release)
  · cases hcurrent : s.current with
    | none => rw [Move.apply, Act.apply, release_none hcurrent]
    | some c =>
        cases hslot : s.slot? c with
        | none => simp only [Move.apply, Act.apply, Client.release, hcurrent, hslot]
        | some slot => exact (release_current hcurrent hslot).2.2.2.2
  · simp only [Move.event?]
    cases s.current <;> rfl

theorem enableTracing (s : Client T κ) (patterns : List String) :
    Reaches s (s.enableTracing patterns).2 := by
  apply quiet (.program (.enableTracing patterns)) _ rfl
  simp only [Move.apply, Act.apply, Client.enableTracing]
  repeat' split
  all_goals rfl

theorem onContext {α : Type} (s : Client T κ) (c : ContextId)
    {operate : Context κ → T → Performed T κ α} (act : Act T κ)
    (is : act.apply s = (s.onContext c operate).2)
    (none : (Move.event? s (.program act)).bind Event.invocation? = none) :
    Reaches s (s.onContext c operate).2 := by
  rw [← is]
  apply quiet (.program act) _ none
  rw [Move.apply, is]
  exact traces_onContext s c operate

theorem send (s : Client T κ) (c : ContextId) (event payload : String) (target : Target)
    (callback : κ) (userData : Option String) :
    Reaches s (s.send c event payload target callback userData).2 := by
  apply onContext s c (.send c event payload target callback userData) rfl
  simp only [Move.event?]
  cases s.context? c with
  | none => rfl
  | some context =>
      rw [Option.bind_some]
      cases context.checkSend event payload target <;> rfl

theorem list (s : Client T κ) (c : ContextId) (scope : Scope) (callback : κ)
    (userData : Option String) : Reaches s (s.list c scope callback userData).2 := by
  apply onContext s c (.list c scope callback userData) rfl
  simp only [Move.event?]
  cases s.context? c with
  | none => rfl
  | some context =>
      rw [Option.bind_some]
      cases context.checkActive <;> rfl

theorem lease (s : Client T κ) (c : ContextId) : Reaches s (s.lease c).2 :=
  quiet (.program (.lease c)) (traces_lease s c) rfl

theorem updateSlot (s : Client T κ) (c : ContextId) {f : Slot κ → Slot κ} (act : Act T κ)
    (is : act.apply s = s.updateSlot c f)
    (none : (Move.event? s (.program act)).bind Event.invocation? = none) :
    Reaches s (s.updateSlot c f) := by
  rw [← is]
  apply quiet (.program act) _ none
  rw [Move.apply, is]
  exact traces_updateSlot s c f

theorem giveBack (s : Client T κ) (c : ContextId) : Reaches s (s.giveBack c) :=
  updateSlot s c (.giveBack c) rfl rfl

theorem takeNext {s s' : Client T κ} {c : ContextId} {n : Notification}
    (h : s.nextNotification? c = some (n, s')) : Reaches s s' := by
  have apply : Act.apply s (.takeNext c) = s' := by rw [Act.apply, h]; rfl
  rw [← apply]
  apply quiet (.program (.takeNext c)) _ rfl
  rw [Move.apply, apply]
  simp only [nextNotification?] at h
  split at h
  · cases h
  · split at h
    · cases h
    · cases h
      rfl

/-- Callbacks are traced where they start where all that comes after that is made of moves. -/
theorem reenters {react : Reaction T κ}
    (h : ∀ i s, Reaches { s with traces := s.traces ++ [{ invocation := i }] } (react i s)) :
    react.Reenters := by
  intro i s
  obtain ⟨moves, after, nested⟩ := h i s
  let started : Client T κ := { s with traces := s.traces ++ [{ invocation := i }] }
  refine ⟨.program (.keepBooks started) :: moves, after, ?_⟩
  rw [nested, traced, List.map_append, List.append_assoc]
  rfl

/-- A dispatch is the routing of its notification followed by the moves of the callback. -/
theorem dispatch {react : Reaction T κ} (reenters : react.Reenters) (s : Client T κ)
    (c : ContextId) (n : Notification) : Reaches s (s.dispatch react c n).2 := by
  have first (outcome) (s' : Client T κ) (h : s.route c n = (outcome, s')) :
      s.after [.program (.route c n)] = s' ∧
        s.events [.program (.route c n)] = [.dispatched c n outcome] ∧ s'.traced = s.traced := by
    have traces := traces_route s c n
    simp only [h] at traces
    simp only [after_cons, after_nil, Move.apply, Act.apply, events, history,
      List.filterMap_cons, List.filterMap_nil, Move.event?, h, traced, traces, and_self]
  simp only [Client.dispatch]
  split
  · next e s' h =>
      obtain ⟨after, event, traced⟩ := first _ s' h
      refine ⟨[.program (.route c n)], after.symm, ?_⟩
      rw [event, traced]
      exact (List.append_nil _).symm
  · next s' h =>
      obtain ⟨after, event, traced⟩ := first _ s' h
      refine ⟨[.program (.route c n)], after.symm, ?_⟩
      rw [event, traced]
      exact (List.append_nil _).symm
  · next i s' h =>
      obtain ⟨after, event, traced⟩ := first _ s' h
      obtain ⟨moves, reacted, nested⟩ := reenters i s'
      refine ⟨[.program (.route c n)] ++ moves, ?_, ?_⟩
      · rw [after_append, after, reacted]
      · rw [nested, events_append, after, event, traced]
        rfl

/-! ### Loops -/

theorem startLoop (s : Client T κ) (c : ContextId) : Reaches s (s.startLoop c).2 := by
  have leased := lease s c
  simp only [Client.startLoop]
  split
  · next e s' h => rwa [h] at leased
  · next s' h =>
      rw [h] at leased
      have forgotten := leased.trans (updateSlot s' c (.forgetStop c) rfl rfl)
      exact forgotten.trans (books rfl rfl rfl rfl)

section
variable {react : Reaction T κ} (reenters : react.Reenters)
include reenters

/-- The induction is on the number of notifications that may still be taken. -/
theorem poll (c : ContextId) (limit : Nat) (s : Client T κ) :
    Reaches s (Client.poll react c limit s).2 := by
  induction limit generalizing s with
  | zero => exact refl s
  | succ limit ih =>
      simp only [Client.poll]
      split
      · exact refl s
      · split
        · next n s₁ h =>
            have dispatched := (takeNext h).trans (dispatch reenters s₁ c n)
            split
            · next s₂ h' =>
                rw [h'] at dispatched
                exact dispatched.trans (ih s₂)
            · next e s₂ h' =>
                rw [h'] at dispatched
                exact dispatched.trans (books rfl rfl rfl rfl)
        · split
          · exact refl s
          · split
            · exact refl s
            · exact books rfl rfl rfl rfl

theorem pollLoop (limit : Nat) (s : Client T κ) (c : ContextId) :
    Reaches s (s.pollLoop react limit c).2 := by
  have polled := poll reenters c limit s
  simp only [Client.pollLoop]
  split
  · next s' h => rwa [h] at polled
  · next outcome s' _ h =>
      rw [h] at polled
      exact (polled.trans (giveBack s' c)).trans (books rfl rfl rfl rfl)

theorem drain (c : ContextId) (limit count : Nat) (s : Client T κ) :
    Reaches s (Client.drain react c limit count s).2 := by
  induction limit generalizing count s with
  | zero => exact refl s
  | succ limit ih =>
      simp only [Client.drain]
      split
      · exact refl s
      · next n s₁ h =>
          have dispatched := (takeNext h).trans (dispatch reenters s₁ c n)
          split
          · next s₂ h' =>
              rw [h'] at dispatched
              exact dispatched.trans (ih (count + 1) s₂)
          · next e s₂ h' => rwa [h'] at dispatched

theorem dispatchPending (limit : Nat) (s : Client T κ) (c : ContextId) :
    Reaches s (s.dispatchPending react limit c).2 := by
  have leased := lease s c
  simp only [Client.dispatchPending]
  split
  · next e s' h => rwa [h] at leased
  · next s' h =>
      rw [h] at leased
      exact (leased.trans (drain reenters c limit 0 s')).trans (giveBack _ c)

theorem runOnce (limit : Nat) (s : Client T κ) (c : ContextId) :
    Reaches s (s.runOnce react limit c).2 := by
  have started := startLoop s c
  simp only [Client.runOnce]
  split
  · next e s' h => rwa [h] at started
  · next s' h =>
      rw [h] at started
      have polled := started.trans (pollLoop reenters limit s' c)
      split
      · next s'' h' =>
          rw [h'] at polled
          exact polled.trans (giveBack s'' c)
      · next outcome s'' _ h' => rwa [h'] at polled

theorem startKept (limit : Nat) (s : Client T κ) (c : ContextId) :
    Reaches s (s.startKept react limit c).2 := by
  have started := startLoop s c
  simp only [Client.startKept]
  split
  · next e s' h => rwa [h] at started
  · next s' h =>
      rw [h] at started
      have polled := started.trans (pollLoop reenters limit s' c)
      split
      · next s'' h' =>
          rw [h'] at polled
          exact polled.trans (books rfl rfl rfl rfl)
      · next outcome s'' _ h' => rwa [h'] at polled

theorem pollKept (limit : Nat) (s : Client T κ) (loop : Nat) :
    Reaches s (s.pollKept react limit loop).2 := by
  simp only [Client.pollKept]
  split
  · next c hloop =>
      have entered : Reaches s { s with loops := s.loops.set loop (.polled c) } :=
        books rfl rfl rfl rfl
      have polled := entered.trans (pollLoop reenters limit _ c)
      split
      · next s' h =>
          rw [h] at polled
          exact polled.trans (books rfl rfl rfl rfl)
      · next outcome s' _ h =>
          rw [h] at polled
          exact polled.trans (books rfl rfl rfl rfl)
  · exact refl s

end

theorem cancelKept (s : Client T κ) (loop : Nat) : Reaches s (s.cancelKept loop).2 := by
  simp only [Client.cancelKept]
  split
  · next c _ =>
      have forgotten : Reaches s { s with loops := s.loops.set loop .gone } :=
        books rfl rfl rfl rfl
      exact forgotten.trans (giveBack _ c)
  · exact refl s

theorem dropLifecycle (s : Client T κ) : Reaches s s.dropLifecycle := by
  have released := release s
  simp only [Client.dropLifecycle]
  split
  · next _ s' h =>
      rw [h] at released
      exact released.trans (books rfl rfl rfl rfl)
  · next e s' h =>
      rw [h] at released
      exact released.trans (books rfl rfl rfl rfl)

end Reaches

end EventClient.Client
