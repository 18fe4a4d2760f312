import EventClient.Proofs.Client.Active
import EventClient.Transport.Loopback

/-!
The lifecycle over whole runs, in which it is also dropped and another one takes its place. However
opening and closing contexts fails, the context that the lifecycle holds is the only one that is
live, and a loopback transport holds the channel of that one or none.
-/
namespace EventClient

namespace Client

variable {T κ : Type}

/-- The contexts that were opened and not released since, the oldest first. -/
def live (s : Client T κ) : List ContextId :=
  (List.range s.slots.length).filter fun c => (s.context? c).any (!·.released)

theorem Sole.live {s : Client T κ} (h : s.Sole) : s.live = s.current.toList := by
  have active (c : ContextId) : (s.context? c).any (!·.released) = (s.current == some c) := by
    rw [Bool.eq_iff_iff, beq_iff_eq]
    cases here : s.context? c with
    | none =>
        refine ⟨nofun, fun current => ?_⟩
        obtain ⟨context, there⟩ := h.present c current
        cases here.symm.trans there
    | some context => simpa using h.active c context here
  simp only [Client.live, active]
  -- Among the numbers in use the current one occurs once.
  cases current : s.current with
  | none => simp
  | some c =>
      obtain ⟨context, here⟩ := h.present c current
      obtain ⟨slot, hslot, _⟩ := Option.map_eq_some_iff.mp here
      have one : (List.range s.slots.length).count c = 1 := by
        rw [List.nodup_range.count, if_pos (List.mem_range.mpr (lt_of_slot? hslot))]
      have same : (fun c' => some c == some c') = (· == c) := by
        funext c'
        rw [Bool.eq_iff_iff, beq_iff_eq, beq_iff_eq, Option.some.injEq, eq_comm]
      rw [same, List.filter_beq, one]
      rfl

variable [Transport T]

/-- What happens to a client and its lifecycle: a move, or the lifecycle is dropped, which another
one may follow. -/
inductive Turn (T κ : Type) where
  | move (m : Move T κ)
  | dropLifecycle
  | newLifecycle

def Turn.apply (s : Client T κ) : Turn T κ → Client T κ
  | .move m => m.apply s
  | .dropLifecycle => s.dropLifecycle
  | .newLifecycle => { s.dropLifecycle with owned := true }

def afterTurns (s : Client T κ) (turns : List (Turn T κ)) : Client T κ :=
  turns.foldl Turn.apply s

/-- Dropping the lifecycle is releasing its context, and what is noted besides. -/
theorem dropLifecycle_eq (s : Client T κ) :
    s.dropLifecycle = s.release.2.withBooks s.dropLifecycle := by
  simp only [dropLifecycle]
  split <;> next answer => rw [answer]; rfl

theorem current_dropLifecycle (s : Client T κ) : s.dropLifecycle.current = none := by
  rw [dropLifecycle_eq]
  exact s.current_release

/-- A turn is made of moves, and of no change of the transport but its own. -/
theorem Turn.exists_moves (s : Client T κ) (turn : Turn T κ) :
    ∃ moves, turn.apply s = s.after moves ∧
      ∀ change, Move.transport change ∈ moves → turn = .move (.transport change) := by
  cases turn with
  | move m =>
      refine ⟨[m], rfl, fun change there => ?_⟩
      rw [List.mem_singleton.mp there]
  | dropLifecycle =>
      refine ⟨[.program .release, .program (.keepBooks s.dropLifecycle)], s.dropLifecycle_eq, ?_⟩
      intro change there
      simp at there
  | newLifecycle =>
      let next := { s.dropLifecycle with owned := true }
      have kept : next = s.release.2.withBooks next :=
        congrArg (fun s : Client T κ => { s with owned := true }) s.dropLifecycle_eq
      refine ⟨[.program .release, .program (.keepBooks next)], kept, ?_⟩
      intro change there
      simp at there

theorem exists_moves_after (s : Client T κ) (turns : List (Turn T κ)) :
    ∃ moves, s.afterTurns turns = s.after moves ∧
      ∀ change, Move.transport change ∈ moves → Turn.move (.transport change) ∈ turns := by
  induction turns generalizing s with
  | nil => exact ⟨[], rfl, nofun⟩
  | cons turn turns ih =>
      obtain ⟨first, applied, own⟩ := turn.exists_moves s
      obtain ⟨rest, made, own'⟩ := ih (turn.apply s)
      refine ⟨first ++ rest, ?_, ?_⟩
      · rw [after_append, ← applied]
        exact made
      · intro change there
        rcases List.mem_append.mp there with there | there
        · rw [own change there]
          exact List.mem_cons_self
        · exact List.mem_cons_of_mem _ (own' change there)

/-- One context is live as long as the lifecycle holds it, and none otherwise. -/
structure OneLive (s : Client T κ) : Prop where
  live : s.live = s.current.toList
  /-- The context that is open is given again, and nothing is asked of the transport. -/
  again : ∀ c, s.current = some c → s.acquire = (.ok c, s)
  /-- Where none is open, the transport decides whether one is opened. -/
  answer : s.current = none → s.acquire.1 =
    (Transport.perform s.transport (.openContext s.slots.length)).2.map fun _ => s.slots.length
  fresh : s.current = none → ∀ c, s.acquire.1 = .ok c →
    s.context? c = none ∧ s.acquire.2.current = some c ∧
      s.acquire.2.context? c = some {
        sends := ⟨.send, 0, []⟩, lists := ⟨.list, 0, []⟩, subscriptions := ⟨[]⟩
        eventHandler := none, statusHandler := none, released := false }
  refused : ∀ e, s.acquire.1 = .error e → s.acquire.2.current = none
  /-- Whatever the transport answers, the context that was open is released. -/
  released : s.release.2.current = none ∧ ∀ c, s.current = some c →
    ∃ context, s.release.2.context? c = some context ∧ context.released = true
  once : s.release.2.release = (.ok none, s.release.2)
  dropped : s.dropLifecycle.current = none ∧
    ∀ c, s.dropLifecycle.context? c = s.release.2.context? c

theorem Sole.oneLive {s : Client T κ} (h : s.Sole) : s.OneLive where
  live := h.live
  again _ current := acquire_current current
  answer free := by
    cases answer : Transport.perform s.transport (.openContext s.slots.length) with
    | mk t result =>
    cases result with
    | error e => exact (acquire_refused free answer).1
    | ok _ => exact (acquire_opened free answer).1
  fresh free c acquired := by
    cases answer : Transport.perform s.transport (.openContext s.slots.length) with
    | mk t result =>
    cases result with
    | error e => cases acquired.symm.trans (acquire_refused free answer).1
    | ok _ =>
        obtain ⟨given, _, current, slots, _⟩ := acquire_opened free answer
        cases acquired.symm.trans given
        refine ⟨?_, current, ?_⟩
        · rw [context?, slot?_eq_none_of_le (Nat.le_refl _)]
          rfl
        · rw [context?, slot?_of_slots_append slots, if_pos rfl]
          rfl
  refused e failed := by
    rcases acquire_cases s with ⟨c, current, same⟩ | ⟨_, _, current, _⟩ | ⟨free, taken, _, _⟩
    · cases (congrArg Prod.fst same).symm.trans failed
    · exact current
    · cases answer : Transport.perform s.transport (.openContext s.slots.length) with
      | mk t result =>
      rw [answer] at taken
      cases taken
      cases failed.symm.trans (acquire_opened free answer).1
  released := by
    refine ⟨s.current_release, fun c current => ?_⟩
    obtain ⟨context, here⟩ := h.present c current
    obtain ⟨slot, hslot, _⟩ := Option.map_eq_some_iff.mp here
    refine ⟨slot.shutDown.context, ?_, rfl⟩
    rw [context?, slot?_release, if_pos current, hslot]
    rfl
  once := release_none s.current_release
  dropped := by
    refine ⟨s.current_dropLifecycle, fun c => ?_⟩
    rw [dropLifecycle_eq]
    exact context?_of_slots rfl c

end Client

namespace Loopback

open Client

variable {κ : Type}

/-- How a loopback transport changes other than by a call. -/
inductive Control : (Loopback → Loopback) → Prop where
  | refuseNext (message : String) : Control fun t => { t with refusal := some message }
  | disconnect : Control fun t => { t with channel := none }
  | clearCalls : Control clear
  | settle : Control settle

theorem Control.channel {change : Loopback → Loopback} (h : Control change) (t : Loopback) :
    (change t).channel = t.channel ∨ (change t).channel = none := by
  cases h with
  | refuseNext | clearCalls | settle => exact .inl rfl
  | disconnect => exact .inr rfl

theorem transport_emit (s : Client Loopback κ) (n : Notification) :
    (emit s n).2.transport = s.transport := by
  simp only [emit]
  split
  · rfl
  · exact transport_deliver ..

/-- A program's commands change the transport by its controls, if at all. -/
theorem obey_transport (s : Client Loopback κ) (command : Command) :
    (obey s command).2.transport = s.transport ∨
      ∃ change, Control change ∧ (obey s command).2.transport = change s.transport := by
  cases command with
  | refuseNext message => exact .inr ⟨_, .refuseNext message, rfl⟩
  | disconnect => exact .inr ⟨_, .disconnect, rfl⟩
  | clearCalls => exact .inr ⟨_, .clearCalls, rfl⟩
  | showCalls | showLastCall => exact .inl rfl
  | emit n => exact .inl (transport_emit s n)
  | emitText text =>
      simp only [obey]
      split
      · exact .inl rfl
      · exact .inl (transport_emit s _)

theorem channel_openContext (t : Loopback) (c : ContextId) :
    (t.perform (.openContext c)).1.channel =
      match (t.perform (.openContext c)).2 with
      | .ok () => some c
      | .error _ => t.channel := by
  simp only [perform, record]
  cases t.refusal <;> rfl

theorem channel_closeContext (t : Loopback) : (t.perform .closeContext).1.channel = none := by
  simp only [perform, record]
  cases t.refusal <;> rfl

theorem channel_other (t : Loopback) {call : Call} (opens : call.opens = false)
    (closes : call ≠ .closeContext) : (t.perform call).1.channel = t.channel := by
  cases call with
  | openContext => cases opens
  | closeContext => exact (closes rfl).elim
  | subscribe | sendEvent | listApplications | setTracing | bridgeSignals =>
      simp only [perform, record]
      cases t.refusal <;> rfl

/-- The transport holds the channel of the lifecycle's context, or none. -/
def Attached (s : Client Loopback κ) : Prop :=
  ∀ c, s.transport.channel = some c → s.current = some c

theorem attached_acquire {s : Client Loopback κ} (h : Attached s) : Attached s.acquire.2 := by
  intro c held
  rcases acquire_cases s with ⟨_, _, same⟩ | ⟨free, refused, _, _⟩ | ⟨free, taken, current, _⟩
  · rw [same] at held ⊢
    exact h c held
  · obtain ⟨e, refused⟩ := refused
    rw [transport_acquire free] at held
    have kept := channel_openContext s.transport s.slots.length
    rw [show (s.transport.perform _).2 = .error e from refused] at kept
    -- The call was not recorded, so the channel is the old one, and there was none.
    cases free.symm.trans (h c (kept.symm.trans held))
  · rw [transport_acquire free] at held
    have opened := channel_openContext s.transport s.slots.length
    rw [show (s.transport.perform _).2 = .ok () from taken] at opened
    exact current.trans (opened.symm.trans held)

theorem attached_release {s : Client Loopback κ} (sole : s.Sole) (h : Attached s) :
    Attached s.release.2 := by
  intro c held
  cases current : s.current with
  | none =>
      rw [release_none current] at held
      cases current.symm.trans (h c held)
  | some c' =>
      obtain ⟨context, here⟩ := sole.present c' current
      rw [transport_release current here] at held
      -- The channel goes before the call is recorded, so that a refusal does not keep it.
      cases (channel_closeContext s.transport).symm.trans held

theorem attached_act {s : Client Loopback κ} (sole : s.Sole) (h : Attached s)
    (act : Act Loopback κ) : Attached (act.apply s) := by
  by_cases acquires : act = .acquire
  · rw [acquires]
    exact attached_acquire h
  by_cases releases : act = .release
  · rw [releases]
    exact attached_release sole h
  have current := s.current_act_other acquires releases
  have channel : (act.apply s).transport.channel = s.transport.channel := by
    rcases hands_act s act with same | ⟨call, asks, handed⟩
    · rw [same]
    · rw [handed]
      cases asks with
      | opens => exact (acquires rfl).elim
      | closes => exact (releases rfl).elim
      | traces | sends | lists | subscribes | renews | bridges =>
          exact channel_other s.transport rfl nofun
  intro c held
  rw [current]
  exact h c (channel.symm.trans held)

theorem attached_apply {s : Client Loopback κ} (sole : s.Sole) (h : Attached s)
    {move : Move Loopback κ} (own : ∀ change, move = .transport change → Control change) :
    Attached (move.apply s) := by
  cases move with
  | program act => exact attached_act sole h act
  | deliver c n =>
      intro c' held
      rw [Move.apply, transport_deliver] at held
      rw [Move.apply, current_deliver]
      exact h c' held
  | transport change =>
      intro c held
      rcases (own change rfl).channel s.transport with same | none
      · exact h c (same.symm.trans held)
      · cases none.symm.trans held

/-- The induction is on the run; that the context to be released is there comes from `Sole`. -/
theorem attached_after {s : Client Loopback κ} (sole : s.Sole) (h : Attached s)
    {moves : List (Move Loopback κ)}
    (own : ∀ change, .transport change ∈ moves → Control change) : Attached (s.after moves) := by
  induction moves generalizing s with
  | nil => exact h
  | cons move moves ih =>
      apply ih (sole_apply sole move)
      · apply attached_apply sole h
        rintro change rfl
        exact own change List.mem_cons_self
      · exact fun change there => own change (List.mem_cons_of_mem _ there)

/-- What is emitted goes to the lifecycle's context or nowhere. -/
theorem queue_emit {s : Client Loopback κ} (h : Attached s) (n : Notification) {c : ContextId}
    (other : s.current ≠ some c) : (emit s n).2.queue c = s.queue c := by
  simp only [emit]
  split
  · rfl
  · next c' held =>
      rw [queue_deliver, if_neg]
      rintro ⟨rfl, _⟩
      exact other (h c held)

end Loopback

namespace Client

/-- Over any run on any transport, which may fail and change as it likes, one context is live as
long as the lifecycle holds it. A loopback transport, which changes by its own controls only, never
holds the channel of another context, so what is emitted reaches none that is released. -/
theorem one_live_context {κ : Type} :
    (∀ (T : Type) [Transport T] (t : T) (turns : List (Turn T κ)),
      ((start t).afterTurns turns).OneLive) ∧
    ∀ turns : List (Turn Loopback κ),
      (∀ change, .move (.transport change) ∈ turns → Loopback.Control change) →
      let s := (start {}).afterTurns turns
      (∀ c, s.transport.channel = some c → s.current = some c) ∧
      ∀ n c context, s.context? c = some context → context.released = true →
        (Loopback.emit s n).2.queue c = s.queue c := by
  constructor
  · intro T _ t turns
    obtain ⟨moves, made, _⟩ := exists_moves_after (start t) turns
    rw [made]
    exact (sole_after (sole_start t) moves).oneLive
  · intro turns own s
    obtain ⟨moves, made, changes⟩ := exists_moves_after (start {} : Client Loopback κ) turns
    have made : s = (start {}).after moves := made
    have sole : s.Sole := by
      rw [made]
      exact sole_after (sole_start {}) moves
    have attached : Loopback.Attached s := by
      have free : Loopback.Attached (start {} : Client Loopback κ) := nofun
      rw [made]
      exact Loopback.attached_after (sole_start {}) free
        fun change there => own change (changes change there)
    refine ⟨attached, ?_⟩
    intro n c context here released
    apply Loopback.queue_emit attached
    intro current
    cases released.symm.trans ((sole.active c context here).mpr current)

/-- The first context is refused, and the second one's session is not closed when another lifecycle
takes over, which opens the third. -/
def replacedLifecycle : List (Turn Loopback Nat) :=
  let refuse : Turn Loopback Nat := .move (.transport fun t => { t with refusal := some "down" })
  [refuse, .move (.program .acquire), .move (.program .acquire), refuse, .newLifecycle,
    .move (.program .acquire)]

theorem replacedLifecycle_live :
    ((start {}).afterTurns replacedLifecycle).live = [2] ∧
    ((start {}).afterTurns replacedLifecycle).current = some 2 ∧
    ∀ n, (Loopback.emit ((start {}).afterTurns replacedLifecycle) n).2.queue 1 = [] := by
  have own (change : Loopback → Loopback)
      (there : .move (.transport change) ∈ replacedLifecycle) : Loopback.Control change := by
    simp only [replacedLifecycle, List.mem_cons, Turn.move.injEq, Move.transport.injEq,
      reduceCtorEq, List.not_mem_nil, or_false, false_or, or_self] at there
    rw [there]
    exact .refuseNext "down"
  obtain ⟨lives, attached⟩ := @one_live_context Nat
  obtain ⟨held, emitted⟩ := attached replacedLifecycle own
  have current := held 2 rfl
  refine ⟨(lives Loopback {} replacedLifecycle).live.trans (congrArg _ current), current, ?_⟩
  intro n
  exact emitted n 1 _ rfl rfl

end Client

end EventClient
