import Mathlib.Data.List.Induction
import EventClient.Proofs.Client.Released
import EventClient.Proofs.Client.Views

/-!
Broadcasts to a context that is not released. One goes to the handler that is registered when its
dispatch starts, whatever was registered before and whatever callbacks register while they run, and
a broadcast that finds no handler is gone. Besides what the handler does, nothing comes of it.
-/
namespace EventClient

/-- A handler without how often it ran. -/
def Handler.uncounted {κ : Type} (handler : Handler κ) : Handler κ := { handler with runs := 0 }

/-- A context without how often its handlers ran. -/
def Context.uncounted {κ : Type} (context : Context κ) : Context κ :=
  { context with
    eventHandler := context.eventHandler.map Handler.uncounted
    statusHandler := context.statusHandler.map Handler.uncounted }

namespace Client

variable {T κ : Type}

/-! ### One dispatch -/

/-- The routing of a broadcast: it is noted as discarded where no handler is, and else a run of the
handler is counted. -/
theorem route_broadcast {s : Client T κ} {c : ContextId} {slot : Slot κ}
    (hslot : s.slot? c = some slot) {n : Notification} (broadcast : n.delivery.kind? = none) :
    (slot.context.handler? n = none ∧ ∃ entry, s.route c n = (.ok none, s.note [entry])) ∨
      ∃ handler context, slot.context.handler? n = some handler ∧
        context.uncounted = slot.context.uncounted ∧
        s.route c n = (.ok (some (runHandler c handler n.delivery).1),
          s.withSlot c { slot with context }) := by
  cases n with
  | sendCompleted | applicationsListed => cases broadcast
  | event broadcast =>
      simp only [route, hslot, Context.handler?]
      cases here : slot.context.eventHandler with
      | none => exact .inl ⟨rfl, _, rfl⟩
      | some handler =>
          refine .inr ⟨handler, _, rfl, ?_, rfl⟩
          simp [Context.uncounted, Handler.uncounted, runHandler, here]
  | subscriptionStatus broadcast =>
      simp only [route, hslot, Context.handler?]
      cases here : slot.context.statusHandler with
      | none => exact .inl ⟨rfl, _, rfl⟩
      | some handler =>
          refine .inr ⟨handler, _, rfl, ?_, rfl⟩
          simp [Context.uncounted, Handler.uncounted, runHandler, here]

variable [Transport T]

/-- The dispatch of a broadcast leads to one invocation or to none, and succeeds. -/
structure Broadcasts (s : Client T κ) (c : ContextId) (n : Notification)
    (i? : Option (Invocation κ)) : Prop where
  routed : (s.route c n).1 = .ok i?
  succeeds : ∀ react, (s.dispatch react c n).1 = .ok ()
  /-- Whatever callbacks do: the invocation is handed to its callback, and nothing else happens. -/
  reacts : ∀ react : Reaction T κ, (s.dispatch react c n).2 =
    i?.elim (s.route c n).2 fun i => react i (s.route c n).2
  /-- Whatever else is invoked, the callback's own moves lead to. -/
  traced : ∀ react : Reaction T κ, react.Reenters → ∃ nested, (i? = none → nested = []) ∧
    (s.dispatch react c n).2 = (s.route c n).2.after nested ∧
    (s.dispatch react c n).2.traced =
      s.traced ++ i?.toList ++ invoked ((s.route c n).2.events nested)
  /-- Before the callback starts, nothing changes but the count of the handler's runs. -/
  keeps : ∃ slot context entries, s.slot? c = some slot ∧
    context.uncounted = slot.context.uncounted ∧
    (s.route c n).2 = (s.withSlot c { slot with context }).note entries
  /-- A discarded broadcast is gone: all that comes later is as if it had not been dispatched. -/
  discards : i? = none → ∀ later, (s.route c n).2.events later = s.events later

/-- A dispatch leaves what the routing leaves, and then the callback its moves. -/
theorem dispatch_traced {s : Client T κ} {c : ContextId} {n : Notification}
    {i? : Option (Invocation κ)} (routed : (s.route c n).1 = .ok i?) {react : Reaction T κ}
    (reenters : react.Reenters) :
    ∃ nested, (i? = none → nested = []) ∧
      (s.dispatch react c n).2 = (s.route c n).2.after nested ∧
      (s.dispatch react c n).2.traced =
        s.traced ++ i?.toList ++ invoked ((s.route c n).2.events nested) := by
  have traces : (s.route c n).2.traced = s.traced :=
    congrArg (List.map Trace.invocation) (traces_route s c n)
  rw [dispatch_leaves, routed]
  cases i? with
  | none =>
      refine ⟨[], fun _ => rfl, rfl, ?_⟩
      simp [traces, events, history, invoked]
  | some i =>
      obtain ⟨nested, reacted, traced⟩ := reenters i (s.route c n).2
      refine ⟨nested, fun nothing => (Option.some_ne_none i nothing).elim, reacted, ?_⟩
      rw [traced, traces, Option.toList_some, List.append_assoc]
      rfl

/-- A broadcast to a context runs the handler that it has. -/
theorem broadcasts_of_handler {s : Client T κ} {c : ContextId} {context : Context κ}
    (hc : s.context? c = some context) {n : Notification} (broadcast : n.delivery.kind? = none) :
    Broadcasts s c n
      ((context.handler? n).map fun handler => (runHandler c handler n.delivery).1) := by
  obtain ⟨slot, hslot, rfl⟩ := Option.map_eq_some_iff.mp hc
  have routed := (route_eq hslot n).1.trans (Context.route_handler c (.inr broadcast))
  refine ⟨routed, ?_, ?_, fun react => dispatch_traced routed, ?_, ?_⟩
  · intro react
    rw [dispatch_result, routed]
    rfl
  · intro react
    rw [dispatch_leaves, routed]
    cases slot.context.handler? n <;> rfl
  · rcases route_broadcast hslot broadcast with
      ⟨_, entry, found⟩ | ⟨_, context, _, counted, found⟩
    · exact ⟨slot, slot.context, [entry], hslot, rfl, by rw [found, withSlot_same hslot]⟩
    · exact ⟨slot, context, [], hslot, counted, by rw [found]; rfl⟩
  · intro discarded later
    rcases route_broadcast hslot broadcast with ⟨_, entry, found⟩ | ⟨_, _, handler, _, _⟩
    · rw [found]
      have unseen : (s.note [entry]).view c = s.view c := rfl
      exact ((SameMoves.refl c later).alike unseen).events
    · rw [handler] at discarded
      cases discarded

/-! ### The handler that is registered -/

/-- The moves that find a context there. -/
def onOpened (s : Client T κ) (c : ContextId) (moves : List (Move T κ)) : List (Move T κ) :=
  ((s.history moves).filter fun (found, _) => (found.context? c).isSome).map (·.2)

theorem onOpened_concat (s : Client T κ) (c : ContextId) (moves : List (Move T κ))
    (move : Move T κ) :
    s.onOpened c (moves ++ [move]) =
      s.onOpened c moves ++ if ((s.after moves).context? c).isSome then [move] else [] := by
  rw [onOpened, history_append, List.filter_append, List.map_append]
  simp only [history, List.filter_cons, List.filter_nil, onOpened]
  split <;> rfl

/-- A context that is there stays there. -/
theorem context?_absent {s : Client T κ} {move : Move T κ} {c : ContextId}
    (absent : (move.apply s).context? c = none) : s.context? c = none := by
  rcases context?_apply s move c with changed | ⟨_, none, _⟩
  · exact Option.map_eq_none_iff.mp (changed.symm.trans absent)
  · exact none

/-- Until a context is opened no move finds it there, and as long as it is not released it has the
handlers that the moves registered which found it there. -/
structure Registers (s : Client T κ) (moves : List (Move T κ)) (c : ContextId) : Prop where
  absent : (s.after moves).context? c = none → s.onOpened c moves = []
  handlers : ∀ context, (s.after moves).context? c = some context → context.released = false →
    ∀ n, (context.handler? n).map Handler.registration =
      (registered c n (s.onOpened c moves)).map Handler.registration

theorem registers_concat {s : Client T κ} {moves : List (Move T κ)} {c : ContextId}
    (h : Registers s moves c) (move : Move T κ) : Registers s (moves ++ [move]) c where
  absent := by
    intro none
    rw [after_append] at none
    have absent := context?_absent none
    rw [onOpened_concat, h.absent absent, absent]
    rfl
  handlers := by
    intro context hc active n
    rw [after_append] at hc
    rw [onOpened_concat]
    rcases context?_apply_cases hc with ⟨absent, _, rfl⟩ | ⟨_, _, _, _, rfl⟩ |
      ⟨old, hold, same, registration⟩
    · rw [h.absent absent, absent]
      cases n <;> rfl
    · cases active
    · have before := h.handlers old hold (same.symm.trans active) n
      rw [hold, Option.isSome_some, if_pos rfl, registered_concat, registration]
      cases move.registers? c n with
      | none => exact before
      | some handler => rfl

theorem registers_after (t : T) (moves : List (Move T κ)) (c : ContextId) :
    Registers (start t) moves c := by
  induction moves using List.reverseRecOn with
  | nil => exact ⟨fun _ => rfl, nofun⟩
  | append_singleton moves move ih => exact registers_concat ih move

/-- After every run, a broadcast to a context that is not released invokes the handler of its kind
that was set last and not cleared since, once, with what was broadcast and with the user data that
were registered with it, and nothing if there is none. Once a handler was replaced or cleared, none
runs but those that were set since. -/
theorem broadcast_runs_registered (t : T) (moves : List (Move T κ)) (c : ContextId)
    (context : Context κ) (opened : ((start t).after moves).context? c = some context)
    (active : context.released = false) (n : Notification)
    (broadcast : n.delivery.kind? = none) :
    let s : Client T κ := (start t).after moves
    let found := (start t).onOpened c moves
    ∃ i?, Broadcasts s c n i? ∧
      i?.map Invocation.registration = (registered c n found).map Handler.registration ∧
      (∀ i ∈ i?, i.context = c ∧ i.answers = none ∧ i.delivery = n.delivery) ∧
      ∀ front back, found = front ++ back → (∃ move ∈ back, (move.registers? c n).isSome) →
        ∀ i ∈ i?, ∃ move ∈ back, ∃ handler, move.registers? c n = some (some handler) ∧
          i.registration = handler.registration := by
  intro s found
  have handlers := (registers_after t moves c).handlers context opened active n
  have registration : ((context.handler? n).map fun handler =>
      (runHandler c handler n.delivery).1).map Invocation.registration =
        (registered c n found).map Handler.registration := by
    rw [Option.map_map]
    exact handlers
  refine ⟨_, broadcasts_of_handler opened broadcast, registration, ?_, ?_⟩
  · intro i invoked
    obtain ⟨handler, _, rfl⟩ := Option.map_eq_some_iff.mp invoked
    exact ⟨rfl, rfl, rfl⟩
  · intro front back split later i invoked
    rw [split, registered_append later, invoked] at registration
    obtain ⟨handler, set, same⟩ := Option.map_eq_some_iff.mp registration.symm
    obtain ⟨move, there, sets⟩ := registers_of_registered set
    exact ⟨move, there, handler, sets, same.symm⟩

/-- While it runs, a handler for events replaces itself and clears the handler for statuses. -/
def replacedWithin : List (Move Loopback Nat) :=
  [.program .acquire, .program (.setEventHandler 0 (some ⟨7, none, 0⟩)),
    .program (.setStatusHandler 0 (some ⟨9, none, 0⟩)),
    .program (.route 0 (.event ⟨"first", "\x7b\x7d"⟩)),
    .program (.setEventHandler 0 (some ⟨8, some "new", 0⟩)),
    .program (.setStatusHandler 0 none)]

theorem replacedWithin_runs_new :
    let s := (start {}).after replacedWithin
    (s.context? 0).map (·.released) = some false ∧
      (∃ i, Broadcasts s 0 (.event ⟨"second", "\x7b\x7d"⟩) (some i) ∧
        i.registration = (8, some "new")) ∧
      Broadcasts s 0 (.subscriptionStatus ⟨0, 0, "", ""⟩) none := by
  intro s
  have active : (s.context? 0).map (·.released) = some false := by decide
  obtain ⟨context, opened, active'⟩ := Option.map_eq_some_iff.mp active
  obtain ⟨event?, onEvent, registered, _⟩ := broadcast_runs_registered ({} : Loopback)
    replacedWithin 0 context opened active' (.event ⟨"second", "\x7b\x7d"⟩) rfl
  obtain ⟨status?, onStatus, cleared, _⟩ := broadcast_runs_registered ({} : Loopback)
    replacedWithin 0 context opened active' (.subscriptionStatus ⟨0, 0, "", ""⟩) rfl
  obtain ⟨i, rfl, registration⟩ := Option.map_eq_some_iff.mp registered
  cases Option.map_eq_none_iff.mp cleared
  exact ⟨active, ⟨i, onEvent, registration⟩, onStatus⟩

end Client

end EventClient
