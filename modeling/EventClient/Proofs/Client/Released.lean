import EventClient.Proofs.Client.Handlers
import EventClient.Transport.Loopback

/-!
What reaches a released context. A completion is dropped, because the release is looked at before
the registries are; a broadcast only finds that the release cleared the handlers, and so runs a
handler that was set after the release.
-/
namespace EventClient

namespace Context

variable {T κ : Type}

theorem released_route (context : Context κ) (c : ContextId) (n : Notification) :
    (context.route c n).2.released = context.released := by
  have completion (kind : RequestKind) (id : CorrelationId) (delivery : Delivery) :
      (context.complete c kind id delivery).2.released = context.released := by
    simp only [complete, settle]
    split
    · rfl
    · rfl
    · next entry left entries h =>
        split at h
        · cases h
        · split at h
          · cases h
          · cases h
            exact withRegistry_released ..
  cases n with
  | sendCompleted | applicationsListed => exact completion ..
  | event =>
      rw [route]
      dsimp only
      cases context.eventHandler <;> rfl
  | subscriptionStatus =>
      rw [route]
      dsimp only
      cases context.statusHandler <;> rfl

variable [Transport T]

theorem released_request (context : Context κ) (t : T) (kind : RequestKind) (callback : κ)
    (userData : Option String) (call : CorrelationId → Call) (issued : CorrelationId → Entry) :
    (context.request t kind callback userData call issued).context.released =
      context.released := by
  obtain ⟨r, hr⟩ := request_context context t kind callback userData call issued
  rw [hr, withRegistry_released]

/-- Only its release changes whether a context is released. -/
theorem released_afterAct (context : Context κ) (t : T) {current : Option ContextId}
    {c : ContextId} {act : Client.Act T κ} (stays : act = .release → current ≠ some c) :
    (context.afterAct t current c act).released = context.released := by
  have change := change_afterAct context t current c act
  generalize context.afterAct t current c act = new at change ⊢
  cases change with
  | same | subscriptions | eventHandler | statusHandler => rfl
  | request => exact released_request ..
  | route n => exact released_route context c n
  | shutDown release here => exact (stays release here).elim

end Context

namespace Client

variable {T κ : Type} [Transport T]

/-- How a context is what it is after one more move: it was opened, shut down, or left as released
as it was, with the handler that the move registers and else with the one that there was. -/
theorem context?_apply_cases {s : Client T κ} {move : Move T κ} {c : ContextId}
    {context : Context κ} (hc : (move.apply s).context? c = some context) :
    (s.context? c = none ∧ move = .program .acquire ∧ context = {}) ∨
      (∃ old, s.context? c = some old ∧ move = .program .release ∧ s.current = some c ∧
        context = old.shutDown.2.1) ∨
      ∃ old, s.context? c = some old ∧ context.released = old.released ∧
        ∀ n, (context.handler? n).map Handler.registration =
          ((move.registers? c n).getD (old.handler? n)).map Handler.registration := by
  rcases context?_apply s move c with changed | ⟨acquires, absent, opened⟩
  · right
    obtain ⟨old, hold, rfl⟩ := Option.map_eq_some_iff.mp (changed.symm.trans hc)
    cases move with
    | deliver | transport => exact .inr ⟨old, hold, rfl, fun n => rfl⟩
    | program act =>
        by_cases now : act = .release ∧ s.current = some c
        · obtain ⟨rfl, current⟩ := now
          exact .inl ⟨old, hold, rfl, current, if_pos current⟩
        · have stays (h : act = .release) : s.current ≠ some c := fun current => now ⟨h, current⟩
          exact .inr ⟨old, hold, Context.released_afterAct old _ stays,
            fun n => registration_afterAct old _ _ c act n stays⟩
  · left
    exact ⟨absent, acquires, Option.some.inj (hc.symm.trans opened)⟩

/-- A run has a release of a context, which has the handlers that were registered later. -/
structure ReleasedBy (s : Client T κ) (moves : List (Move T κ)) (c : ContextId)
    (context : Context κ) (before later : List (Move T κ)) : Prop where
  run : moves = before ++ .program .release :: later
  current : (s.after before).current = some c
  handlers : ∀ n, (context.handler? n).map Handler.registration =
    (registered c n later).map Handler.registration

/-- What is released after one more move was released before or is released by it. -/
theorem releasedBy_concat {s : Client T κ} {moves : List (Move T κ)} {c : ContextId}
    (past : ∀ context, (s.after moves).context? c = some context → context.released = true →
      ∃ before later, ReleasedBy s moves c context before later)
    (move : Move T κ) {context : Context κ}
    (hc : (s.after (moves ++ [move])).context? c = some context)
    (released : context.released = true) :
    ∃ before later, ReleasedBy s (moves ++ [move]) c context before later := by
  rw [after_append] at hc
  rcases context?_apply_cases hc with ⟨_, _, rfl⟩ | ⟨old, _, rfl, current, rfl⟩ |
    ⟨old, hold, same, registration⟩
  · cases released
  · exact ⟨moves, [], rfl, current, fun n => by cases n <;> rfl⟩
  · obtain ⟨before, later, run, current, handlers⟩ := past old hold (same.symm.trans released)
    refine ⟨before, later ++ [move], ?_, current, ?_⟩
    · rw [run, List.append_assoc, List.cons_append]
    · intro n
      rw [registration, registered_concat]
      cases move.registers? c n with
      | none => exact handlers n
      | some handler => rfl

theorem releasedBy_after {s : Client T κ} {c : ContextId} (moves later : List (Move T κ))
    (past : ∀ context, (s.after moves).context? c = some context → context.released = true →
      ∃ before later, ReleasedBy s moves c context before later)
    {context : Context κ} (hc : (s.after (moves ++ later)).context? c = some context)
    (released : context.released = true) :
    ∃ before later', ReleasedBy s (moves ++ later) c context before later' := by
  induction later generalizing moves with
  | nil =>
      rw [List.append_nil] at hc ⊢
      exact past context hc released
  | cons move later ih =>
      rw [List.append_cons] at hc ⊢
      exact ih (moves ++ [move]) (fun _ => releasedBy_concat past move) hc

/-- After every run that left a context released, dispatching to it succeeds, a completion invokes
nothing, and a broadcast invokes something just when a handler for it was set after the release and
not cleared since; what then runs is that handler, with its own user data. -/
theorem released_runs_later_handlers (t : T) (moves : List (Move T κ)) (c : ContextId)
    (context : Context κ) (opened : ((start t).after moves).context? c = some context)
    (released : context.released = true) :
    ∃ before later, moves = before ++ .program .release :: later ∧
      ((start t : Client T κ).after before).current = some c ∧
      ∀ n, let s := (start t : Client T κ).after moves
        (∀ react, (s.dispatch react c n).1 = .ok ()) ∧
        (∀ kind, n.delivery.kind? = some kind → (s.route c n).1 = .ok none) ∧
        ((s.route c n).1 = .ok none ↔ registered c n later = none) ∧
        ∀ i, (s.route c n).1 = .ok (some i) → ∃ handler, registered c n later = some handler ∧
          i.context = c ∧ i.registration = handler.registration ∧ i.delivery = n.delivery := by
  have past (context : Context κ) (hc : ((start t).after []).context? c = some context)
      (_ : context.released = true) :
      ∃ before later, ReleasedBy (start t : Client T κ) [] c context before later := by
    cases hc
  obtain ⟨before, later, run, current, handlers⟩ := releasedBy_after [] moves past opened released
  refine ⟨before, later, run, current, ?_⟩
  intro n s
  have handlers := handlers n
  obtain ⟨slot, hslot, rfl⟩ := Option.map_eq_some_iff.mp opened
  have routed : (s.route c n).1 = .ok ((slot.context.handler? n).map fun handler =>
      (runHandler c handler n.delivery).1) :=
    (route_eq hslot n).1.trans (Context.route_handler c (.inl released))
  have nothing : (s.route c n).1 = .ok none ↔ registered c n later = none := by
    rw [routed]
    have both := congrArg Option.isSome handlers
    rw [Option.isSome_map, Option.isSome_map] at both
    rw [← Option.not_isSome_iff_eq_none, ← both]
    cases slot.context.handler? n <;> simp
  refine ⟨?_, ?_, nothing, ?_⟩
  · intro react
    simp only [dispatch]
    split
    · next outcome =>
        rw [outcome] at routed
        cases routed
    · rfl
    · rfl
  · intro kind completion
    exact nothing.mpr (registered_completion c completion later)
  · intro i hi
    rw [routed] at hi
    obtain ⟨handler, found, rfl⟩ := Option.map_eq_some_iff.mp (Except.ok.inj hi)
    rw [found, Option.map_some] at handlers
    obtain ⟨handler', registered, same⟩ := Option.map_eq_some_iff.mp handlers.symm
    exact ⟨handler', registered, rfl, same.symm, rfl⟩

/-- A handler for events is set after the release. -/
def setAfterRelease : List (Move Loopback Nat) :=
  [.program .acquire, .program .release, .program (.setEventHandler 0 (some ⟨7, none, 0⟩))]

theorem setAfterRelease_released :
    (((start {}).after setAfterRelease).context? 0).map (·.released) = some true := by
  decide

theorem setAfterRelease_drops_completions :
    (((start {}).after setAfterRelease).context? 0).map (·.released) = some true ∧
    (((start {}).after setAfterRelease).route 0 (.sendCompleted ⟨0⟩ ⟨0, 0, ""⟩)).1 =
      .ok none := by
  obtain ⟨context, opened, released⟩ := Option.map_eq_some_iff.mp setAfterRelease_released
  obtain ⟨_, _, _, _, dispatches⟩ :=
    released_runs_later_handlers ({} : Loopback) setAfterRelease 0 context opened released
  exact ⟨setAfterRelease_released, (dispatches _).2.1 .send rfl⟩

/-- The context is released, and yet an event runs the handler. -/
theorem setAfterRelease_runs_handler :
    ∃ context i, ((start {}).after setAfterRelease).context? 0 = some context ∧
      context.released = true ∧
      (((start {}).after setAfterRelease).route 0 (.event ⟨"e", "\x7b\x7d"⟩)).1 = .ok (some i) ∧
      i.callback = 7 :=
  ⟨_, _, rfl, rfl, rfl, rfl⟩

end Client

end EventClient
