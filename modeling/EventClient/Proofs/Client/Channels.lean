import EventClient.Proofs.Client.Takings

/-!
Takings by whole programs. Whichever operations a program and its callbacks nest, a channel is taken
from by one taker at a time, each serves what it takes or fails at its last, and it leaves the rest
to the next one.
-/
namespace EventClient.Client

variable {T κ : Type}

theorem Stays.trans {s₁ s₂ s₃ : Client T κ} (h : Stays s₁ s₂) (h' : Stays s₂ s₃) :
    Stays s₁ s₃ :=
  fun i c polled => h' i c (h i c polled)

theorem stays_of_loops_eq {s s' : Client T κ} (h : s'.loops = s.loops) : Stays s s' := by
  intro i c polled
  rwa [h]

theorem stays_set {s : Client T κ} {loop : Nat} (new : StartedLoop)
    (unpolled : ∀ c, s.loops[loop]? ≠ some (.polled c)) :
    Stays s (s.setLoop loop new) := by
  intro i c polled
  have other : loop ≠ i := by
    rintro rfl
    exact unpolled c polled
  exact (List.getElem?_set_ne other).trans polled

/-- While a loop is polled that waited, the others that are being polled stay so. -/
theorem stays_polling {s s' : Client T κ} {loop : Nat} {c : ContextId} (new : StartedLoop)
    (unpolled : ∀ c, s.loops[loop]? ≠ some (.polled c))
    (h : Stays (s.setLoop loop (.polled c)) s') :
    Stays s (s'.setLoop loop new) := by
  intro i c' polled
  have other : loop ≠ i := by
    rintro rfl
    exact unpolled c' polled
  have meanwhile := h i c' ((List.getElem?_set_ne other).trans polled)
  exact (List.getElem?_set_ne other).trans meanwhile

/-- What a poll leaves of the lease's holder: only one that failed does not go on. -/
def Poll.hold : Poll → Hold
  | .failed _ => .ended
  | .pending | .finished | .unfinished => .looking

theorem Poll.hold_ne_none (outcome : Poll) : outcome.hold ≠ .none := by
  cases outcome <;> exact nofun

/-- A loop that does not have to wait has ended. -/
def Poll.left : Poll → Hold
  | .pending => .looking
  | .finished | .failed _ | .unfinished => .none

theorem dispatch_result (react : Reaction T κ) (s : Client T κ) (c : ContextId)
    (n : Notification) : (s.dispatch react c n).1 = (s.route c n).1.map fun _ => () := by
  simp only [dispatch]
  split <;> next h => rw [h]; rfl

/-- A dispatch leaves what the routing leaves, and if it leads to a callback, what the callback makes
of that. -/
theorem dispatch_leaves (react : Reaction T κ) (s : Client T κ) (c : ContextId)
    (n : Notification) :
    (s.dispatch react c n).2 =
      match (s.route c n).1 with
      | .ok (some i) => react i (s.route c n).2
      | .ok none | .error _ => (s.route c n).2 := by
  simp only [dispatch]
  split <;> next h => rw [h]

variable [Transport T]

@[simp] theorem Hold.none_at (c c' : ContextId) : Hold.none.at c c' = .none := by
  simp [Hold.at]

/-- What some moves do to every channel, where they are part of an operation on one context. -/
structure Keeps (c : ContextId) (hold hold' : Hold) (s : Client T κ) (moves : List (Move T κ)) :
    Prop where
  passes : ∀ c', Passes c' (hold.at c c') (hold'.at c c') s moves
  stays : Stays s (s.after moves)

/-- What a whole operation does: it has no lease before or after. -/
structure Spares (s : Client T κ) (moves : List (Move T κ)) : Prop where
  passes : ∀ c, Passes c .none .none s moves
  stays : Stays s (s.after moves)

namespace Keeps

variable {c : ContextId} {hold hold' hold'' : Hold} {s : Client T κ}
  {first second moves : List (Move T κ)}

theorem append {s' : Client T κ} (h : Keeps c hold hold' s first) (after : s.after first = s')
    (h' : Keeps c hold' hold'' s' second) : Keeps c hold hold'' s (first ++ second) := by
  subst after
  refine ⟨fun c' => (h.passes c').trans (h'.passes c'), ?_⟩
  rw [after_append]
  exact h.stays.trans h'.stays

theorem refl (c : ContextId) (hold : Hold) (s : Client T κ) : Keeps c hold hold s [] where
  passes _ := .refl _ _ _
  stays := stays_of_loops_eq rfl

theorem ended (h : Keeps c hold .looking s moves) : Keeps c hold .ended s moves where
  passes c' := by
    have passes := h.passes c'
    simp only [Hold.at] at passes ⊢
    split
    · next here =>
        rw [if_pos here, if_pos here] at passes
        exact passes.ended
    · next elsewhere => rwa [if_neg elsewhere, if_neg elsewhere] at passes
  stays := h.stays

theorem spares (h : Keeps c .none .none s moves) : Spares s moves where
  passes c' := by simpa using h.passes c'
  stays := h.stays

theorem plain (s : Client T κ) {move : Move T κ} (plain : move.isPlain = true) (c : ContextId)
    (hold : Hold) : Keeps c hold hold s [move] where
  passes _ := passes_plain s plain _ _
  stays := stays_of_loops_eq (loops_plain s plain)

theorem keepBooks {books : Client T κ} (loops : books.loops = s.loops) (c : ContextId)
    (hold : Hold) : Keeps c hold hold s [.program (.keepBooks books)] where
  passes c' := passes_keepBooks (kept_of_loops_eq loops c') _
  stays := stays_of_loops_eq loops

theorem noted (s : Client T κ) (entries : List Entry) (c : ContextId) (hold : Hold) :
    Keeps c hold hold s [s.noted entries] := by
  have loops : (s.note entries).loops = s.loops := rfl
  exact keepBooks loops c hold

theorem giveBack (s : Client T κ) (c : ContextId) {hold : Hold} (held : hold ≠ .none) :
    Keeps c hold .none s [.program (.giveBack c)] where
  passes c' := by
    rw [Hold.none_at]
    exact passes_giveBack s c held c'
  stays := stays_of_loops_eq (loops_updateSlot ..)

theorem lease_ok {s' : Client T κ} (h : s.lease c = (.ok (), s')) :
    Keeps c .none .looking s [.program (.lease c)] where
  passes c' := by
    rw [Hold.none_at]
    exact passes_lease_ok h c'
  stays := by
    apply stays_of_loops_eq
    rw [after_cons, after_nil, Move.apply, Act.apply, h]
    exact (Client.lease_ok h).2.1

theorem lease_error {s' : Client T κ} {e : ClientError} (h : s.lease c = (.error e, s')) :
    Keeps c .none .none s [.program (.lease c)] where
  passes c' := by
    rw [Hold.none_at]
    exact passes_lease_error h c'
  stays := by
    apply stays_of_loops_eq
    rw [after_cons, after_nil, Move.apply, Act.apply, h, Client.lease_error h]

/-- A loop that has to wait is kept. -/
theorem keepLoop (s : Client T κ) (c : ContextId) :
    Keeps c .looking .none s
      [.program (.keepBooks { s with loops := s.loops ++ [.waiting c] })] where
  passes c' := by
    rw [Hold.none_at]
    exact passes_keep (kept_added s c) c'
  stays _ _ polled := List.getElem?_append_left (List.getElem?_eq_some_iff.mp polled).1 ▸ polled

/-- A kept loop is abandoned; it leaves the lease to be given back. -/
theorem abandon {loop : Nat} (waits : s.loops[loop]? = some (.waiting c)) :
    Keeps c .none .looking s [.program (.keepBooks (s.setLoop loop .gone))] where
  passes c' := by
    rw [Hold.none_at]
    exact passes_resume (kept_resumed waits fun _ h => by cases h) c'
  stays := stays_set .gone fun c' polled => by
    rw [waits] at polled
    cases polled

end Keeps

theorem Spares.refl (s : Client T κ) : Spares s [] := (Keeps.refl 0 .none s).spares

theorem Spares.trans {s : Client T κ} {first second : List (Move T κ)} (h : Spares s first)
    (h' : Spares (s.after first) second) : Spares s (first ++ second) where
  passes c := (h.passes c).trans (h'.passes c)
  stays := by
    rw [after_append]
    exact h.stays.trans h'.stays

/-- Where an operation has the lease, what spares every other taking spares its own. -/
theorem Spares.keeps {s : Client T κ} {moves : List (Move T κ)} (h : Spares s moves)
    (c : ContextId) (hold : Hold) : Keeps c hold hold s moves where
  passes c' := (h.passes c').lift _
  stays := h.stays

/-! ### Dispatches -/

/-- Callbacks spare what is used by others when they start. -/
def Callbacks.Spare (callbacks : Callbacks T κ) : Prop := ∀ i s, Spares s (callbacks i s)

section
variable {callbacks : Callbacks T κ} (spare : callbacks.Spare)

include spare

theorem spares_dispatch (s : Client T κ) (c : ContextId) (n : Notification) :
    Spares s (s.dispatchMoves callbacks c n) := by
  have routed : Keeps c .none .none s [.program (.route c n)] :=
    { passes := fun c' => passes_route s c n c' _
      stays := stays_of_loops_eq (loops_route s c n) }
  rw [dispatchMoves]
  split
  · next i s' h =>
      have after : s.after [.program (.route c n)] = s' := congrArg Prod.snd h
      exact (routed.append after ((spare i s').keeps c .none)).spares
  · exact routed.spares

theorem keeps_serving {s s₁ : Client T κ} {c : ContextId} {n : Notification}
    (found : s.nextNotification? c = some (n, s₁)) :
    Keeps c .looking (Hold.routed (s₁.route c n).1) s (s₁.servingMoves callbacks c n) := by
  have takes := apply_takeNext found
  have served : Keeps c .looking (Hold.routed (s₁.route c n).1) s
      [.program (.takeNext c), .program (.route c n)] :=
    { passes := passes_serve found
      stays := by
        rw [after_cons, takes]
        exact stays_of_loops_eq ((loops_route s₁ c n).trans (taking_eq found).1) }
  rw [servingMoves, dispatchMoves]
  split
  · next i s' h =>
      have after : s.after [.program (.takeNext c), .program (.route c n)] = s' := by
        rw [after_cons, takes]
        exact congrArg Prod.snd h
      exact served.append after ((spare i s').keeps c _)
  · exact served

/-! ### Polls -/

theorem keeps_poll (c : ContextId) (limit : Nat) (s : Client T κ) :
    Keeps c .looking (poll callbacks.reaction c limit s).1.hold s
      (pollMoves callbacks c limit s) := by
  induction limit generalizing s with
  | zero => exact .refl ..
  | succ limit ih =>
      simp only [pollMoves, poll]
      split
      · exact .refl ..
      · cases found : s.nextNotification? c with
        | none =>
            cases s.isOpen c <;> cases s.isReleased c
            · exact (Keeps.noted s [.channelLost] c .looking).ended
            all_goals exact .refl ..
        | some next =>
            obtain ⟨n, s₁⟩ := next
            have served := keeps_serving spare found
            have result := dispatch_result callbacks.reaction s₁ c n
            have after := after_servingMoves callbacks found
            dsimp only
            cases dispatched : s₁.dispatch callbacks.reaction c n with
            | mk answer s₂ =>
            rw [dispatched] at after result
            dsimp only at after
            cases routed : (s₁.route c n).1 with
            | ok i =>
                rw [routed] at served result
                cases result
                exact served.append after (ih s₂)
            | error e =>
                rw [routed] at served result
                cases result
                exact served.append after (Keeps.noted s₂ [.loopFailed e] c .ended)

theorem keeps_pollLoop (limit : Nat) (s : Client T κ) (c : ContextId) :
    Keeps c .looking (s.pollLoop callbacks.reaction limit c).1.left s
      (s.pollLoopMoves callbacks limit c) := by
  have polled := keeps_poll spare c limit s
  have after := after_pollMoves callbacks s c limit
  simp only [pollLoopMoves, pollLoop]
  cases found : poll callbacks.reaction c limit s with
  | mk outcome s' =>
  rw [found] at polled after
  have ended : Keeps c outcome.hold .none s'
      [.program (.giveBack c), (s'.giveBack c).noted [.loopStopped]] :=
    (Keeps.giveBack s' c (Poll.hold_ne_none outcome)).append rfl (Keeps.noted _ _ c .none)
  cases outcome with
  | pending => exact polled.append after (.refl ..)
  | finished | failed | unfinished => exact polled.append after ended

/-! ### Draining -/

theorem keeps_drain (c : ContextId) (limit : Nat) (s : Client T κ) :
    Keeps c .looking .ended s (drainMoves callbacks c limit s) := by
  induction limit generalizing s with
  | zero => exact (Keeps.refl ..).ended
  | succ limit ih =>
      simp only [drainMoves]
      cases found : s.nextNotification? c with
      | none => exact (Keeps.refl ..).ended
      | some next =>
          obtain ⟨n, s₁⟩ := next
          have served := keeps_serving spare found
          have result := dispatch_result callbacks.reaction s₁ c n
          have after := after_servingMoves callbacks found
          dsimp only
          cases dispatched : s₁.dispatch callbacks.reaction c n with
          | mk answer s₂ =>
          rw [dispatched] at after result
          cases routed : (s₁.route c n).1 with
          | ok i =>
              rw [routed] at served result
              cases result
              exact served.append after (ih s₂)
          | error e =>
              rw [routed] at served result
              cases result
              exact served

theorem spares_dispatchPending (limit : Nat) (s : Client T κ) (c : ContextId) :
    Spares s (s.dispatchPendingMoves callbacks limit c) := by
  rw [dispatchPendingMoves]
  cases h : s.lease c with
  | mk answer s' =>
  cases answer with
  | error e => exact (Keeps.lease_error h).spares
  | ok _ =>
      have after : s.after [.program (.lease c)] = s' := congrArg Prod.snd h
      have held : Hold.ended ≠ .none := by simp
      have given := Keeps.giveBack (s'.after (drainMoves callbacks c limit s')) c held
      exact ((Keeps.lease_ok h).append after
        ((keeps_drain spare c limit s').append rfl given)).spares

/-! ### Loops -/

omit spare in
theorem keeps_start_error {s s' : Client T κ} {c : ContextId} {e : ClientError}
    (h : s.startLoop c = (.error e, s')) : Keeps c .none .none s (s.startMoves c) := by
  simp only [startLoop] at h
  rw [startMoves]
  cases leased : s.lease c with
  | mk answer s₁ =>
  rw [leased] at h
  cases answer with
  | error e => exact Keeps.lease_error leased
  | ok _ => cases h

omit spare in
theorem keeps_start_ok {s s' : Client T κ} {c : ContextId} (h : s.startLoop c = (.ok (), s')) :
    Keeps c .none .looking s (s.startMoves c) := by
  simp only [startLoop] at h
  rw [startMoves]
  cases leased : s.lease c with
  | mk answer s₁ =>
  rw [leased] at h
  cases answer with
  | error e => cases h
  | ok _ =>
      have after : s.after [.program (.lease c)] = s₁ := congrArg Prod.snd leased
      have forgets : Keeps c .looking .looking s₁ [.program (.forgetStop c)] :=
        .plain s₁ rfl c .looking
      exact (Keeps.lease_ok leased).append after
        (forgets.append rfl (.noted _ [.loopStarted] c .looking))

theorem spares_runOnce (limit : Nat) (s : Client T κ) (c : ContextId) :
    Spares s (s.runOnceMoves callbacks limit c) := by
  have after := after_startMoves s c
  rw [runOnceMoves]
  cases started : s.startLoop c with
  | mk answer s₁ =>
  rw [started] at after
  cases answer with
  | error e => exact ((keeps_start_error started).append after (.refl ..)).spares
  | ok _ =>
      have polled := keeps_pollLoop spare limit s₁ c
      have polledAfter := after_pollLoopMoves callbacks s₁ limit c
      dsimp only
      cases found : s₁.pollLoop callbacks.reaction limit c with
      | mk outcome s₂ =>
      rw [found] at polled polledAfter
      refine ((keeps_start_ok started).append after (polled.append polledAfter ?_)).spares
      cases outcome with
      | pending => exact .giveBack s₂ c (by simp [Poll.left])
      | finished | failed | unfinished => exact .refl ..

theorem spares_startKept (limit : Nat) (s : Client T κ) (c : ContextId) :
    Spares s (s.startKeptMoves callbacks limit c) := by
  have after := after_startMoves s c
  rw [startKeptMoves]
  cases started : s.startLoop c with
  | mk answer s₁ =>
  rw [started] at after
  cases answer with
  | error e => exact ((keeps_start_error started).append after (.refl ..)).spares
  | ok _ =>
      have polled := keeps_pollLoop spare limit s₁ c
      have polledAfter := after_pollLoopMoves callbacks s₁ limit c
      dsimp only
      cases found : s₁.pollLoop callbacks.reaction limit c with
      | mk outcome s₂ =>
      rw [found] at polled polledAfter
      refine ((keeps_start_ok started).append after (polled.append polledAfter ?_)).spares
      cases outcome with
      | pending => exact .keepLoop s₂ c
      | finished | failed | unfinished => exact .refl ..

/-- The loop that is polled is not among the waiting ones meanwhile, so only what follows its last
step puts it back. -/
theorem spares_pollKept (limit : Nat) (s : Client T κ) (loop : Nat) :
    Spares s (s.pollKeptMoves callbacks limit loop) := by
  rw [pollKeptMoves]
  cases waits : s.loops[loop]? with
  | none => exact .refl s
  | some started =>
  cases started with
  | polled | gone => exact .refl s
  | waiting c =>
      have unpolled : ∀ c', s.loops[loop]? ≠ some (.polled c') := by
        intro c' polled
        rw [waits] at polled
        cases polled
      have unlike : ∀ c', StartedLoop.polled c ≠ .waiting c' := fun _ h => by cases h
      have resumes (c' : ContextId) := passes_resume (kept_resumed waits unlike) c'
      have polled := keeps_pollLoop spare limit (s.setLoop loop (.polled c)) c
      have after := after_pollLoopMoves callbacks (s.setLoop loop (.polled c)) limit c
      have still := polled.stays loop c
        (List.getElem?_set_self (List.getElem?_eq_some_iff.mp waits).1)
      dsimp only
      cases found : (s.setLoop loop (.polled c)).pollLoop callbacks.reaction limit c with
      | mk outcome s₂ =>
      rw [found] at polled after
      subst after
      constructor
      case passes =>
        intro c'
        refine (resumes c').trans ((polled.passes c').trans ?_)
        cases outcome with
        | pending => exact passes_keep (kept_put_back still) c'
        | finished | failed | unfinished =>
            dsimp only [Poll.left]
            rw [Hold.none_at]
            exact passes_keepBooks (kept_ended still c') .none
      case stays =>
        rw [List.cons_append, after_cons, after_append]
        cases outcome with
        | pending | finished | failed | unfinished =>
            exact stays_polling _ unpolled polled.stays

omit spare in
theorem spares_cancelKept (s : Client T κ) (loop : Nat) : Spares s (s.cancelKeptMoves loop) := by
  rw [cancelKeptMoves]
  cases waits : s.loops[loop]? with
  | none => exact .refl s
  | some started =>
  cases started with
  | polled | gone => exact .refl s
  | waiting c => exact ((Keeps.abandon waits).append rfl (.giveBack _ c (by simp))).spares

/-! ### Operations and plans -/

theorem spares_operation (s : Client T κ) (operation : Operation T κ) :
    Spares s (operation.moves callbacks s) := by
  cases operation with
  | plain move plain => exact (Keeps.plain s plain 0 .none).spares
  | keepBooks books =>
      have loops : { books with loops := s.loops }.loops = s.loops := rfl
      exact (Keeps.keepBooks loops 0 .none).spares
  | dispatch c n => exact spares_dispatch spare s c n
  | dispatchPending c limit => exact spares_dispatchPending spare limit s c
  | runOnce c limit => exact spares_runOnce spare limit s c
  | startKept c limit => exact spares_startKept spare limit s c
  | pollKept loop limit => exact spares_pollKept spare limit s loop
  | cancelKept loop => exact spares_cancelKept s loop

theorem spares_plan (s : Client T κ) (plan : Plan T κ) : Spares s (s.planMoves callbacks plan) := by
  induction plan generalizing s with
  | nil => exact Spares.refl s
  | cons choose plan ih => exact Spares.trans (spares_operation spare s (choose s)) (ih _)

end

/-- The induction is on the depth to which callbacks are nested. -/
theorem spare_callbacks (plans : Invocation κ → Plan T κ) (depth : Nat) :
    (callbacks plans depth).Spare := by
  induction depth with
  | zero => exact fun _ s => .refl s
  | succ depth ih => exact fun i s => spares_plan ih s (plans i)

end EventClient.Client
