import EventClient.Proofs.Client.Channels
import EventClient.Transport.Loopback

/-!
Channels lose, duplicate and reorder nothing. At every moment of a program, in the middle of an
operation as well as between two, what was delivered to a context is what the takings from its
channel consumed, in their order, followed by what still waits for the next one.
-/
namespace EventClient.Client

variable {T κ : Type} [Transport T]

/-! ### Takings and the lease -/

theorem isLeased_aside (s : Client T κ) {move : Move T κ} {c : ContextId}
    (elsewhere : move.takesFrom c = false) : (move.apply s).isLeased c = s.isLeased c := by
  cases move with
  | deliver | transport => exact isLeased_plain s rfl c
  | program act =>
      cases act with
      | lease c' =>
          have other : c ≠ c' := Ne.symm (beq_eq_false_iff_ne.mp elsewhere)
          cases h : s.lease c' with
          | mk answer s' =>
          rw [Move.apply, Act.apply, h]
          cases answer with
          | error e => rw [lease_error h]
          | ok _ => rw [(lease_ok h).2.2 c, if_neg other]
      | giveBack c' =>
          have other : c ≠ c' := Ne.symm (beq_eq_false_iff_ne.mp elsewhere)
          rw [Move.apply, Act.apply, isLeased_giveBack, if_neg other]
      | takeNext c' =>
          rw [Move.apply, Act.apply]
          cases found : s.nextNotification? c' with
          | none => rfl
          | some next => exact (taking_eq found).2 c
      | route c' n => exact isLeased_route s c' n c
      | keepBooks books => rfl
      | _ => exact isLeased_plain s rfl c

/-- A channel is leased exactly while somebody takes from it. -/
theorem leased_of_sees {c : ContextId} {s : Client T κ} {w w' : Takings} {move : Move T κ}
    (h : Sees c s w move w') (leased : s.isLeased c = w.current.isSome) :
    (move.apply s).isLeased c = w'.current.isSome := by
  cases h with
  | aside elsewhere => rw [isLeased_aside s elsewhere, leased]
  | refused free answer =>
      cases refused : s.lease c with
      | mk result s' =>
      rw [refused] at answer
      dsimp only at answer
      subst answer
      rw [Move.apply, Act.apply, refused, lease_error refused, leased]
  | begins idle answer =>
      cases begun : s.lease c with
      | mk result s' =>
      rw [begun] at answer
      dsimp only at answer
      subst answer
      rw [Move.apply, Act.apply, begun, (lease_ok begun).2.2 c, if_pos rfl]
      rfl
  | takes current looks found =>
      rw [apply_takeNext found, (taking_eq found).2, leased, current]
      rfl
  | dispatches current | fails current =>
      rw [Move.apply, Act.apply, isLeased_route, leased, current]
      rfl
  | ends =>
      rw [Move.apply, Act.apply, isLeased_giveBack, if_pos rfl]
      rfl

/-- Every taking that is over dispatched all that it took, the last one perhaps with an error. -/
def Takings.Done (w : Takings) : Prop := ∀ taking ∈ w.ended, ∀ n, taking.stage ≠ .holding n

theorem done_of_sees {c : ContextId} {s : Client T κ} {w w' : Takings} {move : Move T κ}
    (h : Sees c s w move w') (done : w.Done) : w'.Done := by
  cases h with
  | aside | refused | begins | takes | dispatches | fails => exact done
  | @ends last current free =>
      intro taking which
      rcases List.mem_append.mp which with before | latest
      · exact done taking before
      · cases List.mem_singleton.mp latest
        exact free last current

theorem Watches.leased {c : ContextId} {s : Client T κ} {w w' : Takings}
    {moves : List (Move T κ)} (h : Watches c s w moves w')
    (leased : s.isLeased c = w.current.isSome) :
    (s.after moves).isLeased c = w'.current.isSome := by
  induction h with
  | nil => exact leased
  | cons sees _ ih => exact ih (leased_of_sees sees leased)

theorem Watches.done {c : ContextId} {s : Client T κ} {w w' : Takings}
    {moves : List (Move T κ)} (h : Watches c s w moves w') (done : w.Done) : w'.Done := by
  induction h with
  | nil => exact done
  | cons sees _ ih => exact ih (done_of_sees sees done)

/-! ### Runs from the start -/

/-- What the takings from a channel come to in a run from the start. -/
structure Consumption (t : T) (c : ContextId) (moves : List (Move T κ)) (w : Takings) : Prop where
  /-- One taker at a time takes one notification after another, each to be dispatched before
  anything else happens but what others do, and none behind one whose dispatch failed. -/
  watches : Watches c (start t) {} moves w
  done : w.Done
  leased : ((start t).after moves).isLeased c = w.current.isSome
  consumed : w.consumed = (start t).taken moves c
  delivered : (start t).delivered moves c = w.consumed ++ ((start t).after moves).queue c

omit [Transport T] in
theorem fits_start (t : T) (c : ContextId) : Fits c .none (start t : Client T κ) {} where
  leased := rfl
  free := nofun
  looks _ := nofun
  own := (absurd rfl ·)
  single := Nat.zero_le 1
  kept := nofun

theorem queue_run (t : T) (moves : List (Move T κ)) (c : ContextId) :
    (start t).delivered moves c =
      (start t).taken moves c ++ ((start t).after moves).queue c :=
  queue_after (start t) moves c

theorem consumption_of_watches {t : T} {c : ContextId} {moves : List (Move T κ)} {w : Takings}
    (h : Watches c (start t) {} moves w) : Consumption t c moves w where
  watches := h
  done := h.done nofun
  leased := h.leased rfl
  consumed := h.consumed_eq
  delivered := by
    rw [h.consumed_eq]
    exact queue_run t moves c

/-- In every run, what was delivered to a context is what was taken and what waits. A program with
its callbacks takes in an orderly way at every moment, and where it keeps no loop of the context
that waits, the next taker can have the channel with all that is left. -/
theorem channel_conserved (t : T) (c : ContextId) :
    (∀ moves : List (Move T κ), (start t).delivered moves c =
      (start t).taken moves c ++ ((start t).after moves).queue c) ∧
    ∀ (plans : Invocation κ → Plan T κ) (depth : Nat) (plan : Plan T κ),
      let moves := (start t).planMoves (callbacks plans depth) plan
      (start t).follow (reaction plans depth) plan = (start t).after moves ∧
      (∀ before, before <+: moves → ∃ w, Consumption t c before w) ∧
      (((start t).after moves).isLeased c = true →
        .waiting c ∈ ((start t).after moves).loops) := by
  refine ⟨fun moves => queue_run t moves c, fun plans depth plan => ?_⟩
  obtain ⟨w, watches, fits, other, -⟩ :=
    (spares_plan (spare_callbacks plans depth) (start t) plan).passes c {} (fits_start t c)
  refine ⟨?_, ?_, ?_⟩
  · rw [after_planMoves, reaction_callbacks]
  · rintro before ⟨rest, whole⟩
    rw [← whole] at watches
    obtain ⟨w', watches'⟩ := watches.of_append
    exact ⟨w', consumption_of_watches watches'⟩
  · intro leased
    -- At the start nobody uses the channel, so nobody but a kept loop does at the end.
    have unused : ¬ Other c .none (start t : Client T κ) := fun used => nomatch used.2.1
    have kept : ((start t).after _).kept c ≠ 0 := fun none =>
      unused (other.mpr ⟨rfl, leased, none⟩)
    exact List.count_pos_iff.mp (Nat.pos_of_ne_zero kept)

/-- A completion that nobody waits for, and an event behind it: the loop fails at the first and
leaves the second to the next taker. -/
def failedThenDrained : Plan Loopback Nat :=
  [fun _ => .plain (.program .acquire) rfl,
    fun _ => .plain (.deliver 0 (.sendCompleted ⟨7⟩ ⟨0, 0, ""⟩)) rfl,
    fun _ => .plain (.deliver 0 (.event ⟨"e", "null"⟩)) rfl,
    fun _ => .runOnce 0 5,
    fun _ => .dispatchPending 0 5]

theorem failedThenDrained_conserved :
    let moves := (start ({} : Loopback)).planMoves (callbacks (fun _ => []) 1) failedThenDrained
    moves <+: moves ∧ (∃ w, Consumption ({} : Loopback) 0 moves w) ∧
      (start ({} : Loopback)).taken moves 0 =
        [.sendCompleted ⟨7⟩ ⟨0, 0, ""⟩, .event ⟨"e", "null"⟩] := by
  intro moves
  have conserved := (channel_conserved (κ := Nat) ({} : Loopback) 0).2 (fun _ => []) 1
    failedThenDrained
  exact ⟨List.prefix_rfl, conserved.2.1 moves List.prefix_rfl, by decide⟩

end EventClient.Client
