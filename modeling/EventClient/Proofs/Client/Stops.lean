import EventClient.Proofs.Client.Meanwhile

/-!
Requests that a loop stop. From the start of a loop on, it is asked to stop exactly if somebody
requested it since, or released its context: what was requested before is forgotten at the start,
and nothing else makes it forgotten while the loop runs.
-/
namespace EventClient.Client

variable {T κ : Type}

/-- A request that the loop of a context stop. -/
def Move.stops (s : Client T κ) (c : ContextId) : Move T κ → Bool
  | .program (.requestStop c') => c' == c
  | .program .release => s.current == some c
  | _ => false

/-- A program cannot make a stop request forgotten; only the start of a loop does so. -/
def Plan.Proper (plan : Plan T κ) : Prop :=
  ∀ choose ∈ plan, ∀ s c plain, choose s ≠ .plain (.program (.forgetStop c)) plain

theorem Plan.Proper.nil : Plan.Proper ([] : Plan T κ) := by
  intro choose none
  cases none

theorem Plan.Proper.cons {choose : Client T κ → Operation T κ} {plan : Plan T κ}
    (now : ∀ s c plain, choose s ≠ .plain (.program (.forgetStop c)) plain)
    (later : plan.Proper) : Plan.Proper (choose :: plan) :=
  List.forall_mem_cons.mpr ⟨now, later⟩

theorem isStopRequested_of_slot?_eq {s s' : Client T κ} {c : ContextId}
    (h : s'.slot? c = s.slot? c) : s'.isStopRequested c = s.isStopRequested c := by
  rw [isStopRequested, isStopRequested, h]

theorem isStopRequested_of_update {s s' : Client T κ} {c c' : ContextId} {f : Slot κ → Slot κ}
    (h : s'.slot? c' = if c' = c then (s.slot? c).map f else s.slot? c')
    (same : ∀ slot, (f slot).stopRequested = slot.stopRequested) :
    s'.isStopRequested c' = s.isStopRequested c' := by
  rw [isStopRequested, isStopRequested, h]
  split
  · next heq =>
      rw [heq]
      cases s.slot? c with
      | none => rfl
      | some slot => exact same slot
  · rfl

theorem slot?_takeNext (s : Client T κ) (c c' : ContextId) :
    (((s.nextNotification? c).map (·.2)).getD s).slot? c' =
      if c' = c then (s.slot? c).map fun slot => { slot with queue := slot.queue.tail }
      else s.slot? c' := by
  simp only [nextNotification?]
  cases h : s.slot? c with
  | none => exact (slot?_eq_ite h c').symm
  | some slot =>
      obtain ⟨context, queue, leased, stopRequested⟩ := slot
      cases queue with
      | cons n queue => exact slot?_withSlot h ⟨context, queue, leased, stopRequested⟩ c'
      | nil =>
          by_cases heq : c' = c
          · rw [if_pos heq, heq]
            exact h
          · exact (if_neg heq).symm

theorem isStopRequested_route (s : Client T κ) (c : ContextId) (n : Notification)
    (c' : ContextId) : (s.route c n).2.isStopRequested c' = s.isStopRequested c' := by
  cases h : s.slot? c with
  | none => rw [route_none h]
  | some slot =>
      rw [isStopRequested, isStopRequested, (route_eq h n).2.slots]
      split
      · next heq => rw [heq, h]; rfl
      · rfl

/-- A loop begins with the channel and without a stop request. -/
theorem startLoop_begins {s s' : Client T κ} {c : ContextId} (h : s.startLoop c = (.ok (), s')) :
    s'.isLeased c = true ∧ s'.isStopRequested c = false := by
  rw [startLoop] at h
  cases leased : s.lease c with
  | mk answer s₁ =>
  rw [leased] at h
  cases answer with
  | error e => cases h
  | ok _ =>
      cases h
      have has : s₁.isLeased c = true := by rw [(lease_ok leased).2.2, if_pos rfl]
      obtain ⟨slot, there⟩ := slot?_of_leased has
      rw [isLeased, there] at has
      rw [isLeased, isStopRequested, slot?_note, slot?_updateSlot, if_pos rfl, there]
      exact ⟨has, rfl⟩

variable [Transport T]

def stopped (s : Client T κ) (moves : List (Move T κ)) (c : ContextId) : Bool :=
  (s.history moves).any fun (found, move) => move.stops found c

theorem stopped_cons (s : Client T κ) (move : Move T κ) (moves : List (Move T κ))
    (c : ContextId) :
    s.stopped (move :: moves) c = (move.stops s c || (move.apply s).stopped moves c) := rfl

theorem stopped_append (s : Client T κ) (first second : List (Move T κ)) (c : ContextId) :
    s.stopped (first ++ second) c = (s.stopped first c || (s.after first).stopped second c) := by
  rw [stopped, history_append, List.any_append]
  rfl

/-- While a channel is leased, a stop is requested by those that request it, and nothing but the
start of a loop takes it back. -/
theorem isStopRequested_apply {s : Client T κ} {c : ContextId} (leased : s.isLeased c = true)
    {move : Move T κ} (keeps : move ≠ .program (.forgetStop c)) :
    (move.apply s).isStopRequested c = (s.isStopRequested c || move.stops s c) := by
  obtain ⟨slot, there⟩ := slot?_of_leased leased
  have quiet {b : Bool} (same : b = s.isStopRequested c) :
      b = (s.isStopRequested c || false) := by rw [same, Bool.or_false]
  cases move with
  | transport change => exact quiet rfl
  | deliver c' n =>
      apply quiet
      rw [Move.apply, isStopRequested, isStopRequested, slot?_deliver]
      split
      · next h => rw [h.1]; cases s.slot? c' <;> rfl
      · rfl
  | program act =>
      cases act with
      | send c' | list c' | subscribe c' | renewSubscriptions c' | bridgeSignals c' =>
          exact quiet (isStopRequested_of_update (slot?_onContext ..) fun _ => rfl)
      | editSubscriptions c' | setEventHandler c' | setStatusHandler c' | giveBack c' =>
          exact quiet (isStopRequested_of_update (slot?_updateSlot ..) fun _ => rfl)
      | lease c' => exact quiet (isStopRequested_of_update (slot?_lease s c' c) fun _ => rfl)
      | takeNext c' =>
          exact quiet (isStopRequested_of_update (slot?_takeNext s c' c) fun _ => rfl)
      | keepBooks books => exact quiet rfl
      | route c' n => exact quiet (isStopRequested_route s c' n c)
      | enableTracing patterns =>
          apply quiet
          apply isStopRequested_of_slot?_eq
          rw [Move.apply, Act.apply, slot?, slot?, slots_enableTracing]
      | acquire =>
          rcases slot?_acquire s c with same | ⟨absent, -⟩
          · exact quiet (isStopRequested_of_slot?_eq same)
          · cases absent.symm.trans there
      | requestStop c' =>
          rw [Move.apply, Act.apply, requestStop, isStopRequested, slot?_updateSlot, Move.stops]
          by_cases here : c = c'
          · subst here
            simp [there]
          · simp [here, Ne.symm here, isStopRequested]
      | forgetStop c' =>
          have other : c ≠ c' := by
            rintro rfl
            exact keeps rfl
          apply quiet
          apply isStopRequested_of_slot?_eq
          rw [Move.apply, Act.apply, slot?_updateSlot, if_neg other]
      | release =>
          rw [Move.apply, Act.apply, isStopRequested, slot?_release, Move.stops]
          by_cases here : s.current = some c
          · simp [here, there, Slot.shutDown]
          · simp [here, isStopRequested]

/-! ### While a channel is leased -/

theorem isLeased_apply {s : Client T κ} {c : ContextId} (leased : s.isLeased c = true)
    {move : Move T κ} (keeps : move ≠ .program (.giveBack c)) :
    (move.apply s).isLeased c = true := by
  cases takes : move.takesFrom c with
  | false => rw [isLeased_aside s takes, leased]
  | true =>
      cases move with
      | deliver | transport => cases takes
      | program act =>
          cases act with
          | lease c' =>
              cases beq_iff_eq.mp takes
              rw [Move.apply, Act.apply, lease_leased leased]
              exact leased
          | giveBack c' =>
              cases beq_iff_eq.mp takes
              exact absurd rfl keeps
          | takeNext c' =>
              exact (isLeased_of_update (slot?_takeNext s c' c) fun _ => rfl).trans leased
          | _ => cases takes

theorem isLeased_after {s : Client T κ} {c : ContextId} (leased : s.isLeased c = true)
    {moves : List (Move T κ)} (held : .program (.giveBack c) ∉ moves) :
    (s.after moves).isLeased c = true := by
  induction moves generalizing s with
  | nil => exact leased
  | cons move moves ih =>
      obtain ⟨now, later⟩ := not_or.mp (mt List.mem_cons.mpr held)
      exact ih (isLeased_apply leased (Ne.symm now)) later

/-- A stop request is there if it was before or was made since. -/
theorem isStopRequested_after {s : Client T κ} {c : ContextId} (leased : s.isLeased c = true)
    {moves : List (Move T κ)} (held : .program (.giveBack c) ∉ moves)
    (remembered : .program (.forgetStop c) ∉ moves) :
    (s.after moves).isStopRequested c = (s.isStopRequested c || s.stopped moves c) := by
  induction moves generalizing s with
  | nil => exact (Bool.or_false _).symm
  | cons move moves ih =>
      obtain ⟨holdsNow, holdsLater⟩ := not_or.mp (mt List.mem_cons.mpr held)
      obtain ⟨now, later⟩ := not_or.mp (mt List.mem_cons.mpr remembered)
      have leased' := isLeased_apply leased (Ne.symm holdsNow)
      rw [after_cons, ih leased' holdsLater later, isStopRequested_apply leased (Ne.symm now),
        Bool.or_assoc]
      rfl

/-! ### What makes a stop request forgotten -/

/-- Stop requests are forgotten only behind a lease that was granted. -/
def Orderly (s : Client T κ) (moves : List (Move T κ)) : Prop :=
  ∀ c before after, moves = before ++ .program (.forgetStop c) :: after →
    ∃ earlier, before = earlier ++ [.program (.lease c)] ∧
      ((s.after earlier).lease c).1 = .ok ()

theorem orderly_single {s : Client T κ} {move : Move T κ}
    (other : ∀ c, move ≠ .program (.forgetStop c)) : Orderly s [move] := by
  intro c before after whole
  cases before with
  | nil =>
      cases whole
      exact absurd rfl (other c)
  | cons first before => simp at whole

theorem Orderly.append {s : Client T κ} {first second : List (Move T κ)} (h : Orderly s first)
    (h' : Orderly (s.after first) second) : Orderly s (first ++ second) := by
  intro c before after whole
  have inSecond {before' : List (Move T κ)} (here : before = first ++ before')
      (rest : second = before' ++ .program (.forgetStop c) :: after) :
      ∃ earlier, before = earlier ++ [.program (.lease c)] ∧
        ((s.after earlier).lease c).1 = .ok () := by
    obtain ⟨earlier, leases, granted⟩ := h' c before' after rest
    refine ⟨first ++ earlier, by rw [here, leases, List.append_assoc], ?_⟩
    rwa [after_append]
  rcases List.append_eq_append_iff.mp whole with ⟨before', here, rest⟩ | ⟨after', here, rest⟩
  · exact inSecond here rest
  · cases after' with
    | nil =>
        have here : before = first ++ [] := by simpa using here.symm
        exact inSecond here rest.symm
    | cons move after' =>
        cases rest
        exact h c before after' here

theorem Orderly.initial {s : Client T κ} {first second : List (Move T κ)}
    (h : Orderly s (first ++ second)) : Orderly s first := by
  rintro c before after rfl
  exact h c before (after ++ second) (List.append_assoc ..)

theorem joins_orderly : Joins (Orderly (T := T) (κ := κ)) where
  nil s c before after whole := by simp at whole
  append := Orderly.append
  single s move other := by
    apply orderly_single
    rintro c rfl
    cases other
  begun {s s' c} granted := by
    intro c' before after whole
    cases before with
    | nil => cases whole
    | cons move before =>
        cases before with
        | nil =>
            cases whole
            exact ⟨[], rfl, congrArg Prod.fst granted⟩
        | cons => simp at whole

theorem Plan.Proper.chooses {plan : Plan T κ} (proper : plan.Proper) :
    plan.Chooses Orderly := by
  intro choose chosen s move plain is
  apply orderly_single
  rintro c rfl
  exact proper choose chosen s c plain is

/-- What comes behind something else than a lease is orderly in itself. -/
theorem Orderly.rest {s : Client T κ} {first second : List (Move T κ)} {last : Move T κ}
    (h : Orderly s (first ++ [last] ++ second)) (other : ∀ c, last ≠ .program (.lease c)) :
    Orderly (s.after (first ++ [last])) second := by
  intro c before after whole
  obtain ⟨earlier, leases, granted⟩ := h c (first ++ [last] ++ before) after
    (by rw [whole, List.append_assoc _ before])
  rcases List.eq_nil_or_concat before with rfl | ⟨before, move, rfl⟩
  · rw [List.append_nil] at leases
    have same := (List.append_inj' leases rfl).2
    cases same
    exact absurd rfl (other c)
  · rw [List.concat_eq_append, ← List.append_assoc] at leases
    obtain ⟨rfl, same⟩ := List.append_inj' leases rfl
    cases same
    refine ⟨before, List.concat_eq_append, ?_⟩
    rwa [after_append] at granted

/-- While a channel is leased, no stop request is forgotten. -/
theorem Orderly.remembered {s : Client T κ} {c : ContextId} {moves : List (Move T κ)}
    (h : Orderly s moves) (leased : s.isLeased c = true)
    (held : .program (.giveBack c) ∉ moves) : .program (.forgetStop c) ∉ moves := by
  intro forgets
  obtain ⟨before, after, rfl⟩ := List.append_of_mem forgets
  obtain ⟨earlier, rfl, granted⟩ := h c before after rfl
  have still : (s.after earlier).isLeased c = true := by
    apply isLeased_after leased
    intro gives
    exact held (by simp [gives])
  rw [lease_leased still] at granted
  cases granted

end EventClient.Client
