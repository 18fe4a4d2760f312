import EventClient.Proofs.Client.Stops

/-!
What a poll of a loop comes to. It serves what its channel holds in order, until the loop is asked
to stop, a dispatch fails, or nothing is left; then it waits, or it is over if nothing can come any
more. The reference is a relation on what was done since the loop began, and it looks for stop
requests there, not at what the client keeps of them.
-/
namespace EventClient.Client

variable {T κ : Type} [Transport T]

/-- The client once the oldest notification of a channel is taken off it. -/
def takeNext (s : Client T κ) (c : ContextId) : Client T κ := Act.apply s (.takeNext c)

/-- How a poll goes of a loop of a context that began at `begun`, where `since` was done since: the
notifications that it takes, what is done meanwhile, and what it comes to. -/
inductive PollGoes (callbacks : Callbacks T κ) (c : ContextId) (begun : Client T κ) :
    List (Move T κ) → List Notification → List (Move T κ) → Poll → Prop where
  /-- A stop was requested since the loop began. -/
  | stopped {since : List (Move T κ)} (stop : begun.stopped since c = true) :
      PollGoes callbacks c begun since [] [] .finished
  | served {since during : List (Move T κ)} {n : Notification} {rest ns : List Notification}
      {outcome : Poll} (going : begun.stopped since c = false)
      (next : (begun.after since).queue c = n :: rest)
      (serves : (((begun.after since).takeNext c).dispatch callbacks.reaction c n).1 = .ok ())
      (more : PollGoes callbacks c begun
        (since ++ ((begun.after since).takeNext c).servingMoves callbacks c n) ns during outcome) :
      PollGoes callbacks c begun since (n :: ns)
        (((begun.after since).takeNext c).servingMoves callbacks c n ++ during) outcome
  | failed {since : List (Move T κ)} {n : Notification} {rest : List Notification}
      {e : ClientError} (going : begun.stopped since c = false)
      (next : (begun.after since).queue c = n :: rest)
      (fails : (((begun.after since).takeNext c).dispatch callbacks.reaction c n).1 = .error e) :
      PollGoes callbacks c begun since [n]
        (((begun.after since).takeNext c).servingMoves callbacks c n ++
          [(((begun.after since).takeNext c).dispatch callbacks.reaction c n).2.noted
            [.loopFailed e]])
        (.failed e)
  /-- Nothing can come any more, because the context is released. -/
  | ended {since : List (Move T κ)} (going : begun.stopped since c = false)
      (empty : (begun.after since).queue c = []) (closed : (begun.after since).isOpen c = false)
      (released : (begun.after since).isReleased c = true) :
      PollGoes callbacks c begun since [] [] .finished
  | lost {since : List (Move T κ)} (going : begun.stopped since c = false)
      (empty : (begun.after since).queue c = []) (closed : (begun.after since).isOpen c = false)
      (unreleased : (begun.after since).isReleased c = false) :
      PollGoes callbacks c begun since [] [(begun.after since).noted [.channelLost]]
        (.failed .channelClosed)
  | waits {since : List (Move T κ)} (going : begun.stopped since c = false)
      (empty : (begun.after since).queue c = []) (isOpen : (begun.after since).isOpen c = true) :
      PollGoes callbacks c begun since [] [] .pending

/-- A loop of a context that began at one client has the channel after what was done since, and it
knows of the stop requests that were made since. -/
structure Tracks (begun : Client T κ) (since : List (Move T κ)) (c : ContextId) : Prop where
  inUse : (begun.after since).InUse c
  stop : (begun.after since).isStopRequested c = begun.stopped since c

theorem Tracks.append {begun : Client T κ} {since moves : List (Move T κ)} {c : ContextId}
    (h : Tracks begun since c) (used : ((begun.after since).after moves).InUse c)
    (held : .program (.giveBack c) ∉ moves) (remembered : .program (.forgetStop c) ∉ moves) :
    Tracks begun (since ++ moves) c where
  inUse := by rwa [after_append]
  stop := by
    rw [after_append, isStopRequested_after h.inUse.1 held remembered, h.stop, stopped_append]

/-! ### Serving one notification -/

section
variable {callbacks : Callbacks T κ} (spare : callbacks.Spare)
  (orderly : ∀ i s, Orderly s (callbacks i s))

include spare orderly

/-- The serving of a notification does not make a stop request of its loop forgotten. -/
theorem remembered_serving {s s₁ : Client T κ} {c : ContextId} {n : Notification}
    (used : s.InUse c) (found : s.nextNotification? c = some (n, s₁)) :
    .program (.forgetStop c) ∉ s₁.servingMoves callbacks c n := by
  have held := (serves spare used found).held
  have leased : s₁.isLeased c = true := ((taking_eq found).2 c).trans used.1
  intro forgets
  refine (joins_orderly.dispatch orderly s₁ c n).remembered leased ?_
    ((List.mem_cons.mp forgets).resolve_left nofun)
  exact fun gives => held (List.mem_cons_of_mem _ gives)

theorem Tracks.served {begun s₁ : Client T κ} {since : List (Move T κ)} {c : ContextId}
    {n : Notification} (h : Tracks begun since c)
    (found : (begun.after since).nextNotification? c = some (n, s₁)) :
    Tracks begun (since ++ s₁.servingMoves callbacks c n) c := by
  have serves := serves spare h.inUse found
  exact h.append serves.inUse serves.held (remembered_serving spare orderly h.inUse found)

/-! ### Whole polls -/

omit spare orderly in
theorem queue_of_found {s s₁ : Client T κ} {c : ContextId} {n : Notification}
    (found : s.nextNotification? c = some (n, s₁)) :
    s.queue c = n :: s₁.queue c ∧ s.takeNext c = s₁ := by
  refine ⟨?_, apply_takeNext found⟩
  rcases nextNotification?_eq s c with ⟨none, -⟩ | ⟨n', s', found', queue, -⟩
  · cases none.symm.trans found
  · cases found'.symm.trans found
    exact queue

omit spare orderly in
theorem found_of_queue {s : Client T κ} {c : ContextId} {n : Notification}
    {rest : List Notification} (next : s.queue c = n :: rest) :
    s.nextNotification? c = some (n, s.takeNext c) := by
  rcases nextNotification?_eq s c with ⟨-, empty⟩ | ⟨n', s', found, queue, -⟩
  · cases empty.symm.trans next
  · cases queue.symm.trans next
    rw [found, (queue_of_found found).2]

omit spare orderly [Transport T] in
theorem nextNotification?_empty {s : Client T κ} {c : ContextId} :
    s.nextNotification? c = none ↔ s.queue c = [] := by
  rcases nextNotification?_eq s c with ⟨none, empty⟩ | ⟨n, s', found, queue, -⟩
  · exact iff_of_true none empty
  · rw [found, queue]
    exact iff_of_false nofun nofun

/-- Whatever a poll comes to, it goes there as the reference says. The induction is on the number of
notifications that it may take. -/
theorem goes_of_poll {begun : Client T κ} {since : List (Move T κ)} {c : ContextId}
    (tracks : Tracks begun since c) (limit : Nat)
    (ended : (poll callbacks.reaction c limit (begun.after since)).1 ≠ .unfinished) :
    ∃ ns, ns.length ≤ limit ∧ PollGoes callbacks c begun since ns
      (pollMoves callbacks c limit (begun.after since))
      (poll callbacks.reaction c limit (begun.after since)).1 := by
  induction limit generalizing since with
  | zero => exact absurd rfl ended
  | succ limit ih =>
      have flag := tracks.stop
      simp only [poll, pollMoves] at ended ⊢
      cases stop : begun.stopped since c with
      | true =>
          rw [stop] at flag
          simp only [flag, if_true]
          exact ⟨[], Nat.zero_le _, .stopped stop⟩
      | false =>
          rw [stop] at flag
          simp only [flag, Bool.false_eq_true, if_false] at ended ⊢
          cases found : (begun.after since).nextNotification? c with
          | none =>
              have empty := nextNotification?_empty.mp found
              refine ⟨[], Nat.zero_le _, ?_⟩
              cases isOpen : (begun.after since).isOpen c with
              | true => exact .waits stop empty isOpen
              | false =>
                  cases released : (begun.after since).isReleased c with
                  | true => exact .ended stop empty isOpen released
                  | false => exact .lost stop empty isOpen released
          | some next =>
              obtain ⟨n, s₁⟩ := next
              obtain ⟨queue, takes⟩ := queue_of_found found
              have served := after_servingMoves callbacks found
              rw [found] at ended
              dsimp only at ended ⊢
              cases dispatched : s₁.dispatch callbacks.reaction c n with
              | mk answer s₂ =>
              rw [dispatched] at served ended
              rw [← takes] at dispatched ⊢
              cases answer with
              | error e =>
                  have goes := PollGoes.failed stop queue (congrArg Prod.fst dispatched)
                  rw [dispatched] at goes
                  exact ⟨[n], Nat.succ_le_succ (Nat.zero_le _), goes⟩
              | ok _ =>
                  have tracks' := tracks.served spare orderly found
                  have after : begun.after (since ++ s₁.servingMoves callbacks c n) = s₂ := by
                    rw [after_append, served]
                  have later := ih tracks' (by rwa [after])
                  rw [after] at later
                  obtain ⟨ns, bound, goes⟩ := later
                  rw [← takes] at goes
                  exact ⟨n :: ns, Nat.succ_le_succ bound,
                    .served stop queue (congrArg Prod.fst dispatched) goes⟩

/-- What the reference says, a poll does that may take enough notifications. -/
theorem poll_of_goes {begun : Client T κ} {since during : List (Move T κ)} {c : ContextId}
    {ns : List Notification} {outcome : Poll} (tracks : Tracks begun since c)
    (goes : PollGoes callbacks c begun since ns during outcome) (limit : Nat)
    (enough : ns.length < limit) :
    poll callbacks.reaction c limit (begun.after since) =
      (outcome, (begun.after since).after during) := by
  cases limit with
  | zero => exact absurd enough (Nat.not_lt_zero _)
  | succ limit =>
  have flag := tracks.stop
  induction goes generalizing limit with
  | stopped stop =>
      rw [stop] at flag
      simp only [poll, flag, if_true]
      rfl
  | @served since during n rest ns outcome going next serves more ih =>
      rw [going] at flag
      have found := found_of_queue next
      have after := after_servingMoves callbacks found
      have tracks' := tracks.served spare orderly found
      have length : ns.length < limit := Nat.lt_of_succ_lt_succ enough
      obtain ⟨limit, rfl⟩ := Nat.exists_eq_add_of_lt (Nat.zero_lt_of_lt length)
      have later := ih tracks' _ length tracks'.stop
      rw [after_append, after] at later
      simp only [poll, flag, found, Bool.false_eq_true, if_false]
      cases dispatched : ((begun.after since).takeNext c).dispatch callbacks.reaction c n with
      | mk answer s₂ =>
      rw [dispatched] at serves after later
      cases serves
      rw [after_append, after]
      exact later
  | @failed since n rest e going next fails =>
      rw [going] at flag
      have found := found_of_queue next
      have after := after_servingMoves callbacks found
      simp only [poll, flag, found, Bool.false_eq_true, if_false]
      cases dispatched : ((begun.after since).takeNext c).dispatch callbacks.reaction c n with
      | mk answer s₂ =>
      rw [dispatched] at fails after
      cases fails
      rw [after_append, after]
      rfl
  | ended going empty closed released =>
      rw [going] at flag
      simp only [poll, flag, nextNotification?_empty.mpr empty, closed, released,
        Bool.false_eq_true, if_false, if_true]
      rfl
  | lost going empty closed unreleased =>
      rw [going] at flag
      simp only [poll, flag, nextNotification?_empty.mpr empty, closed, unreleased,
        Bool.false_eq_true, if_false]
      rfl
  | waits going empty isOpen =>
      rw [going] at flag
      simp only [poll, flag, nextNotification?_empty.mpr empty, isOpen, Bool.false_eq_true,
        if_false, if_true]
      rfl

/-- Nothing is taken meanwhile but what the poll serves. -/
theorem taken_of_goes {begun : Client T κ} {since during : List (Move T κ)} {c : ContextId}
    {ns : List Notification} {outcome : Poll} (tracks : Tracks begun since c)
    (goes : PollGoes callbacks c begun since ns during outcome) :
    (begun.after since).taken during c = ns := by
  induction goes with
  | stopped | ended | waits | lost => rfl
  | served going next _ more ih =>
      have found := found_of_queue next
      have later := ih (tracks.served spare orderly found)
      rw [after_append] at later
      rw [taken_append, (serves spare tracks.inUse found).taken, later]
      rfl
  | failed going next =>
      rw [taken_append, (serves spare tracks.inUse (found_of_queue next)).taken]
      rfl

omit spare orderly in
/-- A closed channel is only reported of a context that is not released. -/
theorem unreleased_of_goes {begun : Client T κ} {since during : List (Move T κ)} {c : ContextId}
    {ns : List Notification} (goes : PollGoes callbacks c begun since ns during
      (.failed .channelClosed)) : ((begun.after since).after during).isReleased c = false := by
  generalize result : Poll.failed .channelClosed = outcome at goes
  induction goes with
  | stopped | ended | waits => cases result
  | served going next _ more ih =>
      have later := ih result
      rwa [after_append, ← after_append] at later
  | failed going next fails =>
      cases result
      obtain ⟨kind, id, unknown⟩ := dispatch_error fails
      cases unknown
  | lost going empty closed unreleased => exact unreleased

end

/-! ### Loops of a program -/

/-- A loop that does not have to wait is over. -/
theorem pollLoop_of_poll {react : Reaction T κ} {limit : Nat} {s s' : Client T κ} {c : ContextId}
    {outcome : Poll} (h : poll react c limit s = (outcome, s')) :
    s.pollLoop react limit c = (outcome, if outcome = .pending then s' else s'.endLoop c) := by
  rw [pollLoop, h]
  cases outcome <;> rfl

theorem pollLoop_outcome (react : Reaction T κ) (limit : Nat) (s : Client T κ) (c : ContextId) :
    (s.pollLoop react limit c).1 = (poll react c limit s).1 := by
  cases h : poll react c limit s with
  | mk outcome s' => rw [pollLoop_of_poll h]

/-- Its start ends with an entry in the journal. -/
theorem startMoves_ok {s : Client T κ} {c : ContextId} (h : (s.startLoop c).1 = .ok ()) :
    ∃ first books, s.startMoves c = first ++ [.program (.keepBooks books)] := by
  rw [startLoop] at h
  rw [startMoves]
  cases leased : s.lease c with
  | mk answer s₁ =>
  rw [leased] at h
  cases answer with
  | error e => cases h
  | ok _ => exact ⟨[.program (.lease c), .program (.forgetStop c)], _, rfl⟩

/-- While the channel is not given back, a program with its callbacks tracks the stop requests since
the loop began. -/
theorem tracks_program {plans : Invocation κ → Plan T κ} {depth : Nat} {plan : Plan T κ}
    (nested : ∀ i, (plans i).Proper) (proper : plan.Proper) {s : Client T κ} {c : ContextId}
    {earlier since : List (Move T κ)}
    (ran : earlier ++ (s.after earlier).startMoves c ++ since <+:
      s.planMoves (callbacks plans depth) plan)
    (started : ((s.after earlier).startLoop c).1 = .ok ())
    (held : .program (.giveBack c) ∉ since)
    (polled : (((s.after earlier).startLoop c).2.after since).kept c = 0) :
    Tracks ((s.after earlier).startLoop c).2 since c := by
  obtain ⟨rest, whole⟩ := ran
  obtain ⟨first, books, starts⟩ := startMoves_ok started
  have begun : s.after (earlier ++ (s.after earlier).startMoves c) =
      ((s.after earlier).startLoop c).2 := by rw [after_append, after_startMoves]
  have orderly := joins_orderly.plan
    (joins_orderly.ofPlans (fun i => (nested i).chooses) depth) proper.chooses s
  rw [← whole] at orderly
  have behind : Orderly ((s.after earlier).startLoop c).2 since := by
    rw [← begun]
    rw [starts, ← List.append_assoc earlier] at orderly ⊢
    exact (Orderly.initial orderly).rest fun c => nofun
  obtain ⟨leased, unasked⟩ := startLoop_begins (Prod.ext started rfl)
  refine ⟨⟨isLeased_after leased held, polled⟩, ?_⟩
  rw [isStopRequested_after leased held (behind.remembered leased held), unasked, Bool.false_or]

/-- A loop that a program started is polled at some moment at which it did not give its channel back
yet and does not wait, whatever was done since. The poll goes exactly as the reference says, with
every limit that it does not exhaust; what it takes is taken from the front of its channel in order;
and a closed channel is never reported of a released context. -/
theorem poll_follows_reference {plans : Invocation κ → Plan T κ} {depth : Nat} {plan : Plan T κ}
    (nested : ∀ i, (plans i).Proper) (proper : plan.Proper) {s : Client T κ} {c : ContextId}
    {earlier since : List (Move T κ)}
    (ran : earlier ++ (s.after earlier).startMoves c ++ since <+:
      s.planMoves (callbacks plans depth) plan)
    (started : ((s.after earlier).startLoop c).1 = .ok ())
    (held : .program (.giveBack c) ∉ since)
    (polled : (((s.after earlier).startLoop c).2.after since).kept c = 0) (level : Nat) :
    let begun := ((s.after earlier).startLoop c).2
    let now := begun.after since
    (∀ limit, (now.pollLoop (reaction plans level) limit c).1 ≠ .unfinished →
      ∃ ns, ns.length ≤ limit ∧ PollGoes (callbacks plans level) c begun since ns
        (pollMoves (callbacks plans level) c limit now)
        (now.pollLoop (reaction plans level) limit c).1) ∧
    ∀ ns during outcome, PollGoes (callbacks plans level) c begun since ns during outcome →
      (∀ limit, ns.length < limit → now.pollLoop (reaction plans level) limit c = (outcome,
        if outcome = .pending then now.after during else (now.after during).endLoop c)) ∧
      now.taken during c = ns ∧
      now.queue c ++ now.delivered during c = ns ++ (now.after during).queue c ∧
      (outcome = .failed .channelClosed → (now.after during).isReleased c = false) := by
  intro begun now
  have tracks : Tracks begun since c := tracks_program nested proper ran started held polled
  have spare := spare_callbacks plans level
  have orderly := joins_orderly.ofPlans (fun i => (nested i).chooses) level
  rw [← reaction_callbacks plans level]
  simp only [pollLoop_outcome]
  refine ⟨fun limit finishes => goes_of_poll spare orderly tracks limit finishes, ?_⟩
  intro ns during outcome goes
  have taken := taken_of_goes spare orderly tracks goes
  have polls limit (enough : ns.length < limit) :=
    pollLoop_of_poll (poll_of_goes spare orderly tracks goes limit enough)
  refine ⟨polls, taken, ?_, ?_⟩
  · have conserved := queue_after now during c
    rwa [taken] at conserved
  · rintro rfl
    exact unreleased_of_goes goes

/-- Two events for a handler that asks its loop to stop. -/
def stoppedByHandler : Plan Loopback Nat :=
  [fun _ => .plain (.program .acquire) (.refl true),
    fun _ => .plain (.program (.setEventHandler 0 (some { callback := 1, userData := none })))
      (.refl true),
    fun _ => .plain (.deliver 0 (.event ⟨"e", "1"⟩)) (.refl true),
    fun _ => .plain (.deliver 0 (.event ⟨"e", "2"⟩)) (.refl true),
    fun _ => .runOnce 0 5]

def askToStop (_ : Invocation Nat) : Plan Loopback Nat :=
  [fun _ => .plain (.program (.requestStop 0)) (.refl true)]

theorem stoppedByHandler_leaves_second :
    let s := start ({} : Loopback)
    let earlier := s.planMoves (callbacks askToStop 1) (stoppedByHandler.take 4)
    let begun := ((s.after earlier).startLoop 0).2
    (∀ i, (askToStop i).Proper) ∧ stoppedByHandler.Proper ∧
      earlier ++ (s.after earlier).startMoves 0 ++ [] <+:
        s.planMoves (callbacks askToStop 1) stoppedByHandler ∧
      ((s.after earlier).startLoop 0).1 = .ok () ∧ begun.kept 0 = 0 ∧
      (begun.pollLoop (reaction askToStop 1) 5 0).1 = .finished ∧
      (begun.pollLoop (reaction askToStop 1) 5 0).2.queue 0 = [.event ⟨"e", "2"⟩] ∧
      ∃ ns, ns.length ≤ 5 ∧ PollGoes (callbacks askToStop 1) 0 begun [] ns
        (pollMoves (callbacks askToStop 1) 0 5 begun) .finished := by
  intro s earlier begun
  have nested : ∀ i, (askToStop i).Proper :=
    fun _ => .cons (fun _ _ _ forgets => by cases forgets) .nil
  have proper : stoppedByHandler.Proper := by
    iterate 5 refine .cons (fun _ _ _ forgets => by cases forgets) ?_
    exact .nil
  have ran : earlier ++ (s.after earlier).startMoves 0 ++ [] <+:
      s.planMoves (callbacks askToStop 1) stoppedByHandler := by
    have whole := planMoves_append (callbacks askToStop 1) s (stoppedByHandler.take 4)
      (stoppedByHandler.drop 4)
    rw [List.take_append_drop] at whole
    rw [whole, List.append_assoc, List.prefix_append_right_inj, List.append_nil]
    exact (List.prefix_append ..).trans (List.prefix_append ..)
  have ends : (begun.pollLoop (reaction askToStop 1) 5 0).1 = .finished := by decide
  have finishes : (begun.pollLoop (reaction askToStop 1) 5 0).1 ≠ .unfinished := by
    rw [ends]
    simp
  have goes : ∃ ns, ns.length ≤ 5 ∧ PollGoes (callbacks askToStop 1) 0 begun [] ns
      (pollMoves (callbacks askToStop 1) 0 5 begun)
      (begun.pollLoop (reaction askToStop 1) 5 0).1 :=
    (poll_follows_reference nested proper ran rfl (by simp) rfl 1).1 5 finishes
  rw [ends] at goes
  exact ⟨nested, proper, ran, rfl, rfl, ends, by decide, goes⟩

end EventClient.Client
