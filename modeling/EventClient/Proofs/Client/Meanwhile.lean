import EventClient.Proofs.Client.Conservation

/-!
What happens while somebody takes from a channel. The channel stays in use, and nothing that comes
meanwhile takes from it or gives it back; others are turned away at most. What holds of the parts of
operations, and of parts that follow each other, holds of everything that a program does.
-/
namespace EventClient.Client

variable {T κ : Type}

/-- A dispatch fails only for a completion that nobody waits for. -/
theorem route_error {s : Client T κ} {c : ContextId} {n : Notification} {e : ClientError}
    (h : (s.route c n).1 = .error e) : ∃ kind id, e = .unknownCorrelation kind id := by
  have settled {context : Context κ} {kind : RequestKind} {id : CorrelationId}
      {delivery : Delivery} (h : (context.complete c kind id delivery).1 = .error e) :
      ∃ kind id, e = .unknownCorrelation kind id := by
    simp only [Context.complete] at h
    cases released : context.released with
    | true =>
        rw [Context.settle_released released] at h
        cases h
    | false =>
        rw [Context.settle_active released] at h
        cases waits : Registry.entry? (context.registry kind) id with
        | none =>
            rw [waits] at h
            cases h
            exact ⟨_, _, rfl⟩
        | some entry =>
            rw [waits] at h
            cases h
  rw [route_outcome] at h
  cases here : s.context? c with
  | none =>
      rw [here] at h
      cases h
  | some context =>
      rw [here] at h
      dsimp only at h
      cases n with
      | sendCompleted | applicationsListed => exact settled h
      | event | subscriptionStatus =>
          simp only [Context.route] at h
          split at h <;> cases h

theorem dispatch_error {react : Reaction T κ} {s : Client T κ} {c : ContextId} {n : Notification}
    {e : ClientError} (h : (s.dispatch react c n).1 = .error e) :
    ∃ kind id, e = .unknownCorrelation kind id := by
  rw [dispatch_result] at h
  cases routed : (s.route c n).1 with
  | ok i =>
      rw [routed] at h
      cases h
  | error e' =>
      rw [routed] at h
      cases h
      exact route_error routed

variable [Transport T]

/-! ### A channel that is in use -/

omit [Transport T] in
theorem inUse_taken {s s₁ : Client T κ} {c c' : ContextId} {n : Notification}
    (found : s.nextNotification? c' = some (n, s₁)) (used : s.InUse c) : s₁.InUse c := by
  obtain ⟨loops, leases⟩ := taking_eq found
  exact ⟨(leases c).trans used.1, (kept_of_loops_eq loops c).trans used.2⟩

omit [Transport T] in
theorem inUse_route {s : Client T κ} {c : ContextId} (used : s.InUse c) (c' : ContextId)
    (n : Notification) : (s.route c' n).2.InUse c :=
  ⟨(isLeased_route s c' n c).trans used.1, (kept_of_loops_eq (loops_route s c' n) c).trans used.2⟩

omit [Transport T] in
theorem fits_inUse {c : ContextId} {s : Client T κ} (used : s.InUse c) (hold : Hold) :
    Fits c hold s { current := some {} } := by
  refine .of_inUse used rfl ?_ ?_
  · intro taking current n holds
    cases current
    cases holds
  · intro _ taking current
    cases current
    rfl

/-- Whoever does not have the channel leaves it in use. -/
theorem Passes.inUse {c : ContextId} {s : Client T κ} {moves : List (Move T κ)}
    (h : Passes c .none .none s moves) (used : s.InUse c) : (s.after moves).InUse c := by
  obtain ⟨w, -, -, other, -⟩ := h _ (fits_inUse used .none)
  exact (other.mp ⟨rfl, used⟩).2

theorem Spares.inUse {c : ContextId} {s : Client T κ} {moves : List (Move T κ)}
    (h : Spares s moves) (used : s.InUse c) : (s.after moves).InUse c :=
  (h.passes c).inUse used

theorem Keeps.inUse {c c' : ContextId} {hold hold' : Hold} {s : Client T κ}
    {moves : List (Move T κ)} (h : Keeps c' hold hold' s moves) (other : c ≠ c')
    (used : s.InUse c) : (s.after moves).InUse c := by
  have passes := h.passes c
  rw [Hold.at, Hold.at, if_neg other, if_neg other] at passes
  exact passes.inUse used

/-- A move that has nothing to do with the taking from a channel, or a try that is turned away. -/
def Move.IsAside (c : ContextId) (s : Client T κ) (move : Move T κ) : Prop :=
  move.takesFrom c = false ∨ (move = .program (.lease c) ∧ ∃ e, (s.lease c).1 = .error e)

/-- A stage that no taking comes to. -/
def strange : Stage := .failed (.event ⟨"", ""⟩) .contextReleased

def Takings.IsStrange (w : Takings) : Prop := w.current.map (·.stage) = some strange

theorem not_strange {c : ContextId} {s : Client T κ} {w w' : Takings} {moves : List (Move T κ)}
    (h : Watches c s w moves w') (other : ¬ w.IsStrange) : ¬ w'.IsStrange := by
  induction h with
  | nil => exact other
  | cons sees _ ih =>
      apply ih
      cases sees with
      | aside | refused => exact other
      | begins | takes | dispatches | ends =>
          intro same
          cases same
      | fails current holds routed =>
          intro same
          obtain ⟨kind, id, rfl⟩ := route_error routed
          cases same

theorem aside_of_strange {c : ContextId} {s : Client T κ} {w w' : Takings}
    {moves : List (Move T κ)} (h : Watches c s w moves w') (before : w.IsStrange)
    (after : w'.IsStrange) : ∀ entry ∈ s.history moves, entry.2.IsAside c entry.1 := by
  have stage {w : Takings} {taking : Taking} (is : w.IsStrange)
      (current : w.current = some taking) : taking.stage = strange := by
    rw [Takings.IsStrange, current] at is
    exact Option.some.inj is
  induction h with
  | nil =>
      intro entry made
      cases made
  | cons sees rest ih =>
      cases sees with
      | aside elsewhere =>
          exact List.forall_mem_cons.mpr ⟨.inl elsewhere, ih before after⟩
      | refused _ answer =>
          exact List.forall_mem_cons.mpr ⟨.inr ⟨rfl, _, answer⟩, ih before after⟩
      | begins idle =>
          rw [Takings.IsStrange, idle] at before
          cases before
      | takes current looks => cases looks.symm.trans (stage before current)
      | dispatches current holds | fails current holds =>
          cases holds.symm.trans (stage before current)
      | ends => exact absurd after (not_strange rest nofun)

/-- While a channel is in use, others neither take from it nor give it back. A taking at a stage
that no taking comes to shows this: were it given back, it would not be there again. -/
theorem Spares.aside {c : ContextId} {s : Client T κ} {moves : List (Move T κ)}
    (h : Spares s moves) (used : s.InUse c) :
    ∀ entry ∈ s.history moves, entry.2.IsAside c entry.1 := by
  have fits : Fits c .none s { current := some { stage := strange } } := by
    refine .of_inUse used rfl ?_ nofun
    intro taking current n holds
    cases current
    cases holds
  obtain ⟨w, watches, -, -, same⟩ := h.passes c _ fits
  refine aside_of_strange watches rfl ?_
  rw [Takings.IsStrange, same ⟨rfl, used⟩]
  rfl

theorem taken_aside {c : ContextId} {s : Client T κ} {moves : List (Move T κ)}
    (aside : ∀ entry ∈ s.history moves, entry.2.IsAside c entry.1) : s.taken moves c = [] := by
  apply List.filterMap_eq_nil_iff.mpr
  rintro ⟨found, move⟩ made
  rcases aside _ made with elsewhere | ⟨rfl, -⟩
  · simp only [Move.taken?]
    split
    · exact if_neg fun here => by simp [Move.takesFrom, here] at elsewhere
    · rfl
  · rfl

theorem mem_history {s : Client T κ} {moves : List (Move T κ)} {move : Move T κ}
    (made : move ∈ moves) : ∃ found, (found, move) ∈ s.history moves := by
  induction moves generalizing s with
  | nil => cases made
  | cons first moves ih =>
      rcases List.mem_cons.mp made with rfl | later
      · exact ⟨s, List.mem_cons_self⟩
      · obtain ⟨found, there⟩ := ih later
        exact ⟨found, List.mem_cons_of_mem _ there⟩

theorem held_aside {c : ContextId} {s : Client T κ} {moves : List (Move T κ)}
    (aside : ∀ entry ∈ s.history moves, entry.2.IsAside c entry.1) :
    .program (.giveBack c) ∉ moves := by
  intro gives
  obtain ⟨found, there⟩ := mem_history gives
  rcases aside _ there with elsewhere | ⟨same, -⟩
  · simp [Move.takesFrom] at elsewhere
  · cases same

/-- What the serving of a notification means for the channel that it was taken from. -/
structure Serves (s : Client T κ) (c : ContextId) (n : Notification) (moves : List (Move T κ)) :
    Prop where
  inUse : (s.after moves).InUse c
  held : .program (.giveBack c) ∉ moves
  taken : s.taken moves c = [n]

theorem serves {callbacks : Callbacks T κ} (spare : callbacks.Spare) {s s₁ : Client T κ}
    {c : ContextId} {n : Notification} (used : s.InUse c)
    (found : s.nextNotification? c = some (n, s₁)) :
    Serves s c n (s₁.servingMoves callbacks c n) := by
  have takes := apply_takeNext found
  have used₁ := inUse_taken found used
  have spares := spares_dispatch spare s₁ c n
  have aside := spares.aside used₁
  rw [servingMoves]
  constructor
  case inUse =>
    rw [after_cons, takes]
    exact spares.inUse used₁
  case held =>
    exact fun gives => held_aside aside ((List.mem_cons.mp gives).resolve_left (by simp))
  case taken =>
    rw [taken_cons, takes, taken_aside aside]
    simp [Move.taken?, found]

/-! ### Parts of operations -/

/-- What holds of the moves that operations are made of, and of moves that follow each other. -/
structure Joins (R : Client T κ → List (Move T κ) → Prop) : Prop where
  nil : ∀ s, R s []
  append : ∀ {s first second}, R s first → R (s.after first) second → R s (first ++ second)
  single : ∀ s {move}, move.isPlain = false → R s [move]
  begun : ∀ {s s' c}, s.lease c = (.ok (), s') →
    R s [.program (.lease c), .program (.forgetStop c)]

/-- It holds of the plain moves that a plan can choose. -/
def Plan.Chooses (R : Client T κ → List (Move T κ) → Prop) (plan : Plan T κ) : Prop :=
  ∀ choose ∈ plan, ∀ s move plain, choose s = .plain move plain → R s [move]

namespace Joins

variable {R : Client T κ → List (Move T κ) → Prop} (joins : Joins R) {callbacks : Callbacks T κ}
  (made : ∀ i s, R s (callbacks i s))

include joins

theorem cons {s : Client T κ} {move : Move T κ} {moves : List (Move T κ)}
    (plain : move.isPlain = false) (rest : R (move.apply s) moves) : R s (move :: moves) := by
  have whole := joins.append (joins.single s plain) rest
  exact whole

theorem start (s : Client T κ) (c : ContextId) : R s (s.startMoves c) := by
  rw [startMoves]
  cases leased : s.lease c with
  | mk answer s' =>
  cases answer with
  | error e => exact joins.single s rfl
  | ok _ => exact joins.append (joins.begun leased) (joins.single _ rfl)

include made

theorem dispatch (s : Client T κ) (c : ContextId) (n : Notification) :
    R s (s.dispatchMoves callbacks c n) := by
  rw [dispatchMoves]
  cases routed : s.route c n with
  | mk answer s' =>
  have after : Move.apply s (.program (.route c n)) = s' := congrArg Prod.snd routed
  apply joins.cons rfl
  rw [after]
  split
  · next h => cases h; exact made _ _
  · exact joins.nil _

theorem serving {s s₁ : Client T κ} {c : ContextId} {n : Notification}
    (found : s.nextNotification? c = some (n, s₁)) : R s (s₁.servingMoves callbacks c n) := by
  apply joins.cons rfl
  rw [apply_takeNext found]
  exact joins.dispatch made s₁ c n

theorem poll (c : ContextId) (limit : Nat) (s : Client T κ) :
    R s (pollMoves callbacks c limit s) := by
  induction limit generalizing s with
  | zero => exact joins.nil s
  | succ limit ih =>
      simp only [pollMoves]
      split
      · exact joins.nil s
      · cases found : s.nextNotification? c with
        | none =>
            dsimp only
            split
            · exact joins.nil s
            · exact joins.single s rfl
        | some next =>
            obtain ⟨n, s₁⟩ := next
            have served := joins.serving made found
            have after := after_servingMoves callbacks found
            dsimp only
            cases dispatched : s₁.dispatch callbacks.reaction c n with
            | mk answer s₂ =>
            rw [dispatched] at after
            cases answer with
            | ok _ => exact joins.append served (after ▸ ih s₂)
            | error e => exact joins.append served (joins.single _ rfl)

theorem pollLoop (limit : Nat) (s : Client T κ) (c : ContextId) :
    R s (s.pollLoopMoves callbacks limit c) := by
  refine joins.append (joins.poll made c limit s) ?_
  cases Client.poll callbacks.reaction c limit s with
  | mk outcome s' =>
  cases outcome with
  | pending => exact joins.nil _
  | finished | failed | unfinished => exact joins.cons rfl (joins.single _ rfl)

theorem drain (c : ContextId) (limit : Nat) (s : Client T κ) :
    R s (drainMoves callbacks c limit s) := by
  induction limit generalizing s with
  | zero => exact joins.nil s
  | succ limit ih =>
      simp only [drainMoves]
      cases found : s.nextNotification? c with
      | none => exact joins.nil s
      | some next =>
          obtain ⟨n, s₁⟩ := next
          have served := joins.serving made found
          have after := after_servingMoves callbacks found
          dsimp only
          cases dispatched : s₁.dispatch callbacks.reaction c n with
          | mk answer s₂ =>
          rw [dispatched] at after
          cases answer with
          | ok _ => exact joins.append served (after ▸ ih s₂)
          | error e => exact served

theorem dispatchPending (limit : Nat) (s : Client T κ) (c : ContextId) :
    R s (s.dispatchPendingMoves callbacks limit c) := by
  rw [dispatchPendingMoves]
  cases leased : s.lease c with
  | mk answer s' =>
  have after : Move.apply s (.program (.lease c)) = s' := congrArg Prod.snd leased
  apply joins.cons rfl
  rw [after]
  cases answer with
  | error e => exact joins.nil s'
  | ok _ => exact joins.append (joins.drain made c limit s') (joins.single _ rfl)

theorem runOnce (limit : Nat) (s : Client T κ) (c : ContextId) :
    R s (s.runOnceMoves callbacks limit c) := by
  refine joins.append (joins.start s c) ?_
  rw [after_startMoves]
  cases s.startLoop c with
  | mk answer s₁ =>
  cases answer with
  | error e => exact joins.nil s₁
  | ok _ =>
      refine joins.append (joins.pollLoop made limit s₁ c) ?_
      split
      · exact joins.single _ rfl
      · exact joins.nil _

theorem startKept (limit : Nat) (s : Client T κ) (c : ContextId) :
    R s (s.startKeptMoves callbacks limit c) := by
  refine joins.append (joins.start s c) ?_
  rw [after_startMoves]
  cases s.startLoop c with
  | mk answer s₁ =>
  cases answer with
  | error e => exact joins.nil s₁
  | ok _ =>
      refine joins.append (joins.pollLoop made limit s₁ c) ?_
      split
      · exact joins.single _ rfl
      · exact joins.nil _

theorem pollKept (limit : Nat) (s : Client T κ) (loop : Nat) :
    R s (s.pollKeptMoves callbacks limit loop) := by
  rw [pollKeptMoves]
  cases s.loops[loop]? with
  | none => exact joins.nil s
  | some started =>
  cases started with
  | polled | gone => exact joins.nil s
  | waiting c =>
      refine joins.cons rfl (joins.append (joins.pollLoop made limit _ c) ?_)
      split <;> exact joins.single _ rfl

omit made in
theorem cancelKept (s : Client T κ) (loop : Nat) : R s (s.cancelKeptMoves loop) := by
  rw [cancelKeptMoves]
  cases s.loops[loop]? with
  | none => exact joins.nil s
  | some started =>
  cases started with
  | polled | gone => exact joins.nil s
  | waiting c => exact joins.cons rfl (joins.single _ rfl)

theorem plan {plan : Plan T κ} (chooses : plan.Chooses R) (s : Client T κ) :
    R s (s.planMoves callbacks plan) := by
  induction plan generalizing s with
  | nil => exact joins.nil s
  | cons choose plan ih =>
      obtain ⟨now, later⟩ := List.forall_mem_cons.mp chooses
      refine joins.append ?_ (ih later _)
      cases chosen : choose s with
      | plain move plain => exact now s move plain chosen
      | keepBooks books => exact joins.single s rfl
      | dispatch c n => exact joins.dispatch made s c n
      | dispatchPending c limit => exact joins.dispatchPending made limit s c
      | runOnce c limit => exact joins.runOnce made limit s c
      | startKept c limit => exact joins.startKept made limit s c
      | pollKept loop limit => exact joins.pollKept made limit s loop
      | cancelKept loop => exact joins.cancelKept s loop

omit made in
/-- The induction is on the depth to which callbacks are nested. -/
theorem ofPlans {plans : Invocation κ → Plan T κ} (chooses : ∀ i, (plans i).Chooses R)
    (depth : Nat) (i : Invocation κ) (s : Client T κ) : R s (Client.callbacks plans depth i s) := by
  induction depth generalizing i s with
  | zero => exact joins.nil s
  | succ depth ih => exact joins.plan ih (chooses i) s

end Joins

end EventClient.Client
