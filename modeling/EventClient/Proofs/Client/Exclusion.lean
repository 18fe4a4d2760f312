import EventClient.Proofs.Client.Conservation
import EventClient.Proofs.Correlation.Events

/-!
One taker at a time. A channel is leased to one taker and given back before the next one has it.
Whoever tries to have it meanwhile is turned away and leaves the client as it was, so a program does
what it would do without such tries. However a taking ends, the channel can be had again.
-/
namespace EventClient.Client

variable {T κ : Type}

/-! ### Being turned away -/

/-- The context whose channel an operation wants for itself. -/
def Operation.triesFrom? : Operation T κ → Option ContextId
  | .dispatchPending c _ | .runOnce c _ | .startKept c _ => some c
  | .plain .. | .keepBooks _ | .dispatch .. | .pollKept .. | .cancelKept _ => none

/-- Somebody has the channel that an operation wants. -/
def Operation.isTurnedAway (s : Client T κ) (operation : Operation T κ) : Bool :=
  operation.triesFrom?.any s.isLeased

/-- Try where somebody has the channel; else do nothing. -/
def whileTaken (choose : Client T κ → Operation T κ) (s : Client T κ) : Operation T κ :=
  if (choose s).isTurnedAway s then choose s else .keepBooks s

/-- A plan with more tries, all of them made while somebody has the channel. -/
inductive Tries : Plan T κ → Plan T κ → Prop where
  | nil : Tries [] []
  | same (choose : Client T κ → Operation T κ) {plan plan' : Plan T κ} (rest : Tries plan plan') :
      Tries (choose :: plan) (choose :: plan')
  | more (choose : Client T κ → Operation T κ) {plan plan' : Plan T κ} (rest : Tries plan plan') :
      Tries plan (whileTaken choose :: plan')

variable [Transport T]

/-- What whoever tries to take from a channel sees of it, and what others see of the try. -/
structure TurnsAway (s : Client T κ) (c : ContextId) : Prop where
  dispatchPending : ∀ react limit,
    s.dispatchPending react limit c = (.error (.failed .loopAlreadyRunning), s)
  runOnce : ∀ react limit, s.runOnce react limit c = (.error .loopAlreadyRunning, s)
  startKept : ∀ react limit, s.startKept react limit c = (.error .loopAlreadyRunning, s)
  /-- Nothing is taken, and nothing is dispatched or invoked. -/
  quiet : ∀ (callbacks : Callbacks T κ) (operation : Operation T κ),
    operation.triesFrom? = some c → ∀ c',
      s.taken (operation.moves callbacks s) c' = [] ∧ s.events (operation.moves callbacks s) = []

theorem moves_turnedAway {s : Client T κ} {c : ContextId} (taken : s.isLeased c = true)
    (callbacks : Callbacks T κ) {operation : Operation T κ}
    (tries : operation.triesFrom? = some c) :
    operation.moves callbacks s = [.program (.lease c)] := by
  cases operation with
  | plain | keepBooks | dispatch | pollKept | cancelKept => cases tries
  | dispatchPending c' limit =>
      cases tries
      simp only [Operation.moves, dispatchPendingMoves, lease_leased taken]
  | runOnce c' limit =>
      cases tries
      simp only [Operation.moves, runOnceMoves, startMoves, startLoop_leased taken,
        lease_leased taken, List.append_nil]
  | startKept c' limit =>
      cases tries
      simp only [Operation.moves, startKeptMoves, startMoves, startLoop_leased taken,
        lease_leased taken, List.append_nil]

theorem turnsAway {s : Client T κ} {c : ContextId} (taken : s.isLeased c = true) :
    s.TurnsAway c where
  dispatchPending react limit := by simp only [Client.dispatchPending, lease_leased taken]
  runOnce react limit := by simp only [Client.runOnce, startLoop_leased taken]
  startKept react limit := by simp only [Client.startKept, startLoop_leased taken]
  quiet callbacks operation tries c' := by
    rw [moves_turnedAway taken callbacks tries]
    exact ⟨rfl, rfl⟩

theorem apply_turnedAway (react : Reaction T κ) {s : Client T κ} {operation : Operation T κ}
    (away : operation.isTurnedAway s = true) : operation.apply react s = s := by
  cases operation with
  | plain | keepBooks | dispatch | pollKept | cancelKept => cases away
  | dispatchPending c limit =>
      exact congrArg Prod.snd ((turnsAway away).dispatchPending react limit)
  | runOnce c limit => exact congrArg Prod.snd ((turnsAway away).runOnce react limit)
  | startKept c limit => exact congrArg Prod.snd ((turnsAway away).startKept react limit)

theorem apply_whileTaken (react : Reaction T κ) (choose : Client T κ → Operation T κ)
    (s : Client T κ) : (whileTaken choose s).apply react s = s := by
  rw [whileTaken]
  split
  · next away => exact apply_turnedAway react away
  · rfl

theorem follow_tries (react : Reaction T κ) {plan plan' : Plan T κ} (tries : Tries plan plan')
    (s : Client T κ) : s.follow react plan' = s.follow react plan := by
  induction tries generalizing s with
  | nil => rfl
  | same choose _ ih => exact ih ((choose s).apply react s)
  | more choose _ ih =>
      rw [← ih s]
      exact congrArg (follow react · _) (apply_whileTaken react choose s)

/-- The induction is on the depth to which callbacks are nested. -/
theorem reaction_tries {plans plans' : Invocation κ → Plan T κ}
    (tries : ∀ i, Tries (plans i) (plans' i)) (depth : Nat) :
    reaction plans' depth = reaction plans depth := by
  induction depth with
  | zero => rfl
  | succ depth ih =>
      funext i s
      rw [reaction, reaction, ih]
      exact follow_tries _ (tries i) s

/-! ### How often a channel is leased and given back -/

/-- The lease of a channel, granted. -/
def Move.isGrant (s : Client T κ) (c : ContextId) : Move T κ → Bool
  | .program (.lease c') => c' == c && (s.lease c').1.isOk
  | _ => false

omit [Transport T] in
/-- The end of a taking from a channel. -/
def Move.isReturn (c : ContextId) : Move T κ → Bool
  | .program (.giveBack c') => c' == c
  | _ => false

/-- How often a channel was leased to somebody. -/
def granted (s : Client T κ) (moves : List (Move T κ)) (c : ContextId) : Nat :=
  (s.history moves).countP fun (found, move) => move.isGrant found c

/-- How often a channel was given back. -/
def returned (moves : List (Move T κ)) (c : ContextId) : Nat := moves.countP (·.isReturn c)

theorem counts_of_sees {c : ContextId} {s : Client T κ} {w w' : Takings} {move : Move T κ}
    (h : Sees c s w move w') :
    (move.isGrant s c).toNat + w.current.isSome.toNat =
      (move.isReturn c).toNat + w'.current.isSome.toNat := by
  cases h with
  | aside elsewhere =>
      have neither : move.isGrant s c = false ∧ move.isReturn c = false := by
        constructor
        · simp only [Move.isGrant]
          split
          · simp_all [Move.takesFrom]
          · rfl
        · simp only [Move.isReturn]
          split
          · simp_all [Move.takesFrom]
          · rfl
      rw [neither.1, neither.2]
  | refused free answer => simp [Move.isGrant, Move.isReturn, answer, Except.isOk, Except.toBool]
  | begins idle answer =>
      simp [Move.isGrant, Move.isReturn, answer, idle, Except.isOk, Except.toBool]
  | takes current | dispatches current | fails current =>
      simp [Move.isGrant, Move.isReturn, current]
  | ends current => simp [Move.isGrant, Move.isReturn, current]

theorem Watches.counts {c : ContextId} {s : Client T κ} {w w' : Takings}
    {moves : List (Move T κ)} (h : Watches c s w moves w') :
    s.granted moves c + w.current.isSome.toNat =
      returned moves c + w'.current.isSome.toNat := by
  induction h with
  | nil => rfl
  | @cons s w w₁ w₂ move moves sees _ ih =>
      have first := counts_of_sees sees
      have granting : s.granted (move :: moves) c =
          (move.isGrant s c).toNat + (move.apply s).granted moves c := by
        cases h : move.isGrant s c <;> simp [granted, history, h, Nat.add_comm]
      have returning : returned (move :: moves) c =
          (move.isReturn c).toNat + returned moves c := by
        cases h : move.isReturn c <;> simp [returned, h, Nat.add_comm]
      omega

/-! ### The end of a taking -/

/-- Operations that have a channel and are done with it. -/
inductive Ends (react : Reaction T κ) (s : Client T κ) (c : ContextId) :
    Operation T κ → Prop where
  /-- Whether or not a dispatch failed. -/
  | drained (limit : Nat) (had : (s.lease c).1 = .ok ()) : Ends react s c (.dispatchPending c limit)
  /-- A loop that is abandoned where it has to wait, or is over before that. -/
  | polled (limit : Nat) (had : (s.lease c).1 = .ok ()) : Ends react s c (.runOnce c limit)
  /-- A loop that does not have to wait: it was stopped, it failed, or its channel is closed. -/
  | started {limit loop : Nat} {outcome : Poll}
      (answer : (s.startKept react limit c).1 = .ok (outcome, loop)) (ended : outcome ≠ .pending) :
      Ends react s c (.startKept c limit)
  | resumed {limit loop : Nat} {outcome : Poll} (had : s.isLeased c = true)
      (waits : s.loops[loop]? = some (.waiting c))
      (answer : (s.pollKept react limit loop).1 = some outcome) (ended : outcome ≠ .pending) :
      Ends react s c (.pollKept loop limit)
  | cancelled {loop : Nat} (had : s.isLeased c = true)
      (waits : s.loops[loop]? = some (.waiting c)) : Ends react s c (.cancelKept loop)

omit [Transport T] in
theorem isLeased_givenBack (s : Client T κ) (c : ContextId) :
    (s.giveBack c).isLeased c = false := by
  rw [isLeased_giveBack, if_pos rfl]

theorem isLeased_pollLoop (react : Reaction T κ) (limit : Nat) (s : Client T κ) (c : ContextId)
    (ended : (s.pollLoop react limit c).1 ≠ .pending) :
    (s.pollLoop react limit c).2.isLeased c = false := by
  rw [pollLoop] at ended ⊢
  cases h : poll react c limit s with
  | mk outcome s' =>
  cases outcome with
  | pending =>
      rw [h] at ended
      exact absurd rfl ended
  | finished | failed | unfinished => exact isLeased_givenBack s' c

theorem isLeased_ends {react : Reaction T κ} {s : Client T κ} {c : ContextId}
    {operation : Operation T κ} (ends : Ends react s c operation) :
    (operation.apply react s).isLeased c = false := by
  cases ends with
  | drained limit had =>
      rw [Operation.apply, dispatchPending]
      cases h : s.lease c with
      | mk answer s' =>
      rw [h] at had
      cases answer with
      | error e => cases had
      | ok _ => exact isLeased_givenBack _ c
  | polled limit had =>
      obtain ⟨s', started⟩ : ∃ s', s.startLoop c = (.ok (), s') :=
        ⟨_, startLoop_ok (Prod.ext had rfl)⟩
      have ended := isLeased_pollLoop react limit s' c
      rw [Operation.apply, runOnce, started]
      dsimp only
      cases h : s'.pollLoop react limit c with
      | mk outcome s'' =>
      rw [h] at ended
      cases outcome with
      | pending => exact isLeased_givenBack s'' c
      | finished | failed | unfinished => exact ended (by simp)
  | @started limit loop outcome answer ended =>
      rw [startKept] at answer
      rw [Operation.apply, startKept]
      cases begun : s.startLoop c with
      | mk leased s' =>
      rw [begun] at answer
      cases leased with
      | error e => cases answer
      | ok _ =>
          have left := isLeased_pollLoop react limit s' c
          dsimp only at answer ⊢
          cases h : s'.pollLoop react limit c with
          | mk outcome' s'' =>
          rw [h] at answer left
          cases outcome' with
          | pending =>
              cases answer
              exact absurd rfl ended
          | finished | failed | unfinished => exact left (by simp)
  | @resumed limit loop outcome had waits answer ended =>
      rw [pollKept, waits] at answer
      rw [Operation.apply, pollKept, waits]
      have left := isLeased_pollLoop react limit { s with loops := s.loops.set loop (.polled c) } c
      dsimp only at answer ⊢
      cases h : pollLoop react limit { s with loops := s.loops.set loop (.polled c) } c with
      | mk outcome' s'' =>
      rw [h] at answer left
      cases outcome' with
      | pending =>
          cases answer
          exact absurd rfl ended
      | finished | failed | unfinished => exact left (by simp)
  | cancelled had waits =>
      rw [Operation.apply, cancelKept, waits]
      exact isLeased_givenBack _ c

/-- A context that was opened is never closed: its slot stays. -/
theorem slot?_after {s : Client T κ} {c : ContextId} (there : (s.slot? c).isSome = true)
    (moves : List (Move T κ)) : ((s.after moves).slot? c).isSome = true := by
  induction moves generalizing s with
  | nil => exact there
  | cons move moves ih =>
      apply ih
      have contexts : ∀ s : Client T κ, (s.context? c).isSome = (s.slot? c).isSome := by
        intro s
        rw [context?, Option.isSome_map]
      rw [← contexts] at there ⊢
      rcases context?_apply s move c with changed | ⟨-, -, opened⟩
      · rw [changed, Option.isSome_map]
        exact there
      · rw [opened]
        rfl

omit [Transport T] in
theorem lease_free {s : Client T κ} {c : ContextId} (there : (s.slot? c).isSome = true)
    (free : s.isLeased c = false) : (s.lease c).1 = .ok () := by
  obtain ⟨slot, h⟩ := Option.isSome_iff_exists.mp there
  rw [isLeased, h] at free
  have unleased : slot.leased = false := free
  simp only [lease, h, unleased, Bool.false_eq_true, if_false]

omit [Transport T] in
theorem slot?_of_lease {s : Client T κ} {c : ContextId} (had : (s.lease c).1 = .ok ()) :
    (s.slot? c).isSome = true := by
  rw [lease] at had
  cases h : s.slot? c with
  | none =>
      rw [h] at had
      cases had
  | some slot => rfl

theorem slot?_of_ends {react : Reaction T κ} {s : Client T κ} {c : ContextId}
    {operation : Operation T κ} (ends : Ends react s c operation) :
    (s.slot? c).isSome = true := by
  cases ends with
  | drained limit had | polled limit had => exact slot?_of_lease had
  | resumed had | cancelled had =>
      obtain ⟨slot, there⟩ := slot?_of_leased had
      rw [there]
      rfl
  | @started limit loop outcome answer ended =>
      apply slot?_of_lease
      rw [startKept, startLoop] at answer
      cases h : s.lease c with
      | mk leased s' =>
      rw [h] at answer
      cases leased with
      | error e => cases answer
      | ok _ => rfl

/-- Whoever ends a taking leaves the channel to be leased again. -/
theorem lease_of_ends {plans : Invocation κ → Plan T κ} {depth : Nat} {s : Client T κ}
    {c : ContextId} {operation : Operation T κ}
    (ends : Ends (reaction plans depth) s c operation) :
    ((operation.apply (reaction plans depth) s).lease c).1 = .ok () := by
  refine lease_free ?_ (isLeased_ends ends)
  rw [← reaction_callbacks plans depth, ← after_operationMoves]
  exact slot?_after (slot?_of_ends ends) _

/-! ### Whole programs -/

omit [Transport T] in
/-- Where nobody uses a channel but a kept loop, it is leased exactly while there is one. -/
theorem kept_eq_leased {c : ContextId} {s : Client T κ} {w : Takings} (fits : Fits c .none s w)
    (unused : ¬ Other c .none s) : s.kept c = (s.isLeased c).toNat := by
  cases leased : s.isLeased c with
  | false =>
      apply Nat.eq_zero_of_not_pos
      intro some
      have still := fits.kept some
      rw [leased] at still
      cases still
  | true =>
      have some : s.kept c ≠ 0 := fun none => unused ⟨rfl, leased, none⟩
      have single := fits.single
      rw [Bool.toNat_true]
      omega

/-- At every moment of a program, a channel was leased as often as it was given back, and once more
while somebody has it. Whoever tries to have it then is turned away and changes nothing, so programs
do the same without such tries. Between two operations it is had exactly by a loop that waits, and
whoever ends a taking makes the channel available. -/
theorem one_taker (plans : Invocation κ → Plan T κ) (depth : Nat) (t : T) (plan : Plan T κ)
    (c : ContextId) :
    let moves := (start t).planMoves (callbacks plans depth) plan
    (∀ before, before <+: moves →
      let s := (start t).after before
      (start t).granted before c = returned before c + (s.isLeased c).toNat ∧
      (s.isLeased c = true → s.TurnsAway c)) ∧
    ((start t).after moves).kept c = (((start t).after moves).isLeased c).toNat ∧
    (∀ plans' plan', (∀ i, Tries (plans i) (plans' i)) → Tries plan plan' →
      reaction plans' depth = reaction plans depth ∧
      (start t).follow (reaction plans' depth) plan' =
        (start t).follow (reaction plans depth) plan) ∧
    ∀ s operation, Ends (reaction plans depth) s c operation →
      ((operation.apply (reaction plans depth) s).lease c).1 = .ok () := by
  intro moves
  obtain ⟨w, watches, fits, other, -⟩ :=
    (spares_plan (spare_callbacks plans depth) (start t) plan).passes c {} (fits_start t c)
  refine ⟨?_, ?_, ?_, fun s operation => lease_of_ends⟩
  · rintro before ⟨rest, whole⟩
    have watches : Watches c (start t) {} (before ++ rest) w := whole ▸ watches
    obtain ⟨w', watches'⟩ := watches.of_append
    refine ⟨?_, turnsAway⟩
    rw [watches'.leased rfl]
    exact watches'.counts
  · exact kept_eq_leased fits fun used => nomatch (other.mpr used).2.1
  · intro plans' plan' callbacks main
    have same := reaction_tries callbacks depth
    refine ⟨same, ?_⟩
    rw [same]
    exact follow_tries _ main _

/-- A loop that waits, with a stop request behind its start. -/
def stoppedWhileWaiting : Plan Loopback Nat :=
  [fun _ => .plain (.program .acquire) (.refl true),
    fun _ => .startKept 0 5,
    fun _ => .plain (.program (.requestStop 0)) (.refl true)]

theorem stoppedWhileWaiting_turnsAway :
    let moves := (start ({} : Loopback)).planMoves (callbacks (fun _ => []) 1) stoppedWhileWaiting
    let s := (start ({} : Loopback)).after moves
    let tried := stoppedWhileWaiting ++ [whileTaken fun _ => .runOnce 0 5]
    let react := reaction (fun _ : Invocation Nat => ([] : Plan Loopback Nat)) 1
    moves <+: moves ∧ s.isLeased 0 = true ∧ s.TurnsAway 0 ∧ s.kept 0 = 1 ∧
      Tries stoppedWhileWaiting tried ∧
      (start ({} : Loopback)).follow react tried =
        (start ({} : Loopback)).follow react stoppedWhileWaiting ∧
      Ends react s 0 (.cancelKept 0) ∧
      (((Operation.cancelKept 0).apply react s).lease 0).1 = .ok () := by
  intro moves s tried react
  obtain ⟨always, kept, inert, available⟩ :=
    one_taker (fun _ => []) 1 ({} : Loopback) stoppedWhileWaiting 0
  have leased : s.isLeased 0 = true := by decide
  have more : Tries stoppedWhileWaiting tried :=
    .same _ (.same _ (.same _ (.more _ .nil)))
  have cancelled : Ends react s 0 (.cancelKept 0) := .cancelled leased (by decide)
  have waits : s.kept 0 = 1 := by
    rw [kept]
    exact congrArg Bool.toNat leased
  exact ⟨List.prefix_rfl, leased, (always moves List.prefix_rfl).2 leased, waits, more,
    (inert (fun _ => []) tried (fun _ => .nil) more).2, cancelled, available s _ cancelled⟩

end EventClient.Client
