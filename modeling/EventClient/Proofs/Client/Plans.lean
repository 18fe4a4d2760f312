import EventClient.Proofs.Client.Queues

/-!
Whole programs over a client. A plan chooses one operation after another, each from what it finds,
and callbacks are plans too, which may be nested to any depth. Every operation is spelled out here
as the moves that it makes with all of its callbacks, so what happens in the middle of a taking
shows in a run just as what comes between two operations.
-/
namespace EventClient.Client

variable {T κ : Type}

/-- Neither a step of a taking nor bookkeeping. -/
def Move.isPlain : Move T κ → Bool
  | .program (.lease _) | .program (.giveBack _) | .program (.takeNext _)
  | .program (.route ..) | .program (.keepBooks _) => false
  | _ => true

/-- What a program can do next. -/
inductive Operation (T κ : Type) where
  /-- A request, a change of handlers, subscriptions or the lifecycle, a stop request, a delivery,
  or something that happens to the transport. -/
  | plain (move : Move T κ) (isPlain : move.isPlain = true)
  /-- Change any books but the kept loops. -/
  | keepBooks (books : Client T κ)
  | dispatch (c : ContextId) (n : Notification)
  | dispatchPending (c : ContextId) (limit : Nat)
  | runOnce (c : ContextId) (limit : Nat)
  | startKept (c : ContextId) (limit : Nat)
  | pollKept (loop limit : Nat)
  | cancelKept (loop : Nat)

abbrev Plan (T κ : Type) := List (Client T κ → Operation T κ)

/-- What callbacks do, as moves. -/
abbrev Callbacks (T κ : Type) := Invocation κ → Client T κ → List (Move T κ)

variable [Transport T]

def Operation.apply (react : Reaction T κ) (s : Client T κ) : Operation T κ → Client T κ
  | .plain move _ => move.apply s
  | .keepBooks books => s.withBooks { books with loops := s.loops }
  | .dispatch c n => (s.dispatch react c n).2
  | .dispatchPending c limit => (s.dispatchPending react limit c).2
  | .runOnce c limit => (s.runOnce react limit c).2
  | .startKept c limit => (s.startKept react limit c).2
  | .pollKept loop limit => (s.pollKept react limit loop).2
  | .cancelKept loop => (s.cancelKept loop).2

def follow (react : Reaction T κ) (s : Client T κ) (plan : Plan T κ) : Client T κ :=
  plan.foldl (fun s choose => (choose s).apply react s) s

/-- What callbacks do that follow plans; those that are nested deeper than `depth` do nothing. -/
def reaction (plans : Invocation κ → Plan T κ) : Nat → Reaction T κ
  | 0 => fun _ s => s
  | depth + 1 => fun i s => s.follow (reaction plans depth) (plans i)

/-! ### The moves of an operation -/

def Callbacks.reaction (callbacks : Callbacks T κ) : Reaction T κ :=
  fun i s => s.after (callbacks i s)

def noted (s : Client T κ) (entries : List Entry) : Move T κ :=
  .program (.keepBooks (s.note entries))

def dispatchMoves (callbacks : Callbacks T κ) (s : Client T κ) (c : ContextId)
    (n : Notification) : List (Move T κ) :=
  .program (.route c n) ::
    match s.route c n with
    | (.ok (some i), s) => callbacks i s
    | _ => []

/-- A notification is taken, and then dispatched in what its taking leaves. -/
def servingMoves (callbacks : Callbacks T κ) (s : Client T κ) (c : ContextId)
    (n : Notification) : List (Move T κ) :=
  .program (.takeNext c) :: s.dispatchMoves callbacks c n

def pollMoves (callbacks : Callbacks T κ) (c : ContextId) :
    Nat → Client T κ → List (Move T κ)
  | 0, _ => []
  | limit + 1, s =>
    if s.isStopRequested c then []
    else
      match s.nextNotification? c with
      | some (n, s) =>
        let served := s.servingMoves callbacks c n
        match s.dispatch callbacks.reaction c n with
        | (.ok (), s) => served ++ pollMoves callbacks c limit s
        | (.error e, s) => served ++ [s.noted [.loopFailed e]]
      | none => if s.isOpen c || s.isReleased c then [] else [s.noted [.channelLost]]

def pollLoopMoves (callbacks : Callbacks T κ) (limit : Nat) (s : Client T κ) (c : ContextId) :
    List (Move T κ) :=
  pollMoves callbacks c limit s ++
    match poll callbacks.reaction c limit s with
    | (.pending, _) => []
    | (_, s) => [.program (.giveBack c), (s.giveBack c).noted [.loopStopped]]

def drainMoves (callbacks : Callbacks T κ) (c : ContextId) :
    Nat → Client T κ → List (Move T κ)
  | 0, _ => []
  | limit + 1, s =>
    match s.nextNotification? c with
    | none => []
    | some (n, s) =>
      let served := s.servingMoves callbacks c n
      match s.dispatch callbacks.reaction c n with
      | (.ok (), s) => served ++ drainMoves callbacks c limit s
      | (.error _, _) => served

def dispatchPendingMoves (callbacks : Callbacks T κ) (limit : Nat) (s : Client T κ)
    (c : ContextId) : List (Move T κ) :=
  .program (.lease c) ::
    match s.lease c with
    | (.error _, _) => []
    | (.ok (), s) => drainMoves callbacks c limit s ++ [.program (.giveBack c)]

def startMoves (s : Client T κ) (c : ContextId) : List (Move T κ) :=
  .program (.lease c) ::
    match s.lease c with
    | (.error _, _) => []
    | (.ok (), s) =>
      [.program (.forgetStop c), (Act.apply s (.forgetStop c)).noted [.loopStarted]]

def runOnceMoves (callbacks : Callbacks T κ) (limit : Nat) (s : Client T κ) (c : ContextId) :
    List (Move T κ) :=
  s.startMoves c ++
    match s.startLoop c with
    | (.error _, _) => []
    | (.ok (), s) =>
      s.pollLoopMoves callbacks limit c ++
        match s.pollLoop callbacks.reaction limit c with
        | (.pending, _) => [.program (.giveBack c)]
        | _ => []

def startKeptMoves (callbacks : Callbacks T κ) (limit : Nat) (s : Client T κ) (c : ContextId) :
    List (Move T κ) :=
  s.startMoves c ++
    match s.startLoop c with
    | (.error _, _) => []
    | (.ok (), s) =>
      s.pollLoopMoves callbacks limit c ++
        match s.pollLoop callbacks.reaction limit c with
        | (.pending, s) => [.program (.keepBooks { s with loops := s.loops ++ [.waiting c] })]
        | _ => []

def setLoop (s : Client T κ) (loop : Nat) (started : StartedLoop) : Client T κ :=
  { s with loops := s.loops.set loop started }

def pollKeptMoves (callbacks : Callbacks T κ) (limit : Nat) (s : Client T κ) (loop : Nat) :
    List (Move T κ) :=
  match s.loops[loop]? with
  | some (.waiting c) =>
    let s := s.setLoop loop (.polled c)
    .program (.keepBooks s) :: s.pollLoopMoves callbacks limit c ++
      match s.pollLoop callbacks.reaction limit c with
      | (.pending, s) => [.program (.keepBooks (s.setLoop loop (.waiting c)))]
      | (_, s) => [.program (.keepBooks (s.setLoop loop .gone))]
  | _ => []

def cancelKeptMoves (s : Client T κ) (loop : Nat) : List (Move T κ) :=
  match s.loops[loop]? with
  | some (.waiting c) =>
    [.program (.keepBooks (s.setLoop loop .gone)), .program (.giveBack c)]
  | _ => []

def Operation.moves (callbacks : Callbacks T κ) (s : Client T κ) :
    Operation T κ → List (Move T κ)
  | .plain move _ => [move]
  | .keepBooks books => [.program (.keepBooks { books with loops := s.loops })]
  | .dispatch c n => s.dispatchMoves callbacks c n
  | .dispatchPending c limit => s.dispatchPendingMoves callbacks limit c
  | .runOnce c limit => s.runOnceMoves callbacks limit c
  | .startKept c limit => s.startKeptMoves callbacks limit c
  | .pollKept loop limit => s.pollKeptMoves callbacks limit loop
  | .cancelKept loop => s.cancelKeptMoves loop

def planMoves (callbacks : Callbacks T κ) (s : Client T κ) : Plan T κ → List (Move T κ)
  | [] => []
  | choose :: plan =>
    let moves := (choose s).moves callbacks s
    moves ++ planMoves callbacks (s.after moves) plan

def callbacks (plans : Invocation κ → Plan T κ) : Nat → Callbacks T κ
  | 0 => fun _ _ => []
  | depth + 1 => fun i s => s.planMoves (callbacks plans depth) (plans i)

theorem planMoves_append (callbacks : Callbacks T κ) (s : Client T κ) (first second : Plan T κ) :
    s.planMoves callbacks (first ++ second) = s.planMoves callbacks first ++
      (s.after (s.planMoves callbacks first)).planMoves callbacks second := by
  induction first generalizing s with
  | nil => rfl
  | cons choose first ih =>
      simp only [List.cons_append, planMoves, ih, after_append, List.append_assoc]

/-! ### They are what the operation does -/

theorem apply_takeNext {s s' : Client T κ} {c : ContextId} {n : Notification}
    (h : s.nextNotification? c = some (n, s')) :
    Move.apply s (.program (.takeNext c)) = s' := by
  rw [Move.apply, Act.apply, h]
  rfl

section
variable (callbacks : Callbacks T κ) (s : Client T κ)

theorem after_dispatchMoves (c : ContextId) (n : Notification) :
    s.after (s.dispatchMoves callbacks c n) = (s.dispatch callbacks.reaction c n).2 := by
  simp only [dispatchMoves, dispatch, after_cons, Move.apply, Act.apply]
  split
  · next h => simp only [h]; rfl
  · next other =>
      split
      · next h => rw [h]; rfl
      · next h => rw [h]; rfl
      · next h => exact (other _ _ h).elim

variable {s} in
theorem after_servingMoves {c : ContextId} {n : Notification} {s₁ : Client T κ}
    (found : s.nextNotification? c = some (n, s₁)) :
    s.after (s₁.servingMoves callbacks c n) = (s₁.dispatch callbacks.reaction c n).2 := by
  rw [servingMoves, after_cons, apply_takeNext found, after_dispatchMoves]

/-- The induction is on the number of notifications that may still be taken. -/
theorem after_pollMoves (c : ContextId) (limit : Nat) :
    s.after (pollMoves callbacks c limit s) = (poll callbacks.reaction c limit s).2 := by
  induction limit generalizing s with
  | zero => rfl
  | succ limit ih =>
      simp only [pollMoves, poll]
      split
      · rfl
      · cases found : s.nextNotification? c with
        | none => cases s.isOpen c <;> cases s.isReleased c <;> rfl
        | some taken =>
            obtain ⟨n, s₁⟩ := taken
            have served := after_servingMoves callbacks found
            dsimp only
            cases h : s₁.dispatch callbacks.reaction c n with
            | mk result s₂ =>
            rw [h] at served
            cases result with
            | ok _ =>
                dsimp only
                rw [after_append, served, ih]
            | error e =>
                dsimp only
                rw [after_append, served]
                rfl

theorem after_pollLoopMoves (limit : Nat) (c : ContextId) :
    s.after (s.pollLoopMoves callbacks limit c) =
      (s.pollLoop callbacks.reaction limit c).2 := by
  simp only [pollLoopMoves, pollLoop, after_append, after_pollMoves]
  cases poll callbacks.reaction c limit s with
  | mk outcome s' => cases outcome <;> rfl

theorem after_drainMoves (c : ContextId) (limit count : Nat) :
    s.after (drainMoves callbacks c limit s) =
      (drain callbacks.reaction c limit count s).2 := by
  induction limit generalizing s count with
  | zero => rfl
  | succ limit ih =>
      simp only [drainMoves, drain]
      cases found : s.nextNotification? c with
      | none => rfl
      | some taken =>
          obtain ⟨n, s₁⟩ := taken
          have served := after_servingMoves callbacks found
          dsimp only
          cases h : s₁.dispatch callbacks.reaction c n with
          | mk result s₂ =>
          rw [h] at served
          cases result with
          | ok _ =>
              dsimp only
              rw [after_append, served]
              exact ih s₂ (count + 1)
          | error e => exact served

theorem after_dispatchPendingMoves (limit : Nat) (c : ContextId) :
    s.after (s.dispatchPendingMoves callbacks limit c) =
      (s.dispatchPending callbacks.reaction limit c).2 := by
  simp only [dispatchPendingMoves, dispatchPending, after_cons, Move.apply, Act.apply]
  cases s.lease c with
  | mk leased s' =>
  cases leased with
  | error e => rfl
  | ok _ =>
      dsimp only
      rw [after_append, after_drainMoves callbacks s' c limit 0]
      rfl

omit callbacks in
theorem after_startMoves (c : ContextId) : s.after (s.startMoves c) = (s.startLoop c).2 := by
  simp only [startMoves, startLoop, after_cons, Move.apply, Act.apply]
  cases s.lease c with
  | mk leased s' => cases leased <;> rfl

theorem after_runOnceMoves (limit : Nat) (c : ContextId) :
    s.after (s.runOnceMoves callbacks limit c) =
      (s.runOnce callbacks.reaction limit c).2 := by
  simp only [runOnceMoves, runOnce, after_append, after_startMoves]
  cases s.startLoop c with
  | mk started s' =>
  cases started with
  | error e => rfl
  | ok _ =>
      simp only [after_append, after_pollLoopMoves]
      cases s'.pollLoop callbacks.reaction limit c with
      | mk outcome s'' => cases outcome <;> rfl

theorem after_startKeptMoves (limit : Nat) (c : ContextId) :
    s.after (s.startKeptMoves callbacks limit c) =
      (s.startKept callbacks.reaction limit c).2 := by
  simp only [startKeptMoves, startKept, after_append, after_startMoves]
  cases s.startLoop c with
  | mk started s' =>
  cases started with
  | error e => rfl
  | ok _ =>
      simp only [after_append, after_pollLoopMoves]
      cases s'.pollLoop callbacks.reaction limit c with
      | mk outcome s'' => cases outcome <;> rfl

theorem after_pollKeptMoves (limit loop : Nat) :
    s.after (s.pollKeptMoves callbacks limit loop) =
      (s.pollKept callbacks.reaction limit loop).2 := by
  simp only [pollKeptMoves, pollKept]
  cases s.loops[loop]? with
  | none => rfl
  | some kept =>
  cases kept with
  | polled | gone => rfl
  | waiting c =>
      have polled := after_pollLoopMoves callbacks (s.setLoop loop (.polled c)) limit c
      dsimp only
      rw [List.cons_append, after_cons, after_append]
      refine (congrArg (after · _) polled).trans ?_
      simp only [setLoop]
      cases pollLoop callbacks.reaction limit
        { s with loops := s.loops.set loop (.polled c) } c with
      | mk outcome s' => cases outcome <;> rfl

omit callbacks in
theorem after_cancelKeptMoves (loop : Nat) :
    s.after (s.cancelKeptMoves loop) = (s.cancelKept loop).2 := by
  simp only [cancelKeptMoves, cancelKept]
  cases s.loops[loop]? with
  | none => rfl
  | some kept => cases kept <;> rfl

theorem after_operationMoves (operation : Operation T κ) :
    s.after (operation.moves callbacks s) = operation.apply callbacks.reaction s := by
  cases operation with
  | plain | keepBooks => rfl
  | dispatch c n => exact after_dispatchMoves callbacks s c n
  | dispatchPending c limit => exact after_dispatchPendingMoves callbacks s limit c
  | runOnce c limit => exact after_runOnceMoves callbacks s limit c
  | startKept c limit => exact after_startKeptMoves callbacks s limit c
  | pollKept loop limit => exact after_pollKeptMoves callbacks s limit loop
  | cancelKept loop => exact after_cancelKeptMoves s loop

theorem after_planMoves (plan : Plan T κ) :
    s.after (s.planMoves callbacks plan) = s.follow callbacks.reaction plan := by
  induction plan generalizing s with
  | nil => rfl
  | cons choose plan ih =>
      rw [planMoves, after_append, ih, after_operationMoves]
      rfl

end

/-- The induction is on the depth to which callbacks are nested. -/
theorem reaction_callbacks (plans : Invocation κ → Plan T κ) (depth : Nat) :
    (callbacks plans depth).reaction = reaction plans depth := by
  induction depth with
  | zero => rfl
  | succ depth ih =>
      funext i s
      have made := after_planMoves (callbacks plans depth) s (plans i)
      rwa [ih] at made

end EventClient.Client
