import EventClient.Proofs.Client.Views

/-!
Callbacks that cannot see whether the loop of a context is asked to stop, nor what was noted. While
the channel of the context is in use, no operation looks at its stop request, so such callbacks do
the same in any two clients that look alike, however deep they are nested.
-/
namespace EventClient.Client

variable {T κ : Type}

/-- The same operation, or a change of the books to ones that look alike. -/
inductive Operation.SameSeen (c : ContextId) : Operation T κ → Operation T κ → Prop
  | same (operation : Operation T κ) : SameSeen c operation operation
  | books {books books' : Client T κ} (same : books.view c = books'.view c) :
      SameSeen c (.keepBooks books) (.keepBooks books')

/-- A plan chooses by what a program can see, which is neither what was noted nor the stop request
of one context. -/
def Plan.Blind (c : ContextId) (plan : Plan T κ) : Prop :=
  ∀ choose ∈ plan, ∀ s s', s.view c = s'.view c → (choose s).SameSeen c (choose s')

theorem Plan.Blind.nil (c : ContextId) : Plan.Blind c ([] : Plan T κ) := by
  intro choose none
  cases none

theorem Plan.Blind.cons {c : ContextId} {choose : Client T κ → Operation T κ} {plan : Plan T κ}
    (now : ∀ s s', s.view c = s'.view c → (choose s).SameSeen c (choose s'))
    (later : plan.Blind c) : Plan.Blind c (choose :: plan) :=
  List.forall_mem_cons.mpr ⟨now, later⟩

/-- Callbacks do the same in clients that look alike, as long as the channel is in use. -/
def Callbacks.Blind (c : ContextId) (callbacks : Callbacks T κ) : Prop :=
  ∀ i s s', s.view c = s'.view c → s.InUse c → SameMoves c (callbacks i s) (callbacks i s')

section
variable {c : ContextId} {s s' : Client T κ} (same : s.view c = s'.view c)

include same

theorem isLeased_same (c' : ContextId) : s.isLeased c' = s'.isLeased c' := by
  rw [← isLeased_view s c, same, isLeased_view]

theorem loops_same : s.loops = s'.loops := (congrArg (·.loops) same :)

theorem inUse_same (used : s.InUse c) : s'.InUse c :=
  ⟨(isLeased_same same c).symm.trans used.1,
    (kept_of_loops_eq (loops_same same).symm c).trans used.2⟩

theorem next_same {c' : ContextId} {n : Notification} {s₁ : Client T κ}
    (found : s.nextNotification? c' = some (n, s₁)) :
    ∃ s₁', s'.nextNotification? c' = some (n, s₁') ∧ s₁.view c = s₁'.view c := by
  have next := view_nextNotification s c c'
  rw [same, view_nextNotification s' c c', found] at next
  obtain ⟨⟨n', s₁'⟩, found', is⟩ := Option.map_eq_some_iff.mp next
  obtain ⟨rfl, left⟩ := Prod.mk.inj is
  exact ⟨s₁', found', left.symm⟩

theorem none_same {c' : ContextId} (none : s.nextNotification? c' = none) :
    s'.nextNotification? c' = .none := by
  have next := view_nextNotification s c c'
  rw [same, view_nextNotification s' c c', none] at next
  exact Option.map_eq_none_iff.mp next

theorem isReleased_same (c' : ContextId) : s.isReleased c' = s'.isReleased c' := by
  rw [← isReleased_view s c, same, isReleased_view]

theorem transport_same : s.transport = s'.transport := (congrArg (·.transport) same :)

theorem context?_same (c' : ContextId) : s.context? c' = s'.context? c' := by
  rw [← context?_view s c, same, context?_view]

theorem queue_same (c' : ContextId) : s.queue c' = s'.queue c' := by
  rw [← queue_view s c, same, queue_view]

theorem route_same (c' : ContextId) (n : Notification) :
    (s.route c' n).1 = (s'.route c' n).1 := by
  rw [route_outcome, context?_same same, route_outcome]

theorem dispatch_same (react : Reaction T κ) (c' : ContextId) (n : Notification) :
    (s.dispatch react c' n).1 = (s'.dispatch react c' n).1 := by
  rw [dispatch_result, route_same same, dispatch_result]

theorem lease_same (c' : ContextId) :
    (s.lease c').1 = (s'.lease c').1 ∧ (s.lease c').2.view c = (s'.lease c').2.view c := by
  obtain ⟨answer, left⟩ := view_lease_comm s c c'
  rw [same] at answer left
  exact ⟨answer.symm.trans (view_lease_comm s' c c').1,
    left.symm.trans (view_lease_comm s' c c').2⟩

theorem startLoop_same (c' : ContextId) : (s.startLoop c').1 = (s'.startLoop c').1 := by
  have leased := (lease_same same c').1
  simp only [startLoop]
  cases h : s.lease c' with
  | mk answer s₁ =>
  cases h' : s'.lease c' with
  | mk answer' s₁' =>
  rw [h, h'] at leased
  cases leased
  cases answer <;> rfl

theorem isOpen_same [Transport T] (c' : ContextId) : s.isOpen c' = s'.isOpen c' :=
  (congrArg (·.isOpen c') same :)

end

variable [Transport T]

omit [Transport T] in
theorem view_withLoops {c : ContextId} {s s' books books' : Client T κ}
    (same : s.view c = s'.view c) (seen : books.view c = books'.view c) :
    view { books with loops := s.loops } c = view { books' with loops := s'.loops } c := by
  rw [← loops_same same]
  exact congrArg (fun left : Client T κ => { left with loops := s.loops }) seen

omit [Transport T] in
theorem view_setLoop {c : ContextId} {s s' : Client T κ} (same : s.view c = s'.view c) (loop : Nat)
    (started : StartedLoop) : (s.setLoop loop started).view c = (s'.setLoop loop started).view c :=
  congrArg (fun left : Client T κ => left.setLoop loop started) same

/-! ### Operations -/

theorem same_start {c : ContextId} {s s' : Client T κ} (same : s.view c = s'.view c)
    (c' : ContextId) : SameMoves c (s.startMoves c') (s'.startMoves c') := by
  obtain ⟨leased, left⟩ := lease_same same c'
  simp only [startMoves]
  cases h : s.lease c' with
  | mk answer s₁ =>
  cases h' : s'.lease c' with
  | mk answer' s₁' =>
  rw [h, h'] at leased left
  cases leased
  cases answer with
  | error e => exact .refl c _
  | ok _ =>
      have forgotten := view_apply left (.refl (Move.seen c (.program (.forgetStop c'))))
      exact .cons rfl (.cons rfl (.noted forgotten _))

section
variable {c : ContextId} {callbacks : Callbacks T κ} (spare : callbacks.Spare)
  (blind : callbacks.Blind c) {s s' : Client T κ} (same : s.view c = s'.view c) (used : s.InUse c)

include blind same used

theorem same_dispatch (c' : ContextId) (n : Notification) :
    SameMoves c (s.dispatchMoves callbacks c' n) (s'.dispatchMoves callbacks c' n) := by
  have routed := route_same same c' n
  have left : (Move.apply s (.program (.route c' n))).view c =
      (Move.apply s' (.program (.route c' n))).view c := view_apply same rfl
  simp only [Move.apply, Act.apply] at left
  have used' := inUse_route used c' n
  simp only [dispatchMoves]
  cases h : s.route c' n with
  | mk outcome s₁ =>
  cases h' : s'.route c' n with
  | mk outcome' s₁' =>
  rw [h, h'] at routed left
  rw [h] at used'
  cases routed
  cases outcome with
  | error e => exact .refl c _
  | ok i =>
      cases i with
      | none => exact .refl c _
      | some i => exact .cons rfl (blind i s₁ s₁' left used')

/-- The notification that comes next is served by the same moves, with the same answer. -/
theorem same_serving {c' : ContextId} {n : Notification} {s₁ : Client T κ}
    (found : s.nextNotification? c' = some (n, s₁)) :
    ∃ s₁', s'.nextNotification? c' = some (n, s₁') ∧
      SameMoves c (s₁.servingMoves callbacks c' n) (s₁'.servingMoves callbacks c' n) ∧
      (s₁.dispatch callbacks.reaction c' n).1 = (s₁'.dispatch callbacks.reaction c' n).1 ∧
      (s₁.dispatch callbacks.reaction c' n).2.view c =
        (s₁'.dispatch callbacks.reaction c' n).2.view c := by
  obtain ⟨s₁', found', left⟩ := next_same same found
  have dispatched := same_dispatch blind left (inUse_taken found used) c' n
  refine ⟨s₁', found', .cons rfl dispatched, dispatch_same left .., ?_⟩
  rw [← after_dispatchMoves, ← after_dispatchMoves]
  exact dispatched.left left

include spare

theorem same_poll {c' : ContextId} (other : c' ≠ c) (limit : Nat) :
    SameMoves c (pollMoves callbacks c' limit s) (pollMoves callbacks c' limit s') ∧
      (poll callbacks.reaction c' limit s).1 = (poll callbacks.reaction c' limit s').1 := by
  induction limit generalizing s s' with
  | zero => exact ⟨.refl c [], rfl⟩
  | succ limit ih =>
      have stop : s.isStopRequested c' = s'.isStopRequested c' := by
        rw [← isStopRequested_view s other, same, isStopRequested_view s' other]
      simp only [pollMoves, poll, stop, isOpen_same same, isReleased_same same]
      split
      · exact ⟨.refl c [], rfl⟩
      · cases found : s.nextNotification? c' with
        | none =>
            rw [none_same same found]
            cases s'.isOpen c' <;> cases s'.isReleased c'
            · exact ⟨.noted same _, rfl⟩
            all_goals exact ⟨.refl c [], rfl⟩
        | some next =>
            obtain ⟨n, s₁⟩ := next
            obtain ⟨s₁', found', served, answers, left⟩ := same_serving blind same used found
            have used' := (keeps_serving spare found).inUse (Ne.symm other) used
            rw [after_servingMoves callbacks found] at used'
            rw [found']
            dsimp only
            cases dispatched : s₁.dispatch callbacks.reaction c' n with
            | mk answer s₂ =>
            cases dispatched' : s₁'.dispatch callbacks.reaction c' n with
            | mk answer' s₂' =>
            rw [dispatched, dispatched'] at answers left
            rw [dispatched] at used'
            cases answers
            cases answer with
            | ok _ =>
                obtain ⟨later, outcome⟩ := ih left used'
                exact ⟨served.append later, outcome⟩
            | error e =>
                exact ⟨served.append (.noted left _), rfl⟩

theorem same_pollLoop {c' : ContextId} (other : c' ≠ c) (limit : Nat) :
    SameMoves c (s.pollLoopMoves callbacks limit c') (s'.pollLoopMoves callbacks limit c') ∧
      (s.pollLoop callbacks.reaction limit c').1 = (s'.pollLoop callbacks.reaction limit c').1 := by
  obtain ⟨polls, outcomes⟩ := same_poll spare blind same used other limit
  have left := polls.left same
  rw [after_pollMoves, after_pollMoves] at left
  simp only [pollLoopMoves, pollLoop]
  cases polled : poll callbacks.reaction c' limit s with
  | mk outcome s₁ =>
  cases polled' : poll callbacks.reaction c' limit s' with
  | mk outcome' s₁' =>
  rw [polled, polled'] at outcomes left
  cases outcomes
  have given : (Move.apply s₁ (.program (.giveBack c'))).view c =
      (Move.apply s₁' (.program (.giveBack c'))).view c := view_apply left rfl
  have ended : SameMoves c
      [.program (.giveBack c'), (s₁.giveBack c').noted [.loopStopped]]
      [.program (.giveBack c'), (s₁'.giveBack c').noted [.loopStopped]] :=
    .cons rfl (.noted given _)
  cases outcome with
  | pending => exact ⟨polls.append (.refl c []), rfl⟩
  | finished | failed | unfinished => exact ⟨polls.append ended, rfl⟩

theorem same_drain {c' : ContextId} (other : c' ≠ c) (limit : Nat) :
    SameMoves c (drainMoves callbacks c' limit s) (drainMoves callbacks c' limit s') := by
  induction limit generalizing s s' with
  | zero => exact .refl c []
  | succ limit ih =>
      simp only [drainMoves]
      cases found : s.nextNotification? c' with
      | none =>
          rw [none_same same found]
          exact .refl c []
      | some next =>
          obtain ⟨n, s₁⟩ := next
          obtain ⟨s₁', found', served, answers, left⟩ := same_serving blind same used found
          have used' := (keeps_serving spare found).inUse (Ne.symm other) used
          rw [after_servingMoves callbacks found] at used'
          rw [found']
          dsimp only
          cases dispatched : s₁.dispatch callbacks.reaction c' n with
          | mk answer s₂ =>
          cases dispatched' : s₁'.dispatch callbacks.reaction c' n with
          | mk answer' s₂' =>
          rw [dispatched, dispatched'] at answers left
          rw [dispatched] at used'
          cases answers
          cases answer with
          | ok _ => exact served.append (ih left used')
          | error e => exact served

/-- The channel in use is leased to nobody else, and the others are drained alike. -/
theorem same_dispatchPending (limit : Nat) (c' : ContextId) :
    SameMoves c (s.dispatchPendingMoves callbacks limit c')
      (s'.dispatchPendingMoves callbacks limit c') := by
  obtain ⟨leases, left⟩ := lease_same same c'
  simp only [dispatchPendingMoves]
  cases leased : s.lease c' with
  | mk answer s₁ =>
  cases leased' : s'.lease c' with
  | mk answer' s₁' =>
  rw [leased, leased'] at leases left
  cases leases
  cases answer with
  | error e => exact .refl c _
  | ok _ =>
      have other : c' ≠ c := by
        rintro rfl
        rw [lease_leased used.1] at leased
        cases leased
      have used₁ := (Keeps.lease_ok leased).inUse (Ne.symm other) used
      rw [after_cons, Move.apply, Act.apply, leased] at used₁
      exact .cons rfl ((same_drain spare blind left used₁ other limit).append (.refl c _))

/-- A loop that can be started is one of another context. -/
theorem same_started {c' : ContextId} {s₁ s₁' : Client T κ}
    (started : s.startLoop c' = (.ok (), s₁)) (started' : s'.startLoop c' = (.ok (), s₁'))
    (limit : Nat) :
    SameMoves c (s₁.pollLoopMoves callbacks limit c') (s₁'.pollLoopMoves callbacks limit c') ∧
      (s₁.pollLoop callbacks.reaction limit c').1 =
        (s₁'.pollLoop callbacks.reaction limit c').1 ∧
      (s₁.pollLoop callbacks.reaction limit c').2.view c =
        (s₁'.pollLoop callbacks.reaction limit c').2.view c := by
  have other : c' ≠ c := by
    rintro rfl
    rw [startLoop_leased used.1] at started
    cases started
  have used₁ := (keeps_start_ok started).inUse (Ne.symm other) used
  have left := (same_start same c').left same
  rw [after_startMoves, started] at used₁
  rw [after_startMoves, after_startMoves, started, started'] at left
  obtain ⟨polls, outcomes⟩ := same_pollLoop spare blind left used₁ other limit
  refine ⟨polls, outcomes, ?_⟩
  rw [← after_pollLoopMoves, ← after_pollLoopMoves]
  exact polls.left left

theorem same_runOnce (limit : Nat) (c' : ContextId) :
    SameMoves c (s.runOnceMoves callbacks limit c') (s'.runOnceMoves callbacks limit c') := by
  have starts := same_start same c'
  have answers := startLoop_same same c'
  simp only [runOnceMoves]
  cases started : s.startLoop c' with
  | mk answer s₁ =>
  cases started' : s'.startLoop c' with
  | mk answer' s₁' =>
  rw [started, started'] at answers
  cases answers
  cases answer with
  | error e => exact starts.append (.refl c [])
  | ok _ =>
      obtain ⟨polls, outcomes, -⟩ := same_started spare blind same used started started' limit
      refine starts.append (polls.append ?_)
      cases polled : s₁.pollLoop callbacks.reaction limit c' with
      | mk outcome s₂ =>
      cases polled' : s₁'.pollLoop callbacks.reaction limit c' with
      | mk outcome' s₂' =>
      rw [polled, polled'] at outcomes
      cases outcomes
      cases outcome <;> exact .refl c _

theorem same_startKept (limit : Nat) (c' : ContextId) :
    SameMoves c (s.startKeptMoves callbacks limit c') (s'.startKeptMoves callbacks limit c') := by
  have starts := same_start same c'
  have answers := startLoop_same same c'
  simp only [startKeptMoves]
  cases started : s.startLoop c' with
  | mk answer s₁ =>
  cases started' : s'.startLoop c' with
  | mk answer' s₁' =>
  rw [started, started'] at answers
  cases answers
  cases answer with
  | error e => exact starts.append (.refl c [])
  | ok _ =>
      obtain ⟨polls, outcomes, left⟩ := same_started spare blind same used started started' limit
      refine starts.append (polls.append ?_)
      cases polled : s₁.pollLoop callbacks.reaction limit c' with
      | mk outcome s₂ =>
      cases polled' : s₁'.pollLoop callbacks.reaction limit c' with
      | mk outcome' s₂' =>
      rw [polled, polled'] at outcomes left
      cases outcomes
      cases outcome with
      | pending => exact .books (congrArg (fun left : Client T κ =>
          { left with loops := left.loops ++ [StartedLoop.waiting c'] }) left) (.refl c [])
      | finished | failed | unfinished => exact .refl c []

/-- A loop that is kept is one of another context, because the channel in use is not with one. -/
theorem same_pollKept (limit loop : Nat) :
    SameMoves c (s.pollKeptMoves callbacks limit loop)
      (s'.pollKeptMoves callbacks limit loop) := by
  simp only [pollKeptMoves, ← loops_same same]
  cases waits : s.loops[loop]? with
  | none => exact .refl c []
  | some started =>
  cases started with
  | polled | gone => exact .refl c []
  | waiting c' =>
      have polling := view_setLoop same loop (.polled c')
      have unlike : ∀ c'', StartedLoop.polled c' ≠ .waiting c'' := fun _ h => by cases h
      have kept := kept_resumed waits unlike c
      rw [used.2] at kept
      have other : c' ≠ c := by
        rintro rfl
        simp at kept
      have used₁ : (s.setLoop loop (.polled c')).InUse c :=
        ⟨used.1, Nat.eq_zero_of_add_eq_zero_right kept⟩
      obtain ⟨polls, outcomes⟩ := same_pollLoop spare blind polling used₁ other limit
      have left := polls.left polling
      rw [after_pollLoopMoves, after_pollLoopMoves] at left
      refine .books polling (polls.append ?_)
      cases polled : (s.setLoop loop (.polled c')).pollLoop callbacks.reaction limit c' with
      | mk outcome s₂ =>
      cases polled' : (s'.setLoop loop (.polled c')).pollLoop callbacks.reaction limit c' with
      | mk outcome' s₂' =>
      rw [polled, polled'] at outcomes left
      cases outcomes
      cases outcome <;> exact .books (view_setLoop left loop _) (.refl c [])

omit spare blind used [Transport T] in
theorem same_cancelKept (loop : Nat) :
    SameMoves c (s.cancelKeptMoves loop) (s'.cancelKeptMoves loop) := by
  simp only [cancelKeptMoves, ← loops_same same]
  cases s.loops[loop]? with
  | none => exact .refl c []
  | some started =>
  cases started with
  | polled | gone => exact .refl c []
  | waiting c' => exact .books (view_setLoop same loop _) (.refl c _)

theorem same_operation {operation operation' : Operation T κ}
    (seen : operation.SameSeen c operation') :
    SameMoves c (operation.moves callbacks s) (operation'.moves callbacks s') := by
  cases seen with
  | books books => exact .books (view_withLoops same books) (.refl c [])
  | same operation =>
      cases operation with
      | plain move plain => exact .refl c _
      | keepBooks books => exact .books (view_withLoops same rfl) (.refl c [])
      | dispatch c' n => exact same_dispatch blind same used c' n
      | dispatchPending c' limit => exact same_dispatchPending spare blind same used limit c'
      | runOnce c' limit => exact same_runOnce spare blind same used limit c'
      | startKept c' limit => exact same_startKept spare blind same used limit c'
      | pollKept loop limit => exact same_pollKept spare blind same used limit loop
      | cancelKept loop => exact same_cancelKept same loop

theorem same_plan {plan : Plan T κ} (sees : plan.Blind c) :
    SameMoves c (s.planMoves callbacks plan) (s'.planMoves callbacks plan) := by
  induction plan generalizing s s' with
  | nil => exact .refl c []
  | cons choose plan ih =>
      obtain ⟨now, later⟩ := List.forall_mem_cons.mp sees
      have moves := same_operation spare blind same used (now s s' same)
      have used' := (spares_operation spare s (choose s)).inUse used
      exact moves.append (ih (moves.left same) used' later)

end

/-- The induction is on the depth to which callbacks are nested. -/
theorem blind_callbacks {c : ContextId} {plans : Invocation κ → Plan T κ}
    (sees : ∀ i, (plans i).Blind c) (depth : Nat) : (callbacks plans depth).Blind c := by
  induction depth with
  | zero => exact fun _ _ _ _ _ => .refl c []
  | succ depth ih =>
      exact fun i s s' same used =>
        same_plan (spare_callbacks plans depth) ih same used (sees i)

end EventClient.Client
