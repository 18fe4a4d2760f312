import EventClient.Proofs.Client.Blindness
import EventClient.Proofs.Client.Polling

/-!
A loop that is started and polled once against a draining of its channel. As long as nobody asks the
loop to stop, both serve what the channel holds in the same way, and they differ only in what they
make of the end: where the draining is done, the loop looks whether more can come.
-/
namespace EventClient.Client

variable {T κ : Type}

/-- A plan that never asks the loop of a context to stop, nor releases the context. -/
def Plan.Unhurried (c : ContextId) (plan : Plan T κ) : Prop :=
  ∀ choose ∈ plan, ∀ s move plain, choose s = .plain move plain → move.stops s c = false

theorem Plan.Unhurried.nil (c : ContextId) : Plan.Unhurried c ([] : Plan T κ) := by
  intro choose none
  cases none

theorem Plan.Unhurried.cons {c : ContextId} {choose : Client T κ → Operation T κ}
    {plan : Plan T κ}
    (now : ∀ s move plain, choose s = .plain move plain → move.stops s c = false)
    (later : plan.Unhurried c) : Plan.Unhurried c (choose :: plan) :=
  List.forall_mem_cons.mpr ⟨now, later⟩

/-- The channel of a context can be had: it is not leased, and no kept loop waits on it. -/
structure Available (s : Client T κ) (c : ContextId) : Prop where
  leases : (s.lease c).1 = .ok ()
  unkept : s.kept c = 0

variable [Transport T]

/-- In a program, nothing but the lease can be in the way. -/
theorem available_of_lease (t : T) (plans : Invocation κ → Plan T κ) (depth : Nat) (plan : Plan T κ)
    {c : ContextId} (leases : (((start t).follow (reaction plans depth) plan).lease c).1 = .ok ()) :
    ((start t).follow (reaction plans depth) plan).Available c where
  leases := leases
  unkept := by
    rw [← reaction_callbacks, ← after_planMoves] at leases ⊢
    obtain ⟨w, -, fits, -⟩ :=
      (spares_plan (spare_callbacks plans depth) (start t) plan).passes c {} (fits_start t c)
    obtain ⟨idle, -⟩ := lease_ok (Prod.ext leases rfl)
    apply Nat.eq_zero_of_not_pos
    intro some
    cases idle.symm.trans (fits.kept some)

/-- What a poll comes to that finds the channel empty. -/
def emptied (s : Client T κ) (c : ContextId) : Poll :=
  if s.isOpen c then .pending else if s.isReleased c then .finished else .failed .channelClosed

theorem emptied_giveBack (s : Client T κ) (c : ContextId) :
    (s.giveBack c).emptied c = s.emptied c := by
  have isOpen : (s.giveBack c).isOpen c = s.isOpen c := by
    simp only [giveBack, updateSlot]
    split <;> rfl
  have released : (s.giveBack c).isReleased c = s.isReleased c := by
    rw [isReleased, giveBack, slot?_updateSlot, if_pos rfl, isReleased]
    cases s.slot? c <;> rfl
  rw [emptied, isOpen, released, emptied]

theorem emptied_same {c : ContextId} {s s' : Client T κ} (same : s.view c = s'.view c) :
    s.emptied c = s'.emptied c := by
  rw [emptied, isOpen_same same, isReleased_same same, emptied]

theorem emptied_failed {s : Client T κ} {c : ContextId} {e : ClientError}
    (h : s.emptied c = .failed e) : e = .channelClosed := by
  simp only [emptied] at h
  split at h
  · cases h
  · split at h <;> cases h
    rfl

/-! ### While nobody asks for a stop -/

theorem joins_unstopped (c : ContextId) :
    Joins fun (s : Client T κ) moves => s.stopped moves c = false where
  nil _ := rfl
  append h h' := by rw [stopped_append, h, h', Bool.or_false]
  single s move other := by
    have quiet : move.stops s c = false := by
      cases move with
      | deliver | transport => rfl
      | program act =>
          cases act with
          | requestStop | release => cases other
          | _ => rfl
    rw [stopped_cons, quiet]
    rfl
  begun _ := rfl

theorem Plan.Unhurried.chooses {c : ContextId} {plan : Plan T κ} (unhurried : plan.Unhurried c) :
    plan.Chooses fun s moves => s.stopped moves c = false := by
  intro choose chosen s move plain is
  have quiet := unhurried choose chosen s move plain is
  rw [stopped_cons, quiet]
  rfl

/-- A stop that nobody requested is not requested, whoever forgets the requests that there were. -/
theorem unasked_after {s : Client T κ} {c : ContextId} (leased : s.isLeased c = true)
    {moves : List (Move T κ)} (held : .program (.giveBack c) ∉ moves)
    (none : s.stopped moves c = false) (unasked : s.isStopRequested c = false) :
    (s.after moves).isStopRequested c = false := by
  induction moves generalizing s with
  | nil => exact unasked
  | cons move moves ih =>
      obtain ⟨holdsNow, holdsLater⟩ := not_or.mp (mt List.mem_cons.mpr held)
      rw [stopped_cons] at none
      obtain ⟨now, later⟩ := Bool.or_eq_false_iff.mp none
      refine ih (isLeased_apply leased (Ne.symm holdsNow)) holdsLater later ?_
      by_cases forgets : move = .program (.forgetStop c)
      · subst forgets
        rw [Move.apply, Act.apply, isStopRequested, slot?_updateSlot, if_pos rfl]
        cases s.slot? c <;> rfl
      · rw [isStopRequested_apply leased forgets, unasked, now]
        rfl

/-! ### A poll against a draining -/

/-- What a poll and a draining come to that go the same way: both fail in the same dispatch, or the
draining counts what was taken and the poll sees what an empty channel means. -/
inductive Concludes (c : ContextId) (left : Client T κ) (count : Nat) :
    Poll → Except Poll Nat → Prop
  | failed {e : ClientError} (unknown : ∃ kind id, e = .unknownCorrelation kind id) :
      Concludes c left count (.failed e) (.error (.failed e))
  | emptied : Concludes c left count (left.emptied c) (.ok count)

theorem Concludes.answers {c : ContextId} {left : Client T κ} {count : Nat} {outcome : Poll}
    {result : Except Poll Nat} (h : Concludes c left count outcome result) :
    (∀ e, result = .error (.failed e) ↔ outcome = .failed e ∧ e ≠ .channelClosed) ∧
      ((∀ e, result ≠ .error (.failed e)) → result = .ok count ∧ outcome = left.emptied c) := by
  cases h with
  | @failed e unknown =>
      refine ⟨fun e' => ⟨?_, ?_⟩, fun none => absurd rfl (none e)⟩
      · rintro ⟨⟩
        refine ⟨rfl, ?_⟩
        rintro rfl
        obtain ⟨kind, id, unknown⟩ := unknown
        cases unknown
      · rintro ⟨⟨⟩, -⟩
        rfl
  | emptied =>
      refine ⟨fun e => ⟨nofun, ?_⟩, fun _ => ⟨rfl, rfl⟩⟩
      rintro ⟨fails, other⟩
      exact absurd (emptied_failed fails) other

section
variable {c : ContextId} {callbacks : Callbacks T κ} (spare : callbacks.Spare)
  (blind : callbacks.Blind c)
  (unstopped : ∀ i (s : Client T κ), s.stopped (callbacks i s) c = false)

include spare blind unstopped

/-- The induction is on the number of notifications that the poll may take. -/
theorem poll_agrees {s s' : Client T κ} (same : s.view c = s'.view c) (used : s.InUse c)
    (unasked : s.isStopRequested c = false) {limit limit' count : Nat}
    (ends : (poll callbacks.reaction c limit s).1 ≠ .unfinished)
    (ends' : (drain callbacks.reaction c limit' count s').1 ≠ .error .unfinished) :
    Alike c s s' (pollMoves callbacks c limit s) (drainMoves callbacks c limit' s') ∧
      Concludes c (s.after (pollMoves callbacks c limit s))
        (count + (s.taken (pollMoves callbacks c limit s) c).length)
        (poll callbacks.reaction c limit s).1
        (drain callbacks.reaction c limit' count s').1 := by
  induction limit generalizing s s' limit' count with
  | zero => exact absurd rfl ends
  | succ limit ih =>
      cases limit' with
      | zero => exact absurd rfl ends'
      | succ limit' =>
      simp only [poll, pollMoves, drain, drainMoves, unasked, Bool.false_eq_true, if_false]
        at ends ends' ⊢
      cases found : s.nextNotification? c with
      | none =>
          rw [none_same same found]
          have comes : (if s.isOpen c then (.pending, s)
              else if s.isReleased c then (.finished, s)
              else (.failed .channelClosed, s.note [.channelLost]) : Poll × Client T κ).1 =
                s.emptied c := by
            rw [emptied]
            split
            · rfl
            · split <;> rfl
          dsimp only at comes ⊢
          rw [comes]
          split
          · exact ⟨(SameMoves.refl c []).alike same, .emptied⟩
          · have left : (s.after [s.noted [.channelLost]]).emptied c = s.emptied c := rfl
            rw [← left]
            exact ⟨alike_noted same _, .emptied⟩
      | some next =>
          obtain ⟨n, s₁⟩ := next
          obtain ⟨s₁', found', served, answers, left⟩ := same_serving blind same used found
          have serves := serves spare used found
          have alike := served.alike same
          have after := after_servingMoves callbacks found
          have unasked' := unasked_after used.1 serves.held
            ((joins_unstopped c).serving unstopped found) unasked
          rw [found] at ends
          rw [found'] at ends' ⊢
          dsimp only at ends ends' ⊢
          have after' := after_servingMoves callbacks found'
          cases dispatched : s₁.dispatch callbacks.reaction c n with
          | mk answer s₂ =>
          cases dispatched' : s₁'.dispatch callbacks.reaction c n with
          | mk answer' s₂' =>
          rw [dispatched, dispatched'] at answers left
          rw [dispatched] at after ends
          rw [dispatched'] at after' ends'
          cases answers
          cases answer with
          | error e =>
              have unknown := dispatch_error (congrArg Prod.fst dispatched)
              have noted : Alike c (s.after (s₁.servingMoves callbacks c n))
                  (s'.after (s₁'.servingMoves callbacks c n)) [s₂.noted [.loopFailed e]] [] := by
                rw [after, after']
                exact alike_noted left _
              have whole := alike.append noted
              rw [List.append_nil] at whole
              exact ⟨whole, .failed unknown⟩
          | ok _ =>
              rw [after] at unasked'
              obtain ⟨later, concludes⟩ := ih left (after ▸ serves.inUse) unasked' ends ends'
              refine ⟨alike.append (by rwa [after, after']), ?_⟩
              rw [after_append, taken_append, serves.taken, after, List.length_append,
                List.length_singleton, ← Nat.add_assoc]
              exact concludes

end

/-! ### A started loop against a draining -/

theorem apply_lease {s s₁ : Client T κ} {c : ContextId} (leased : s.lease c = (.ok (), s₁)) :
    Move.apply s (.program (.lease c)) = s₁ := by
  rw [Move.apply, Act.apply, leased]

/-- The start of a loop looks like a lease. -/
theorem alike_start {s s₁ : Client T κ} {c : ContextId} (leased : s.lease c = (.ok (), s₁)) :
    Alike c s s (s.startMoves c) [.program (.lease c)] := by
  have starts : s.startMoves c = [.program (.lease c), .program (.forgetStop c),
      (Act.apply s₁ (.forgetStop c)).noted [.loopStarted]] := by
    rw [startMoves, leased]
  rw [starts]
  refine ⟨rfl, fun _ => rfl, ?_⟩
  simp only [after_cons, after_nil, apply_lease leased]
  exact view_forgetStop s₁ c

theorem runOnce_answer {react : Reaction T κ} {s begun : Client T κ} {c : ContextId}
    (started : s.startLoop c = (.ok (), begun)) (limit : Nat) :
    (s.runOnce react limit c).1 = .ok (poll react c limit begun).1 := by
  simp only [runOnce, started, pollLoop]
  cases poll react c limit begun with
  | mk outcome left => cases outcome <;> rfl

/-- A loop that was started and polled once gives its channel back, and may note that it stopped. -/
theorem alike_polled {callbacks : Callbacks T κ} {s begun s' : Client T κ} {c : ContextId}
    (started : s.startLoop c = (.ok (), begun)) {limit : Nat} {moves : List (Move T κ)}
    (polls : Alike c begun s' (pollMoves callbacks c limit begun) moves) :
    ∃ during, s.runOnceMoves callbacks limit c = s.startMoves c ++ during ∧
      Alike c begun s' during (moves ++ [.program (.giveBack c)]) := by
  have given : Alike c (begun.after (pollMoves callbacks c limit begun)) (s'.after moves)
      [.program (.giveBack c)] [.program (.giveBack c)] := (SameMoves.refl c _).alike polls.left
  have noted := given.append (alike_noted given.left [.loopStopped])
  have after := after_pollMoves callbacks begun c limit
  simp only [runOnceMoves, started, pollLoop, pollLoopMoves]
  cases polled : poll callbacks.reaction c limit begun with
  | mk outcome left =>
  rw [polled] at after
  subst after
  cases outcome with
  | pending =>
      refine ⟨_, rfl, ?_⟩
      dsimp only
      rw [List.append_nil]
      exact polls.append given
  | finished | failed | unfinished =>
      refine ⟨_, rfl, ?_⟩
      dsimp only
      rw [List.append_nil]
      exact polls.append noted

omit [Transport T] in
theorem dispatchPending_eq {react : Reaction T κ} {s s₁ : Client T κ} {c : ContextId}
    (leased : s.lease c = (.ok (), s₁)) (limit : Nat) :
    s.dispatchPending react limit c =
      ((drain react c limit 0 s₁).1, (drain react c limit 0 s₁).2.giveBack c) := by
  rw [dispatchPending, leased]

/-! A draining that has the channel is framed by its lease and its return. -/

theorem dispatchPendingMoves_eq (callbacks : Callbacks T κ) {s s₁ : Client T κ} {c : ContextId}
    (leased : s.lease c = (.ok (), s₁)) (limit : Nat) :
    s.dispatchPendingMoves callbacks limit c = [.program (.lease c)] ++
      (drainMoves callbacks c limit s₁ ++ [.program (.giveBack c)]) := by
  simp only [dispatchPendingMoves, leased]
  rfl

/-- The frame takes nothing. -/
theorem taken_dispatchPendingMoves (callbacks : Callbacks T κ) {s s₁ : Client T κ} {c : ContextId}
    (leased : s.lease c = (.ok (), s₁)) (limit : Nat) :
    s.taken (s.dispatchPendingMoves callbacks limit c) c =
      s₁.taken (drainMoves callbacks c limit s₁) c := by
  rw [dispatchPendingMoves_eq callbacks leased, taken_append, taken_append]
  simp [taken, history, Move.taken?, apply_lease leased]

/-- Nor does it matter to whether more can come. -/
theorem emptied_dispatchPending (callbacks : Callbacks T κ) {s s₁ : Client T κ} {c : ContextId}
    (leased : s.lease c = (.ok (), s₁)) (limit : Nat) :
    (s.dispatchPending callbacks.reaction limit c).2.emptied c =
      (s₁.after (drainMoves callbacks c limit s₁)).emptied c := by
  rw [dispatchPending_eq leased, after_drainMoves, emptied_giveBack]

/-- A loop that is started and polled once and a draining from the same client take the same
notifications, invoke the same callbacks with the same arguments in the same order, and leave the
same, where no callback asks the loop to stop or releases its context. A draining fails exactly with
the error of a dispatch with which the loop fails; else it counts what was taken, and the loop waits
or is over, by whether more can come. -/
theorem loop_agrees_with_draining {plans : Invocation κ → Plan T κ} {depth : Nat} {c : ContextId}
    (blind : ∀ i, (plans i).Blind c) (unhurried : ∀ i, (plans i).Unhurried c) {s : Client T κ}
    (available : s.Available c) {limit limit' : Nat}
    (ends : (s.runOnce (reaction plans depth) limit c).1 ≠ .ok .unfinished)
    (ends' : (s.dispatchPending (reaction plans depth) limit' c).1 ≠ .error .unfinished) :
    let looped := s.runOnce (reaction plans depth) limit c
    let drained := s.dispatchPending (reaction plans depth) limit' c
    let drains := s.dispatchPendingMoves (callbacks plans depth) limit' c
    Alike c s s (s.runOnceMoves (callbacks plans depth) limit c) drains ∧
    looped.2.view c = drained.2.view c ∧ looped.2.transport = drained.2.transport ∧
    (∀ c', looped.2.context? c' = drained.2.context? c' ∧
      looped.2.queue c' = drained.2.queue c') ∧
    (∀ e, drained.1 = .error (.failed e) ↔ looped.1 = .ok (.failed e) ∧ e ≠ .channelClosed) ∧
    ((∀ e, drained.1 ≠ .error (.failed e)) →
      drained.1 = .ok (s.taken drains c).length ∧ looped.1 = .ok (drained.2.emptied c)) := by
  rw [← reaction_callbacks plans depth] at ends ends' ⊢
  intro looped drained drains
  obtain ⟨s₁, leased⟩ : ∃ s₁, s.lease c = (.ok (), s₁) := ⟨_, Prod.ext available.leases rfl⟩
  obtain ⟨begun, started, same⟩ : ∃ begun, s.startLoop c = (.ok (), begun) ∧
      begun.view c = s₁.view c := ⟨_, startLoop_ok leased, view_forgetStop s₁ c⟩
  obtain ⟨-, loops, leases⟩ := lease_ok leased
  have used : s₁.InUse c :=
    ⟨by rw [leases, if_pos rfl], (kept_of_loops_eq loops c).trans available.unkept⟩
  have answer : looped.1 = .ok (poll _ c limit begun).1 := runOnce_answer started limit
  have drained_eq : drained = _ := dispatchPending_eq leased limit'
  rw [runOnce_answer started] at ends
  rw [dispatchPending_eq leased] at ends'
  obtain ⟨polls, concludes⟩ := poll_agrees (spare_callbacks plans depth)
    (blind_callbacks blind depth)
    ((joins_unstopped c).ofPlans (fun i => (unhurried i).chooses) depth)
    same (inUse_same same.symm used) (startLoop_begins started).2 (fun h => ends (by rw [h])) ends'
  obtain ⟨during, whole, alike⟩ := alike_polled started polls
  have all : Alike c s s (s.runOnceMoves (callbacks plans depth) limit c) drains := by
    rw [whole, show drains = _ from dispatchPendingMoves_eq _ leased limit']
    refine (alike_start leased).append ?_
    rw [after_startMoves, started, after_cons, apply_lease leased]
    exact alike
  have left := all.left
  rw [after_runOnceMoves, after_dispatchPendingMoves] at left
  -- What was taken, and what an empty channel means, are the same on both sides.
  have count : (s.taken drains c).length =
      0 + (begun.taken (pollMoves (callbacks plans depth) c limit begun) c).length := by
    rw [polls.taken, taken_dispatchPendingMoves _ leased, Nat.zero_add]
  have comes : drained.2.emptied c =
      (begun.after (pollMoves (callbacks plans depth) c limit begun)).emptied c := by
    rw [emptied_same polls.left, emptied_dispatchPending _ leased]
  obtain ⟨fails, counts⟩ := concludes.answers
  refine ⟨all, left, transport_same left, fun c' => ⟨context?_same left c', queue_same left c'⟩,
    fun e => ?_, fun none => ?_⟩
  · rw [answer, Except.ok.injEq, drained_eq]
    exact fails e
  · rw [drained_eq] at none
    obtain ⟨counted, outcome⟩ := counts none
    rw [count, comes, answer, outcome, drained_eq]
    exact ⟨counted, rfl⟩

/-- A handler that lists applications and delivers a second event when it first runs. -/
def listsOnce (i : Invocation Nat) : Plan Loopback Nat :=
  if i.runs = 0 then
    [fun _ => .plain (.program (.list 0 .all 2 none)) (.refl true),
      fun _ => .plain (.deliver 0 (.event ⟨"e", "2"⟩)) (.refl true)]
  else []

/-- An event waits for that handler, and the loop was asked to stop before it is started. -/
def awaitingHandler : Plan Loopback Nat :=
  [fun _ => .plain (.program .acquire) (.refl true),
    fun _ => .plain (.program (.setEventHandler 0 (some { callback := 1, userData := none })))
      (.refl true),
    fun _ => .plain (.deliver 0 (.event ⟨"e", "1"⟩)) (.refl true),
    fun _ => .plain (.program (.requestStop 0)) (.refl true)]

theorem awaitingHandler_agrees :
    let s := (start ({} : Loopback)).follow (reaction listsOnce 1) awaitingHandler
    (∀ i, (listsOnce i).Blind 0) ∧ (∀ i, (listsOnce i).Unhurried 0) ∧ s.Available 0 ∧
      (s.runOnce (reaction listsOnce 1) 5 0).1 = .ok .pending ∧
      (s.dispatchPending (reaction listsOnce 1) 5 0).1 = .ok 2 ∧
      Alike 0 s s (s.runOnceMoves (callbacks listsOnce 1) 5 0)
        (s.dispatchPendingMoves (callbacks listsOnce 1) 5 0) := by
  intro s
  have blind (i : Invocation Nat) : (listsOnce i).Blind 0 := by
    rw [listsOnce]
    split
    · exact .cons (fun _ _ _ => .same _) (.cons (fun _ _ _ => .same _) (.nil 0))
    · exact .nil 0
  have unhurried (i : Invocation Nat) : (listsOnce i).Unhurried 0 := by
    rw [listsOnce]
    split
    · refine .cons ?_ (.cons ?_ (.nil 0)) <;> (rintro s move plain ⟨⟩; rfl)
    · exact .nil 0
  have available : s.Available 0 := ⟨rfl, rfl⟩
  have loops : (s.runOnce (reaction listsOnce 1) 5 0).1 = .ok .pending := by rfl
  have drains : (s.dispatchPending (reaction listsOnce 1) 5 0).1 = .ok 2 := by rfl
  have ends : (s.runOnce (reaction listsOnce 1) 5 0).1 ≠ .ok .unfinished := by
    rw [loops]
    simp
  have ends' : (s.dispatchPending (reaction listsOnce 1) 5 0).1 ≠ .error .unfinished := by
    rw [drains]
    simp
  have agrees := loop_agrees_with_draining blind unhurried available ends ends'
  exact ⟨blind, unhurried, available, loops, drains, agrees.1⟩

end EventClient.Client
