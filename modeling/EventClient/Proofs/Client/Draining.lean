import EventClient.Proofs.Client.Agreement

/-!
How long a draining of a channel goes on. It looks at the channel again after each notification, so
it dispatches what waited when it began and then what its own callbacks put behind that. It is done
once they put nothing more there, and a callback that always does keeps it busy for ever.
-/
namespace EventClient.Client

variable {T κ : Type} [Transport T]

/-- How a draining ends that has counted `count` notifications and may take `limit` more, by what it
takes of them and what it leaves on the channel. -/
inductive Settles (limit count : Nat) (took left : List Notification) :
    Except Poll Nat → Prop
  | emptied (empty : left = []) (within : took.length < limit) :
      Settles limit count took left (.ok (count + took.length))
  /-- The last dispatch failed. -/
  | failed {e : ClientError} (unknown : ∃ kind id, e = .unknownCorrelation kind id)
      (last : took ≠ []) (within : took.length ≤ limit) :
      Settles limit count took left (.error (.failed e))
  | cut (all : took.length = limit) : Settles limit count took left (.error .unfinished)

theorem Settles.served {limit count : Nat} {took left : List Notification}
    {answer : Except Poll Nat} (settles : Settles limit (count + 1) took left answer)
    (n : Notification) : Settles (limit + 1) count (n :: took) left answer := by
  cases settles with
  | emptied empty within =>
      have counted : count + 1 + took.length = count + (n :: took).length := by
        rw [List.length_cons, Nat.add_assoc, Nat.add_comm 1]
      rw [counted]
      exact .emptied empty (Nat.succ_lt_succ within)
  | failed unknown last within =>
      exact .failed unknown (List.cons_ne_nil _ _) (Nat.succ_le_succ within)
  | cut all => exact .cut (congrArg (· + 1) all)

theorem Settles.counted {limit count : Nat} {took left : List Notification} {total : Nat}
    (settles : Settles limit count took left (.ok total)) :
    total = count + took.length ∧ left = [] ∧ took.length < limit := by
  cases settles with
  | emptied empty within => exact ⟨rfl, empty, within⟩

theorem Settles.of_unfinished {limit count : Nat} {took left : List Notification}
    (settles : Settles limit count took left (.error .unfinished)) : took.length = limit := by
  cases settles with
  | cut all => exact all

/-- The induction is on the number of notifications that may be taken. -/
theorem settles_drain {callbacks : Callbacks T κ} (spare : callbacks.Spare) {s : Client T κ}
    {c : ContextId} (used : s.InUse c) (limit count : Nat) :
    Settles limit count (s.taken (drainMoves callbacks c limit s) c)
      ((drain callbacks.reaction c limit count s).2.queue c)
      (drain callbacks.reaction c limit count s).1 := by
  induction limit generalizing s count with
  | zero => exact .cut rfl
  | succ limit ih =>
      simp only [drain, drainMoves]
      cases found : s.nextNotification? c with
      | none => exact .emptied (nextNotification?_empty.mp found) (Nat.succ_pos _)
      | some next =>
          obtain ⟨n, s₁⟩ := next
          have serves := serves spare used found
          have after := after_servingMoves callbacks found
          dsimp only
          cases dispatched : s₁.dispatch callbacks.reaction c n with
          | mk answer s₂ =>
          rw [dispatched] at after
          cases answer with
          | error e =>
              dsimp only
              rw [serves.taken]
              exact .failed (dispatch_error (congrArg Prod.fst dispatched)) (List.cons_ne_nil _ _)
                (Nat.succ_le_succ (Nat.zero_le _))
          | ok _ =>
              dsimp only
              rw [taken_append, serves.taken, after]
              exact (ih (after ▸ serves.inUse) (count + 1)).served n

/-! ### More notifications than needed -/

/-- A draining that ends does not look at how many more it might have taken. -/
theorem drain_more {callbacks : Callbacks T κ} {s : Client T κ} {c : ContextId}
    {limit count : Nat}
    (ends : (drain callbacks.reaction c limit count s).1 ≠ .error .unfinished) (more : Nat) :
    drain callbacks.reaction c (limit + more) count s =
        drain callbacks.reaction c limit count s ∧
      drainMoves callbacks c (limit + more) s = drainMoves callbacks c limit s := by
  induction limit generalizing s count with
  | zero => exact absurd rfl ends
  | succ limit ih =>
      rw [Nat.succ_add]
      simp only [drain, drainMoves] at ends ⊢
      cases found : s.nextNotification? c with
      | none => exact ⟨rfl, rfl⟩
      | some next =>
          obtain ⟨n, s₁⟩ := next
          rw [found] at ends
          dsimp only at ends ⊢
          cases dispatched : s₁.dispatch callbacks.reaction c n with
          | mk answer s₂ =>
          rw [dispatched] at ends
          cases answer with
          | error e => exact ⟨rfl, rfl⟩
          | ok _ =>
              obtain ⟨same, moves⟩ := ih ends
              dsimp only
              rw [same, moves]
              exact ⟨rfl, rfl⟩

theorem dispatchPending_more {callbacks : Callbacks T κ} {s : Client T κ} {c : ContextId}
    (leases : (s.lease c).1 = .ok ()) {limit : Nat}
    (ends : (s.dispatchPending callbacks.reaction limit c).1 ≠ .error .unfinished) (more : Nat) :
    s.dispatchPending callbacks.reaction (limit + more) c =
        s.dispatchPending callbacks.reaction limit c ∧
      s.dispatchPendingMoves callbacks (limit + more) c =
        s.dispatchPendingMoves callbacks limit c := by
  have leased : s.lease c = (.ok (), (s.lease c).2) := Prod.ext leases rfl
  rw [dispatchPending_eq leased] at ends
  obtain ⟨same, moves⟩ := drain_more ends more
  simp only [dispatchPending_eq leased, dispatchPendingMoves_eq callbacks leased, same, moves,
    and_self]

/-! ### Whole drainings -/

/-- What a draining comes to that finds `waiting` on its channel and may take `limit` notifications,
where `came` is delivered to the channel meanwhile. -/
structure Drains (limit : Nat) (waiting came took left : List Notification)
    (answer : Except Poll Nat) : Prop where
  conserved : waiting ++ came = took ++ left
  settles : Settles limit 0 took left answer

namespace Drains

variable {limit : Nat} {waiting came took left : List Notification} {answer : Except Poll Nat}

theorem lengths (h : Drains limit waiting came took left answer) :
    waiting.length + came.length = took.length + left.length := by
  rw [← List.length_append, h.conserved, List.length_append]

theorem counts {count : Nat} (h : Drains limit waiting came took left (.ok count)) :
    count = waiting.length + came.length ∧ took.length < limit := by
  obtain ⟨counted, empty, within⟩ := h.settles.counted
  rw [h.lengths, counted, empty, Nat.zero_add]
  exact ⟨rfl, within⟩

theorem ends (h : Drains limit waiting came took left answer)
    (bound : waiting.length + came.length < limit) : answer ≠ .error .unfinished := by
  rintro rfl
  have all := h.settles.of_unfinished
  have lengths := h.lengths
  omega

theorem undisturbed (h : Drains limit waiting [] took left answer) :
    took <+: waiting ∧ (waiting.length < limit → (∀ e, answer ≠ .error (.failed e)) →
      answer = .ok waiting.length) := by
  refine ⟨⟨left, by rw [← h.conserved, List.append_nil]⟩, fun bound unfailed => ?_⟩
  have ends := h.ends bound
  cases answer with
  | ok count => exact congrArg Except.ok h.counts.1
  | error outcome =>
      cases h.settles with
      | failed => exact absurd rfl (unfailed _)
      | cut => exact absurd rfl ends

end Drains

theorem drains_dispatchPending {callbacks : Callbacks T κ} (spare : callbacks.Spare)
    {s : Client T κ} {c : ContextId} (available : s.Available c) (limit : Nat) :
    let moves := s.dispatchPendingMoves callbacks limit c
    let run := s.dispatchPending callbacks.reaction limit c
    Drains limit (s.queue c) (s.delivered moves c) (s.taken moves c) (run.2.queue c) run.1 := by
  intro moves run
  obtain ⟨s₁, leased⟩ : ∃ s₁, s.lease c = (.ok (), s₁) := ⟨_, Prod.ext available.leases rfl⟩
  obtain ⟨-, loops, leases⟩ := lease_ok leased
  have used : s₁.InUse c :=
    ⟨by rw [leases, if_pos rfl], (kept_of_loops_eq loops c).trans available.unkept⟩
  constructor
  case conserved =>
    rw [show run.2 = s.after moves from (after_dispatchPendingMoves callbacks s limit c).symm]
    exact queue_after s moves c
  case settles =>
    have left (s₂ : Client T κ) : (s₂.giveBack c).queue c = s₂.queue c :=
      queue_act s₂ (.giveBack c) c
    rw [taken_dispatchPendingMoves callbacks leased, show run = _ from dispatchPending_eq leased _,
      left]
    exact settles_drain spare used limit 0

/-- A draining returns if it ends where it may take enough notifications. -/
def Returns (react : Reaction T κ) (s : Client T κ) (c : ContextId) : Prop :=
  ∃ limit, (s.dispatchPending react limit c).1 ≠ .error .unfinished

/-- What a draining dispatches is what waited when it began and, behind that, what is delivered to
the channel while it runs; it stops early only where a dispatch fails. So it counts what waited if
nothing is delivered meanwhile, and only then; and it returns exactly when what waited and what is
delivered meanwhile stays below some bound. -/
theorem draining_takes_what_comes (plans : Invocation κ → Plan T κ) (depth : Nat)
    {s : Client T κ} {c : ContextId} (available : s.Available c) :
    let run limit := s.dispatchPending (reaction plans depth) limit c
    let moves limit := s.dispatchPendingMoves (callbacks plans depth) limit c
    let waiting := s.queue c
    let came limit := s.delivered (moves limit) c
    let took limit := s.taken (moves limit) c
    (∀ limit, (run limit).2 = s.after (moves limit) ∧
      Drains limit waiting (came limit) (took limit) ((run limit).2.queue c) (run limit).1 ∧
      (∀ count, (run limit).1 = .ok count → count = waiting.length + (came limit).length ∧
        (count = waiting.length ↔ came limit = [])) ∧
      (came limit = [] → took limit <+: waiting ∧
        (waiting.length < limit → (∀ e, (run limit).1 ≠ .error (.failed e)) →
          (run limit).1 = .ok waiting.length)) ∧
      ((run limit).1 ≠ .error .unfinished → ∀ more, run (limit + more) = run limit)) ∧
    (s.Returns (reaction plans depth) c ↔
      ∃ limit, waiting.length + (came limit).length < limit) := by
  rw [← reaction_callbacks plans depth]
  intro run moves waiting came took
  have drains (limit : Nat) :
      Drains limit waiting (came limit) (took limit) ((run limit).2.queue c) (run limit).1 :=
    drains_dispatchPending (spare_callbacks plans depth) available limit
  have more (limit : Nat) (ends : (run limit).1 ≠ .error .unfinished) (more : Nat) :
      run (limit + more) = run limit ∧ moves (limit + more) = moves limit :=
    dispatchPending_more available.leases ends more
  refine ⟨fun limit => ⟨?made, drains limit, fun count ends => ?counts, fun none => ?undisturbed,
    fun ends k => (more limit ends k).1⟩, ?returns, fun ⟨limit, bound⟩ => ?bounded⟩
  case made => exact (after_dispatchPendingMoves (callbacks plans depth) s limit c).symm
  case counts =>
    obtain ⟨counted, -⟩ := Drains.counts (ends ▸ drains limit)
    refine ⟨counted, ?_⟩
    rw [counted, Nat.add_eq_left, List.length_eq_zero_iff]
  case undisturbed => exact Drains.undisturbed (none ▸ drains limit)
  case returns =>
    -- What is delivered stays the same, however much more may be taken.
    rintro ⟨limit, ends⟩
    refine ⟨limit + (waiting.length + (came limit).length + 1), ?_⟩
    have same : came (limit + (waiting.length + (came limit).length + 1)) = came limit :=
      congrArg (s.delivered · c) (more limit ends _).2
    rw [same]
    omega
  case bounded => exact ⟨limit, (drains limit).ends bound⟩

/-- A plan that answers with one more event. -/
def answering (c : ContextId) (b : EventBroadcast) : Plan T κ :=
  [fun _ => .plain (.deliver c (.event b)) rfl]

/-- One event waits, and there is a handler for it. -/
def awaitingOne : Plan Loopback Nat :=
  [fun _ => .plain (.program .acquire) (.refl true),
    fun _ => .plain (.program (.setEventHandler 0 (some { callback := 1, userData := none })))
      (.refl true),
    fun _ => .plain (.deliver 0 (.event ⟨"e", "1"⟩)) (.refl true)]

/-- The handler answers with a second event when it first runs. -/
def answeringOnce (i : Invocation Nat) : Plan Loopback Nat :=
  if i.runs = 0 then answering 0 ⟨"e", "2"⟩ else []

theorem answered_event_taken :
    let s := (start ({} : Loopback)).follow (reaction answeringOnce 1) awaitingOne
    let moves := s.dispatchPendingMoves (callbacks answeringOnce 1) 5 0
    s.Available 0 ∧ s.queue 0 = [.event ⟨"e", "1"⟩] ∧
      s.delivered moves 0 = [.event ⟨"e", "2"⟩] ∧
      s.taken moves 0 = [.event ⟨"e", "1"⟩, .event ⟨"e", "2"⟩] ∧
      s.Returns (reaction answeringOnce 1) 0 := by
  intro s moves
  have available : s.Available 0 := ⟨rfl, rfl⟩
  have came : s.delivered moves 0 = [.event ⟨"e", "2"⟩] := by rfl
  obtain ⟨limits, returns⟩ := draining_takes_what_comes answeringOnce 1 available
  obtain ⟨-, drains, -⟩ := limits 5
  have conserved : s.queue 0 ++ s.delivered moves 0 = s.taken moves 0 ++ [] := drains.conserved
  have bound : (s.queue 0).length + (s.delivered moves 0).length < 5 := by
    rw [came]
    decide
  rw [List.append_nil, came] at conserved
  exact ⟨available, rfl, came, conserved.symm, returns.mpr ⟨5, bound⟩⟩

/-! ### Callbacks that never stop -/

/-- These events wait on a channel that is in use, and there is a handler for them. -/
def Awaits (s : Client T κ) (c : ContextId) (events : List EventBroadcast) : Prop :=
  s.isHeld c = true ∧ ∃ slot, s.slot? c = some slot ∧
    slot.context.eventHandler ≠ none ∧ slot.queue = events.map Notification.event

section
variable {s : Client T κ} {c : ContextId} {events : List EventBroadcast}

omit [Transport T] in
theorem awaits_withSlot {old new : Slot κ} (held : s.isHeld c = true)
    (here : s.slot? c = some old) (handles : new.context.eventHandler ≠ none)
    (waiting : new.queue = events.map Notification.event) : (s.withSlot c new).Awaits c events := by
  have there : (s.withSlot c new).slot? c = some new := by rw [slot?_withSlot here, if_pos rfl]
  refine ⟨?_, new, there, handles, waiting⟩
  rw [← held, isHeld, isHeld, there, here]
  rfl

omit [Transport T] in
theorem awaits_taken {b : EventBroadcast} (awaits : s.Awaits c (b :: events)) :
    ∃ s₁, s.nextNotification? c = some (.event b, s₁) ∧ s₁.Awaits c events := by
  obtain ⟨held, slot, here, handles, waiting⟩ := awaits
  simp only [nextNotification?, here, waiting, List.map_cons]
  exact ⟨_, rfl, awaits_withSlot held here handles rfl⟩

omit [Transport T] in
theorem awaits_routed (awaits : s.Awaits c events) (b : EventBroadcast) :
    ∃ i s₁, s.route c (.event b) = (.ok (some i), s₁) ∧ s₁.Awaits c events := by
  obtain ⟨held, slot, here, handles, waiting⟩ := awaits
  obtain ⟨handler, handled⟩ := Option.ne_none_iff_exists'.mp handles
  simp only [route, here, handled]
  exact ⟨_, _, rfl, awaits_withSlot held here (Option.some_ne_none _) waiting⟩

omit [Transport T] in
theorem awaits_delivered (awaits : s.Awaits c events) (b : EventBroadcast) :
    (s.deliver c (.event b)).2.Awaits c (events ++ [b]) := by
  obtain ⟨held, slot, here, handles, waiting⟩ := awaits
  simp only [deliver, held, if_true, updateSlot, here]
  refine awaits_withSlot held here handles ?_
  rw [waiting, List.map_append]
  rfl

/-- For every event that is taken another one comes, so the channel is never found empty. The
induction is on the number of notifications that may be taken. -/
theorem drain_answering {first : EventBroadcast} (awaits : s.Awaits c (first :: events))
    (b : EventBroadcast) (depth limit count : Nat) :
    (drain (reaction (fun _ => answering c b) (depth + 1)) c limit count s).1 =
      .error .unfinished := by
  induction limit generalizing s first events count with
  | zero => rfl
  | succ limit ih =>
      obtain ⟨s₁, found, awaits⟩ := awaits_taken awaits
      obtain ⟨i, s₂, routed, awaits⟩ := awaits_routed awaits first
      have dispatched : s₁.dispatch (reaction (fun _ => answering c b) (depth + 1)) c
          (.event first) = (.ok (), (s₂.deliver c (.event b)).2) := by
        rw [dispatch, routed]
        rfl
      have awaits := awaits_delivered awaits b
      rw [drain, found]
      dsimp only
      rw [dispatched]
      cases events with
      | nil => exact ih awaits (count + 1)
      | cons next rest => exact ih awaits (count + 1)

/-- A handler that answers every event with another one returns each time, but a draining that runs
it never does. -/
theorem answering_never_returns {first : EventBroadcast} (awaits : s.Awaits c (first :: events))
    (leases : (s.lease c).1 = .ok ()) (b : EventBroadcast) (depth : Nat) :
    ¬ s.Returns (reaction (fun _ => answering c b) (depth + 1)) c := by
  rintro ⟨limit, ends⟩
  have leased : s.lease c = (.ok (), (s.lease c).2) := Prod.ext leases rfl
  obtain ⟨held, slot, here, handles, waiting⟩ := awaits
  have awaits : (s.lease c).2.Awaits c (first :: events) := by
    simp only [lease, here]
    split
    · exact ⟨held, slot, here, handles, waiting⟩
    · exact awaits_withSlot held here handles waiting
  rw [dispatchPending_eq leased] at ends
  exact ends (drain_answering awaits b depth limit 0)

end

/-- Where one event waits, two are dispatched and none is left for the next draining, and where the
handler answers every event, the draining never returns. -/
theorem one_waits_two_dispatched :
    let s := (start ({} : Loopback)).follow (reaction answeringOnce 1) awaitingOne
    let run := s.dispatchPending (reaction answeringOnce 1) 5 0
    s.queue 0 = [.event ⟨"e", "1"⟩] ∧ run.1 = .ok 2 ∧ run.2.queue 0 = [] ∧
      ¬ s.Returns (reaction (fun _ => answering 0 ⟨"e", "2"⟩) 1) 0 := by
  intro s run
  have awaits : s.Awaits 0 [⟨"e", "1"⟩] := ⟨rfl, _, rfl, Option.some_ne_none _, rfl⟩
  exact ⟨rfl, rfl, rfl, answering_never_returns awaits rfl ⟨"e", "2"⟩ 0⟩

end EventClient.Client
