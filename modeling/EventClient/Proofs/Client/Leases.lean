import EventClient.Proofs.Client.Plans

/-!
Who may take from a channel. A channel's lease is changed only by those who take it and give it
back, and the loops that are kept are changed only by those who start, poll and cancel them.
-/
namespace EventClient.Client

variable {T κ : Type}

def isLeased (s : Client T κ) (c : ContextId) : Bool := (s.slot? c).any (·.leased)

/-- How many loops are kept that wait for a context's notifications. -/
def kept (s : Client T κ) (c : ContextId) : Nat := s.loops.count (.waiting c)

theorem isLeased_of_slot?_eq {s s' : Client T κ} {c : ContextId} (h : s'.slot? c = s.slot? c) :
    s'.isLeased c = s.isLeased c := by
  rw [isLeased, isLeased, h]

theorem isLeased_of_update {s s' : Client T κ} {c c' : ContextId} {f : Slot κ → Slot κ}
    (h : s'.slot? c' = if c' = c then (s.slot? c).map f else s.slot? c')
    (same : ∀ slot, (f slot).leased = slot.leased) : s'.isLeased c' = s.isLeased c' := by
  rw [isLeased, isLeased, h]
  split
  · next heq =>
      rw [heq]
      cases s.slot? c with
      | none => rfl
      | some slot => exact same slot
  · rfl

theorem kept_of_loops_eq {s s' : Client T κ} (h : s'.loops = s.loops) (c : ContextId) :
    s'.kept c = s.kept c := by
  rw [kept, kept, h]

theorem slot?_of_leased {s : Client T κ} {c : ContextId} (leased : s.isLeased c = true) :
    ∃ slot, s.slot? c = some slot := by
  rw [isLeased] at leased
  cases h : s.slot? c with
  | none =>
      rw [h] at leased
      cases leased
  | some slot => exact ⟨slot, rfl⟩

/-! ### What leaves leases and loops alone -/

theorem loops_updateSlot (s : Client T κ) (c : ContextId) (f : Slot κ → Slot κ) :
    (s.updateSlot c f).loops = s.loops := by
  simp only [updateSlot]
  split <;> rfl

theorem loops_onContext {α : Type} (s : Client T κ) (c : ContextId)
    (operate : Context κ → T → Performed T κ α) : (s.onContext c operate).2.loops = s.loops := by
  simp only [onContext]
  split <;> rfl

theorem loops_deliver (s : Client T κ) (c : ContextId) (n : Notification) :
    (s.deliver c n).2.loops = s.loops := by
  simp only [deliver]
  split
  · exact loops_updateSlot s c _
  · rfl

theorem loops_routeCompletion (s : Client T κ) (c : ContextId) (slot : Slot κ)
    (kind : RequestKind) (id : CorrelationId) (delivery : Delivery) (completed : Entry) :
    (s.routeCompletion c slot kind id delivery completed).2.loops = s.loops := by
  simp only [routeCompletion]
  split <;> rfl

theorem loops_route (s : Client T κ) (c : ContextId) (n : Notification) :
    (s.route c n).2.loops = s.loops := by
  simp only [route]
  cases s.slot? c with
  | none => rfl
  | some slot =>
      cases n with
      | sendCompleted | applicationsListed => exact loops_routeCompletion ..
      | event =>
          dsimp only
          split <;> rfl
      | subscriptionStatus =>
          dsimp only
          split <;> rfl

theorem isLeased_route (s : Client T κ) (c : ContextId) (n : Notification) (c' : ContextId) :
    (s.route c n).2.isLeased c' = s.isLeased c' := by
  cases h : s.slot? c with
  | none => rw [route_none h]
  | some slot =>
      rw [isLeased, isLeased, (route_eq h n).2.slots]
      split
      · next heq => rw [heq, h]; rfl
      · rfl

/-- Taking finds the oldest notification, and the lease and the loops are as they were. -/
theorem taking_eq {s s' : Client T κ} {c : ContextId} {n : Notification}
    (h : s.nextNotification? c = some (n, s')) :
    s'.loops = s.loops ∧ ∀ c', s'.isLeased c' = s.isLeased c' := by
  simp only [nextNotification?] at h
  cases hslot : s.slot? c with
  | none =>
      rw [hslot] at h
      cases h
  | some slot =>
      rw [hslot] at h
      dsimp only at h
      cases hqueue : slot.queue with
      | nil =>
          rw [hqueue] at h
          cases h
      | cons first queue =>
          rw [hqueue] at h
          cases h
          refine ⟨rfl, fun c' => ?_⟩
          rw [isLeased, isLeased, slot?_withSlot hslot]
          split
          · next heq => rw [heq, hslot]; rfl
          · rfl

/-! ### Leasing and giving back -/

theorem lease_error {s s' : Client T κ} {c : ContextId} {e : ClientError}
    (h : s.lease c = (.error e, s')) : s' = s := by
  simp only [lease] at h
  split at h
  · cases h
    rfl
  · split at h <;> cases h
    rfl

theorem lease_leased {s : Client T κ} {c : ContextId} (taken : s.isLeased c = true) :
    s.lease c = (.error .loopAlreadyRunning, s) := by
  rw [lease]
  rw [isLeased] at taken
  cases h : s.slot? c with
  | none => rfl
  | some slot =>
      rw [h] at taken
      exact if_pos taken

theorem startLoop_leased {s : Client T κ} {c : ContextId} (taken : s.isLeased c = true) :
    s.startLoop c = (.error .loopAlreadyRunning, s) := by
  rw [startLoop, lease_leased taken]

theorem startLoop_ok {s s' : Client T κ} {c : ContextId} (h : s.lease c = (.ok (), s')) :
    s.startLoop c = (.ok (),
      (s'.updateSlot c fun slot => { slot with stopRequested := false }).note [.loopStarted]) := by
  rw [startLoop, h]

/-- A channel is leased to one taker at a time. -/
theorem lease_ok {s s' : Client T κ} {c : ContextId} (h : s.lease c = (.ok (), s')) :
    s.isLeased c = false ∧ s'.loops = s.loops ∧
      ∀ c', s'.isLeased c' = if c' = c then true else s.isLeased c' := by
  simp only [lease] at h
  cases hslot : s.slot? c with
  | none =>
      rw [hslot] at h
      cases h
  | some slot =>
      rw [hslot] at h
      dsimp only at h
      split at h
      · cases h
      · next free =>
          cases h
          refine ⟨?_, rfl, fun c' => ?_⟩
          · rw [isLeased, hslot]
            exact eq_false_of_ne_true free
          · rw [isLeased, slot?_withSlot hslot]
            split <;> rfl

theorem isLeased_giveBack (s : Client T κ) (c c' : ContextId) :
    (s.giveBack c).isLeased c' = if c' = c then false else s.isLeased c' := by
  rw [giveBack, isLeased, slot?_updateSlot]
  split
  · cases s.slot? c <;> rfl
  · rfl

/-- Where a loop becomes another, how many are kept changes by these two. -/
theorem kept_set {s : Client T κ} {loop : Nat} {old : StartedLoop} (h : s.loops[loop]? = some old)
    (new : StartedLoop) (c : ContextId) :
    (s.setLoop loop new).kept c + (if old = .waiting c then 1 else 0) =
      s.kept c + (if new = .waiting c then 1 else 0) := by
  obtain ⟨there, found⟩ := List.getElem?_eq_some_iff.mp h
  simp only [kept, setLoop, List.count_set there, found, beq_iff_eq]
  by_cases waits : old = .waiting c
  · have counted : 0 < s.loops.count (.waiting c) :=
      List.count_pos_iff.mpr (waits ▸ List.mem_of_getElem? h)
    simp only [waits, if_true]
    omega
  · simp only [waits, if_false]
    omega

theorem kept_resumed {s : Client T κ} {loop : Nat} {c : ContextId}
    (waits : s.loops[loop]? = some (.waiting c)) {new : StartedLoop}
    (resumed : ∀ c', new ≠ .waiting c') (c' : ContextId) :
    (s.setLoop loop new).kept c' + (if c' = c then 1 else 0) = s.kept c' := by
  have set := kept_set waits new c'
  simpa only [resumed, StartedLoop.waiting.injEq, eq_comm, if_false, Nat.add_zero] using set

theorem kept_put_back {s : Client T κ} {loop : Nat} {c : ContextId}
    (polled : s.loops[loop]? = some (.polled c)) (c' : ContextId) :
    (s.setLoop loop (.waiting c)).kept c' =
      s.kept c' + if c' = c then 1 else 0 := by
  have set := kept_set polled (.waiting c) c'
  simpa only [reduceCtorEq, StartedLoop.waiting.injEq, eq_comm, if_false, Nat.add_zero] using set

theorem kept_ended {s : Client T κ} {loop : Nat} {c : ContextId}
    (polled : s.loops[loop]? = some (.polled c)) (c' : ContextId) :
    (s.setLoop loop .gone).kept c' = s.kept c' := by
  have set := kept_set polled .gone c'
  simpa only [reduceCtorEq, if_false, Nat.add_zero] using set

theorem kept_added (s : Client T κ) (c c' : ContextId) :
    { s with loops := s.loops ++ [StartedLoop.waiting c] }.kept c' =
      s.kept c' + if c' = c then 1 else 0 := by
  simp only [kept, List.count_append, List.count_singleton, beq_iff_eq,
    StartedLoop.waiting.injEq, @eq_comm _ c c']

variable [Transport T]

theorem loops_plain (s : Client T κ) {move : Move T κ} (plain : move.isPlain = true) :
    (move.apply s).loops = s.loops := by
  cases move with
  | deliver c n => exact loops_deliver s c n
  | transport change => rfl
  | program act =>
      cases act with
      | lease | giveBack | takeNext | route | keepBooks => cases plain
      | send | list | subscribe | renewSubscriptions | bridgeSignals => exact loops_onContext ..
      | editSubscriptions | setEventHandler | setStatusHandler | requestStop | forgetStop =>
          exact loops_updateSlot ..
      | acquire =>
          simp only [Move.apply, Act.apply, acquire]
          cases s.current with
          | some c => rfl
          | none =>
              cases s.keepsSinks <;> dsimp only <;> split <;> rfl
      | release =>
          simp only [Move.apply, Act.apply, release]
          cases s.current with
          | none => rfl
          | some c =>
              cases hslot : s.slot? c with
              | none => simp only [hslot]
              | some slot =>
                  simp only [hslot]
                  split <;> rfl
      | enableTracing patterns =>
          simp only [Move.apply, Act.apply, enableTracing]
          split
          · rfl
          · split <;> rfl

theorem isLeased_plain (s : Client T κ) {move : Move T κ} (plain : move.isPlain = true)
    (c : ContextId) : (move.apply s).isLeased c = s.isLeased c := by
  cases move with
  | transport change => rfl
  | deliver c' n =>
      rw [Move.apply, isLeased, isLeased, slot?_deliver]
      split
      · next h =>
          rw [h.1]
          cases s.slot? c' <;> rfl
      · rfl
  | program act =>
      cases act with
      | lease | giveBack | takeNext | route | keepBooks => cases plain
      | send c' | list c' | subscribe c' | renewSubscriptions c' | bridgeSignals c' =>
          exact isLeased_of_update (slot?_onContext ..) fun _ => rfl
      | editSubscriptions c' | setEventHandler c' | setStatusHandler c' | requestStop c'
      | forgetStop c' => exact isLeased_of_update (slot?_updateSlot ..) fun _ => rfl
      | acquire =>
          rcases slot?_acquire s c with same | ⟨absent, opened⟩
          · exact isLeased_of_slot?_eq same
          · rw [Move.apply, Act.apply, isLeased, isLeased, opened, absent]
            rfl
      | release =>
          rw [Move.apply, Act.apply, isLeased, isLeased, slot?_release]
          split
          · cases s.slot? c <;> rfl
          · rfl
      | enableTracing patterns =>
          apply isLeased_of_slot?_eq
          rw [Move.apply, Act.apply, slot?, slot?, slots_enableTracing]

end EventClient.Client
