import EventClient.Proofs.Client.Contexts

/-!
The channels of a client's contexts. A channel changes when a notification is put on it, which goes
to the end, and when the oldest is taken off; nothing else that a program does touches it.
-/
namespace EventClient.Client

variable {T κ : Type}

/-- What waits on a context's channel, the oldest first; a context that is not there has none. -/
def queue (s : Client T κ) (c : ContextId) : List Notification :=
  ((s.slot? c).map (·.queue)).getD []

theorem queue_of_slot?_eq {s s' : Client T κ} {c : ContextId} (h : s'.slot? c = s.slot? c) :
    s'.queue c = s.queue c := by
  rw [queue, queue, h]

/-- A change of one slot that leaves its channel alone leaves every channel alone. -/
theorem queue_of_update {s s' : Client T κ} {c c' : ContextId} {f : Slot κ → Slot κ}
    (h : s'.slot? c' = if c' = c then (s.slot? c).map f else s.slot? c')
    (same : ∀ slot, (f slot).queue = slot.queue) :
    s'.queue c' = s.queue c' := by
  rw [queue, queue, h]
  split
  · next heq =>
      rw [heq]
      cases s.slot? c with
      | none => rfl
      | some slot => exact same slot
  · rfl

theorem queue_onContext {α : Type} (s : Client T κ) (c : ContextId)
    (operate : Context κ → T → Performed T κ α) (c' : ContextId) :
    (s.onContext c operate).2.queue c' = s.queue c' :=
  queue_of_update (slot?_onContext s c operate c') fun _ => rfl

theorem queue_route (s : Client T κ) (c : ContextId) (n : Notification) (c' : ContextId) :
    (s.route c n).2.queue c' = s.queue c' := by
  cases h : s.slot? c with
  | none => rw [route_none h]
  | some slot =>
      rw [queue, queue, (route_eq h n).2.slots]
      split
      · next heq => rw [heq, h]; rfl
      · rfl

/-- Taking finds the oldest notification and leaves the others. -/
theorem nextNotification?_eq (s : Client T κ) (c : ContextId) :
    (s.nextNotification? c = none ∧ s.queue c = []) ∨
    ∃ n s', s.nextNotification? c = some (n, s') ∧ s.queue c = n :: s'.queue c ∧
      (∀ c', c' ≠ c → s'.slot? c' = s.slot? c') ∧ s'.context? c = s.context? c ∧
      s'.slots.length = s.slots.length ∧ s'.transport = s.transport ∧ s'.current = s.current := by
  simp only [nextNotification?, queue, context?]
  cases h : s.slot? c with
  | none => exact .inl ⟨rfl, rfl⟩
  | some slot =>
      dsimp only [Option.map_some, Option.getD_some]
      cases hq : slot.queue with
      | nil => exact .inl ⟨rfl, rfl⟩
      | cons n queue =>
          refine .inr ⟨n, _, rfl, ?_, ?_, ?_, ?_, rfl, rfl⟩
          · rw [slot?_withSlot h, if_pos rfl]
            rfl
          · intro c' other
            rw [slot?_withSlot h, if_neg other]
          · rw [slot?_withSlot h, if_pos rfl]
            rfl
          · rw [withSlot, List.length_set]

theorem queue_deliver (s : Client T κ) (c : ContextId) (n : Notification) (c' : ContextId) :
    (s.deliver c n).2.queue c' =
      if c' = c ∧ s.isHeld c = true then s.queue c' ++ [n] else s.queue c' := by
  rw [queue, slot?_deliver]
  split
  · next h =>
      rw [queue, h.1]
      -- A context that something refers to is there.
      have there : (s.slot? c).isSome = true := (Bool.and_eq_true_iff.mp h.2).1
      cases hslot : s.slot? c with
      | none =>
          rw [hslot] at there
          cases there
      | some slot => rfl
  · rfl

variable [Transport T]

/-- What a program does leaves every channel as it is, except that it takes the oldest notification
off the one that it takes from. -/
theorem queue_act (s : Client T κ) (act : Act T κ) (c : ContextId) :
    (act.apply s).queue c =
      match act with
      | .takeNext c' => if c = c' then (s.queue c).tail else s.queue c
      | _ => s.queue c := by
  cases act with
  | acquire =>
      rcases slot?_acquire s c with same | ⟨absent, opened⟩
      · exact queue_of_slot?_eq same
      · rw [Act.apply, queue, opened, queue, absent]
        rfl
  | release =>
      rw [Act.apply, queue, slot?_release]
      dsimp only
      split
      · rw [queue]
        cases s.slot? c <;> rfl
      · rfl
  | enableTracing patterns =>
      rw [Act.apply, queue, slot?, slots_enableTracing]
      rfl
  | send c' | list c' | subscribe c' | renewSubscriptions c' | bridgeSignals c' =>
      exact queue_onContext ..
  | editSubscriptions c' | setEventHandler c' | setStatusHandler c' | giveBack c' | requestStop c'
  | forgetStop c' => exact queue_of_update (slot?_updateSlot ..) fun _ => rfl
  | lease c' => exact queue_of_update (slot?_lease s c' c) fun _ => rfl
  | takeNext c' =>
      rcases nextNotification?_eq s c' with ⟨none, empty⟩ | ⟨n, s', taken, rest, others, _⟩
      · rw [Act.apply, none]
        dsimp only [Option.map_none, Option.getD_none]
        split
        · next heq => rw [heq, empty]; rfl
        · rfl
      · rw [Act.apply, taken]
        dsimp only [Option.map_some, Option.getD_some]
        split
        · next heq => rw [heq, rest]; rfl
        · next other => exact queue_of_slot?_eq (others c other)
  | route c' n => exact queue_route s c' n c
  | keepBooks books => rfl

end EventClient.Client
