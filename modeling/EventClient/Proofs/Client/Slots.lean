import EventClient.Client.Loop
import EventClient.Client.Requests

/-!
What the building blocks of a client do to its contexts: each changes the slot of one context and
leaves every other one as it was.
-/
namespace EventClient

/-- The slot of a context as its release leaves it. -/
def Slot.shutDown {κ : Type} (slot : Slot κ) : Slot κ :=
  { slot with context := slot.context.shutDown.2.1, stopRequested := true }

namespace Client

variable {T κ : Type}

theorem slot?_eq_none_of_le {s : Client T κ} {c : ContextId} (h : s.slots.length ≤ c) :
    s.slot? c = none := by
  rw [slot?, List.getElem?_eq_none h]
  rfl

theorem lt_of_slot? {s : Client T κ} {c : ContextId} {slot : Slot κ} (h : s.slot? c = some slot) :
    c < s.slots.length := by
  apply Nat.lt_of_not_le
  intro hle
  rw [slot?_eq_none_of_le hle] at h
  cases h

theorem slot?_withSlot {s : Client T κ} {c : ContextId} {old : Slot κ}
    (h : s.slot? c = some old) (new : Slot κ) (c' : ContextId) :
    (s.withSlot c new).slot? c' = if c' = c then some new else s.slot? c' := by
  have bound := lt_of_slot? h
  simp only [slot?, withSlot]
  by_cases heq : c' = c
  · subst heq
    simp [bound]
  · simp [heq, List.getElem?_set_ne (Ne.symm heq)]

theorem slot?_eq_ite {s : Client T κ} {c : ContextId} (h : s.slot? c = none) (c' : ContextId) :
    (if c' = c then none else s.slot? c') = s.slot? c' := by
  split
  · next heq => rw [heq, h]
  · rfl

theorem slot?_updateSlot (s : Client T κ) (c : ContextId) (f : Slot κ → Slot κ) (c' : ContextId) :
    (s.updateSlot c f).slot? c' = if c' = c then (s.slot? c).map f else s.slot? c' := by
  simp only [updateSlot]
  cases h : s.slot? c with
  | some slot => exact slot?_withSlot h (f slot) c'
  | none => exact (slot?_eq_ite h c').symm

@[simp] theorem slot?_note (s : Client T κ) (entries : List Entry) (c : ContextId) :
    (s.note entries).slot? c = s.slot? c := rfl

theorem slot?_onContext {α : Type} (s : Client T κ) (c : ContextId)
    (operate : Context κ → T → Performed T κ α) (c' : ContextId) :
    (s.onContext c operate).2.slot? c' =
      if c' = c then
        (s.slot? c).map fun slot =>
          { slot with context := (operate slot.context s.transport).context }
      else s.slot? c' := by
  simp only [onContext]
  cases h : s.slot? c with
  | some slot =>
      exact slot?_withSlot h
        { slot with context := (operate slot.context s.transport).context } c'
  | none => exact (slot?_eq_ite h c').symm

theorem slot?_deliver (s : Client T κ) (c : ContextId) (n : Notification) (c' : ContextId) :
    (s.deliver c n).2.slot? c' =
      if c' = c ∧ s.isHeld c then
        (s.slot? c).map fun slot => { slot with queue := slot.queue ++ [n] }
      else s.slot? c' := by
  simp only [deliver]
  by_cases held : s.isHeld c = true
  · simp [held, slot?_updateSlot]
  · simp [held]

theorem slot?_lease (s : Client T κ) (c c' : ContextId) :
    (s.lease c).2.slot? c' =
      if c' = c then (s.slot? c).map fun slot => { slot with leased := true }
      else s.slot? c' := by
  simp only [lease]
  cases h : s.slot? c with
  | none => exact (slot?_eq_ite h c').symm
  | some slot =>
      by_cases leased : slot.leased = true
      · by_cases heq : c' = c
        · cases slot
          simp_all
        · simp [leased, heq]
      · simpa [leased] using slot?_withSlot h { slot with leased := true } c'

theorem slot?_of_slots_append {s s' : Client T κ} {slot : Option (Slot κ)}
    (h : s'.slots = s.slots ++ [slot]) (c : ContextId) :
    s'.slot? c = if c = s.slots.length then slot else s.slot? c := by
  rw [slot?, slot?, h]
  rcases Nat.lt_trichotomy c s.slots.length with hlt | heq | hgt
  · rw [List.getElem?_append_left hlt, if_neg (Nat.ne_of_lt hlt)]
  · subst heq
    simp
  · rw [if_neg (Nat.ne_of_gt hgt), List.getElem?_eq_none (Nat.le_of_lt hgt),
      List.getElem?_eq_none (by simpa using Nat.succ_le_of_lt hgt)]

section
variable [Transport T]

theorem slots_enableTracing (s : Client T κ) (patterns : List String) :
    (s.enableTracing patterns).2.slots = s.slots := by
  simp only [enableTracing]
  split
  · rfl
  · split <;> rfl

theorem acquire_current {s : Client T κ} {c : ContextId} (h : s.current = some c) :
    s.acquire = (.ok c, s) := by
  rw [acquire, h]

/-- A context whose call was refused keeps its number and is never opened. -/
theorem acquire_refused {s : Client T κ} {t : T} {e : ClientError} (h : s.current = none)
    (refused : Transport.perform s.transport (.openContext s.slots.length) = (t, .error e)) :
    s.acquire.1 = .error e ∧ s.acquire.2.transport = t ∧ s.acquire.2.current = none ∧
      s.acquire.2.slots = s.slots ++ [none] ∧ s.acquire.2.traces = s.traces := by
  simp only [acquire]
  rw [h]
  cases hk : s.keepsSinks <;> simp [refused, h]

theorem acquire_opened {s : Client T κ} {t : T} (h : s.current = none)
    (taken : Transport.perform s.transport (.openContext s.slots.length) = (t, .ok ())) :
    s.acquire.1 = .ok s.slots.length ∧ s.acquire.2.transport = t ∧
      s.acquire.2.current = some s.slots.length ∧
      s.acquire.2.slots = s.slots ++ [some Slot.fresh] ∧ s.acquire.2.traces = s.traces := by
  simp only [acquire]
  rw [h]
  cases hk : s.keepsSinks <;> simp [taken, note]

/-- What asking for a context can come to: it is open, the transport refuses to open it, or it is
opened under a number that no context had. -/
theorem acquire_cases (s : Client T κ) :
    (∃ c, s.current = some c ∧ s.acquire = (.ok c, s)) ∨
    (s.current = none ∧
      (∃ e, (Transport.perform s.transport (.openContext s.slots.length)).2 = .error e) ∧
      s.acquire.2.current = none ∧ ∀ c, s.acquire.2.slot? c = s.slot? c) ∨
    (s.current = none ∧
      (Transport.perform s.transport (.openContext s.slots.length)).2 = .ok () ∧
      s.acquire.2.current = some s.slots.length ∧
      ∀ c, s.acquire.2.slot? c = if c = s.slots.length then some Slot.fresh else s.slot? c) := by
  cases hcurrent : s.current with
  | some c => exact .inl ⟨c, rfl, acquire_current hcurrent⟩
  | none =>
      cases answer : Transport.perform s.transport (.openContext s.slots.length) with
      | mk t result =>
      cases result with
      | error e =>
          obtain ⟨_, _, current, slots, _⟩ := acquire_refused hcurrent answer
          refine .inr (.inl ⟨rfl, ⟨e, rfl⟩, current, ?_⟩)
          intro c
          rw [slot?_of_slots_append slots]
          split
          · next heq => rw [heq, slot?_eq_none_of_le (Nat.le_refl _)]
          · rfl
      | ok _ =>
          obtain ⟨_, _, current, slots, _⟩ := acquire_opened hcurrent answer
          exact .inr (.inr ⟨rfl, rfl, current, slot?_of_slots_append slots⟩)

/-- Asking for a context opens at most one, under a number that no context had. -/
theorem slot?_acquire (s : Client T κ) (c : ContextId) :
    s.acquire.2.slot? c = s.slot? c ∨
      (s.slot? c = none ∧ s.acquire.2.slot? c = some Slot.fresh) := by
  rcases acquire_cases s with ⟨_, _, same⟩ | ⟨_, _, _, slots⟩ | ⟨_, _, _, slots⟩
  · exact .inl (by rw [same])
  · exact .inl (slots c)
  · rw [slots]
    split
    · next heq => exact .inr ⟨by rw [heq, slot?_eq_none_of_le (Nat.le_refl _)], rfl⟩
    · exact .inl rfl

theorem release_none {s : Client T κ} (h : s.current = none) : s.release = (.ok none, s) := by
  rw [release, h]

/-- The lifecycle lets go of its context before it asks the transport, so the answer changes only
what is reported. -/
theorem release_current {s : Client T κ} {c : ContextId} {slot : Slot κ}
    (h : s.current = some c) (hslot : s.slot? c = some slot) :
    s.release.1 = ((Transport.perform s.transport .closeContext).2.map
        fun _ => some slot.context.shutDown.1) ∧
      s.release.2.transport = (Transport.perform s.transport .closeContext).1 ∧
      s.release.2.current = none ∧
      s.release.2.slots = (s.withSlot c slot.shutDown).slots ∧ s.release.2.traces = s.traces := by
  simp only [release]
  rw [h]
  simp only [hslot]
  split
  · next refused => simp_all [withSlot, note, Slot.shutDown, Except.map]
  · next taken => simp_all [withSlot, note, Slot.shutDown, Except.map]

/-- Releasing changes the slot of the current context only, whatever the transport answers. -/
theorem slot?_release (s : Client T κ) (c : ContextId) :
    s.release.2.slot? c =
      if s.current = some c then (s.slot? c).map Slot.shutDown else s.slot? c := by
  cases hcurrent : s.current with
  | none => rw [release_none hcurrent]; rfl
  | some c₀ =>
      cases hslot : s.slot? c₀ with
      | none =>
          have unchanged : s.release.2.slot? c = s.slot? c := by
            simp only [release, hcurrent, hslot]
            rfl
          rw [unchanged]
          split
          · next heq => cases heq; rw [hslot]; rfl
          · rfl
      | some slot =>
          obtain ⟨_, _, _, slots, _⟩ := release_current hcurrent hslot
          have kept : s.release.2.slot? c = (s.withSlot c₀ slot.shutDown).slot? c := by
            rw [slot?, slots]
            rfl
          rw [kept, slot?_withSlot hslot]
          by_cases heq : c = c₀
          · subst heq
            simp [hslot]
          · have hne : ¬ c₀ = c := Ne.symm heq
            simp [heq, hne]

end

end Client

end EventClient
