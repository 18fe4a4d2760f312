import EventClient.Proofs.Client.Calls
import EventClient.Proofs.Client.Released

/-!
Which contexts are active. A context is released when the lifecycle lets go of it and not before, so
at every time the one that the lifecycle holds is the only one that is not released.
-/
namespace EventClient.Client

variable {T κ : Type}

/-- The lifecycle's current context is there, and no other one is active. -/
structure Sole (s : Client T κ) : Prop where
  present : ∀ c, s.current = some c → ∃ context, s.context? c = some context
  active : ∀ c context, s.context? c = some context →
    (context.released = false ↔ s.current = some c)

theorem sole_start (t : T) : (start t : Client T κ).Sole where
  present := by
    intro c current
    cases current
  active := by
    intro c context here
    cases here

/-- A change that neither opens nor releases a context. -/
theorem Sole.keep {s s' : Client T κ} (h : s.Sole) (current : s'.current = s.current)
    (change : ContextId → Context κ → Context κ)
    (contexts : ∀ c, s'.context? c = (s.context? c).map (change c))
    (released : ∀ c context, s.context? c = some context →
      (change c context).released = context.released) : s'.Sole where
  present := by
    intro c hcurrent
    rw [current] at hcurrent
    obtain ⟨context, here⟩ := h.present c hcurrent
    exact ⟨change c context, by rw [contexts, here]; rfl⟩
  active := by
    intro c context here
    rw [contexts] at here
    obtain ⟨old, hold, rfl⟩ := Option.map_eq_some_iff.mp here
    rw [current, released c old hold]
    exact h.active c old hold

variable [Transport T]

theorem sole_acquire {s : Client T κ} (h : s.Sole) : s.acquire.2.Sole := by
  rcases acquire_cases s with ⟨_, _, same⟩ | ⟨free, _, current, slots⟩ | ⟨free, _, current, slots⟩
  · rw [same]
    exact h
  · refine h.keep (current.trans free.symm) (fun _ => id) ?_ fun _ _ _ => rfl
    intro c
    rw [context?, slots, context?, Option.map_id, id]
  · have contexts (c : ContextId) :
        s.acquire.2.context? c = if c = s.slots.length then some {} else s.context? c := by
      rw [context?, slots]
      split <;> rfl
    constructor
    case present =>
      intro c hcurrent
      cases current.symm.trans hcurrent
      exact ⟨{}, by rw [contexts, if_pos rfl]⟩
    case active =>
      intro c context here
      rw [contexts] at here
      rw [current]
      split at here
      · next heq =>
          cases here
          simp [heq]
      · next other =>
          have was := h.active c context here
          rw [free] at was
          rw [was]
          simp [Ne.symm other]

theorem sole_release {s : Client T κ} (h : s.Sole) : s.release.2.Sole := by
  have current := s.current_release
  constructor
  case present =>
    intro c hcurrent
    cases current.symm.trans hcurrent
  case active =>
    intro c context here
    rw [current]
    have changed := (context?_apply s (.program .release) c).resolve_right fun h => by cases h.1
    obtain ⟨old, hold, rfl⟩ := Option.map_eq_some_iff.mp (changed.symm.trans here)
    have was := h.active c old hold
    simp only [Context.afterAct]
    split
    · next released => simp [Context.shutDown]
    · next other => simp [was, other]

theorem sole_apply {s : Client T κ} (h : s.Sole) (move : Move T κ) : (move.apply s).Sole := by
  by_cases acquires : move = .program .acquire
  · rw [acquires]
    exact sole_acquire h
  by_cases releases : move = .program .release
  · rw [releases]
    exact sole_release h
  have contexts (c : ContextId) :=
    (context?_apply s move c).resolve_right fun opened => acquires opened.1
  cases move with
  | deliver c n =>
      exact h.keep (current_deliver ..) (fun _ context => context) contexts fun _ _ _ => rfl
  | transport change => exact h.keep rfl (fun _ context => context) contexts fun _ _ _ => rfl
  | program act =>
      have current := s.current_act_other (acquires <| congrArg _ ·) (releases <| congrArg _ ·)
      exact h.keep current _ contexts fun c context _ =>
        Context.released_afterAct context s.transport fun same => (releases (congrArg _ same)).elim

theorem sole_after {s : Client T κ} (h : s.Sole) (moves : List (Move T κ)) :
    (s.after moves).Sole := by
  induction moves generalizing s with
  | nil => exact h
  | cons move moves ih => exact ih (sole_apply h move)

end EventClient.Client
