import EventClient.Proofs.Client.Besides
import EventClient.Proofs.Client.Meanwhile
import EventClient.Proofs.Client.Reentry

/-!
A client seen without what was noted and without the stop request of one context. Whatever is done
to a client shows in what can be seen of it, so two runs that look alike go on alike as long as they
do the same.
-/
namespace EventClient

/-- A slot as it is seen without the stop request of one context. -/
def Slot.seen {κ : Type} (c c' : ContextId) (slot : Slot κ) : Slot κ :=
  { slot with stopRequested := slot.stopRequested && c' != c }

@[simp] theorem Slot.seen_seen {κ : Type} (c c' : ContextId) (slot : Slot κ) :
    (slot.seen c c').seen c c' = slot.seen c c' := by
  simp [Slot.seen]

namespace Client

variable {T κ : Type}

/-- All of a client but what was noted and the stop request of one context. -/
def view (s : Client T κ) (c : ContextId) : Client T κ :=
  { s with slots := s.slots.mapIdx fun c' slot => slot.map (Slot.seen c c'), journal := [] }

theorem slot?_view (s : Client T κ) (c c' : ContextId) :
    (s.view c).slot? c' = (s.slot? c').map (Slot.seen c c') := by
  simp only [slot?, view, List.getElem?_mapIdx]
  cases s.slots[c']? <;> rfl

theorem view_withSlot (s : Client T κ) (c c' : ContextId) (slot : Slot κ) :
    (s.withSlot c' slot).view c = (s.view c).withSlot c' (slot.seen c c') := by
  have slots : (s.slots.set c' (some slot)).mapIdx (fun c' slot => slot.map (Slot.seen c c')) =
      (s.slots.mapIdx fun c' slot => slot.map (Slot.seen c c')).set c'
        (some (slot.seen c c')) := by
    apply List.ext_getElem?
    intro i
    rw [List.getElem?_mapIdx, List.getElem?_set, List.getElem?_set, List.getElem?_mapIdx,
      List.length_mapIdx]
    split
    · next here =>
        split
        · rw [here]; rfl
        · rfl
    · rfl
  simp only [view, withSlot, slots]

@[simp] theorem view_view (s : Client T κ) (c : ContextId) : (s.view c).view c = s.view c := by
  have slots : (s.slots.mapIdx fun c' slot => slot.map (Slot.seen c c')).mapIdx
      (fun c' slot => slot.map (Slot.seen c c')) =
        s.slots.mapIdx fun c' slot => slot.map (Slot.seen c c') := by
    apply List.ext_getElem?
    intro i
    rw [List.getElem?_mapIdx, List.getElem?_mapIdx]
    rcases s.slots[i]? with _ | _ | slot <;> simp
  simp only [view, slots]

/-! ### What can be seen -/

theorem context?_view (s : Client T κ) (c c' : ContextId) :
    (s.view c).context? c' = s.context? c' := by
  rw [context?, slot?_view, context?]
  cases s.slot? c' <;> rfl

theorem isLeased_view (s : Client T κ) (c c' : ContextId) :
    (s.view c).isLeased c' = s.isLeased c' := by
  rw [isLeased, slot?_view, isLeased]
  cases s.slot? c' <;> rfl

theorem isReleased_view (s : Client T κ) (c c' : ContextId) :
    (s.view c).isReleased c' = s.isReleased c' := by
  rw [isReleased, slot?_view, isReleased]
  cases s.slot? c' <;> rfl

theorem queue_view (s : Client T κ) (c c' : ContextId) : (s.view c).queue c' = s.queue c' := by
  rw [queue, slot?_view, queue]
  cases s.slot? c' <;> rfl

theorem isStopRequested_view (s : Client T κ) {c c' : ContextId} (other : c' ≠ c) :
    (s.view c).isStopRequested c' = s.isStopRequested c' := by
  have seen : (c' != c) = true := bne_iff_ne.mpr other
  rw [isStopRequested, slot?_view, isStopRequested]
  cases s.slot? c' <;> simp [Slot.seen, seen]

theorem isHeld_view (s : Client T κ) (c c' : ContextId) :
    (s.view c).isHeld c' = s.isHeld c' := by
  have there : ((s.view c).slot? c').isSome = (s.slot? c').isSome := by
    rw [slot?_view, Option.isSome_map]
  rw [isHeld, there]
  rfl

/-! ### What is done shows -/

theorem view_withSlot_comm (s : Client T κ) (c c' : ContextId) {seen slot : Slot κ}
    (same : seen.seen c c' = slot.seen c c') :
    ((s.view c).withSlot c' seen).view c = (s.withSlot c' slot).view c := by
  rw [view_withSlot, view_withSlot, view_view, same]

theorem view_updateSlot_comm (s : Client T κ) (c c' : ContextId) {f : Slot κ → Slot κ}
    (same : ∀ slot, (f (slot.seen c c')).seen c c' = (f slot).seen c c') :
    ((s.view c).updateSlot c' f).view c = (s.updateSlot c' f).view c := by
  simp only [updateSlot, slot?_view]
  cases s.slot? c' with
  | none => exact view_view s c
  | some slot => exact view_withSlot_comm s c c' (same slot)

theorem view_onContext_comm {α : Type} (s : Client T κ) (c c' : ContextId)
    (operate : Context κ → T → Performed T κ α) :
    ((s.view c).onContext c' operate).2.view c = (s.onContext c' operate).2.view c := by
  simp only [onContext, slot?_view]
  cases s.slot? c' with
  | none => exact view_view s c
  | some slot =>
      let performed := operate slot.context s.transport
      have moved : ((s.view c).withSlot c'
          { slot.seen c c' with context := performed.context }).view c =
            (s.withSlot c' { slot with context := performed.context }).view c :=
        view_withSlot_comm s c c' (by simp [Slot.seen])
      exact congrArg (fun left : Client T κ => { left with transport := performed.transport }) moved

theorem view_deliver_comm (s : Client T κ) (c c' : ContextId) (n : Notification) :
    ((s.view c).deliver c' n).2.view c = (s.deliver c' n).2.view c := by
  simp only [deliver, isHeld_view]
  split
  · exact view_updateSlot_comm s c c' fun slot => by simp [Slot.seen]
  · exact view_view s c

theorem view_lease_comm (s : Client T κ) (c c' : ContextId) :
    ((s.view c).lease c').1 = (s.lease c').1 ∧
      ((s.view c).lease c').2.view c = (s.lease c').2.view c := by
  simp only [lease, slot?_view]
  cases s.slot? c' with
  | none => exact ⟨rfl, view_view s c⟩
  | some slot =>
      obtain ⟨context, queue, leased, stopRequested⟩ := slot
      cases leased with
      | true => exact ⟨rfl, view_view s c⟩
      | false => exact ⟨rfl, view_withSlot_comm s c c' (by simp [Slot.seen])⟩

/-- The same notification comes next, and its taking shows. -/
theorem view_nextNotification (s : Client T κ) (c c' : ContextId) :
    ((s.view c).nextNotification? c').map (fun (n, left) => (n, left.view c)) =
      (s.nextNotification? c').map fun (n, left) => (n, left.view c) := by
  simp only [nextNotification?, slot?_view]
  cases s.slot? c' with
  | none => rfl
  | some slot =>
      obtain ⟨context, queue, leased, stopRequested⟩ := slot
      cases queue with
      | nil => rfl
      | cons n queue =>
          exact congrArg (fun left => some (n, left))
            (view_withSlot_comm s c c' (by simp [Slot.seen]))

theorem view_route_comm (s : Client T κ) (c c' : ContextId) (n : Notification) :
    ((s.view c).route c' n).2.view c = (s.route c' n).2.view c := by
  have replaced (slot : Slot κ) (context : Context κ) :
      ((s.view c).withSlot c' { slot.seen c c' with context }).view c =
        (s.withSlot c' { slot with context }).view c :=
    view_withSlot_comm s c c' (by simp [Slot.seen])
  simp only [route, slot?_view]
  cases s.slot? c' with
  | none => exact view_view s c
  | some slot =>
      cases n with
      | sendCompleted | applicationsListed =>
          simp only [Option.map_some, routeCompletion, Slot.seen]
          split
          · exact view_view s c
          · exact view_view s c
          · exact replaced slot _
      | event =>
          dsimp only [Option.map_some, Slot.seen]
          cases slot.context.eventHandler with
          | none => exact view_view s c
          | some handler => exact replaced slot _
      | subscriptionStatus =>
          dsimp only [Option.map_some, Slot.seen]
          cases slot.context.statusHandler with
          | none => exact view_view s c
          | some handler => exact replaced slot _

theorem view_withBooks_comm (s books : Client T κ) (c : ContextId) :
    ((s.view c).withBooks (books.view c)).view c = (s.withBooks books).view c :=
  congrArg (fun left : Client T κ => { books with
    transport := left.transport, current := left.current, slots := left.slots, journal := [] })
    (view_view s c)

variable [Transport T]

theorem view_acquire_comm (s : Client T κ) (c : ContextId) :
    (s.view c).acquire.2.view c = s.acquire.2.view c := by
  have length : (s.view c).slots.length = s.slots.length := List.length_mapIdx
  have twice := congrArg (·.slots) (view_view s c)
  cases hcurrent : s.current with
  | some c' =>
      have same : (s.view c).current = some c' := hcurrent
      rw [acquire_current hcurrent, acquire_current same, view_view]
  | none =>
      cases answer : Transport.perform s.transport (.openContext s.slots.length) with
      | mk t result =>
      cases hsinks : s.keepsSinks <;> cases result <;>
        simp_all [acquire, view, note, List.mapIdx_append]

theorem view_release {s : Client T κ} {c' : ContextId} {slot : Slot κ}
    (hcurrent : s.current = some c') (hslot : s.slot? c' = some slot) (c : ContextId) :
    s.release.2.view c = { (s.withSlot c' slot.shutDown).view c with
      transport := (Transport.perform s.transport .closeContext).1, current := none } := by
  simp only [release, hcurrent, hslot, withSlot, note]
  cases answer : Transport.perform s.transport .closeContext with
  | mk t result => cases result <;> rfl

theorem view_release_comm (s : Client T κ) (c : ContextId) :
    (s.view c).release.2.view c = s.release.2.view c := by
  cases hcurrent : s.current with
  | none =>
      have same : (s.view c).current = none := hcurrent
      rw [release_none hcurrent, release_none same, view_view]
  | some c' =>
      have same : (s.view c).current = some c' := hcurrent
      have seen := slot?_view s c c'
      cases hslot : s.slot? c' with
      | none =>
          rw [hslot] at seen
          simp only [release, same, seen, hcurrent, hslot, Option.map_none]
          exact congrArg (fun left : Client T κ => { left with current := none }) (view_view s c)
      | some slot =>
          rw [hslot] at seen
          have moved : ((s.view c).withSlot c' (slot.seen c c').shutDown).view c =
              (s.withSlot c' slot.shutDown).view c := view_withSlot_comm s c c' rfl
          rw [view_release hcurrent hslot, view_release same seen, moved]
          rfl

theorem view_enableTracing_comm (s : Client T κ) (c : ContextId) (written : List String) :
    ((s.view c).enableTracing written).2.view c = (s.enableTracing written).2.view c := by
  have same : (s.view c).transport = s.transport := rfl
  cases parsed : TracePattern.parseAll written with
  | error e =>
      simp only [enableTracing, parsed]
      exact view_view s c
  | ok patterns =>
      cases answer : Transport.perform s.transport (.setTracing patterns) with
      | mk t result =>
      simp only [enableTracing, parsed, same, answer]
      have moved := congrArg (fun left : Client T κ => { left with transport := t }) (view_view s c)
      cases result <;> exact moved

/-- A move as it is seen: books are changed without what was noted. -/
def Move.seen (c : ContextId) : Move T κ → Move T κ
  | .program (.keepBooks books) => .program (.keepBooks (books.view c))
  | move => move

theorem view_move_comm (s : Client T κ) (c : ContextId) (move : Move T κ) :
    ((move.seen c).apply (s.view c)).view c = (move.apply s).view c := by
  cases move with
  | deliver c' n => exact view_deliver_comm s c c' n
  | transport change =>
      exact congrArg (fun left : Client T κ => { left with transport := change s.transport })
        (view_view s c)
  | program act =>
      cases act with
      | acquire => exact view_acquire_comm s c
      | release => exact view_release_comm s c
      | enableTracing written => exact view_enableTracing_comm s c written
      | send | list | subscribe | renewSubscriptions | bridgeSignals =>
          exact view_onContext_comm ..
      | editSubscriptions c' | setEventHandler c' | setStatusHandler c' | giveBack c' =>
          exact view_updateSlot_comm s c c' fun slot => by simp [Slot.seen]
      | requestStop c' | forgetStop c' => exact view_updateSlot_comm s c c' fun _ => rfl
      | lease c' => exact (view_lease_comm s c c').2
      | takeNext c' =>
          have next := view_nextNotification s c c'
          simp only [Move.seen, Move.apply, Act.apply]
          cases hseen : (s.view c).nextNotification? c' <;> cases h : s.nextNotification? c' <;>
            simp_all
      | route c' n => exact view_route_comm s c c' n
      | keepBooks books => exact view_withBooks_comm s books c

theorem event?_view (s : Client T κ) (c : ContextId) (move : Move T κ) :
    (move.seen c).event? (s.view c) = move.event? s := by
  cases move with
  | deliver | transport => rfl
  | program act =>
      cases act with
      | send | list =>
          simp only [Move.seen, Move.event?, context?_view]
          rfl
      | route c' n => simp only [Move.seen, Move.event?, route_outcome, context?_view]
      | _ => rfl

omit [Transport T] in
theorem taken?_view (s : Client T κ) (c c' : ContextId) (move : Move T κ) :
    (move.seen c).taken? (s.view c) c' = move.taken? s c' := by
  cases move with
  | deliver | transport => rfl
  | program act =>
      cases act with
      | takeNext c'' =>
          have next : ((s.view c).nextNotification? c'').map (·.1) =
              (s.nextNotification? c'').map (·.1) := by
            have both := congrArg (Option.map (·.1)) (view_nextNotification s c c'')
            rw [Option.map_map, Option.map_map] at both
            exact both
          simp only [Move.seen, Move.taken?, next]
      | _ => rfl

/-! ### Runs that look alike -/

/-- The same moves are made, as far as they are seen. -/
def SameMoves (c : ContextId) (moves moves' : List (Move T κ)) : Prop :=
  moves.map (Move.seen c) = moves'.map (Move.seen c)

/-- Nobody can tell apart what was done to two clients: the same requests got the same ids and
answers, the same notifications were taken, their dispatches led to the same invocations, and the
same is left. -/
structure Alike (c : ContextId) (s s' : Client T κ) (moves moves' : List (Move T κ)) : Prop where
  events : s.events moves = s'.events moves'
  taken : ∀ c', s.taken moves c' = s'.taken moves' c'
  left : (s.after moves).view c = (s'.after moves').view c

section
variable {c : ContextId} {s s' : Client T κ}

theorem view_apply {move move' : Move T κ} (same : s.view c = s'.view c)
    (seen : move.seen c = move'.seen c) : (move.apply s).view c = (move'.apply s').view c := by
  rw [← view_move_comm, same, seen, view_move_comm]

theorem event?_same {move move' : Move T κ} (same : s.view c = s'.view c)
    (seen : move.seen c = move'.seen c) : move.event? s = move'.event? s' := by
  rw [← event?_view s c, same, seen, event?_view]

omit [Transport T] in
theorem taken?_same {move move' : Move T κ} (same : s.view c = s'.view c)
    (seen : move.seen c = move'.seen c) (c' : ContextId) :
    move.taken? s c' = move'.taken? s' c' := by
  rw [← taken?_view s c, same, seen, taken?_view]

namespace SameMoves

omit [Transport T] in
theorem refl (c : ContextId) (moves : List (Move T κ)) : SameMoves c moves moves := rfl

omit [Transport T] in
theorem cons {move move' : Move T κ} {moves moves' : List (Move T κ)}
    (seen : move.seen c = move'.seen c) (rest : SameMoves c moves moves') :
    SameMoves c (move :: moves) (move' :: moves') := by
  rw [SameMoves, List.map_cons, List.map_cons, seen, rest]

omit [Transport T] in
theorem books {books books' : Client T κ} {moves moves' : List (Move T κ)}
    (same : books.view c = books'.view c) (rest : SameMoves c moves moves') :
    SameMoves c (.program (.keepBooks books) :: moves) (.program (.keepBooks books') :: moves') :=
  cons (congrArg (fun books => Move.program (.keepBooks books)) same) rest

omit [Transport T] in
theorem noted (same : s.view c = s'.view c) (entries : List Entry) :
    SameMoves c [s.noted entries] [s'.noted entries] := books same (refl c [])

omit [Transport T] in
theorem append {first first' second second' : List (Move T κ)} (h : SameMoves c first first')
    (h' : SameMoves c second second') : SameMoves c (first ++ second) (first' ++ second') := by
  rw [SameMoves, List.map_append, List.map_append, h, h']

/-- Where the same moves are made, they look alike. -/
theorem alike {moves moves' : List (Move T κ)} (h : SameMoves c moves moves')
    (same : s.view c = s'.view c) : Alike c s s' moves moves' := by
  induction moves generalizing s s' moves' with
  | nil =>
      cases List.map_eq_nil_iff.mp h.symm
      exact ⟨rfl, fun _ => rfl, same⟩
  | cons move moves ih =>
      obtain ⟨move', moves', rfl, seen, rest⟩ := List.map_eq_cons_iff.mp h.symm
      obtain ⟨events, taken, left⟩ := ih rest.symm (view_apply same seen.symm)
      refine ⟨?_, fun c' => ?_, left⟩
      · rw [events_cons, events_cons, event?_same same seen.symm, events]
      · rw [taken_cons, taken_cons, taken?_same same seen.symm, taken]

theorem left {moves moves' : List (Move T κ)} (h : SameMoves c moves moves')
    (same : s.view c = s'.view c) : (s.after moves).view c = (s'.after moves').view c :=
  (h.alike same).left

end SameMoves

theorem Alike.append {first first' second second' : List (Move T κ)}
    (h : Alike c s s' first first')
    (h' : Alike c (s.after first) (s'.after first') second second') :
    Alike c s s' (first ++ second) (first' ++ second') where
  events := by rw [events_append, events_append, h.events, h'.events]
  taken c' := by rw [taken_append, taken_append, h.taken, h'.taken]
  left := by
    rw [after_append, after_append]
    exact h'.left

/-- What is noted nobody can see. -/
theorem alike_noted (same : s.view c = s'.view c) (entries : List Entry) :
    Alike c s s' [s.noted entries] [] where
  events := rfl
  taken _ := rfl
  left := same

end

/-- Nobody can see that the stop requests of the context are forgotten. -/
theorem view_forgetStop (s : Client T κ) (c : ContextId) :
    (Act.apply s (.forgetStop c)).view c = s.view c := by
  rw [Act.apply, updateSlot]
  cases h : s.slot? c with
  | none => rfl
  | some slot =>
      have seen := slot?_view s c c
      rw [h] at seen
      have same : Slot.seen c c { slot with stopRequested := false } = slot.seen c c := by
        simp [Slot.seen]
      dsimp only
      rw [view_withSlot, same, withSlot_same seen]

end Client

end EventClient
