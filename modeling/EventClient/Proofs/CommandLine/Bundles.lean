import EventClient.CommandLine.Run
import EventClient.Proofs.Client.Reentry
import Mathlib.Data.List.Nodup

/-!
The sends of a plan, numbered in the order in which they are issued, and the context that they go
to: which of them wait there, under which ids and with which callbacks.
-/
namespace EventClient.CommandLine

open Client

variable {T : Type}

/-! ### The sends of a plan -/

/-- The event of a send. -/
def SendPlan.event (plan : SendPlan) (k : Nat) : String :=
  (plan.events[k % plan.events.length]?).getD ""

/-- What waits for the completion of a send. -/
def SendPlan.entry (plan : SendPlan) (c : ContextId) (k : Nat) : Pending Task :=
  { id := .nth k, callback := .reportSend c (plan.event k) plan.total, userData := none }

/-- A send that was answered, with its result. -/
abbrev Completion := Nat × SendResult

/-- What the completion of a send leads to. -/
def SendPlan.report (plan : SendPlan) (c : ContextId) (done : Completion) : Invocation Task :=
  { context := c, answers := some (.nth done.1)
    callback := .reportSend c (plan.event done.1) plan.total, userData := none, runs := 0
    delivery := .sent done.2 }

theorem SendPlan.event_eq {plan : SendPlan} (planned : plan.events ≠ []) (k : Nat) :
    plan.events[k % plan.events.length]? = some (plan.event k) := by
  have inside : k % plan.events.length < plan.events.length :=
    Nat.mod_lt k (List.length_pos_iff.mpr planned)
  rw [event, List.getElem?_eq_getElem inside]
  rfl

/-- Where a bundle has come to after all the bundles before it. -/
theorem SendPlan.event_of_rest {plan : SendPlan} {event : String} {rest : List String}
    (left : event :: rest <:+ plan.events) (bundles : Nat) :
    plan.event (plan.events.length * (bundles + 1) - (event :: rest).length) = event := by
  obtain ⟨done, whole⟩ := left
  have length : plan.events.length = done.length + (rest.length + 1) := by
    rw [← whole, List.length_append, List.length_cons]
  have place : plan.events.length * (bundles + 1) - (event :: rest).length =
      done.length + plan.events.length * bundles := by
    rw [Nat.mul_succ, length, List.length_cons]
    omega
  rw [SendPlan.event, place, Nat.add_mul_mod_self_left, Nat.mod_eq_of_lt (by omega), ← whole,
    List.getElem?_append_right (Nat.le_refl _), Nat.sub_self]
  rfl

/-- Every completion is shown on one line, whatever its result. -/
theorem lines_report (plan : SendPlan) (c : ContextId) (done : Completion) :
    lines (plan.report c done) = [sendLine (plan.event done.1) done.2] := rfl

/-! ### Their context -/

/-- A context in which the first `issued` sends of a plan were issued and some of them wait, and
nothing else does. -/
structure Holds (plan : SendPlan) (c : ContextId) (context : Context Task) (issued : Nat)
    (waiting : List Nat) : Prop where
  active : context.released = false
  deaf : context.eventHandler = none ∧ context.statusHandler = none
  unlisted : context.lists.pending = []
  issued : context.sends.issued = issued
  pending : context.sends.pending.Perm (waiting.map (plan.entry c))
  /-- No two of them wait under one id. -/
  apart : (waiting.map CorrelationId.nth).Nodup

theorem holds_fresh (plan : SendPlan) (c : ContextId) : Holds plan c {} 0 [] where
  active := rfl
  deaf := ⟨rfl, rfl⟩
  unlisted := rfl
  issued := rfl
  pending := .refl _
  apart := .nil

namespace Holds

variable {plan : SendPlan} {c : ContextId} {context : Context Task} {issued : Nat}
  {waiting : List Nat}

theorem mem_pending (holds : Holds plan c context issued waiting) {entry : Pending Task} :
    entry ∈ context.sends.pending ↔ ∃ k ∈ waiting, plan.entry c k = entry := by
  rw [holds.pending.mem_iff, List.mem_map]

/-- The entry that waits under an id is that of a send with this id. -/
theorem entry?_some (holds : Holds plan c context issued waiting) {id : CorrelationId}
    {entry : Pending Task} (waits : context.sends.entry? id = some entry) :
    ∃ k ∈ waiting, id = .nth k ∧ entry = plan.entry c k := by
  obtain ⟨k, mem, rfl⟩ := holds.mem_pending.mp (List.mem_of_find?_eq_some waits)
  exact ⟨k, mem, (Registry.id_of_entry? waits).symm, rfl⟩

theorem entry?_waiting (holds : Holds plan c context issued waiting) {k : Nat}
    (mem : k ∈ waiting) : context.sends.entry? (.nth k) = some (plan.entry c k) := by
  cases waits : context.sends.entry? (.nth k) with
  | none =>
      exact absurd rfl (Registry.away_of_free waits _ (holds.mem_pending.mpr ⟨k, mem, rfl⟩))
  | some entry =>
      obtain ⟨k', mem', same, rfl⟩ := holds.entry?_some waits
      rw [List.inj_on_of_nodup_map holds.apart mem mem' same]

/-- A send under a free id waits with the others. -/
theorem issue (holds : Holds plan c context issued waiting)
    (free : context.sends.entry? (.nth issued) = none) :
    Holds plan c
      (context.withRegistry .send { context.sends with
        issued := context.sends.issued + 1
        pending := (plan.entry c issued).insert context.sends.pending })
      (issued + 1) (issued :: waiting) where
  active := holds.active
  deaf := holds.deaf
  unlisted := holds.unlisted
  issued := congrArg (· + 1) holds.issued
  pending := (Pending.perm_insert _ _).trans (holds.pending.cons _)
  apart := by
    refine List.nodup_cons.mpr ⟨fun taken => ?_, holds.apart⟩
    obtain ⟨k, mem, same⟩ := List.mem_map.mp taken
    have waits := holds.entry?_waiting mem
    rw [same, free] at waits
    cases waits

/-- A send that is answered waits no more; the others do as before. -/
theorem settle (holds : Holds plan c context issued waiting) {k : Nat} (mem : k ∈ waiting) :
    Holds plan c (context.withRegistry .send (context.sends.erase (.nth k))) issued
      (waiting.erase k) where
  active := holds.active
  deaf := holds.deaf
  unlisted := holds.unlisted
  issued := holds.issued
  pending := by
    have others : waiting.filter (fun j => CorrelationId.nth j != .nth k) = waiting.erase k := by
      rw [(List.Nodup.of_map _ holds.apart).erase_eq_filter]
      refine List.filter_congr fun j waits => ?_
      have one := List.inj_on_of_nodup_map holds.apart waits mem
      rw [Bool.eq_iff_iff, bne_iff_ne, bne_iff_ne]
      exact not_congr ⟨one, congrArg _⟩
    have erased := holds.pending.filter (·.id != .nth k)
    rw [List.filter_map] at erased
    rw [← others]
    exact erased
  apart := holds.apart.sublist ((List.erase_sublist).map _)

/-- What a dispatch comes to: it answers a send that waits, or it leads to nothing. -/
theorem route (holds : Holds plan c context issued waiting) (n : Notification) :
    (∃ k ∈ waiting, ∃ result, n = .sendCompleted (.nth k) result ∧
      (context.route c n).1 = .ok (some (plan.report c (k, result))) ∧
      Holds plan c (context.route c n).2 issued (waiting.erase k)) ∨
    (∀ i, (context.route c n).1 ≠ .ok (some i)) ∧ (context.route c n).2 = context := by
  cases n with
  | sendCompleted id result =>
      simp only [Context.route, Context.complete, Context.settle_active holds.active]
      cases waits : Registry.entry? (context.registry .send) id with
      | none => exact .inr ⟨fun i leads => (by cases leads), rfl⟩
      | some entry =>
          obtain ⟨k, mem, rfl, rfl⟩ := holds.entry?_some waits
          exact .inl ⟨k, mem, result, rfl, rfl, holds.settle mem⟩
  | applicationsListed id result =>
      have none : Registry.entry? (context.registry .list) id = none := by
        rw [Registry.entry?, Context.registry, holds.unlisted]
        rfl
      simp only [Context.route, Context.complete, Context.settle_active holds.active, none]
      exact .inr ⟨fun i leads => (by cases leads), trivial⟩
  | event broadcast =>
      simp only [Context.route, holds.deaf.1]
      exact .inr ⟨fun i leads => (by cases leads), trivial⟩
  | subscriptionStatus broadcast =>
      simp only [Context.route, holds.deaf.2]
      exact .inr ⟨fun i leads => (by cases leads), trivial⟩

/-- The completion of a send that waits runs the callback of this send. -/
theorem route_waiting (holds : Holds plan c context issued waiting) {k : Nat}
    (mem : k ∈ waiting) (result : SendResult) :
    (context.route c (.sendCompleted (.nth k) result)).1 =
      .ok (some (plan.report c (k, result))) := by
  have waits : Registry.entry? (context.registry .send) (.nth k) = some (plan.entry c k) :=
    holds.entry?_waiting mem
  simp only [Context.route, Context.complete, Context.settle_active holds.active, waits]
  rfl

variable [Transport T]

/-- The next send of the plan gets the next id, if it gets one. -/
theorem send (holds : Holds plan c context issued waiting) {t : T} {payload : String}
    {target : Target} {id : CorrelationId}
    (answer : (context.send t (plan.event issued) payload target
      (.reportSend c (plan.event issued) plan.total) none).result = .ok id) :
    id = .nth issued ∧
      Holds plan c (context.send t (plan.event issued) payload target
        (.reportSend c (plan.event issued) plan.total) none).context (issued + 1)
        (issued :: waiting) := by
  simp only [Context.send] at answer ⊢
  cases checked : context.checkSend (plan.event issued) payload target with
  | error e =>
      rw [checked] at answer
      cases answer
  | ok _ =>
      rw [checked] at answer
      obtain ⟨next, free, left⟩ := Context.request_answered answer
      have nth : id = .nth issued := next.trans (congrArg _ holds.issued)
      subst nth
      exact ⟨rfl, left ▸ holds.issue free⟩

end Holds

end EventClient.CommandLine
