import EventClient.Proofs.Correlation.Fates
import EventClient.Transport.Loopback
import Mathlib.Logic.ExistsUnique

/-!
Exactly-once correlation. After every run, each id that a registry gave out belongs to one request
and has exactly one fate, and a completion that finds no entry is reported and changes nothing.
-/
namespace EventClient.Client

variable {T κ : Type}

/-- Two fates of one request exclude each other: the entry waits or not, the callback ran or not,
and the transport gave one answer. -/
theorem Fate.Holds.unique {h : List (Event κ)} {c : ContextId} {kind : RequestKind}
    {id : CorrelationId} {r : Registry κ} {fate fate' : Fate}
    (once : (requests h c kind id).length = 1) (holds : fate.Holds h c kind id r)
    (holds' : fate'.Holds h c kind id r) : fate = fate' := by
  have answered {entry entry' : Pending κ} {e : ClientError} (hid : entry.id = id)
      (hid' : entry'.id = id) (taken : .requested c kind entry (.ok ()) ∈ h)
      (refused : .requested c kind entry' (.error e) ∈ h) : False := by
    obtain ⟨only, heq⟩ := List.length_eq_one_iff.mp once
    have first : Event.requested c kind entry (.ok ()) ∈ requests h c kind id :=
      List.mem_filter.mpr ⟨taken, decide_eq_true ⟨rfl, rfl, hid⟩⟩
    have second : Event.requested c kind entry' (.error e) ∈ requests h c kind id :=
      List.mem_filter.mpr ⟨refused, decide_eq_true ⟨rfl, rfl, hid'⟩⟩
    rw [heq, List.mem_singleton] at first second
    rw [← second] at first
    cases first
  cases hf : fate with
  | outstanding =>
      subst hf
      obtain ⟨_, _, _, _, _, waits, _⟩ := holds
      exact (holds'.eq_outstanding waits).symm
  | completed =>
      subst hf
      obtain ⟨_, _, _, _, _, _, _, _, _, gone, ran⟩ := holds
      cases fate' with
      | outstanding =>
          obtain ⟨_, _, _, _, _, waits, _⟩ := holds'
          rw [gone] at waits
          cases waits
      | completed => rfl
      | discarded =>
          obtain ⟨_, _, _, _, _, none⟩ := holds'
          rw [ran] at none
          cases none
      | dropped =>
          obtain ⟨_, _, _, _, _, _, _, _, none⟩ := holds'
          rw [ran] at none
          cases none
  | discarded =>
      subst hf
      obtain ⟨_, _, refused, hid, gone, none⟩ := holds
      cases fate' with
      | outstanding =>
          obtain ⟨_, _, _, _, _, waits, _⟩ := holds'
          rw [gone] at waits
          cases waits
      | completed =>
          obtain ⟨_, _, _, _, _, _, _, _, _, _, ran⟩ := holds'
          rw [none] at ran
          cases ran
      | discarded => rfl
      | dropped =>
          obtain ⟨_, _, _, _, rfl, hid', _⟩ := holds'
          exact (answered hid' hid (by simp) refused).elim
  | dropped =>
      subst hf
      obtain ⟨_, _, _, _, heq, hid, _, gone, none⟩ := holds
      cases fate' with
      | outstanding =>
          obtain ⟨_, _, _, _, _, waits, _⟩ := holds'
          rw [gone] at waits
          cases waits
      | completed =>
          obtain ⟨_, _, _, _, _, _, _, _, _, _, ran⟩ := holds'
          rw [none] at ran
          cases ran
      | discarded =>
          obtain ⟨_, _, refused, hid', _⟩ := holds'
          exact (answered hid hid' (by simp [heq]) refused).elim
      | dropped => rfl

theorem RegistryStep.issued_le {c : ContextId} {kind : RequestKind} {r r' : Registry κ}
    {event? : Option (Event κ)} (step : RegistryStep c kind r event? r') :
    r.issued ≤ r'.issued := by
  cases step with
  | idle | settled | cleared => exact Nat.le_refl _
  | clashed => exact Nat.le_succ _
  | accepted _ hold =>
      rw [(Registry.hold_ok hold).2.2.1]
      exact Nat.le_succ _
  | refused _ hold =>
      have issued := (Registry.hold_ok hold).2.2.1
      exact Nat.le_trans (Nat.le_succ _) (Nat.le_of_eq issued.symm)

theorem Ledger.step {h : List (Event κ)} {c : ContextId} {kind : RequestKind} {r r' : Registry κ}
    {event? : Option (Event κ)} (ledger : Ledger h c kind r)
    (step : RegistryStep c kind r event? r') (small : r'.issued ≤ UInt64.size) :
    Ledger (h ++ event?.toList) c kind r' := by
  cases step with
  | idle leaves =>
      cases event? with
      | none =>
          rw [Option.toList_none, List.append_nil]
          exact ledger
      | some e => exact ledger.idle (leaves e rfl)
  | accepted next hold =>
      rw [(Registry.hold_ok hold).2.2.1] at small
      exact ledger.accepted next small hold
  | refused next hold =>
      have issued := (Registry.hold_ok hold).2.2.1
      exact ledger.refused _ next (Nat.le_trans (Nat.le_of_eq issued.symm) small) hold
  | clashed next hold =>
      have value : r.nextId.value.toNat = r.issued := CorrelationId.toNat_nth small
      have free := (ledger.unused r.nextId (Nat.le_of_eq value.symm)).1
      rw [Registry.hold_ok_of_free (by rw [next]; exact free)] at hold
      cases hold
  | settled waits completes => exact ledger.settled waits completes
  | cleared => exact ledger.cleared

/-- A completion without an entry is an error that names it, and nothing happens. -/
theorem dispatch_unknown {s : Client T κ} {c : ContextId} {context : Context κ}
    (hc : s.context? c = some context) (active : context.released = false) {n : Notification}
    {kind : RequestKind} {id : CorrelationId} (completes : n.Completes kind id)
    (unknown : Registry.entry? (context.registry kind) id = none) (react : Reaction T κ) :
    s.dispatch react c n =
      (.error (.unknownCorrelation (context.registry kind).kind id), s) := by
  obtain ⟨slot, hslot, rfl⟩ := Option.map_eq_some_iff.mp hc
  cases n with
  | sendCompleted id' result =>
      obtain ⟨rfl, rfl⟩ := completes
      simp only [dispatch, route, hslot, routeCompletion, Context.settle_active active, unknown]
  | applicationsListed id' result =>
      obtain ⟨rfl, rfl⟩ := completes
      simp only [dispatch, route, hslot, routeCompletion, Context.settle_active active, unknown]
  | event | subscriptionStatus => exact completes.elim

variable [Transport T]

theorem issued_le_after {s : Client T κ} (drained : s.Drained) (moves : List (Move T κ))
    (c : ContextId) (kind : RequestKind) :
    (s.registry c kind).issued ≤ ((s.after moves).registry c kind).issued := by
  induction moves generalizing s with
  | nil => exact Nat.le_refl _
  | cons move moves ih =>
      exact Nat.le_trans (registryStep drained move c kind).issued_le
        (ih (drained_apply drained move))

/-- The ledger is kept by every run on which no id is given out twice. -/
theorem ledger_after {s : Client T κ} {h : List (Event κ)} {c : ContextId} {kind : RequestKind}
    (drained : s.Drained) (ledger : Ledger h c kind (s.registry c kind)) (moves : List (Move T κ))
    (small : ((s.after moves).registry c kind).issued ≤ UInt64.size) :
    Ledger (h ++ s.events moves) c kind ((s.after moves).registry c kind) := by
  induction moves generalizing s h with
  | nil =>
      rw [events, history, List.filterMap_nil, List.append_nil]
      exact ledger
  | cons move moves ih =>
      have drained' := drained_apply drained move
      have small' := Nat.le_trans (issued_le_after drained' moves c kind) small
      have ledger' := ledger.step (registryStep drained move c kind) small'
      rw [events_cons, ← List.append_assoc]
      exact ih drained' ledger' small

/-- A request answers what its checks object to or else what the transport answers; that an id is
taken is never the reason. -/
def AnswersByTransport (s : Client T κ) (c : ContextId) (context : Context κ) :
    RequestKind → Prop
  | .send => ∀ event payload target callback userData,
      (s.send c event payload target callback userData).1 = (do
        context.checkSend event payload target
        (Transport.perform s.transport
          (.sendEvent event payload context.sends.nextId target)).2
        return context.sends.nextId) ∧
      ∀ kind id, context.checkSend event payload target ≠ .error (.alreadyRegistered kind id)
  | .list => ∀ scope callback userData,
      (s.list c scope callback userData).1 = (do
        context.checkActive
        (Transport.perform s.transport (.listApplications context.lists.nextId scope)).2
        return context.lists.nextId) ∧
      ∀ kind id, context.checkActive ≠ .error (.alreadyRegistered kind id)

theorem answersByTransport {s : Client T κ} {c : ContextId} {context : Context κ}
    (hc : s.context? c = some context) {kind : RequestKind}
    (free : Registry.entry? (context.registry kind) (context.registry kind).nextId = none) :
    s.AnswersByTransport c context kind := by
  cases kind with
  | send =>
      intro event payload target callback userData
      constructor
      · rw [send, onContext_result hc, Context.send]
        cases context.checkSend event payload target with
        | error e => rfl
        | ok _ => exact Context.request_result s.transport _ _ free
      · intro kind id clash
        rcases Context.checkSend_error clash with h | h | ⟨_, h⟩ | h | h <;>
          simp [ClientError.alreadyRegistered, ClientError.blankEvent,
            ClientError.malformedPayload, ClientError.payloadNotObject, ClientError.noTarget] at h
  | list =>
      intro scope callback userData
      constructor
      · rw [list, onContext_result hc, Context.list]
        cases context.checkActive with
        | error e => rfl
        | ok _ => exact Context.request_result s.transport _ _ free
      · intro kind id clash
        simp only [Context.checkActive] at clash
        split at clash <;> cases clash

/-- After every run, with fewer than 2^64 ids given out: each id given out so far belongs to one
request and has exactly one fate, and no other id has an entry or ran; the next request is answered
by the transport; and a completion that finds no entry is reported and changes nothing at all. -/
theorem correlation_exactly_once (t : T) (moves : List (Move T κ)) (c : ContextId)
    (kind : RequestKind)
    (small : (((start t).after moves).registry c kind).issued < UInt64.size) :
    let s := (start t : Client T κ).after moves
    let h := (start t).events moves
    let r := s.registry c kind
    (∀ id, id.value.toNat < r.issued →
      (requests h c kind id).length = 1 ∧ ∃! fate : Fate, fate.Holds h c kind id r) ∧
    (∀ id, r.issued ≤ id.value.toNat →
      r.entry? id = none ∧ requests h c kind id = [] ∧ runs h c kind id = []) ∧
    (∀ context, s.context? c = some context → s.AnswersByTransport c context kind) ∧
    ∀ context, s.context? c = some context → context.released = false →
      ∀ n id, n.Completes kind id → r.entry? id = none →
        ∀ react, s.dispatch react c n = (.error (.unknownCorrelation kind id), s) := by
  intro s h r
  have ledger : Ledger h c kind r :=
    ledger_after (drained_start t) (ledger_empty c kind) moves (Nat.le_of_lt small)
  refine ⟨?_, ledger.unused, ?_, ?_⟩
  · intro id below
    have once := ledger.once id below
    obtain ⟨fate, holds⟩ := ledger.fate id below
    exact ⟨once, fate, holds, fun fate' holds' => holds'.unique once holds⟩
  · intro context hc
    apply answersByTransport hc
    have value := CorrelationId.toNat_nth small
    have free := (ledger.unused r.nextId (Nat.le_of_eq value.symm)).1
    simp only [r, registry_of_context hc] at free
    exact free
  · intro context hc active n id completes unknown react
    have kind_eq := ledger.kind_eq
    simp only [r, registry_of_context hc] at kind_eq unknown
    rw [dispatch_unknown hc active completes unknown react, kind_eq]

/-- A query is issued, and its completion is dispatched twice. -/
def listedTwice : List (Move Loopback Nat) :=
  [.program .acquire, .program (.list 0 .running 7 none),
    .program (.route 0 (.applicationsListed ⟨0⟩ ⟨0, 0, "", []⟩)),
    .program (.route 0 (.applicationsListed ⟨0⟩ ⟨0, 0, "", []⟩))]

theorem listedTwice_issued : (((start {}).after listedTwice).registry 0 .list).issued = 1 := by
  decide

theorem listedTwice_completes_once :
    (((start {}).after listedTwice).registry 0 .list).issued < UInt64.size ∧
    (requests ((start {}).events listedTwice) 0 .list ⟨0⟩).length = 1 ∧
    ∃! fate : Fate, fate.Holds ((start {}).events listedTwice) 0 .list ⟨0⟩
      (((start {}).after listedTwice).registry 0 .list) := by
  have small : (((start {}).after listedTwice).registry 0 .list).issued < UInt64.size := by
    rw [listedTwice_issued]
    decide
  have below : (0 : UInt64).toNat < (((start {}).after listedTwice).registry 0 .list).issued := by
    rw [listedTwice_issued]
    decide
  have fates := (correlation_exactly_once ({} : Loopback) listedTwice 0 .list small).1
  exact ⟨small, fates ⟨0⟩ below⟩

end EventClient.Client
