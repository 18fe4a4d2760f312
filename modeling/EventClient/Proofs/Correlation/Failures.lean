import EventClient.Proofs.Client.Besides
import EventClient.Proofs.Client.Reentry
import EventClient.Proofs.Connection.Requests
import EventClient.Proofs.Correlation.ExactlyOnce

/-!
Requests that fail. One that a check objects to changes nothing at all, and one that the transport
refuses uses up the id that it was to carry, which no request gets and no completion answers any
more. A request that is taken hands over one call, with its id and its arguments, and its entry is
all that its context gains. So whatever waits for a completion was taken by the transport.
-/
namespace EventClient

/-- What a program can ask for that a completion answers. -/
inductive Inquiry where
  | send (event payload : String) (target : Target)
  | list (scope : Scope)

namespace Inquiry

def kind : Inquiry → RequestKind
  | .send .. => .send
  | .list _ => .list

def call (id : CorrelationId) : Inquiry → Call
  | .send event payload target => .sendEvent event payload id target
  | .list scope => .listApplications id scope

/-- What is asked of the context and the arguments before there is an id. -/
def check {κ : Type} (context : Context κ) : Inquiry → Except ClientError Unit
  | .send event payload target => context.checkSend event payload target
  | .list _ => context.checkActive

def issued (id : CorrelationId) : Inquiry → Entry
  | .send event _ _ => .sendIssued id event
  | .list scope => .listIssued scope id

def act {T κ : Type} (c : ContextId) (callback : κ) (userData : Option String) :
    Inquiry → Client.Act T κ
  | .send event payload target => .send c event payload target callback userData
  | .list scope => .list c scope callback userData

end Inquiry

/-- How a transport records the requests that it takes. -/
structure Records (T ρ : Type) [Transport T] where
  taken : T → List ρ
  /-- A record shows a call, with all that it carries. -/
  Shows : T → Call → ρ → Prop
  refused : ∀ {t : T} {inquiry : Inquiry} {id : CorrelationId} {e : ClientError},
    (Transport.perform t (inquiry.call id)).2 = .error e →
      taken (Transport.perform t (inquiry.call id)).1 = taken t
  accepted : ∀ {t : T} {inquiry : Inquiry} {id : CorrelationId},
    (Transport.perform t (inquiry.call id)).2 = .ok () →
      ∃ r, Shows t (inquiry.call id) r ∧
        taken (Transport.perform t (inquiry.call id)).1 = taken t ++ [r]

theorem Loopback.perform_inquiry (t : Loopback) (inquiry : Inquiry) (id : CorrelationId) :
    Transport.perform t (inquiry.call id) = t.record (inquiry.call id) := by
  cases inquiry <;> rfl

/-- A transport without a framework records the calls themselves. -/
def Loopback.recorded : Records Loopback Call where
  taken t := t.calls
  Shows _ call r := r = call
  refused {t inquiry id e} refusal := by
    rw [perform_inquiry] at refusal ⊢
    simp only [record] at refusal ⊢
    split at refusal
    · rfl
    · cases refusal
  accepted {t inquiry id} taken := by
    rw [perform_inquiry] at taken ⊢
    simp only [record] at taken ⊢
    split at taken
    · cases taken
    · exact ⟨_, rfl, rfl⟩

/-- What a connection took and the daemon did not read yet: payloads that encode requests. -/
def Connection.recorded : Records Connection Bytes where
  taken t := t.wire ++ t.queue
  Shows t call r := ∃ request, t.request? call = .ok (some request) ∧ request.encode = .ok r
  refused {t inquiry id e} refusal := by
    obtain ⟨wire, -, queue, -⟩ := perform_queues t (inquiry.call id)
    have none := accepted_refused refusal
    change ((t.perform _).1.wire ++ (t.perform _).1.queue) = _
    rw [wire, queue, none, List.append_nil]
  accepted {t inquiry id} taken := by
    have plain : t.readied (inquiry.call id) = t := by cases inquiry <;> rfl
    have some_request : t.request? (inquiry.call id) ≠ .ok none := by
      cases inquiry with
      | list => exact nofun
      | send event payload target =>
          simp only [Inquiry.call, request?]
          cases sendRequest t.accounts event payload id target <;> exact nofun
    change (t.perform _).2 = .ok () at taken
    change ∃ r, _ ∧ ((t.perform _).1.wire ++ (t.perform _).1.queue) = _
    rw [perform_eq, plain] at taken ⊢
    cases asked : t.request? (inquiry.call id) with
    | error e =>
        rw [asked] at taken
        cases taken
    | ok request? =>
        rw [asked] at taken
        cases request? with
        | none => exact absurd asked some_request
        | some request =>
            dsimp only at taken ⊢
            rcases enqueue_cases t request with ⟨e, refused, -⟩ | ⟨payload, encoded, -, queued⟩
            · rw [refused] at taken
              cases taken
            · rw [queued]
              exact ⟨payload, ⟨request, rfl, encoded⟩, (List.append_assoc ..).symm⟩

/-- Withdrawing what was just held leaves nothing of it. -/
theorem Registry.withdraw_held {κ : Type} {r held : Registry κ} {entry : Pending κ}
    (hold : r.hold entry = .ok held) : (held.withdraw entry.id).2 = r := by
  obtain ⟨-, kind, issued, -⟩ := hold_ok hold
  have pending := pending_withdraw_hold hold
  cases r
  cases held
  simp_all [withdraw, erase]

theorem Registry.size_hold {κ : Type} {r held : Registry κ} {entry : Pending κ}
    (hold : r.hold entry = .ok held) : held.size = r.size + 1 := by
  rw [hold_ok_of_free (hold_ok hold).1] at hold
  cases hold
  exact (Pending.perm_insert entry r.pending).length_eq

/-- A request whose entry is held is decided by the transport, and one that it refuses leaves no
more than that an id was given out. -/
theorem Context.request_held {T κ : Type} [Transport T] {context : Context κ} {kind : RequestKind}
    {callback : κ} {userData : Option String} {held : Registry κ}
    (hold : (context.registry kind).issue.2.hold
      ⟨(context.registry kind).nextId, callback, userData⟩ = .ok held)
    (t : T) (call : CorrelationId → Call) (issued : CorrelationId → Entry) :
    let id := (context.registry kind).nextId
    context.request t kind callback userData call issued =
      match Transport.perform t (call id) with
      | (t, .ok ()) =>
        { result := .ok id, context := context.withRegistry kind held, transport := t
          entries := [.registered kind id held.size, issued id] }
      | (t, .error e) =>
        { result := .error e
          context := context.withRegistry kind (context.registry kind).issue.2, transport := t
          entries := [.registered kind id held.size] } := by
  have issue : (context.registry kind).issue =
      ((context.registry kind).nextId, (context.registry kind).issue.2) := rfl
  have withdrawn := Registry.withdraw_held hold
  simp only [request]
  rw [issue]
  cases Transport.perform t (call (context.registry kind).nextId) with
  | mk t' answer => cases answer <;> simp only [hold, withdrawn]

/-- Where a request still waits under the next id, only this id is given out. -/
theorem Context.request_clashed {T κ : Type} [Transport T] {context : Context κ}
    {kind : RequestKind} {entry : Pending κ}
    (waits : Registry.entry? (context.registry kind) (context.registry kind).nextId = some entry)
    (t : T) (callback : κ) (userData : Option String) (call : CorrelationId → Call)
    (issued : CorrelationId → Entry) :
    context.request t kind callback userData call issued =
      { result := .error (.alreadyRegistered (context.registry kind).kind
          (context.registry kind).nextId)
        context := context.withRegistry kind (context.registry kind).issue.2
        transport := t } := by
  have issue : (context.registry kind).issue =
      ((context.registry kind).nextId, (context.registry kind).issue.2) := rfl
  have hold : (context.registry kind).issue.2.hold
      ⟨(context.registry kind).nextId, callback, userData⟩ =
        .error (.alreadyRegistered (context.registry kind).kind
          (context.registry kind).nextId) := by
    rw [Registry.hold_eq, Registry.entry?_issue, waits]
    rfl
  simp only [request]
  rw [issue]
  simp only [hold]

namespace Client

variable {T κ : Type}

/-- All that a request can change: one registry of its context, the transport, and what is noted. -/
def afterRequest (s : Client T κ) (c : ContextId) (kind : RequestKind) (r : Registry κ) (t : T)
    (entries : List Entry) : Client T κ :=
  { s.updateContext c fun context => context.withRegistry kind r with transport := t }.note entries

theorem afterRequest_eq {s : Client T κ} {c : ContextId} {slot : Slot κ}
    (h : s.slot? c = some slot) (kind : RequestKind) (r : Registry κ) (t : T)
    (entries : List Entry) :
    s.afterRequest c kind r t entries =
      { s.withSlot c { slot with context := slot.context.withRegistry kind r } with
        transport := t }.note entries := by
  rw [afterRequest, updateContext, updateSlot, h]

/-- The transport refused a request; only the id that it was to carry is given out. -/
def skipped (s : Client T κ) (c : ContextId) (context : Context κ) (kind : RequestKind) (t : T) :
    Client T κ :=
  let r := context.registry kind
  s.afterRequest c kind r.issue.2 t [.registered kind r.nextId (r.size + 1)]

/-- The next id is still that of a request that waits, and is given out all the same. -/
def clashed (s : Client T κ) (c : ContextId) (context : Context κ) (kind : RequestKind) :
    Client T κ :=
  s.afterRequest c kind (context.registry kind).issue.2 s.transport []

variable [Transport T]

def ask (s : Client T κ) (c : ContextId) (inquiry : Inquiry) (callback : κ)
    (userData : Option String) : Except ClientError CorrelationId × Client T κ :=
  match inquiry with
  | .send event payload target => s.send c event payload target callback userData
  | .list scope => s.list c scope callback userData

/-- All that can come of a request. -/
inductive Answered (s : Client T κ) (c : ContextId) (context : Context κ) (inquiry : Inquiry)
    (callback : κ) (userData : Option String) :
    Except ClientError CorrelationId → Client T κ → Prop where
  | rejected {e : ClientError} (check : inquiry.check context = .error e) :
      Answered s c context inquiry callback userData (.error e) s
  /-- Another request still waits under the next id. -/
  | clashed {entry : Pending κ} (passed : inquiry.check context = .ok ())
      (waits : Registry.entry? (context.registry inquiry.kind)
        (context.registry inquiry.kind).nextId = some entry) :
      Answered s c context inquiry callback userData
        (.error (.alreadyRegistered (context.registry inquiry.kind).kind
          (context.registry inquiry.kind).nextId))
        (s.clashed c context inquiry.kind)
  | refused {e : ClientError} {t : T} (passed : inquiry.check context = .ok ())
      (free : Registry.entry? (context.registry inquiry.kind)
        (context.registry inquiry.kind).nextId = none)
      (answer : Transport.perform s.transport
        (inquiry.call (context.registry inquiry.kind).nextId) = (t, .error e)) :
      Answered s c context inquiry callback userData (.error e)
        (s.skipped c context inquiry.kind t)
  | accepted {t : T} {held : Registry κ} (entries : List Entry)
      (passed : inquiry.check context = .ok ())
      (answer : Transport.perform s.transport
        (inquiry.call (context.registry inquiry.kind).nextId) = (t, .ok ()))
      (hold : (context.registry inquiry.kind).issue.2.hold
        ⟨(context.registry inquiry.kind).nextId, callback, userData⟩ = .ok held) :
      Answered s c context inquiry callback userData
        (.ok (context.registry inquiry.kind).nextId)
        (s.afterRequest c inquiry.kind held t entries)

theorem ask_rejected {s : Client T κ} {c : ContextId} {slot : Slot κ}
    (h : s.slot? c = some slot) {inquiry : Inquiry} {e : ClientError}
    (rejected : inquiry.check slot.context = .error e) (callback : κ) (userData : Option String) :
    s.ask c inquiry callback userData = (.error e, s) := by
  cases inquiry with
  | send event payload target =>
      have check : slot.context.checkSend event payload target = .error e := rejected
      rw [ask, send]
      apply onContext_refused h
      simp only [Context.send, check]
  | list scope =>
      have check : slot.context.checkActive = .error e := rejected
      rw [ask, list]
      apply onContext_refused h
      simp only [Context.list, check]

theorem ask_passed {s : Client T κ} {c : ContextId} {slot : Slot κ}
    (h : s.slot? c = some slot) {inquiry : Inquiry}
    (passed : inquiry.check slot.context = .ok ()) (callback : κ) (userData : Option String) :
    s.ask c inquiry callback userData = s.onContext c fun context t =>
      context.request t inquiry.kind callback userData inquiry.call inquiry.issued := by
  cases inquiry with
  | send event payload target =>
      have check : slot.context.checkSend event payload target = .ok () := passed
      simp only [ask, send, onContext, h, Context.send, check]
      rfl
  | list scope =>
      have check : slot.context.checkActive = .ok () := passed
      simp only [ask, list, onContext, h, Context.list, check]
      rfl

theorem ask_answered {s : Client T κ} {c : ContextId} {context : Context κ}
    (here : s.context? c = some context) (inquiry : Inquiry) (callback : κ)
    (userData : Option String) :
    Answered s c context inquiry callback userData (s.ask c inquiry callback userData).1
      (s.ask c inquiry callback userData).2 := by
  obtain ⟨slot, hslot, rfl⟩ := Option.map_eq_some_iff.mp here
  cases check : inquiry.check slot.context with
  | error e =>
      rw [ask_rejected hslot check]
      exact .rejected check
  | ok _ =>
      rw [ask_passed hslot check]
      cases waits : Registry.entry? (slot.context.registry inquiry.kind)
        (slot.context.registry inquiry.kind).nextId with
      | some entry =>
          simp only [onContext, hslot, Context.request_clashed waits]
          have clashed : Answered s c slot.context inquiry callback userData _ _ :=
            .clashed check waits
          rw [Client.clashed, afterRequest_eq hslot] at clashed
          exact clashed
      | none =>
      obtain ⟨held, hold⟩ : ∃ held, (slot.context.registry inquiry.kind).issue.2.hold
          ⟨(slot.context.registry inquiry.kind).nextId, callback, userData⟩ = .ok held :=
        ⟨_, Registry.hold_ok_of_free waits⟩
      simp only [onContext, hslot, Context.request_held hold]
      cases answer : Transport.perform s.transport
        (inquiry.call (slot.context.registry inquiry.kind).nextId) with
      | mk t result =>
      cases result with
      | error e =>
          have refused : Answered s c slot.context inquiry callback userData (.error e) _ :=
            .refused check waits answer
          rw [skipped, afterRequest_eq hslot] at refused
          rw [Registry.size_hold hold]
          exact refused
      | ok _ =>
          let id := (slot.context.registry inquiry.kind).nextId
          have accepted : Answered s c slot.context inquiry callback userData (.ok id) _ :=
            .accepted [.registered inquiry.kind id held.size, inquiry.issued id] check answer hold
          rwa [afterRequest_eq hslot] at accepted

/-! ### A single request -/

/-- What a context is set to is as it was. -/
structure SameSettings (s s' : Client T κ) : Prop where
  subscriptions : ∀ c,
    (s'.context? c).map (·.subscriptions) = (s.context? c).map (·.subscriptions)
  handlers : ∀ c,
    (s'.context? c).map (fun context => (context.eventHandler, context.statusHandler)) =
      (s.context? c).map fun context => (context.eventHandler, context.statusHandler)
  released : ∀ c, (s'.context? c).map (·.released) = (s.context? c).map (·.released)

/-- A request failed: a check objected to it and nothing at all changed, or the transport refused
it and its id is skipped. Either way no entry is there that was not there, nothing is on its way to
the framework, and the callback is forgotten: with any other one the client would be the same. The
last reason needs an id that is given out for the second time while its first request waits. -/
structure Failed (s : Client T κ) (c : ContextId) (context : Context κ) (inquiry : Inquiry)
    (e : ClientError) (s' : Client T κ) : Prop where
  pending : ∀ c kind, (s'.registry c kind).pending = (s.registry c kind).pending
  settings : SameSettings s s'
  recorded : ∀ {ρ : Type} (records : Records T ρ),
    records.taken s'.transport = records.taken s.transport
  reason : (inquiry.check context = .error e ∧ s' = s) ∨
    (inquiry.check context = .ok () ∧ ∃ t,
      Transport.perform s.transport (inquiry.call (context.registry inquiry.kind).nextId) =
        (t, .error e) ∧ s' = s.skipped c context inquiry.kind t) ∨
    (inquiry.check context = .ok () ∧ s' = s.clashed c context inquiry.kind ∧
      Registry.entry? (context.registry inquiry.kind) (context.registry inquiry.kind).nextId ≠
        none)
  forgotten : ∀ callback userData, s.ask c inquiry callback userData = (.error e, s')

/-- A request was taken: one call was handed over, and one entry waits for its completion. -/
structure Taken (s : Client T κ) (c : ContextId) (context : Context κ) (inquiry : Inquiry)
    (callback : κ) (userData : Option String) (id : CorrelationId) (s' : Client T κ) : Prop where
  next : id = (context.registry inquiry.kind).nextId
  passed : inquiry.check context = .ok ()
  call : Transport.perform s.transport (inquiry.call id) = (s'.transport, .ok ())
  recorded : ∀ {ρ : Type} (records : Records T ρ), ∃ r,
    records.Shows s.transport (inquiry.call id) r ∧
      records.taken s'.transport = records.taken s.transport ++ [r]
  entry : ∀ c' kind id', Registry.entry? (s'.registry c' kind) id' =
    if c' = c ∧ kind = inquiry.kind ∧ id' = id then some ⟨id, callback, userData⟩
    else Registry.entry? (s.registry c' kind) id'
  settings : SameSettings s s'

section

omit [Transport T]
variable {s : Client T κ} {c : ContextId} {context : Context κ}
  (here : s.context? c = some context) (kind : RequestKind) (r : Registry κ) (t : T)
  (entries : List Entry)

include here

theorem context?_afterRequest (c' : ContextId) :
    (s.afterRequest c kind r t entries).context? c' =
      if c' = c then some (context.withRegistry kind r) else s.context? c' := by
  refine Eq.trans (context?_updateContext s c (·.withRegistry kind r) c') ?_
  split
  · next heq => rw [heq, here]; rfl
  · cases s.context? c' <;> rfl

theorem settings_afterRequest : SameSettings s (s.afterRequest c kind r t entries) := by
  have same {α : Type} (f : Context κ → α) (kept : f (context.withRegistry kind r) = f context)
      (c' : ContextId) :
      ((s.afterRequest c kind r t entries).context? c').map f = (s.context? c').map f := by
    rw [context?_afterRequest here]
    split
    · next heq => rw [heq, here, Option.map_some, Option.map_some, kept]
    · rfl
  exact ⟨same _ (by cases kind <;> rfl), same _ (by simp), same _ (by simp)⟩

theorem registry_afterRequest (c' : ContextId) (kind' : RequestKind) :
    (s.afterRequest c kind r t entries).registry c' kind' =
      if c' = c ∧ kind' = kind then r else s.registry c' kind' := by
  rw [registry, context?_afterRequest here]
  by_cases heq : c' = c
  · subst heq
    rw [if_pos rfl, registry_of_context here, Option.map_some, Option.getD_some,
      Context.registry_withRegistry]
    simp
  · rw [if_neg heq, if_neg (fun both => heq both.1)]
    rfl

theorem pending_issued (c' : ContextId) (kind' : RequestKind) :
    ((s.afterRequest c kind (context.registry kind).issue.2 t entries).registry c' kind').pending =
      (s.registry c' kind').pending := by
  rw [registry_afterRequest here]
  split
  · next both => rw [both.1, both.2, registry_of_context here]; rfl
  · rfl

end

/-- Whatever callback it is made with, a request that fails leaves the same client. -/
theorem ask_failed {s : Client T κ} {c : ContextId} {context : Context κ}
    (here : s.context? c = some context) {inquiry : Inquiry} {callback : κ}
    {userData : Option String} {e : ClientError} {s' : Client T κ}
    (failed : s.ask c inquiry callback userData = (.error e, s')) :
    Failed s c context inquiry e s' := by
  have answered := ask_answered here inquiry
  have first := answered callback userData
  rw [failed] at first
  dsimp only at first
  cases first with
  | rejected check =>
      refine ⟨fun _ _ => rfl, ⟨fun _ => rfl, fun _ => rfl, fun _ => rfl⟩, fun _ => rfl,
        .inl ⟨check, rfl⟩, ?_⟩
      obtain ⟨slot, hslot, rfl⟩ := Option.map_eq_some_iff.mp here
      exact ask_rejected hslot check
  | @clashed entry passed waits =>
      have taken : Registry.entry? (context.registry inquiry.kind)
          (context.registry inquiry.kind).nextId ≠ none := by
        rw [waits]
        exact nofun
      refine ⟨pending_issued here inquiry.kind _ _, settings_afterRequest here .., fun _ => rfl,
        .inr (.inr ⟨passed, rfl, taken⟩), ?_⟩
      intro callback userData
      have again := answered callback userData
      generalize s.ask c inquiry callback userData = result at again ⊢
      obtain ⟨result, s'⟩ := result
      dsimp only at again
      cases again with
      | rejected check => cases passed.symm.trans check
      | clashed => rfl
      | refused _ free => exact absurd free taken
      | accepted _ _ _ hold => exact absurd (Registry.hold_ok hold).1 taken
  | @refused e t passed free answer =>
      refine ⟨pending_issued here inquiry.kind t _, settings_afterRequest here .., ?_,
        .inr (.inl ⟨passed, t, answer, rfl⟩), ?_⟩
      · intro ρ records
        have refused := records.refused (congrArg Prod.snd answer)
        rwa [answer] at refused
      · intro callback userData
        have again := answered callback userData
        generalize s.ask c inquiry callback userData = result at again ⊢
        obtain ⟨result, s'⟩ := result
        dsimp only at again
        cases again with
        | rejected check => cases passed.symm.trans check
        | clashed _ waits => cases free.symm.trans waits
        | refused _ _ answer' => cases answer.symm.trans answer'; rfl
        | accepted entries passed answer' => cases answer.symm.trans answer'

theorem ask_taken {s : Client T κ} {c : ContextId} {context : Context κ}
    (here : s.context? c = some context) {inquiry : Inquiry} {callback : κ}
    {userData : Option String} {id : CorrelationId} {s' : Client T κ}
    (taken : s.ask c inquiry callback userData = (.ok id, s')) :
    Taken s c context inquiry callback userData id s' := by
  have answered := ask_answered here inquiry callback userData
  rw [taken] at answered
  dsimp only at answered
  cases answered with
  | @accepted t held entries passed answer hold =>
      refine ⟨rfl, passed, answer, ?_, ?_, settings_afterRequest here ..⟩
      · intro ρ records
        have accepted := records.accepted (congrArg Prod.snd answer)
        rwa [answer] at accepted
      · intro c' kind id'
        rw [registry_afterRequest here]
        by_cases both : c' = c ∧ kind = inquiry.kind
        · obtain ⟨rfl, rfl⟩ := both
          simp only [true_and, and_self, if_true]
          rw [(Registry.hold_ok hold).2.2.2, registry_of_context here, Registry.entry?_issue]
          simp only [eq_comm]
        · rw [if_neg both, if_neg fun all => both ⟨all.1, all.2.1⟩]

/-! ### Whole runs -/

omit [Transport T] in
/-- An entry that a step leaves was there before, or its request was just taken. -/
theorem RegistryStep.origin {c : ContextId} {kind : RequestKind} {r r' : Registry κ}
    {event? : Option (Event κ)} (step : RegistryStep c kind r event? r') {id : CorrelationId}
    {entry : Pending κ} (waits : r'.entry? id = some entry) :
    r.entry? id = some entry ∨ event? = some (.requested c kind entry (.ok ())) := by
  cases step with
  | idle => exact .inl waits
  | @accepted _ taken _ hold =>
      rw [(Registry.hold_ok hold).2.2.2] at waits
      split at waits
      · cases waits
        exact .inr rfl
      · exact .inl waits
  | refused _ hold =>
      rw [Registry.entry?_withdraw_hold hold] at waits
      exact .inl waits
  | clashed => exact .inl waits
  | settled =>
      rw [Registry.entry?_erase] at waits
      split at waits
      · cases waits
      · exact .inl waits
  | cleared => cases waits

theorem taken_of_waiting {s : Client T κ} (drained : s.Drained) {moves : List (Move T κ)}
    {c : ContextId} {kind : RequestKind} {id : CorrelationId} {entry : Pending κ}
    (waits : Registry.entry? ((s.after moves).registry c kind) id = some entry) :
    Registry.entry? (s.registry c kind) id = some entry ∨
      .requested c kind entry (.ok ()) ∈ s.events moves := by
  induction moves generalizing s with
  | nil => exact .inl waits
  | cons move moves ih =>
      rw [events_cons]
      rcases ih (drained_apply drained move) waits with first | later
      · rcases (registryStep drained move c kind).origin first with before | now
        · exact .inl before
        · rw [now]
          exact .inr List.mem_cons_self
      · exact .inr (List.mem_append_right _ later)

/-- What shows of a request that passed its checks. -/
theorem event?_act {s : Client T κ} {c : ContextId} {context : Context κ}
    (here : s.context? c = some context) {inquiry : Inquiry}
    (passed : inquiry.check context = .ok ()) (callback : κ) (userData : Option String) :
    Move.event? s (.program (inquiry.act c callback userData)) =
      some (requestEvent s.transport c context inquiry.kind callback userData inquiry.call) := by
  cases inquiry with
  | send event payload target =>
      have check : context.checkSend event payload target = .ok () := passed
      simp only [Inquiry.act, Move.event?, here, Option.bind_some, check]
      rfl
  | list scope =>
      have check : context.checkActive = .ok () := passed
      simp only [Inquiry.act, Move.event?, here, Option.bind_some, check]
      rfl

omit [Transport T] in
/-- An id has one request. -/
theorem Ledger.requested_once {h : List (Event κ)} {c : ContextId} {kind : RequestKind}
    {r : Registry κ} (ledger : Ledger h c kind r) {entry : Pending κ}
    {answer : Except ClientError Unit} (asked : .requested c kind entry answer ∈ h) :
    entry.id.value.toNat < r.issued ∧
      requests h c kind entry.id = [.requested c kind entry answer] := by
  have listed : .requested c kind entry answer ∈ requests h c kind entry.id :=
    List.mem_filter.mpr ⟨asked, decide_eq_true ⟨rfl, rfl, rfl⟩⟩
  have below : entry.id.value.toNat < r.issued := by
    apply Nat.lt_of_not_le
    intro above
    rw [(ledger.unused entry.id above).2.1] at listed
    cases listed
  obtain ⟨only, one⟩ := List.length_eq_one_iff.mp (ledger.once entry.id below)
  rw [one, List.mem_singleton] at listed
  exact ⟨below, one.trans (congrArg (fun e => [e]) listed.symm)⟩

omit [Transport T] in
/-- The callback of a request that was refused does not run. -/
theorem Ledger.skipped {h : List (Event κ)} {c : ContextId} {kind : RequestKind} {r : Registry κ}
    (ledger : Ledger h c kind r) {entry : Pending κ} {e : ClientError}
    (refused : .requested c kind entry (.error e) ∈ h) : runs h c kind entry.id = [] := by
  obtain ⟨below, one⟩ := ledger.requested_once refused
  have contradictory {entry' : Pending κ} (same : entry'.id = entry.id)
      (taken : .requested c kind entry' (.ok ()) ∈ h) : False := by
    have other := (ledger.requested_once taken).2
    rw [same, one] at other
    cases other
  obtain ⟨fate, holds⟩ := ledger.fate entry.id below
  cases fate with
  | outstanding =>
      obtain ⟨entry', _, _, heq, _, waits, _⟩ := holds
      exact (contradictory (Registry.id_of_entry? waits) (by simp [heq])).elim
  | completed =>
      obtain ⟨entry', _, _, _, _, heq, same, _⟩ := holds
      exact (contradictory same (by simp [heq])).elim
  | discarded =>
      obtain ⟨_, _, _, _, _, none⟩ := holds
      exact none
  | dropped =>
      obtain ⟨entry', _, _, _, heq, same, _⟩ := holds
      exact (contradictory same (by simp [heq])).elim

/-- While fewer than 2^64 ids are given out, the next one is nobody's. -/
theorem next_free (t : T) {moves : List (Move T κ)} {c : ContextId} {kind : RequestKind}
    (small : (((start t).after moves).registry c kind).issued < UInt64.size) :
    Registry.entry? (((start t).after moves).registry c kind)
      (((start t).after moves).registry c kind).nextId = none := by
  have ledger := ledger_after (drained_start t) (ledger_empty c kind) moves (Nat.le_of_lt small)
  exact (ledger.unused _ (Nat.le_of_eq (CorrelationId.toNat_nth small).symm)).1

/-- No request gets the id of one that the transport refused, and no completion answers it. -/
theorem skipped_for_good (t : T) {before after : List (Move T κ)} {c : ContextId}
    {context : Context κ} {inquiry : Inquiry} {callback : κ} {userData : Option String}
    {e : ClientError} (here : ((start t).after before).context? c = some context)
    (passed : inquiry.check context = .ok ())
    (failed : (((start t).after before).ask c inquiry callback userData).1 = .error e)
    (small : (((start t).after (before ++ .program (inquiry.act c callback userData) ::
      after)).registry c inquiry.kind).issued < UInt64.size) :
    let act : Move T κ := .program (inquiry.act c callback userData)
    let id := (context.registry inquiry.kind).nextId
    requests (((start t).after (before ++ [act])).events after) c inquiry.kind id = [] ∧
      runs ((start t).events (before ++ act :: after)) c inquiry.kind id = [] := by
  intro act id
  let s := (start t).after before
  have drained : s.Drained := drained_after (drained_start t) before
  have smaller : (s.registry c inquiry.kind).issued < UInt64.size := by
    rw [after_append] at small
    exact Nat.lt_of_le_of_lt (issued_le_after drained _ c inquiry.kind) small
  have free := next_free t smaller
  rw [registry_of_context here] at free
  have refused : act.event? s = some (.requested c inquiry.kind ⟨id, callback, userData⟩
      (.error e)) := by
    have answered := ask_answered here inquiry callback userData
    rw [failed] at answered
    rw [event?_act here passed, requestEvent]
    generalize (((start t).after before).ask c inquiry callback userData).2 = s' at answered
    cases answered with
    | rejected check => cases passed.symm.trans check
    | clashed _ waits => cases free.symm.trans waits
    | refused _ _ answer => rw [answer]
  have shown : (start t).events (before ++ act :: after) =
      (start t).events before ++ .requested c inquiry.kind ⟨id, callback, userData⟩ (.error e) ::
        (act.apply s).events after := by
    rw [events_append, events_cons, refused]
    rfl
  have ledger := ledger_after (drained_start t) (ledger_empty c inquiry.kind) _
    (Nat.le_of_lt small)
  rw [List.nil_append] at ledger
  have asked : .requested c inquiry.kind ⟨id, callback, userData⟩ (.error e) ∈
      (start t).events (before ++ act :: after) := by
    rw [shown]
    exact List.mem_append_right _ List.mem_cons_self
  refine ⟨?_, ledger.skipped asked⟩
  -- The failed request is the only one with its id, so none comes behind it.
  have one : (requests ((start t).events (before ++ act :: after)) c inquiry.kind id).length = 1 :=
    congrArg List.length (ledger.requested_once asked).2
  rw [shown, ← List.singleton_append, requests_append, requests_append, List.length_append,
    List.length_append] at one
  have itself : (requests [.requested c inquiry.kind ⟨id, callback, userData⟩ (.error e)] c
      inquiry.kind id).length = 1 := by
    simp [requests, Event.Requests]
  have later : (s.after [act]).events after = (act.apply s).events after := rfl
  rw [after_append, later]
  apply List.eq_nil_of_length_eq_zero
  omega

/-- A request that fails leaves no trace, and one that is taken leaves exactly its entry. So in
every run an entry that waits is that of a request that the transport took; and where fewer than
2^64 ids were given out, the next one is free, and one that was given out to a request that failed
is never given out or answered again. -/
theorem failed_requests_leave_no_trace :
    (∀ (s : Client T κ) c context, s.context? c = some context →
      ∀ (inquiry : Inquiry) callback userData,
        (∀ e s', s.ask c inquiry callback userData = (.error e, s') →
          Failed s c context inquiry e s') ∧
        ∀ id s', s.ask c inquiry callback userData = (.ok id, s') →
          Taken s c context inquiry callback userData id s') ∧
    ∀ (t : T) (moves : List (Move T κ)) c kind,
      let r := ((start t).after moves).registry c kind
      (∀ id entry, r.entry? id = some entry →
        .requested c kind entry (.ok ()) ∈ (start t).events moves) ∧
      (r.issued < UInt64.size → r.entry? r.nextId = none ∧
        ∀ before inquiry callback userData after,
          let act : Move T κ := .program (Inquiry.act c callback userData inquiry)
          moves = before ++ act :: after → inquiry.kind = kind →
          ∀ context e, ((start t).after before).context? c = some context →
            inquiry.check context = .ok () →
            (((start t).after before).ask c inquiry callback userData).1 = .error e →
            let id := (context.registry kind).nextId
            requests (((start t).after (before ++ [act])).events after) c kind id = [] ∧
              runs ((start t).events moves) c kind id = []) := by
  refine ⟨?_, ?_⟩
  · intro s c context here inquiry callback userData
    exact ⟨fun e s' => ask_failed here, fun id s' => ask_taken here⟩
  · intro t moves c kind r
    refine ⟨?_, ?_⟩
    · intro id entry waits
      exact (taken_of_waiting (drained_start t) waits).resolve_left nofun
    · intro small
      refine ⟨next_free t small, ?_⟩
      rintro before inquiry callback userData after act rfl rfl context e here passed failed
      exact skipped_for_good t here passed failed small

/-- A context over a transport that is to refuse the next call. -/
def refusing : List (Move Loopback Nat) :=
  [.program .acquire, .transport fun t => { t with refusal := some "down" }]

theorem refusedListing_traceless :
    let s := (start ({} : Loopback)).after refusing
    let act : Move Loopback Nat := .program (Inquiry.act 0 7 none (.list .running))
    let answer := s.ask 0 (.list .running) 7 none
    s.context? 0 = some {} ∧ answer.1 = .error (.transport "down") ∧
      Failed s 0 {} (.list .running) (.transport "down") answer.2 ∧
      Loopback.recorded.taken answer.2.transport = [.openContext 0] ∧
      (((start {}).after (refusing ++ [act, act])).registry 0 .list).issued < UInt64.size ∧
      requests ((s.after [act]).events [act]) 0 .list ⟨0⟩ = [] ∧
      runs ((start {}).events (refusing ++ [act, act])) 0 .list ⟨0⟩ = [] := by
  intro s act answer
  obtain ⟨single, whole⟩ := failed_requests_leave_no_trace (T := Loopback) (κ := Nat)
  have here : s.context? 0 = some {} := rfl
  have failed : answer = (.error (.transport "down"), answer.2) := rfl
  have small : (((start {}).after (refusing ++ [act, act])).registry 0 .list).issued <
      UInt64.size := by decide
  have alone := (single s 0 {} here (.list .running) 7 none).1 _ _ failed
  have skipped := ((whole {} (refusing ++ [act, act]) 0 .list).2 small).2 refusing (.list .running)
    7 none [act] rfl rfl {} _ here rfl (congrArg Prod.fst failed)
  exact ⟨here, congrArg Prod.fst failed, alone, alone.recorded Loopback.recorded, small, skipped⟩

end Client

end EventClient
