import EventClient.Context
import EventClient.Proofs.Registry

/-!
What the requests of a context leave of it, and how its checks answer.
-/
namespace EventClient.Context

variable {T κ : Type}

theorem registry_withRegistry (context : Context κ) (kind : RequestKind) (r : Registry κ)
    (kind' : RequestKind) :
    (context.withRegistry kind r).registry kind' =
      if kind' = kind then r else context.registry kind' := by
  cases kind <;> cases kind' <;> rfl

@[simp] theorem withRegistry_released (context : Context κ) (kind : RequestKind)
    (r : Registry κ) : (context.withRegistry kind r).released = context.released := by
  cases kind <;> rfl

@[simp] theorem withRegistry_eventHandler (context : Context κ) (kind : RequestKind)
    (r : Registry κ) : (context.withRegistry kind r).eventHandler = context.eventHandler := by
  cases kind <;> rfl

@[simp] theorem withRegistry_statusHandler (context : Context κ) (kind : RequestKind)
    (r : Registry κ) : (context.withRegistry kind r).statusHandler = context.statusHandler := by
  cases kind <;> rfl

theorem checkActive_released {context : Context κ} (h : context.released = true) :
    context.checkActive = .error .contextReleased := by
  rw [checkActive, if_pos h]

theorem checkActive_ok {context : Context κ} (h : context.checkActive = .ok ()) :
    context.released = false := by
  cases hr : context.released with
  | false => rfl
  | true =>
      rw [checkActive_released hr] at h
      cases h

theorem checkSend_released {context : Context κ} (h : context.released = true)
    (event payload : String) (target : Target) :
    context.checkSend event payload target = .error .contextReleased := by
  rw [checkSend, checkActive_released h]
  rfl

theorem checkSend_ok {context : Context κ} {event payload : String} {target : Target}
    (h : context.checkSend event payload target = .ok ()) : context.released = false := by
  cases hr : context.released with
  | false => rfl
  | true =>
      rw [checkSend_released hr] at h
      cases h

/-- What an event has passed that may get an id. -/
theorem checkSend_passed {context : Context κ} {event payload : String} {target : Target}
    (h : context.checkSend event payload target = .ok ()) :
    Text.isBlankText event = false ∧
      (∃ data, Json.parse (Text.bytes payload) = .ok data ∧ data.isObject = true) ∧
      target.isUsable = true := by
  rw [checkSend, checkActive, checkSend_ok h] at h
  simp only [bind, Except.bind, Bool.false_eq_true, if_false] at h
  cases blank : Text.isBlankText event with
  | true =>
      rw [blank] at h
      cases h
  | false =>
      simp only [blank, Bool.false_eq_true, if_false] at h
      cases checked : checkPayload payload with
      | error e =>
          rw [checked] at h
          cases h
      | ok _ =>
          simp only [checked, Target.check] at h
          refine ⟨rfl, ?_, ?_⟩
          · simp only [checkPayload] at checked
            split at checked
            · cases checked
            · next data parsed =>
                split at checked
                · next object => exact ⟨data, parsed, object⟩
                · cases checked
          · split at h
            · assumption
            · cases h

/-- What a check can find wrong is the context's release or the caller's input. -/
theorem checkSend_error {context : Context κ} {event payload : String} {target : Target}
    {e : ClientError} (h : context.checkSend event payload target = .error e) :
    e = .contextReleased ∨ e = .blankEvent ∨ (∃ fault, e = .malformedPayload fault) ∨
      e = .payloadNotObject ∨ e = .noTarget := by
  rw [checkSend] at h
  cases active : context.checkActive with
  | error e' =>
      simp only [active, bind, Except.bind] at h
      simp only [checkActive] at active
      split at active <;> cases active
      exact .inl (Except.error.inj h).symm
  | ok _ =>
      cases blank : Text.isBlankText event with
      | true =>
          simp only [active, blank, bind, Except.bind] at h
          exact .inr (.inl (Except.error.inj h).symm)
      | false =>
          cases checked : checkPayload payload with
          | error e' =>
              simp only [active, blank, checked, bind, Except.bind] at h
              cases h
              unfold checkPayload at checked
              dsimp only at checked
              split at checked
              · cases checked
                exact .inr (.inr (.inl ⟨_, rfl⟩))
              · split at checked <;> cases checked
                exact .inr (.inr (.inr (.inl rfl)))
          | ok _ =>
              simp only [active, blank, checked, bind, Except.bind, Bool.false_eq_true,
                if_false] at h
              simp only [Target.check] at h
              split at h
              · cases h
              · exact .inr (.inr (.inr (.inr (Except.error.inj h).symm)))

/-- Only the registry of its kind changes with a request. -/
theorem request_context [Transport T] (context : Context κ) (t : T) (kind : RequestKind)
    (callback : κ) (userData : Option String) (call : CorrelationId → Call)
    (issued : CorrelationId → Entry) :
    ∃ r, (context.request t kind callback userData call issued).context =
      context.withRegistry kind r := by
  rw [request]
  dsimp only
  split
  · exact ⟨_, rfl⟩
  · split <;> exact ⟨_, rfl⟩

section
variable [Transport T]

/-- A request whose id was free answers what the transport answers. -/
theorem request_result {context : Context κ} {kind : RequestKind} {callback : κ}
    {userData : Option String} (t : T) (call : CorrelationId → Call)
    (issued : CorrelationId → Entry) (free : Registry.entry? (context.registry kind)
      (context.registry kind).nextId = none) :
    (context.request t kind callback userData call issued).result =
      (Transport.perform t (call (context.registry kind).nextId)).2.map
        fun _ => (context.registry kind).nextId := by
  have held : Registry.hold (context.registry kind).issue.2
      { id := (context.registry kind).nextId, callback, userData } = .ok _ :=
    Registry.hold_ok_of_free free
  simp only [request]
  simp only [Registry.issue] at held ⊢
  rw [held]
  dsimp only
  split <;> next answer => rw [answer]; rfl

/-- A request that is answered with an id got the next one, which was free, and waits under it. -/
theorem request_answered {context : Context κ} {t : T} {kind : RequestKind} {callback : κ}
    {userData : Option String} {call : CorrelationId → Call} {issued : CorrelationId → Entry}
    {id : CorrelationId}
    (answer : (context.request t kind callback userData call issued).result = .ok id) :
    let r := context.registry kind
    id = r.nextId ∧ r.entry? id = none ∧
      (context.request t kind callback userData call issued).context = context.withRegistry kind
        { r with issued := r.issued + 1
                 pending := Pending.insert { id, callback, userData } r.pending } := by
  intro r
  have held := Registry.hold_eq r.issue.2 { id := r.nextId, callback, userData }
  rw [Registry.entry?_issue] at held
  cases free : r.entry? r.nextId with
  | some entry =>
      simp only [free, Option.isSome_some, if_true] at held
      simp only [r, Registry.issue] at held
      simp only [request, Registry.issue, held] at answer
      cases answer
  | none =>
      simp only [free, Option.isSome_none, Bool.false_eq_true, if_false] at held
      simp only [r, Registry.issue] at held
      simp only [request, Registry.issue, held] at answer ⊢
      split at answer
      · cases answer
        exact ⟨rfl, free, rfl⟩
      · cases answer

/-- A request whose call is refused fails, with the transport's error unless its id was taken. -/
theorem request_refused {context : Context κ} {t : T} {kind : RequestKind}
    {call : CorrelationId → Call} {e : ClientError}
    (refused : (Transport.perform t (call (context.registry kind).nextId)).2 = .error e)
    (callback : κ) (userData : Option String) (issued : CorrelationId → Entry) :
    ∃ e', (context.request t kind callback userData call issued).result = .error e' ∧
      (Registry.entry? (context.registry kind) (context.registry kind).nextId = none → e' = e) := by
  cases free : Registry.entry? (context.registry kind) (context.registry kind).nextId with
  | none =>
      refine ⟨e, ?_, fun _ => rfl⟩
      rw [request_result t call issued free, refused]
      rfl
  | some entry =>
      obtain ⟨e', taken⟩ : ∃ e', Registry.hold (context.registry kind).issue.2
          ⟨(context.registry kind).issue.1, callback, userData⟩ = .error e' := by
        rw [Registry.hold_eq, Registry.entry?_issue, if_pos]
        · exact ⟨_, rfl⟩
        · exact Option.isSome_iff_exists.mpr ⟨entry, free⟩
      refine ⟨e', ?_, nofun⟩
      simp only [request, taken]

/-- A request that fails leaves the entries of every registry as they were. -/
theorem request_error {context : Context κ} {t : T} {kind : RequestKind} {callback : κ}
    {userData : Option String} {call : CorrelationId → Call} {issued : CorrelationId → Entry}
    {e : ClientError}
    (failed : (context.request t kind callback userData call issued).result = .error e)
    (kind' : RequestKind) :
    ((context.request t kind callback userData call issued).context.registry kind').pending =
      (context.registry kind').pending := by
  have others (r : Registry κ) (same : r.pending = (context.registry kind).pending) :
      ((context.withRegistry kind r).registry kind').pending =
        (context.registry kind').pending := by
    rw [registry_withRegistry]
    split
    · next heq => rw [heq, same]
    · rfl
  simp only [request] at failed ⊢
  cases hold : Registry.hold (context.registry kind).issue.2
      { id := (context.registry kind).issue.1, callback, userData } with
  | error e' => exact others _ rfl
  | ok held =>
      simp only [hold] at failed ⊢
      split at failed
      · cases failed
      · exact others _ (Registry.pending_withdraw_hold hold)

theorem issue_context (context : Context κ) (t : T) (call : Call) (entries : List Entry) :
    (context.issue t call entries).context = context := by
  simp only [issue]
  split <;> rfl

/-- Only the subscribed names change, whatever comes of the call. -/
theorem subscribe_context (context : Context κ) (t : T) (names : List String) :
    ∃ subscriptions, (context.subscribe t names).context = { context with subscriptions } := by
  simp only [subscribe]
  split
  · exact ⟨_, rfl⟩
  · exact ⟨_, rfl⟩
  · next subscriptions _ _ => exact ⟨subscriptions, issue_context ..⟩

theorem renewSubscriptions_context (context : Context κ) (t : T) :
    (context.renewSubscriptions t).context = context := by
  simp only [renewSubscriptions]
  split
  · rfl
  · rfl
  · exact issue_context ..

theorem bridgeSignals_context (context : Context κ) (t : T) :
    (context.bridgeSignals t).context = context := by
  simp only [bridgeSignals]
  split
  · rfl
  · exact issue_context ..

end

theorem settle_released {context : Context κ} (h : context.released = true) (kind : RequestKind)
    (id : CorrelationId) : context.settle kind id = .ok none := by
  rw [settle, if_pos h]

theorem settle_active {context : Context κ} (h : context.released = false) (kind : RequestKind)
    (id : CorrelationId) :
    context.settle kind id =
      match Registry.entry? (context.registry kind) id with
      | none => .error (.unknownCorrelation (context.registry kind).kind id)
      | some entry =>
        let r := (context.registry kind).erase id
        .ok (some (entry, context.withRegistry kind r, [.resolved kind id r.size])) := by
  rw [settle, if_neg (by simp [h]), Registry.settle]
  cases Registry.entry? (context.registry kind) id <;> rfl

end EventClient.Context
