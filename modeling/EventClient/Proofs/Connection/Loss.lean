import EventClient.Proofs.Client.Finality
import EventClient.Proofs.Connection.Opening
import EventClient.Proofs.Connection.Dialogue
import EventClient.Proofs.Correlation.ExactlyOnce

/-!
The loss of a connection. Once the reader has ended, no session is open and nothing is queued ever
again. Whatever needs the daemon is refused and leaves the callbacks that wait as they are, until
they are completed or their context is released, which succeeds without a session to close.
-/
namespace EventClient

namespace Client

variable {T κ : Type}

/-- The same callbacks wait in both clients. -/
def SameWaiting (s s' : Client T κ) : Prop :=
  ∀ c kind, (s'.registry c kind).pending = (s.registry c kind).pending

theorem sameWaiting_of_contexts {s s' : Client T κ} (h : ∀ c, s'.context? c = s.context? c) :
    s.SameWaiting s' := by
  intro c kind
  rw [registry, h]
  rfl

/-- An operation on a context that keeps its entries keeps all entries. -/
theorem sameWaiting_onContext {α : Type} {s : Client T κ} {c : ContextId} {context : Context κ}
    (here : s.context? c = some context) {operate : Context κ → T → Performed T κ α}
    (same : ∀ kind, ((operate context s.transport).context.registry kind).pending =
      (context.registry kind).pending) : s.SameWaiting (s.onContext c operate).2 := by
  intro c' kind
  by_cases heq : c' = c
  · subst heq
    have left := context?_onContext s c' operate c'
    rw [here, Option.map_some, if_pos rfl] at left
    rw [registry_of_context left, registry_of_context here, same]
  · have left := context?_onContext s c operate c'
    simp only [heq, if_false, Option.map_id'] at left
    rw [registry, left]
    rfl

/-- A request that the transport refuses fails and keeps all entries; it fails with the transport's
error as long as ids are not given out twice. -/
theorem sameWaiting_request [Transport T] {s : Client T κ} {c : ContextId} {context : Context κ}
    (here : s.context? c = some context) {operate : Context κ → T → Performed T κ CorrelationId}
    {kind : RequestKind} {callback : κ} {userData : Option String} {call : CorrelationId → Call}
    {issued : CorrelationId → Entry}
    (requests : operate context s.transport =
      context.request s.transport kind callback userData call issued) {e : ClientError}
    (refused : (Transport.perform s.transport (call (context.registry kind).nextId)).2 = .error e)
    (free : (s.registry c kind).issued < UInt64.size →
      Registry.entry? (s.registry c kind) (s.registry c kind).nextId = none) :
    s.SameWaiting (s.onContext c operate).2 ∧ ∃ e', (s.onContext c operate).1 = .error e' ∧
      ((s.registry c kind).issued < UInt64.size → e' = e) := by
  obtain ⟨e', failed, same⟩ := Context.request_refused refused callback userData issued
  refine ⟨sameWaiting_onContext here ?_, e', ?_, ?_⟩
  · intro kind'
    rw [requests]
    exact Context.request_error failed kind'
  · rw [onContext_result here, requests]
    exact failed
  · intro small
    have unused := free small
    rw [registry_of_context here] at unused
    exact same unused

/-- A call of an active context that the transport refuses fails with its error. -/
theorem sameWaiting_issue [Transport T] {s : Client T κ} {c : ContextId} {context : Context κ}
    (here : s.context? c = some context) {operate : Context κ → T → Performed T κ Unit}
    {context' : Context κ} {call : Call} {entries : List Entry}
    (issues : operate context s.transport = context'.issue s.transport call entries)
    (same : ∀ kind, context'.registry kind = context.registry kind) {e : ClientError}
    (refused : (Transport.perform s.transport call).2 = .error e) :
    s.SameWaiting (s.onContext c operate).2 ∧ (s.onContext c operate).1 = .error e := by
  constructor
  · apply sameWaiting_onContext here
    intro kind
    rw [issues, Context.issue_context, same]
  · rw [onContext_result here, issues, Context.issue]
    cases answer : Transport.perform s.transport call with
    | mk t result =>
    rw [answer] at refused
    cases refused
    rfl

end Client

namespace Connection

variable {κ : Type}

/-! ### What a closed connection answers -/

/-- A closed connection does nothing for a call, and refuses every one that asks something. -/
theorem perform_closed {t : Connection} (closed : t.closed = true) (call : Call) :
    (t.perform call).1.queue = t.queue ∧
      (t.perform call).2 =
        match t.request? call with
        | .error e => .error e
        | .ok none => .ok ()
        | .ok (some _) => .error t.lost := by
  refine ⟨perform_halted (fun going => by simp [going.1] at closed) call, ?_⟩
  obtain ⟨_, _, _, still⟩ := readied_same t call
  have address : (t.readied call).lost = t.lost := by cases call <;> rfl
  rw [perform_eq]
  cases t.request? call with
  | error e => rfl
  | ok request? =>
      cases request? with
      | none => rfl
      | some request => simp only [enqueue, still, closed, if_true, address]

/-- What a valid event fails with on a closed connection: its target's user is looked up first. -/
def sendFailure (t : Connection) (target : Target) : ClientError :=
  match target.user with
  | none => t.lost
  | some name => if (t.accounts.uid? name).isSome then t.lost else .unknownUser name

theorem perform_closed_send {t : Connection} (closed : t.closed = true) {event payload : String}
    {data : Json} (parsed : Json.parse (Text.bytes payload) = .ok data) (id : CorrelationId)
    (target : Target) :
    (t.perform (.sendEvent event payload id target)).2 = .error (t.sendFailure target) := by
  rw [(perform_closed closed _).2]
  simp only [request?, sendRequest, parsed, sendFailure, Target.resolve]
  cases target.user with
  | none => rfl
  | some name =>
      simp only [Accounts.find]
      cases t.accounts.uid? name <;> rfl

/-- What a program gets to hear over a connection whose reader has ended. Nothing that it asks for
makes a callback wait or stop waiting. An error other than those given here says that an id was
given out before, which takes 2^64 requests. -/
structure CutOff (s : Client Connection κ) : Prop where
  send : ∀ c context event payload target callback userData, s.context? c = some context →
    context.checkSend event payload target = .ok () →
    let attempt := s.send c event payload target callback userData
    s.SameWaiting attempt.2 ∧ ∃ e, attempt.1 = .error e ∧
      ((s.registry c .send).issued < UInt64.size → e = s.transport.sendFailure target)
  list : ∀ c context scope callback userData, s.context? c = some context →
    context.released = false →
    let attempt := s.list c scope callback userData
    s.SameWaiting attempt.2 ∧ ∃ e, attempt.1 = .error e ∧
      ((s.registry c .list).issued < UInt64.size → e = s.transport.lost)
  subscribe : ∀ c context names subscriptions, s.context? c = some context →
    context.released = false → Subscriptions.ofNames? names = .ok subscriptions →
    s.SameWaiting (s.subscribe c names).2 ∧ (s.subscribe c names).1 = .error s.transport.lost
  renewSubscriptions : ∀ c context, s.context? c = some context → context.released = false →
    context.subscriptions.check = .ok () →
    s.SameWaiting (s.renewSubscriptions c).2 ∧
      (s.renewSubscriptions c).1 = .error s.transport.lost
  bridgeSignals : ∀ c context, s.context? c = some context → context.released = false →
    s.SameWaiting (s.bridgeSignals c).2 ∧ (s.bridgeSignals c).1 = .error s.transport.lost
  enableTracing : ∀ written patterns, TracePattern.parseAll written = .ok patterns →
    s.SameWaiting (s.enableTracing written).2 ∧
      (s.enableTracing written).1 = .error s.transport.lost
  acquire : s.current = none →
    s.SameWaiting s.acquire.2 ∧ s.acquire.1 = .error s.transport.lost ∧ s.acquire.2.current = none
  release : ∀ c, s.current = some c → ∃ sends lists, s.Outstanding c sends lists ∧
    s.release.1 = .ok (some ⟨sends.length, lists.length⟩)

theorem cutOff_of_closed {s : Client Connection κ} {t : Connection}
    {moves : List (Client.Move Connection κ)} (made : s = (Client.start t).after moves)
    (closed : s.transport.closed = true) (idle : s.transport.session = none) : CutOff s := by
  -- Every call but that of an event asks for something without looking at its fields.
  have refused {call : Call} {request : Request}
      (asks : s.transport.request? call = .ok (some request)) :
      (Transport.perform s.transport call).2 = .error s.transport.lost := by
    refine (perform_closed closed call).2.trans ?_
    rw [asks]
  have free (c : ContextId) (kind : RequestKind)
      (small : (s.registry c kind).issued < UInt64.size) :
      Registry.entry? (s.registry c kind) (s.registry c kind).nextId = none := by
    subst made
    have ledger := Client.ledger_after (Client.drained_start t) (Client.ledger_empty c kind) moves
      (Nat.le_of_lt small)
    exact (ledger.unused _ (Nat.le_of_eq (CorrelationId.toNat_nth small).symm)).1
  constructor
  case send =>
    intro c context event payload target callback userData here checked
    obtain ⟨_, ⟨data, parsed, _⟩, _⟩ := Context.checkSend_passed checked
    apply Client.sameWaiting_request here
    · simp only [Context.send, checked]
      rfl
    · exact perform_closed_send closed parsed _ target
    · exact free c .send
  case list =>
    intro c context scope callback userData here active
    apply Client.sameWaiting_request here
    · simp only [Context.list, Context.checkActive, active]
      rfl
    · exact refused rfl
    · exact free c .list
  case subscribe =>
    intro c context names subscriptions here active named
    apply Client.sameWaiting_issue here
    · simp only [Context.subscribe, Context.checkActive, active, named]
      rfl
    · intro kind
      cases kind <;> rfl
    · exact refused rfl
  case renewSubscriptions =>
    intro c context here active named
    apply Client.sameWaiting_issue here
    · simp only [Context.renewSubscriptions, Context.checkActive, active, named]
      rfl
    · exact fun _ => rfl
    · exact refused rfl
  case bridgeSignals =>
    intro c context here active
    apply Client.sameWaiting_issue here
    · simp only [Context.bridgeSignals, Context.checkActive, active]
      rfl
    · exact fun _ => rfl
    · exact refused rfl
  case enableTracing =>
    intro written patterns parsed
    refine ⟨Client.sameWaiting_of_contexts (Client.context?_of_slots
      (Client.slots_enableTracing s written)), ?_⟩
    have lost : (Transport.perform s.transport (.setTracing patterns)).2 =
        .error s.transport.lost := refused rfl
    simp only [Client.enableTracing, parsed]
    split
    · next answer =>
        rw [answer] at lost
        exact lost
    · next answer =>
        rw [answer] at lost
        cases lost
  case acquire =>
    intro free
    have lost : (Transport.perform s.transport (.openContext s.slots.length)).2 =
        .error s.transport.lost := refused rfl
    rcases Client.acquire_cases s with
      ⟨c, current, _⟩ | ⟨_, _, current, slots⟩ | ⟨_, taken, _⟩
    · cases current.symm.trans free
    · refine ⟨Client.sameWaiting_of_contexts fun c => congrArg _ (slots c), ?_, current⟩
      cases answer : Transport.perform s.transport (.openContext s.slots.length) with
      | mk t' result =>
      rw [answer] at lost
      cases lost
      exact (Client.acquire_refused free answer).1
    · cases lost.symm.trans taken
  case release =>
    intro c current
    obtain ⟨context, here⟩ : ∃ context, s.context? c = some context := by
      subst made
      exact (Client.sole_after (Client.sole_start t) moves).present c current
    have outstanding : s.Outstanding c context.sends.ids context.lists.ids := by
      subst made
      exact Client.outstanding_ids t moves here
    have closes : (Transport.perform s.transport .closeContext).2 = .ok () := by
      refine (perform_closed closed .closeContext).2.trans ?_
      rw [request?, idle]
      rfl
    refine ⟨_, _, outstanding, ?_⟩
    rw [(Client.release_leaves current here).1, closes]
    rfl

/-! ### The loss is permanent -/

/-- Nothing opens a closed connection again, and nothing is queued on it. -/
theorem closed_apply {r : Service κ} (closed : r.client.transport.closed = true)
    (happening : Happening κ) :
    (happening.apply r).client.transport.closed = true ∧ happening.queues r = [] := by
  have queues (shorter : (happening.apply r).client.transport.queue.length ≤
      r.client.transport.queue.length) : happening.queues r = [] :=
    List.drop_eq_nil_of_le shorter
  by_cases program : ∃ act, happening = .program act
  · obtain ⟨act, rfl⟩ := program
    have handed : (act.apply r.client).transport.closed = true ∧
        (act.apply r.client).transport.queue = r.client.transport.queue := by
      rcases Client.hands_act r.client act with same | ⟨call, _, handed⟩
      · rw [same]
        exact ⟨closed, rfl⟩
      · rw [handed]
        exact ⟨(perform_ends _ call).1.trans closed, (perform_closed closed call).1⟩
    exact ⟨handed.1, queues (Nat.le_of_eq (congrArg List.length handed.2))⟩
  · obtain ⟨_, shorter, _⟩ := apply_other r fun act same => program ⟨act, same⟩
    refine ⟨?_, queues shorter⟩
    rw [transport_apply]
    cases happening with
    | program act => exact (program ⟨act, rfl⟩).elim
    | lookUp | handOver | serve | breakWriter | read | buffer => exact closed
    | write => exact (writeNext_closed _).trans closed
    | close => rfl

theorem closed_after {r : Service κ} (closed : r.client.transport.closed = true)
    (later : List (Happening κ)) :
    (r.after later).client.transport.closed = true ∧ r.queued later = [] := by
  induction later generalizing r with
  | nil => exact ⟨closed, rfl⟩
  | cons happening later ih =>
      obtain ⟨still, none⟩ := closed_apply closed happening
      obtain ⟨last, nothing⟩ := ih still
      exact ⟨last, by rw [Service.queued, none, nothing, List.append_nil]⟩

/-- From the time on that the reader has ended, whatever happens: no session is open and nothing is
queued, all that needs the daemon is refused, the release of a context succeeds with the number of
callbacks that wait, and a callback waits, and has not run, until its completion is dispatched or
its context is released. -/
theorem loss_is_permanent (address : Address) (accounts : Accounts)
    (happenings later : List (Happening κ))
    (closed : (Service.after { client := .start { address, accounts } }
      happenings : Service κ).client.transport.closed = true) :
    let r : Service κ := Service.after { client := .start { address, accounts } } happenings
    let s := (r.after later).client
    (s.transport.closed = true ∧ s.transport.session = none ∧ r.queued later = []) ∧
    CutOff s ∧
    ∀ c kind id entry, Registry.entry? (r.client.registry c kind) id = some entry →
      (∀ e ∈ r.client.events (r.moves later), e.Spares c kind id) →
      Registry.entry? (s.registry c kind) id = some entry ∧
        Client.runs (r.client.events (r.moves later)) c kind id = [] := by
  intro r s
  let start : Service κ := { client := .start { address, accounts } }
  obtain ⟨still, nothing⟩ := closed_after closed later
  have unopened : start.client.transport.Sealed := fun _ => rfl
  have idle : s.transport.session = none :=
    sealed_after (sealed_after unopened happenings) later still
  have made : r.client = (Client.start { address, accounts }).after (start.moves happenings) :=
    client_after start happenings
  have goesOn : s = r.client.after (r.moves later) := client_after r later
  have whole : s = (Client.start { address, accounts }).after
      (start.moves happenings ++ r.moves later) := by
    rw [Client.after_append, ← made]
    exact goesOn
  refine ⟨⟨still, idle, nothing⟩, cutOff_of_closed whole still idle, ?_⟩
  intro c kind id entry waits spared
  have drained : r.client.Drained := by
    rw [made]
    exact Client.drained_after (Client.drained_start _) _
  rw [goesOn]
  exact Client.waits_after drained waits spared

/-- The connection is lost while a query waits. -/
def lostWhileListing : Service Nat :=
  Service.after { client := .start { address := ⟨.short 127 0 0 1, 4337⟩ } }
    [.program .acquire, .program (.list 0 .running 7 none), .close]

/-- Another query, which is refused. -/
def listedAgain : List (Happening Nat) := [.program (.list 0 .all 8 none), .write]

theorem lostWhileListing_waits :
    lostWhileListing.client.transport.closed = true ∧
    Registry.entry? ((lostWhileListing.after listedAgain).client.registry 0 .list) ⟨0⟩ =
      some ⟨⟨0⟩, 7, none⟩ ∧
    ∃ sends lists, (lostWhileListing.after listedAgain).client.Outstanding 0 sends lists ∧
      (lostWhileListing.after listedAgain).client.release.1 =
        .ok (some ⟨sends.length, lists.length⟩) := by
  have closed : lostWhileListing.client.transport.closed = true := rfl
  have events : lostWhileListing.client.events (lostWhileListing.moves listedAgain) =
      [.requested 0 .list ⟨⟨1⟩, 8, none⟩ (.error lostWhileListing.client.transport.lost)] := rfl
  obtain ⟨_, cutOff, waits⟩ := loss_is_permanent (κ := Nat) ⟨.short 127 0 0 1, 4337⟩ .standard
    [.program .acquire, .program (.list 0 .running 7 none), .close] listedAgain closed
  refine ⟨closed, (waits 0 .list ⟨0⟩ ⟨⟨0⟩, 7, none⟩ rfl ?_).1, cutOff.release 0 rfl⟩
  intro e member
  have only : e = .requested 0 .list ⟨⟨1⟩, 8, none⟩ _ :=
    List.mem_singleton.mp (events ▸ member)
  rw [only]
  exact Client.spares_requested ..

end Connection

end EventClient
