import EventClient.Proofs.Client.Active
import EventClient.Proofs.Connection.Sessions
import EventClient.Proofs.Correlation.ExactlyOnce

/-!
What the daemon is asked, in order. The requests that a connection accepts are those of one session
after another, each between its creation and its destruction, and only the last session may not be
destroyed. The bracketing holds because the lifecycle, the connection and the contexts' released
flags agree on the open session for as long as the connection accepts anything at all.
-/
namespace EventClient

/-- At least one of the selectors is set. -/
def ResolvedTarget.selects (t : ResolvedTarget) : Bool :=
  t.label.isSome || t.appId.isSome || t.binary.isSome || t.user.isSome || t.process.isSome

theorem Target.selects_resolve {accounts : Accounts} {t : Target} {resolved : ResolvedTarget}
    (h : t.resolve accounts = .ok resolved) : resolved.selects = t.isUsable := by
  simp only [resolve] at h
  cases named : t.user with
  | none =>
      rw [named] at h
      cases h
      simp [ResolvedTarget.selects, isUsable, named]
  | some name =>
      simp only [named, Accounts.find] at h
      cases found : accounts.uid? name with
      | none =>
          rw [found] at h
          cases h
      | some uid =>
          rw [found] at h
          cases h
          simp [ResolvedTarget.selects, isUsable, named]

namespace Request

def isTracing : Request → Bool
  | .setDebug _ => true
  | _ => false

/-- What an open session may ask: events with a name, an object as data and some selector, and the
requests that have nothing to get wrong. -/
def Inner : Request → Prop
  | .sendEvent event data _ target =>
    Text.isBlankText event = false ∧ data.isObject = true ∧ target.selects = true
  | .subscribe _ | .listApplications .. | .bridgeSignals => True
  | .createContext _ | .destroyContext _ | .setDebug _ => False

/-- The id of a request of a kind. -/
def id? : RequestKind → Request → Option CorrelationId
  | .send, .sendEvent _ _ id _ | .list, .listApplications id _ => some id
  | _, _ => none

end Request

namespace Connection

open scoped List

variable {κ : Type}

/-! ### What an act can ask -/

theorem Asks.plain {s : Client Connection κ} {act : Client.Act Connection κ} {call : Call}
    (asks : s.Asks act call) (acquire : act ≠ .acquire) (release : act ≠ .release)
    (t : Connection) : t.readied call = t := by
  cases asks with
  | opens => exact (acquire rfl).elim
  | closes => exact (release rfl).elim
  | traces | sends | lists | subscribes | renews | bridges => rfl

/-- Within a session only an active context asks, under the next id of the kind, and only what
passed the checks. -/
theorem Asks.inner {s : Client Connection κ} {act : Client.Act Connection κ} {call : Call}
    (asks : s.Asks act call) (acquire : act ≠ .acquire) (release : act ≠ .release)
    {request : Request} (asked : s.transport.request? call = .ok (some request)) :
    request.isTracing = true ∨
      request.isTracing = false ∧ request.Inner ∧
        ∃ c context, s.context? c = some context ∧ context.released = false ∧
          ∀ kind id, request.id? kind = some id →
            id = (context.registry kind).nextId ∧
              ∃ e, (Client.Move.program act).event? s = some e ∧ e.Requests c kind id := by
  cases asks with
  | opens => exact (acquire rfl).elim
  | closes => exact (release rfl).elim
  | traces =>
      cases asked
      exact .inl rfl
  | @sends c context event payload target callback userData here checked =>
      obtain ⟨named, ⟨data, parsed, object⟩, usable⟩ := Context.checkSend_passed checked
      simp only [request?, sendRequest, parsed] at asked
      cases resolved : target.resolve s.transport.accounts with
      | error e =>
          rw [resolved] at asked
          cases asked
      | ok found =>
          rw [resolved] at asked
          cases asked
          have selects := (Target.selects_resolve resolved).trans usable
          refine .inr ⟨rfl, ⟨named, object, selects⟩, c, context, here,
            Context.checkSend_ok checked, ?_⟩
          intro kind id carries
          cases kind with
          | list => cases carries
          | send =>
              cases carries
              refine ⟨rfl, Client.requestEvent s.transport c context .send callback userData
                fun id => .sendEvent event payload id target, ?_, rfl, rfl, rfl⟩
              simp only [Client.Move.event?, here, checked, Option.bind_some]
  | @lists c context scope callback userData here checked =>
      cases asked
      refine .inr ⟨rfl, trivial, c, context, here, Context.checkActive_ok checked, ?_⟩
      intro kind id carries
      cases kind with
      | send => cases carries
      | list =>
          cases carries
          refine ⟨rfl, Client.requestEvent s.transport c context .list callback userData
            fun id => .listApplications id scope, ?_, rfl, rfl, rfl⟩
          simp only [Client.Move.event?, here, checked, Option.bind_some]
  | @subscribes c context _ _ here checked | @renews c context here checked
  | @bridges c context here checked =>
      cases asked
      refine .inr ⟨rfl, trivial, c, context, here, Context.checkActive_ok checked, ?_⟩
      intro kind id carries
      cases kind <;> cases carries

theorem issued_of_requests {c : ContextId} {kind : RequestKind} {r r' : Registry κ}
    {e : Client.Event κ} {id : CorrelationId} (step : Client.RegistryStep c kind r (some e) r')
    (requests : e.Requests c kind id) : r'.issued = r.issued + 1 := by
  cases step with
  | idle leaves => exact ((leaves e rfl).1 id requests).elim
  | accepted _ hold | refused _ hold => exact (Registry.hold_ok hold).2.2.1
  | clashed => rfl
  | settled => exact requests.elim
  | cleared => exact requests.elim

/-! ### Conversations -/

/-- What one context asks of the daemon from the creation of its session on. -/
structure Conversation where
  context : ContextId
  number : UInt64
  asked : List Request := []

namespace Conversation

def opening (v : Conversation) : ContextId × UInt64 := (v.context, v.number)

def begun (v : Conversation) : List Request := .createContext v.number :: v.asked

def whole (v : Conversation) : List Request := v.begun ++ [.destroyContext v.number]

/-- Everything in it belongs into a session, and its ids were given out in this order. -/
structure Orderly (v : Conversation) (s : Client Connection κ) : Prop where
  inner : ∀ request ∈ v.asked, request.Inner
  ids : ∀ kind, v.asked.filterMap (Request.id? kind) <+
    (List.range (s.registry v.context kind).issued).map CorrelationId.nth

theorem Orderly.mono {v : Conversation} {s s' : Client Connection κ} (h : v.Orderly s)
    (issued : ∀ c kind, (s.registry c kind).issued ≤ (s'.registry c kind).issued) :
    v.Orderly s' where
  inner := h.inner
  ids kind := (h.ids kind).trans ((List.range_sublist.mpr (issued v.context kind)).map _)

theorem Orderly.ask {v : Conversation} {s s' : Client Connection κ} (h : v.Orderly s)
    (issued : ∀ c kind, (s.registry c kind).issued ≤ (s'.registry c kind).issued)
    {request : Request} (inner : request.Inner)
    (next : ∀ kind id, request.id? kind = some id →
      id = .nth (s.registry v.context kind).issued ∧
        (s.registry v.context kind).issued < (s'.registry v.context kind).issued) :
    Orderly { v with asked := v.asked ++ [request] } s' where
  inner := by
    intro request' member
    rcases List.mem_append.mp member with old | new
    · exact h.inner request' old
    · rwa [List.mem_singleton.mp new]
  ids := by
    intro kind
    rw [List.filterMap_append]
    cases carries : request.id? kind with
    | none => simpa [carries] using (h.mono issued).ids kind
    | some id =>
        obtain ⟨rfl, less⟩ := next kind id carries
        have room := (List.range_sublist.mpr less).map CorrelationId.nth
        rw [List.range_succ, List.map_append] at room
        simpa [carries] using ((h.ids kind).append_right _).trans room

end Conversation

/-- What whole conversations ask one after another, and then one that is not over. -/
def transcript (ended : List Conversation) (last : Option Conversation) : List Request :=
  ended.flatMap Conversation.whole ++ last.toList.flatMap Conversation.begun

theorem transcript_open (ended : List Conversation) (c : ContextId) (number : UInt64) :
    transcript ended none ++ [.createContext number] =
      transcript ended (some { context := c, number }) := by
  simp [transcript, Conversation.begun]

theorem transcript_ask (ended : List Conversation) (v : Conversation) (request : Request) :
    transcript ended (some v) ++ [request] =
      transcript ended (some { v with asked := v.asked ++ [request] }) := by
  simp [transcript, Conversation.begun]

theorem transcript_close (ended : List Conversation) (v : Conversation) :
    transcript ended (some v) ++ [.destroyContext v.number] =
      transcript (ended ++ [v]) none := by
  simp [transcript, Conversation.whole]

/-- The payloads that a happening puts behind those that wait for the writer. -/
def Happening.queues (r : Service κ) (happening : Happening κ) : List Bytes :=
  (happening.apply r).client.transport.queue.drop r.client.transport.queue.length

def Service.queued (r : Service κ) : List (Happening κ) → List Bytes
  | [] => []
  | happening :: happenings => happening.queues r ++ (happening.apply r).queued happenings

/-- What was queued so far, as conversations. While requests are accepted, the last one is of the
lifecycle's current context and has the number of the open session; there is none without one. -/
structure Dialogue (r : Service κ) (queued : List Bytes) (asked : List Request)
    (ended : List Conversation) (last : Option Conversation) : Prop where
  encoded : asked.map Request.encode = queued.map .ok
  order : asked.filter (!·.isTracing) = transcript ended last
  openings : (ended ++ last.toList).map Conversation.opening <+ r.opened
  orderly : ∀ v ∈ ended ++ last.toList, v.Orderly r.client
  idle : r.client.transport.Going → r.client.current = none → last = none
  busy : r.client.transport.Going → ∀ c, r.client.current = some c →
    ∃ v, last = some v ∧ v.context = c ∧ r.client.transport.session = some ⟨v.number, c⟩

theorem dialogue_start (address : Address) (accounts : Accounts) :
    Dialogue ({ client := .start { address, accounts } } : Service κ) [] [] [] none where
  encoded := rfl
  order := rfl
  openings := .slnil
  orderly := by
    intro v member
    cases member
  idle := fun _ _ => rfl
  busy := by
    intro _ c current
    cases current

section
variable {r r' : Service κ} {queued : List Bytes} {asked : List Request}
  {ended : List Conversation} {last : Option Conversation}

/-- Nothing is queued, and a connection that goes on keeps its session. -/
theorem Dialogue.keep (h : Dialogue r queued asked ended last) (opened : r.opened <+ r'.opened)
    (issued : ∀ c kind,
      (r.client.registry c kind).issued ≤ (r'.client.registry c kind).issued)
    (going : r'.client.transport.Going → r.client.transport.Going ∧
      r'.client.current = r.client.current ∧
      r'.client.transport.session = r.client.transport.session) :
    Dialogue r' queued asked ended last where
  encoded := h.encoded
  order := h.order
  openings := h.openings.trans opened
  orderly v member := (h.orderly v member).mono issued
  idle := by
    intro goes free
    obtain ⟨went, current, _⟩ := going goes
    exact h.idle went (current.symm.trans free)
  busy := by
    intro goes c hcurrent
    obtain ⟨went, current, session⟩ := going goes
    rw [session]
    exact h.busy went c (current.symm.trans hcurrent)

/-- Tracing is asked for wherever a session stands. -/
theorem Dialogue.trace (h : Dialogue r queued asked ended last) {request : Request}
    {payload : Bytes} (encoded : request.encode = .ok payload)
    (tracing : request.isTracing = true) :
    Dialogue r (queued ++ [payload]) (asked ++ [request]) ended last :=
  { h with
    encoded := by simp [h.encoded, encoded]
    order := by simp [h.order, tracing] }

/-- A request of the open session is queued. -/
theorem Dialogue.ask {v : Conversation} (h : Dialogue r queued asked ended (some v))
    (opened : r.opened <+ r'.opened)
    (issued : ∀ c kind,
      (r.client.registry c kind).issued ≤ (r'.client.registry c kind).issued)
    (here : r'.client.current = some v.context)
    (session : r'.client.transport.session = some ⟨v.number, v.context⟩)
    {request : Request} {payload : Bytes} (encoded : request.encode = .ok payload)
    (plain : request.isTracing = false) (inner : request.Inner)
    (next : ∀ kind id, request.id? kind = some id →
      id = .nth (r.client.registry v.context kind).issued ∧
        (r.client.registry v.context kind).issued <
          (r'.client.registry v.context kind).issued) :
    Dialogue r' (queued ++ [payload]) (asked ++ [request]) ended
      (some { v with asked := v.asked ++ [request] }) where
  encoded := by simp [h.encoded, encoded]
  order := by
    rw [List.filter_append, h.order, ← transcript_ask]
    simp [plain]
  openings := by simpa [Conversation.opening] using h.openings.trans opened
  orderly := by
    intro v' member
    rcases List.mem_append.mp member with old | new
    · exact (h.orderly v' (List.mem_append_left _ old)).mono issued
    · cases List.mem_singleton.mp new
      exact (h.orderly v (by simp)).ask issued inner next
  idle := by
    intro _ free
    cases here.symm.trans free
  busy := by
    intro _ c current
    cases here.symm.trans current
    exact ⟨_, rfl, rfl, session⟩

/-! ### What each happening preserves -/

theorem queues_eq {happening : Happening κ} {payloads : List Bytes}
    (h : (happening.apply r).client.transport.queue =
      r.client.transport.queue ++ payloads) : happening.queues r = payloads := by
  rw [Happening.queues, h, List.drop_left]

/-- A happening that changes neither the lifecycle's choice nor the session of a connection that
goes on, and after which nothing waits that did not wait before. -/
theorem Dialogue.keep_apply (h : Dialogue r queued asked ended last) {happening : Happening κ}
    (nothing : happening.queues r = []) (opened : r.opened <+ (happening.apply r).opened)
    (issued : ∀ c kind,
      (r.client.registry c kind).issued ≤ ((happening.apply r).client.registry c kind).issued)
    (going : (happening.apply r).client.transport.Going → r.client.transport.Going ∧
      (happening.apply r).client.current = r.client.current ∧
      (happening.apply r).client.transport.session = r.client.transport.session) :
    Dialogue (happening.apply r) (queued ++ happening.queues r) asked ended last := by
  rw [nothing, List.append_nil]
  exact h.keep opened issued going

section
variable (drained : r.client.Drained)
include drained

theorem issued_program (act : Client.Act Connection κ) (c : ContextId) (kind : RequestKind) :
    (r.client.registry c kind).issued ≤ ((act.apply r.client).registry c kind).issued :=
  (Client.registryStep drained (.program act) c kind).issued_le

/-- An act that leaves the connection and the lifecycle's choice alone. -/
theorem Dialogue.keep_program (h : Dialogue r queued asked ended last)
    {act : Client.Act Connection κ}
    (transport : (act.apply r.client).transport = r.client.transport)
    (current : (act.apply r.client).current = r.client.current) :
    Dialogue (Happening.apply r (.program act))
      (queued ++ Happening.queues r (.program act)) asked ended last := by
  refine h.keep_apply (queues_eq ?_) (List.sublist_append_left ..) (issued_program drained act) ?_
  · rw [Happening.apply, transport, List.append_nil]
  · intro going
    refine ⟨?_, current, by rw [Happening.apply, transport]⟩
    rwa [Happening.apply, transport] at going

theorem dialogue_halted (h : Dialogue r queued asked ended last)
    (halted : ¬ r.client.transport.Going) (act : Client.Act Connection κ) :
    Dialogue (Happening.apply r (.program act))
      (queued ++ Happening.queues r (.program act)) asked ended last := by
  have still : (act.apply r.client).transport.queue = r.client.transport.queue ∧
      ¬ (act.apply r.client).transport.Going := by
    rcases Client.hands_act r.client act with same | ⟨call, _, handed⟩
    · rw [same]
      exact ⟨rfl, halted⟩
    · rw [handed]
      exact ⟨perform_halted halted call, fun going => halted ((perform_going _ call).mp going)⟩
  refine h.keep_apply (queues_eq ?_) (List.sublist_append_left ..) (issued_program drained act)
    fun going => (still.2 going).elim
  rw [List.append_nil]
  exact still.1

theorem dialogue_acquire (h : Dialogue r queued asked ended last)
    (going : r.client.transport.Going) :
    ∃ asked last, Dialogue (Happening.apply r (.program .acquire))
      (queued ++ Happening.queues r (.program .acquire)) asked ended last := by
  cases hcurrent : r.client.current with
  | some c =>
      have same : Client.Act.apply r.client .acquire = r.client := by
        rw [Client.Act.apply, Client.acquire_current hcurrent]
      exact ⟨asked, last, h.keep_program drained (by rw [same]) (by rw [same])⟩
  | none =>
      obtain ⟨payload, encoded, taken⟩ := perform_opens going r.client.slots.length
      obtain ⟨_, transport, current, _, _⟩ := Client.acquire_opened hcurrent taken
      have queues : Happening.queues r (.program .acquire) = [payload] :=
        queues_eq (by rw [Happening.apply, Client.Act.apply, transport])
      have none := h.idle going hcurrent
      subst none
      rw [queues]
      refine ⟨asked ++ [.createContext r.client.transport.nextSession],
        some { context := r.client.slots.length, number := r.client.transport.nextSession }, ?_⟩
      constructor
      case encoded => simp [h.encoded, encoded]
      case order =>
        rw [List.filter_append, h.order, ← transcript_open ended r.client.slots.length]
        rfl
      case openings =>
        have opened : opening? r.client .acquire =
            some (r.client.slots.length, r.client.transport.nextSession) := if_pos hcurrent
        simp only [Happening.apply, opened]
        simpa [Conversation.opening] using h.openings
      case orderly =>
        intro v member
        rcases List.mem_append.mp member with old | new
        · exact (h.orderly v (List.mem_append_left _ old)).mono (issued_program drained .acquire)
        · cases List.mem_singleton.mp new
          exact ⟨by simp, fun _ => List.nil_sublist _⟩
      case idle =>
        intro _ free
        cases current.symm.trans free
      case busy =>
        intro _ c hc
        cases current.symm.trans hc
        refine ⟨_, rfl, rfl, ?_⟩
        rw [Happening.apply, Client.Act.apply, transport]

theorem dialogue_release (h : Dialogue r queued asked ended last) (sole : r.client.Sole)
    (going : r.client.transport.Going) :
    ∃ asked ended last, Dialogue (Happening.apply r (.program .release))
      (queued ++ Happening.queues r (.program .release)) asked ended last := by
  have free := r.client.current_release
  cases hcurrent : r.client.current with
  | none =>
      have same : Client.Act.apply r.client .release = r.client := by
        rw [Client.Act.apply, Client.release_none hcurrent]
      exact ⟨asked, ended, last, h.keep_program drained (by rw [same]) (by rw [same])⟩
  | some c =>
      obtain ⟨v, rfl, _, session⟩ := h.busy going c hcurrent
      obtain ⟨context, here⟩ := sole.present c hcurrent
      obtain ⟨payload, encoded, closed⟩ := perform_closes going session
      have transport := (Client.transport_release hcurrent here).trans closed
      have queues : Happening.queues r (.program .release) = [payload] :=
        queues_eq (by rw [Happening.apply, Client.Act.apply, transport])
      rw [queues]
      refine ⟨asked ++ [.destroyContext v.number], ended ++ [v], none, ?_⟩
      constructor
      case encoded => simp [h.encoded, encoded]
      case order =>
        rw [List.filter_append, h.order, ← transcript_close]
        rfl
      case openings => simpa [Happening.apply, opening?] using h.openings
      case orderly =>
        intro v' member
        exact (h.orderly v' (by simpa using member)).mono (issued_program drained .release)
      case idle => exact fun _ _ => rfl
      case busy =>
        intro _ c' hc'
        cases free.symm.trans hc'

/-- Within a session it is the lifecycle's current context that asks. -/
theorem dialogue_ask (h : Dialogue r queued asked ended last) (sole : r.client.Sole)
    (going : r.client.transport.Going) {act : Client.Act Connection κ} (acquire : act ≠ .acquire)
    (release : act ≠ .release) :
    ∃ asked last, Dialogue (Happening.apply r (.program act))
      (queued ++ Happening.queues r (.program act)) asked ended last := by
  have current := r.client.current_act_other acquire release
  rcases Client.hands_act r.client act with same | ⟨call, asks, handed⟩
  · exact ⟨asked, last, h.keep_program drained same current⟩
  rcases perform_plain (Asks.plain asks acquire release _) with
    refused | ⟨request, payload, carried, encoded, taken⟩
  · exact ⟨asked, last, h.keep_program drained (handed.trans refused) current⟩
  have transport := handed.trans taken
  have queues : Happening.queues r (.program act) = [payload] :=
    queues_eq (by rw [Happening.apply, transport])
  have session : (act.apply r.client).transport.session = r.client.transport.session := by
    rw [transport]
  rw [queues]
  rcases Asks.inner asks acquire release carried with
    tracing | ⟨plain, inner, c, context, here, active, ids⟩
  · refine ⟨asked ++ [request], last, (h.trace encoded tracing).keep
      (List.sublist_append_left ..) (issued_program drained act) ?_⟩
    exact fun _ => ⟨going, current, session⟩
  · have hcurrent := (sole.active c context here).mp active
    obtain ⟨v, rfl, rfl, hsession⟩ := h.busy going c hcurrent
    refine ⟨asked ++ [request], _, h.ask (List.sublist_append_left ..)
      (issued_program drained act) (current.trans hcurrent) (session.trans hsession) encoded plain
      inner ?_⟩
    intro kind id carries
    obtain ⟨rfl, e, event, requests⟩ := ids kind id carries
    have step := Client.registryStep drained (.program act) v.context kind
    rw [event] at step
    refine ⟨by rw [Client.registry_of_context here]; rfl, ?_⟩
    exact Nat.lt_of_lt_of_eq (Nat.lt_succ_self _) (issued_of_requests step requests).symm

theorem dialogue_program (h : Dialogue r queued asked ended last) (sole : r.client.Sole)
    (act : Client.Act Connection κ) :
    ∃ asked ended last, Dialogue (Happening.apply r (.program act))
      (queued ++ Happening.queues r (.program act)) asked ended last := by
  by_cases going : r.client.transport.Going
  · by_cases acquire : act = .acquire
    · subst acquire
      obtain ⟨asked, last, h⟩ := dialogue_acquire drained h going
      exact ⟨asked, ended, last, h⟩
    by_cases release : act = .release
    · subst release
      exact dialogue_release drained h sole going
    obtain ⟨asked, last, h⟩ := dialogue_ask drained h sole going acquire release
    exact ⟨asked, ended, last, h⟩
  · exact ⟨asked, ended, last, dialogue_halted drained h going act⟩

end

theorem writeNext_going (t : Connection) :
    t.writeNext.queue.length ≤ t.queue.length ∧ (t.writeNext.Going → t.Going) := by
  simp only [writeNext]
  split
  · exact ⟨Nat.le_refl _, id⟩
  · next waits =>
      split
      · exact ⟨Nat.le_refl _, id⟩
      · split
        · exact ⟨by simp [waits], id⟩
        · exact ⟨by simp [waits], fun going => by cases going.2⟩

/-- What happens besides the program's acts opens and closes nothing while the connection goes on,
and queues nothing. -/
theorem apply_other (r : Service κ) {happening : Happening κ}
    (other : ∀ act, happening ≠ .program act) :
    (happening.apply r).opened = r.opened ∧
    (happening.apply r).client.transport.queue.length ≤ r.client.transport.queue.length ∧
    ((happening.apply r).client.transport.Going → r.client.transport.Going ∧
      (happening.apply r).client.current = r.client.current ∧
      (happening.apply r).client.transport.session = r.client.transport.session) := by
  have same {s : Client Connection κ} (transport : s.transport = r.client.transport)
      (current : s.current = r.client.current) :
      s.transport.queue.length ≤ r.client.transport.queue.length ∧
      (s.transport.Going → r.client.transport.Going ∧ s.current = r.client.current ∧
        s.transport.session = r.client.transport.session) := by
    rw [transport]
    exact ⟨Nat.le_refl _, fun going => ⟨going, current, rfl⟩⟩
  cases happening with
  | program act => exact (other act rfl).elim
  | lookUp payload =>
      simp only [Happening.apply]
      split <;> exact ⟨rfl, same rfl rfl⟩
  | handOver =>
      simp only [Happening.apply, Client.deliver]
      split
      · exact ⟨rfl, same rfl rfl⟩
      · split
        · next delivered =>
            split at delivered <;> cases delivered
            exact ⟨rfl, same (Client.transport_updateSlot ..) (Client.current_updateSlot ..)⟩
        · next refused =>
            split at refused <;> cases refused
            exact ⟨rfl, same rfl rfl⟩
  | serve c =>
      simp only [Happening.apply]
      rcases Client.nextNotification?_eq r.client c with
        ⟨none, _⟩ | ⟨n, s, taken, _, _, _, _, transport, current⟩
      · rw [none]
        exact ⟨rfl, same rfl rfl⟩
      · rw [taken]
        exact ⟨rfl, same ((Client.transport_route s c n).trans transport)
          ((Client.current_route s c n).trans current)⟩
  | write =>
      obtain ⟨shorter, goes⟩ := writeNext_going r.client.transport
      exact ⟨rfl, shorter, fun going => ⟨goes going, rfl, (writeNext_session _).1⟩⟩
  | breakWriter => exact ⟨rfl, Nat.le_refl _, fun going => by cases going.2⟩
  | close => exact ⟨rfl, Nat.le_refl _, fun going => by cases going.1⟩
  | read | buffer => exact ⟨rfl, Nat.le_refl _, fun going => ⟨going, rfl, rfl⟩⟩

end

theorem dialogue_apply {r : Service κ} {queued : List Bytes} {asked : List Request}
    {ended : List Conversation} {last : Option Conversation}
    (h : Dialogue r queued asked ended last) (drained : r.client.Drained) (sole : r.client.Sole)
    (happening : Happening κ) :
    ∃ asked ended last,
      Dialogue (happening.apply r) (queued ++ happening.queues r) asked ended last := by
  by_cases program : ∃ act, happening = .program act
  · obtain ⟨act, rfl⟩ := program
    exact dialogue_program drained h sole act
  · obtain ⟨opened, shorter, going⟩ := apply_other r fun act same => program ⟨act, same⟩
    refine ⟨asked, ended, last, h.keep_apply (List.drop_eq_nil_of_le shorter) ?_ ?_ going⟩
    · simp only [opened, List.Sublist.refl]
    · rw [client_apply]
      exact Client.issued_le_after drained _

theorem dialogue_after {r : Service κ} {queued : List Bytes} {asked : List Request}
    {ended : List Conversation} {last : Option Conversation}
    (h : Dialogue r queued asked ended last) (drained : r.client.Drained) (sole : r.client.Sole)
    (happenings : List (Happening κ)) :
    ∃ asked ended last,
      Dialogue (r.after happenings) (queued ++ r.queued happenings) asked ended last := by
  induction happenings generalizing r queued asked ended last with
  | nil => exact ⟨asked, ended, last, by rwa [Service.queued, List.append_nil]⟩
  | cons happening happenings ih =>
      obtain ⟨asked, ended, last, next⟩ := dialogue_apply h drained sole happening
      rw [Service.queued, ← List.append_assoc]
      apply ih next
      · rw [client_apply]
        exact Client.drained_after drained _
      · rw [client_apply]
        exact Client.sole_after sole _

namespace Conversation

variable {v : Conversation}

theorem Orderly.counts {s : Client Connection κ} (h : v.Orderly s) (kind : RequestKind) :
    ∃ counts : List Nat, counts.Pairwise (· < ·) ∧
      v.asked.filterMap (Request.id? kind) = counts.map CorrelationId.nth := by
  obtain ⟨counts, given, ids⟩ := List.sublist_map_iff.mp (h.ids kind)
  exact ⟨counts, List.pairwise_lt_range.sublist given, ids⟩

theorem Orderly.ids_increasing {s : Client Connection κ} (h : v.Orderly s) (kind : RequestKind)
    (small : (s.registry v.context kind).issued ≤ UInt64.size) :
    (v.asked.filterMap (Request.id? kind)).Pairwise fun id id' => id.value < id'.value := by
  refine List.Pairwise.sublist (h.ids kind) ?_
  rw [List.pairwise_map]
  refine List.Pairwise.imp_of_mem ?_ List.pairwise_lt_range
  intro k k' below below' less
  have value {k : Nat} (below : k ∈ List.range _) := CorrelationId.toNat_nth
    (Nat.lt_of_lt_of_le (List.mem_range.mp below) small)
  rw [UInt64.lt_iff_toNat_lt, value below, value below']
  exact less

end Conversation

/-- Whatever a program does over one connection, and wherever the daemon hangs up or the writer
ends: the payloads that are queued encode the requests of one conversation after another, tracing
apart, of which only the last may not be over. What is asked in it is fit for a session, above all
no event without a name, an object and a selector. Sessions are numbered by a counter, and within a
conversation so are events and queries; as numbers of 64 bits they increase until the counter has
used up all of them. -/
theorem requests_bracketed (address : Address) (accounts : Accounts)
    (happenings : List (Happening κ)) :
    let r : Service κ := Service.after { client := .start { address, accounts } } happenings
    ∃ (asked : List Request) (ended : List Conversation) (last : Option Conversation),
      asked.map Request.encode =
        (Service.queued { client := .start { address, accounts } } happenings).map .ok ∧
      asked.filter (!·.isTracing) = transcript ended last ∧
      (ended ++ last.toList).Pairwise (fun v w => v.context < w.context) ∧
      (r.opened.length < UInt64.size →
        (ended ++ last.toList).Pairwise fun v w => v.number < w.number) ∧
      ∀ v ∈ ended ++ last.toList, v.number = .ofNat (v.context + 1) ∧
        (∀ request ∈ v.asked, request.Inner) ∧
        ∀ kind, (∃ counts : List Nat, counts.Pairwise (· < ·) ∧
            v.asked.filterMap (Request.id? kind) = counts.map CorrelationId.nth) ∧
          ((r.client.registry v.context kind).issued ≤ UInt64.size →
            (v.asked.filterMap (Request.id? kind)).Pairwise
              fun id id' => id.value < id'.value) := by
  intro r
  obtain ⟨asked, ended, last, dialogue⟩ := dialogue_after (dialogue_start address accounts)
    (Client.drained_start _) (Client.sole_start _) happenings
  have isolated : Isolated r := isolated_after (isolated_start address accounts) happenings
  have openings := dialogue.openings
  refine ⟨asked, ended, last, dialogue.encoded, dialogue.order, ?_, ?_, ?_⟩
  · have contexts := isolated.contexts_increasing.sublist openings
    rw [List.pairwise_map] at contexts
    exact contexts
  · intro few
    have numbers := (isolated.opened_increasing few).sublist openings
    rw [List.pairwise_map] at numbers
    exact numbers.imp And.right
  · intro v member
    have orderly := dialogue.orderly v member
    have opened : (v.context, v.number) ∈ r.opened :=
      openings.subset (List.mem_map_of_mem member)
    exact ⟨(isolated.mem_opened.mp opened).2, orderly.inner,
      fun kind => ⟨orderly.counts kind, orderly.ids_increasing kind⟩⟩

/-- Two sessions, with an event and a query in the first and a query for it once it is over. -/
def queriedTwice : List (Happening Nat) :=
  [.program .acquire,
    .program (.send 0 "e" "\x7b\x7d" { label := some "l" } 7 none),
    .program (.list 0 .running 7 none), .write, .program .release,
    .program (.list 0 .running 7 none), .program .acquire]

theorem queriedTwice_bracketed :
    let r : Service Nat := { client := .start { address := ⟨.short 127 0 0 1, 4337⟩ } }
    (r.after queriedTwice).opened.length < UInt64.size ∧
    (∀ c kind, ((r.after queriedTwice).client.registry c kind).issued ≤ UInt64.size) ∧
    ∃ (asked : List Request) (ended : List Conversation) (last : Option Conversation),
      asked.length = 5 ∧ asked.filter (!·.isTracing) = transcript ended last ∧
      (ended ++ last.toList).Pairwise (fun v w => v.number < w.number) := by
  intro r
  have few : (r.after queriedTwice).opened.length < UInt64.size := by decide +kernel
  have small : ∀ c kind,
      ((r.after queriedTwice).client.registry c kind).issued ≤ UInt64.size := by
    have two : (r.after queriedTwice).client.slots.length = 2 := by decide +kernel
    intro c kind
    rcases Nat.lt_or_ge c 2 with below | above
    · match c, kind with
      | 0, .send | 0, .list | 1, .send | 1, .list => decide +kernel
    · have absent := Client.slot?_eq_none_of_le (Nat.le_trans (Nat.le_of_eq two) above)
      rw [Client.registry_of_absent (by rw [Client.context?, absent]; rfl)]
      exact Nat.zero_le _
  obtain ⟨asked, ended, last, encoded, order, _, numbers, _⟩ :=
    requests_bracketed ⟨.short 127 0 0 1, 4337⟩ .standard queriedTwice
  refine ⟨few, small, asked, ended, last, ?_, order, numbers few⟩
  have same := congrArg List.length encoded
  simp only [List.length_map] at same
  exact same.trans (by decide +kernel)

end Connection

end EventClient
