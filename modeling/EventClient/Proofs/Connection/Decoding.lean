import EventClient.Proofs.Connection.Requests
import EventClient.Proofs.Context
import EventClient.Proofs.Request

/-!
Whether the daemon can read an event that was accepted. A payload is checked by itself, and may nest
as deeply as a text may; in its request it stands two levels deeper, which is more than the decoder
of the protocol takes if the payload used up the last two.
-/
namespace EventClient

/-- The selectors of a target with the user's number in place of the name. -/
structure Target.ResolvesTo (t : Target) (accounts : Accounts) (resolved : ResolvedTarget) :
    Prop where
  label : resolved.label = t.label
  appId : resolved.appId = t.appId
  binary : resolved.binary = t.binary
  process : resolved.process = t.process
  user : resolved.user = t.user.bind accounts.uid?
  known : ∀ name, t.user = some name → (accounts.uid? name).isSome = true

theorem Target.resolvesTo {t : Target} {accounts : Accounts} {resolved : ResolvedTarget}
    (h : t.resolve accounts = .ok resolved) : t.ResolvesTo accounts resolved := by
  simp only [resolve] at h
  cases named : t.user with
  | none =>
      rw [named] at h
      cases h
      exact ⟨rfl, rfl, rfl, rfl, by rw [named]; rfl, by rw [named]; exact nofun⟩
  | some name =>
      simp only [named, Accounts.find] at h
      cases found : accounts.uid? name with
      | none =>
          rw [found] at h
          cases h
      | some uid =>
          rw [found] at h
          cases h
          refine ⟨rfl, rfl, rfl, rfl, by rw [named]; exact found.symm, ?_⟩
          intro other same
          rw [named] at same
          cases same
          rw [found]
          rfl

variable {T κ : Type}

/-- A request that is answered with an id was taken by the transport with that id. -/
theorem Context.request_ok [Transport T] {context : Context κ} {t : T} {kind : RequestKind}
    {callback : κ} {userData : Option String} {call : CorrelationId → Call}
    {issued : CorrelationId → Entry} {id : CorrelationId}
    (h : (context.request t kind callback userData call issued).result = .ok id) :
    (Transport.perform t (call id)).2 = .ok () ∧
      (context.request t kind callback userData call issued).transport =
        (Transport.perform t (call id)).1 := by
  simp only [request, Registry.issue] at h ⊢
  split at h
  · cases h
  · split at h
    · next t' taken =>
        cases h
        simp only [taken]
        exact ⟨trivial, trivial⟩
    · cases h

namespace Connection

/-- What a connection does with an event that it takes. -/
theorem perform_send_ok {t : Connection} {event payload : String} {id : CorrelationId}
    {target : Target} (h : (t.perform (.sendEvent event payload id target)).2 = .ok ()) :
    ∃ data resolved frame, Json.parse (Text.bytes payload) = .ok data ∧
      target.ResolvesTo t.accounts resolved ∧
      (Request.sendEvent event data id resolved).encode = .ok frame ∧
      (t.perform (.sendEvent event payload id target)).1.queue = t.queue ++ [frame] := by
  simp only [perform, sendRequest] at h ⊢
  cases parsed : Json.parse (Text.bytes payload) with
  | error fault =>
      rw [parsed] at h
      cases h
  | ok data =>
      simp only [parsed, bind, Except.bind] at h ⊢
      cases told : target.resolve t.accounts with
      | error e =>
          rw [told] at h
          cases h
      | ok resolved =>
          simp only [told, pure, Except.pure] at h ⊢
          rcases enqueue_cases t (.sendEvent event data id resolved) with
            ⟨e, refused, _⟩ | ⟨frame, encoded, _, taken⟩
          · rw [refused] at h
            cases h
          · refine ⟨data, resolved, frame, rfl, Target.resolvesTo told, encoded, ?_⟩
            exact congrArg (·.1.queue) taken

/-- What is queued for an event that is answered with an id. -/
theorem send_queues {context : Context κ} {t : Connection} {event payload : String}
    {target : Target} {callback : κ} {userData : Option String} {id : CorrelationId}
    (h : (context.send t event payload target callback userData).result = .ok id) :
    ∃ data resolved frame, Json.parse (Text.bytes payload) = .ok data ∧
      target.ResolvesTo t.accounts resolved ∧
      (Request.sendEvent event data id resolved).encode = .ok frame ∧
      (context.send t event payload target callback userData).transport.queue =
        t.queue ++ [frame] := by
  simp only [Context.send] at h ⊢
  split at h
  · cases h
  · next checked =>
      obtain ⟨taken, transport⟩ := Context.request_ok h
      rw [transport]
      exact perform_send_ok taken

/-- The frame of every accepted event whose numbers are integers of 64 bits: the daemon's decoder
gets the event back from it exactly if the payload leaves the two levels that the request adds, and
otherwise finds it nested too deeply. -/
theorem sent_event_decodes {context : Context κ} {t : Connection} {event payload : String}
    {target : Target} {callback : κ} {userData : Option String} {id : CorrelationId}
    (h : (context.send t event payload target callback userData).result = .ok id) :
    ∃ data resolved frame, Json.parse (Text.bytes payload) = .ok data ∧
      target.ResolvesTo t.accounts resolved ∧
      (context.send t event payload target callback userData).transport.queue =
        t.queue ++ [frame] ∧
      (data.IsExact →
        (data.depth ≤ 125 →
          Request.decoder.decode frame = .ok (.sendEvent event data id resolved)) ∧
        (125 < data.depth →
          ∃ unread, Request.decoder.decode frame = .error ⟨.nestedTooDeep, unread⟩)) := by
  obtain ⟨data, resolved, frame, parsed, resolves, encoded, queued⟩ := send_queues h
  refine ⟨data, resolved, frame, parsed, resolves, queued, fun exact => ?_⟩
  obtain ⟨reads, fails⟩ := Request.decode_send exact encoded
  rw [Json.canonical_of_parse parsed] at reads
  exact ⟨fun flat => reads (Nat.add_le_add_right flat 2),
    fun deep => fails (Nat.add_lt_add_right deep 2)⟩

theorem listEvent_decodes :
    let t : Connection := { address := ⟨.short 127 0 0 1, 4337⟩ }
    let sent := ({} : Context Nat).send t "e" "\x7b\"k\":[1,[]]\x7d" { user := some "root" } 0 none
    let data : Json := .object [("k", .list [.ofNat 1, .list []])]
    sent.result = .ok ⟨0⟩ ∧ Json.parse (Text.bytes "\x7b\"k\":[1,[]]\x7d") = .ok data ∧
      data.IsExact ∧ data.depth ≤ 125 ∧
      ∃ resolved frame, ({ user := some "root" } : Target).ResolvesTo t.accounts resolved ∧
        sent.transport.queue = t.queue ++ [frame] ∧
        Request.decoder.decode frame = .ok (.sendEvent "e" data ⟨0⟩ resolved) := by
  intro t sent data
  have accepted : sent.result = .ok ⟨0⟩ := rfl
  have parsed : Json.parse (Text.bytes "\x7b\"k\":[1,[]]\x7d") = .ok data := by rfl
  have exact : data.IsExact := by
    intro n there
    cases List.mem_singleton.mp there
    exact ⟨by decide, by decide⟩
  have flat : data.depth ≤ 125 := by decide
  obtain ⟨data', resolved, frame, parsed', resolves, queued, decodes⟩ := sent_event_decodes accepted
  rw [parsed] at parsed'
  cases parsed'
  exact ⟨accepted, parsed, exact, flat, resolved, frame, resolves, queued,
    (decodes exact).1 flat⟩

/-! ### A payload that is nested too deeply for its request -/

def nestedLists : Nat → Json
  | 0 => .list []
  | n + 1 => .list [nestedLists n]

theorem depth_nestedLists (n : Nat) : (nestedLists n).depth = n + 1 := by
  induction n with
  | zero => rfl
  | succ n ih =>
      simp only [nestedLists, Json.depth, Json.itemsDepth, ih]
      omega

theorem exact_nestedLists (n : Nat) : (nestedLists n).IsExact := by
  induction n with
  | zero => exact nofun
  | succ n ih => exact Json.isExact_list.mpr (by simpa using ih)

theorem canonical_nestedLists (n : Nat) : (nestedLists n).canonical = nestedLists n := by
  induction n with
  | zero => rfl
  | succ n ih => simp only [nestedLists, Json.canonical, Json.canonicalItems, ih]

def deepData : Json := .object [("k", nestedLists 124)]

def deepPayload : String :=
  "\x7b\"k\":" ++ "".pushn '[' 125 ++ "".pushn ']' 125 ++ "\x7d"

theorem depth_deepData : deepData.depth = 126 := by
  simp only [deepData, Json.depth, Json.membersDepth, depth_nestedLists]
  rfl

theorem exact_deepData : deepData.IsExact :=
  Json.isExact_object.mpr (by simpa using exact_nestedLists 124)

theorem parse_deepPayload : Json.parse (Text.bytes deepPayload) = .ok deepData := by
  have written : Text.bytes deepPayload = deepData.encode := by decide +kernel
  have flat : deepData.depth ≤ Json.nestingLimit := by
    rw [depth_deepData]
    decide
  have canonical : deepData.canonical = deepData := by
    simp only [deepData, Json.canonical, Json.canonicalMembers, canonical_nestedLists]
    rfl
  rw [written, (Json.parse_encode exact_deepData).1 flat, canonical]

/-- The payload is accepted, and the decoder of requests gets nothing from its frame. -/
theorem deep_event_accepted_and_unreadable :
    let t : Connection := { address := ⟨.short 127 0 0 1, 4337⟩ }
    let sent := ({} : Context Nat).send t "e" deepPayload { appId := some "a" } 0 none
    sent.result = .ok ⟨0⟩ ∧ deepData.IsExact ∧
      Json.parse (Text.bytes deepPayload) = .ok deepData ∧
      ∃ frame, sent.transport.queue = [frame] ∧
        ∀ request, Request.decoder.decode frame ≠ .ok request := by
  intro t sent
  have checked : Context.checkSend ({} : Context Nat) "e" deepPayload { appId := some "a" } =
      .ok () := by
    simp only [Context.checkSend, Context.checkPayload, parse_deepPayload]
    rfl
  have accepted : sent.result = .ok ⟨0⟩ := by
    simp only [sent, Context.send, checked, Context.request, Transport.perform, perform,
      sendRequest, parse_deepPayload, bind, Except.bind]
    rfl
  obtain ⟨data, resolved, frame, parsed, -, encoded, queued⟩ := send_queues accepted
  rw [parse_deepPayload] at parsed
  cases parsed
  obtain ⟨unread, fault⟩ := (Request.decode_send exact_deepData encoded).2 (by
    rw [depth_deepData]
    decide)
  refine ⟨accepted, exact_deepData, parse_deepPayload, frame, ?_, fun request => ?_⟩
  · simp only [sent, queued]
    rfl
  · intro read
    rw [fault] at read
    cases read

end Connection

end EventClient
