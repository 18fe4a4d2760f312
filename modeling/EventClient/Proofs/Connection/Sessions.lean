import EventClient.Proofs.Client.Calls
import EventClient.Proofs.Connection.Requests
import EventClient.Proofs.Correlation.Steps

/-!
Sessions on one connection. Every context that is opened has a session number of its own, and what
the reader puts on a channel came in a frame for the session of that channel's context. The reader
first looks up the channel and then puts the notification on it, and anything may come in between.
-/
namespace EventClient.Connection

variable {κ : Type}

/-- A notification that came in a frame, with the channel that it goes to. -/
structure Parcel where
  payload : Bytes
  channel : ContextId
  notification : Notification

/-- The dispatch of a notification that was taken off a context's channel. -/
structure Served (κ : Type) where
  context : ContextId
  notification : Notification
  found : Option (Context κ)
  outcome : Except ClientError (Option (Invocation κ))

/-- A client and the reader of its connection, with what was done so far. -/
structure Service (κ : Type) where
  client : Client Connection κ
  /-- What the reader looked up a channel for and did not put there yet. -/
  held : Option Parcel := none
  /-- The contexts that a session was opened for, or tried to, with its number. -/
  opened : List (ContextId × UInt64) := []
  put : List Parcel := []
  served : List (Served κ) := []

inductive Happening (κ : Type) where
  | program (act : Client.Act Connection κ)
  /-- The reader has read the payload of a frame and looks up the channel it goes to. -/
  | lookUp (payload : Bytes)
  /-- The reader puts what it holds on the channel it looked up. -/
  | handOver
  /-- A notification is taken off a channel and dispatched. -/
  | serve (c : ContextId)
  | write
  | breakWriter
  | read (count : Nat)
  /-- Bytes arrive from the daemon, or the reader takes some. -/
  | buffer (arrived : Bytes)
  | close

def opening? (s : Client Connection κ) : Client.Act Connection κ → Option (ContextId × UInt64)
  | .acquire => if s.current = none then some (s.slots.length, s.transport.nextSession) else none
  | _ => none

def Happening.apply (r : Service κ) : Happening κ → Service κ
  | .program act =>
    { r with client := act.apply r.client, opened := r.opened ++ (opening? r.client act).toList }
  | .lookUp payload =>
    if r.held.isSome then r
    else
      { r with held := (r.client.transport.addressee? payload).map fun (c, n) => ⟨payload, c, n⟩ }
  | .handOver =>
    match r.held with
    | none => r
    | some parcel =>
      match r.client.deliver parcel.channel parcel.notification with
      | (.ok (), client) => { r with client, held := none, put := r.put ++ [parcel] }
      | (.error _, client) => { r with client, held := none }
  | .serve c =>
    match r.client.nextNotification? c with
    | none => r
    | some (n, s) =>
      { r with
        client := (s.route c n).2
        served := r.served ++ [⟨c, n, s.context? c, (s.route c n).1⟩] }
  | .write => { r with client := withTransport r.client writeNext }
  | .breakWriter => { r with client := withTransport r.client Connection.breakWriter }
  | .read count => { r with client := withTransport r.client fun t => (t.daemonRead count).2 }
  | .buffer arrived => { r with client := withTransport r.client ({ · with arrived }) }
  | .close => { r with client := withTransport r.client Connection.close }

def Service.after (r : Service κ) (happenings : List (Happening κ)) : Service κ :=
  happenings.foldl Happening.apply r

/-! ### The moves of a happening -/

/-- What a happening is to the client. -/
def Happening.moves (r : Service κ) : Happening κ → List (Client.Move Connection κ)
  | .program act => [.program act]
  | .lookUp _ => []
  | .handOver =>
    match r.held with
    | none => []
    | some parcel => [.deliver parcel.channel parcel.notification]
  | .serve c =>
    match r.client.nextNotification? c with
    | none => []
    | some (n, _) => [.program (.takeNext c), .program (.route c n)]
  | .write => [.transport writeNext]
  | .breakWriter => [.transport Connection.breakWriter]
  | .read count => [.transport fun t => (t.daemonRead count).2]
  | .buffer arrived => [.transport ({ · with arrived })]
  | .close => [.transport Connection.close]

def Service.moves (r : Service κ) : List (Happening κ) → List (Client.Move Connection κ)
  | [] => []
  | happening :: happenings => happening.moves r ++ (happening.apply r).moves happenings

theorem client_apply (r : Service κ) (happening : Happening κ) :
    (happening.apply r).client = r.client.after (happening.moves r) := by
  cases happening with
  | program | write | breakWriter | read | buffer | close => rfl
  | lookUp payload =>
      simp only [Happening.apply]
      split <;> rfl
  | handOver =>
      cases held : r.held with
      | none => simp only [Happening.apply, Happening.moves, held]; rfl
      | some parcel =>
          simp only [Happening.apply, Happening.moves, held]
          split <;> next answer => exact (congrArg Prod.snd answer).symm
  | serve c =>
      cases found : r.client.nextNotification? c with
      | none => simp only [Happening.apply, Happening.moves, found]; rfl
      | some taken =>
          simp only [Happening.apply, Happening.moves, found, Client.after_cons, Client.Move.apply,
            Client.Act.apply]
          rfl

theorem client_after (r : Service κ) (happenings : List (Happening κ)) :
    (r.after happenings).client = r.client.after (r.moves happenings) := by
  induction happenings generalizing r with
  | nil => rfl
  | cons happening happenings ih =>
      rw [Service.moves, Client.after_append, ← client_apply]
      exact ih _

/-- What a happening does to the connection: the reader's two steps and what is served leave it
alone. -/
theorem transport_apply (r : Service κ) (happening : Happening κ) :
    (happening.apply r).client.transport =
      match happening with
      | .program act => (act.apply r.client).transport
      | .write => r.client.transport.writeNext
      | .breakWriter => r.client.transport.breakWriter
      | .read count => (r.client.transport.daemonRead count).2
      | .buffer arrived => { r.client.transport with arrived }
      | .close => r.client.transport.close
      | .lookUp _ | .handOver | .serve _ => r.client.transport := by
  cases happening with
  | program | write | breakWriter | read | buffer | close => rfl
  | lookUp payload =>
      simp only [Happening.apply]
      split <;> rfl
  | handOver =>
      rw [client_apply, Happening.moves]
      cases r.held with
      | none => rfl
      | some parcel => exact Client.transport_deliver ..
  | serve c =>
      simp only [Happening.apply]
      rcases Client.nextNotification?_eq r.client c with
        ⟨none, _⟩ | ⟨n, s, taken, _, _, _, _, same, _⟩
      · rw [none]
      · rw [taken]
        exact (Client.transport_route s c n).trans same

/-! ### The invariant -/

/-- The frame that a parcel came in carries the session number of the context whose channel it goes
to. -/
def Parcel.Addressed (opened : List (ContextId × UInt64)) (parcel : Parcel) : Prop :=
  ∃ number, (parcel.channel, number) ∈ opened ∧
    SessionNotification.decoder.decode parcel.payload = .ok ⟨number, parcel.notification⟩

def WasPut (put : List Parcel) (c : ContextId) (n : Notification) : Prop :=
  ∃ parcel ∈ put, parcel.channel = c ∧ parcel.notification = n

/-- A dispatch came to what its context made of the notification. -/
def Served.Routed (e : Served κ) : Prop :=
  e.outcome = match e.found with
    | none => .ok none
    | some context => (context.route e.context e.notification).1

/-- Sessions are numbered with their contexts; the reader's session, whatever it holds, and all that
it put on channels belong to the session of the channel; and only what it put there is served. -/
structure Isolated (r : Service κ) : Prop where
  count : r.client.slots.length = r.opened.length
  next : r.client.transport.nextSession = UInt64.ofNat (r.opened.length + 1)
  numbers : r.opened = (List.range r.opened.length).map fun c => (c, UInt64.ofNat (c + 1))
  active : ∀ session, r.client.transport.session = some session →
    (session.channel, session.number) ∈ r.opened
  held : ∀ parcel, r.held = some parcel → parcel.Addressed r.opened
  put : ∀ parcel ∈ r.put, parcel.Addressed r.opened
  queued : ∀ c, ∀ n ∈ r.client.queue c, WasPut r.put c n
  served : ∀ e ∈ r.served, WasPut r.put e.context e.notification ∧ e.Routed

theorem Parcel.Addressed.mono {opened : List (ContextId × UInt64)} {parcel : Parcel}
    (h : parcel.Addressed opened) (more : List (ContextId × UInt64)) :
    parcel.Addressed (opened ++ more) := by
  obtain ⟨number, member, decoded⟩ := h
  exact ⟨number, List.mem_append_left _ member, decoded⟩

theorem WasPut.mono {put : List Parcel} {c : ContextId} {n : Notification} (h : WasPut put c n)
    (more : List Parcel) : WasPut (put ++ more) c n := by
  obtain ⟨parcel, member, same⟩ := h
  exact ⟨parcel, List.mem_append_left _ member, same⟩

theorem isolated_start (address : Address) (accounts : Accounts) :
    Isolated ({ client := .start { address, accounts } } : Service κ) where
  count := rfl
  next := rfl
  numbers := rfl
  active := by
    intro session active
    cases active
  held := by
    intro parcel held
    cases held
  put := by simp
  queued := by
    intro c n member
    cases member
  served := by simp

/-- A change that opens no session and puts nothing on a channel. -/
theorem Isolated.keep {r : Service κ} (h : Isolated r) {s : Client Connection κ}
    (count : s.slots.length = r.client.slots.length)
    (next : s.transport.nextSession = r.client.transport.nextSession)
    (session : s.transport.session = r.client.transport.session ∨ s.transport.session = none)
    (queue : ∀ c n, n ∈ s.queue c → n ∈ r.client.queue c) : Isolated { r with client := s } where
  count := count.trans h.count
  next := next.trans h.next
  numbers := h.numbers
  active := by
    intro active hactive
    rcases session with same | none
    · exact h.active active (same.symm.trans hactive)
    · cases none.symm.trans hactive
  held := h.held
  put := h.put
  queued := fun c n member => h.queued c n (queue c n member)
  served := h.served

/-! ### What each happening preserves -/

/-- The reader only finds a channel for a frame that carries the number of the open session. -/
theorem addressee?_addressed {t : Connection} {opened : List (ContextId × UInt64)}
    (active : ∀ session, t.session = some session → (session.channel, session.number) ∈ opened)
    {payload : Bytes} {c : ContextId} {n : Notification}
    (found : t.addressee? payload = some (c, n)) :
    Parcel.Addressed opened ⟨payload, c, n⟩ := by
  simp only [addressee?] at found
  cases decoded : SessionNotification.decoder.decode payload with
  | error e =>
      rw [decoded] at found
      cases found
  | ok sent =>
      rw [decoded] at found
      obtain ⟨session, hsession, same⟩ := Option.bind_eq_some_iff.mp found
      split at same
      · next number =>
          cases same
          exact ⟨session.number, active session hsession, by rw [decoded, number]⟩
      · cases same

theorem writeNext_session (t : Connection) :
    t.writeNext.session = t.session ∧ t.writeNext.nextSession = t.nextSession := by
  simp only [writeNext]
  repeat' split
  all_goals exact ⟨rfl, rfl⟩

theorem queue_subset_act (s : Client Connection κ) (act : Client.Act Connection κ)
    (c : ContextId) (n : Notification) (member : n ∈ (act.apply s).queue c) : n ∈ s.queue c := by
  rw [Client.queue_act] at member
  split at member
  · split at member
    · exact List.mem_of_mem_tail member
    · exact member
  · exact member

theorem isolated_opening {r : Service κ} (h : Isolated r) (free : r.client.current = none) :
    Isolated (Happening.apply r (.program .acquire)) := by
  have count := Client.length_slots_act r.client .acquire
  simp only [free, if_true] at count
  have transport : (Client.Act.apply r.client .acquire).transport =
      (r.client.transport.perform (.openContext r.client.slots.length)).1 :=
    Client.transport_acquire free
  obtain ⟨next, session⟩ := perform_opening r.client.transport r.client.slots.length
  have number := h.next
  simp only [Happening.apply, opening?, free, if_true, Option.toList_some]
  constructor
  case count => rw [count, h.count, List.length_append]; rfl
  case next =>
      rw [transport, next, number, List.length_append]
      exact (UInt64.ofNat_add ..).symm
  case numbers =>
      rw [List.length_append, List.length_singleton, List.range_succ, List.map_append, ← h.numbers,
        h.count, number]
      rfl
  case active =>
      intro active hactive
      rw [transport] at hactive
      rcases session with same | opened
      · exact List.mem_append_left _ (h.active active (same.symm.trans hactive))
      · cases opened.symm.trans hactive
        exact List.mem_append_right _ (List.mem_singleton.mpr rfl)
  case held => exact fun parcel hparcel => (h.held parcel hparcel).mono _
  case put => exact fun parcel member => (h.put parcel member).mono _
  case queued =>
      intro c n member
      rw [Client.queue_act] at member
      exact h.queued c n member
  case served => exact h.served

theorem isolated_program {r : Service κ} (h : Isolated r) (act : Client.Act Connection κ) :
    Isolated (Happening.apply r (.program act)) := by
  by_cases opens : act = .acquire ∧ r.client.current = none
  · obtain ⟨rfl, free⟩ := opens
    exact isolated_opening h free
  · have none : opening? r.client act = none := by
      cases act with
      | acquire => exact if_neg fun free => opens ⟨rfl, free⟩
      | _ => rfl
    have count : (act.apply r.client).slots.length = r.client.slots.length := by
      rw [Client.length_slots_act]
      cases act with
      | acquire => exact if_neg fun free => opens ⟨rfl, free⟩
      | _ => rfl
    have session : (act.apply r.client).transport.nextSession = r.client.transport.nextSession ∧
        ((act.apply r.client).transport.session = r.client.transport.session ∨
          (act.apply r.client).transport.session = .none) := by
      rcases Client.hands_act r.client act with same | ⟨call, asks, handed⟩
      · rw [same]
        exact ⟨rfl, .inl rfl⟩
      · have keeps : call.opens = false := eq_false_of_ne_true fun yes => opens (asks.opening yes)
        rw [handed]
        exact perform_keeping r.client.transport keeps
    have kept := h.keep count session.1 session.2 (queue_subset_act r.client act)
    simpa only [Happening.apply, none, Option.toList_none, List.append_nil] using kept

theorem isolated_lookUp {r : Service κ} (h : Isolated r) (payload : Bytes) :
    Isolated (Happening.apply r (.lookUp payload)) := by
  simp only [Happening.apply]
  split
  · exact h
  · refine { h with held := ?_ }
    intro parcel held
    obtain ⟨⟨c, n⟩, found, rfl⟩ := Option.map_eq_some_iff.mp held
    exact addressee?_addressed h.active found

theorem isolated_handOver {r : Service κ} (h : Isolated r) :
    Isolated (Happening.apply r .handOver) := by
  cases held : r.held with
  | none =>
      simp only [Happening.apply, held]
      exact h
  | some parcel =>
      have addressed := h.held parcel held
      simp only [Happening.apply, held, Client.deliver]
      by_cases taken : r.client.isHeld parcel.channel = true
      · have queue := Client.queue_deliver r.client parcel.channel parcel.notification
        simp only [Client.deliver, taken, if_true, and_true] at queue ⊢
        constructor
        case count => exact (Client.length_updateSlot ..).trans h.count
        case next =>
            rw [Client.transport_updateSlot]
            exact h.next
        case numbers => exact h.numbers
        case active =>
            rw [Client.transport_updateSlot]
            exact h.active
        case held =>
            intro parcel' stillHeld
            cases stillHeld
        case put =>
            intro parcel' member
            rcases List.mem_append.mp member with old | new
            · exact h.put parcel' old
            · rw [List.mem_singleton.mp new]
              exact addressed
        case queued =>
            intro c n member
            rw [queue] at member
            split at member
            · next here =>
                rcases List.mem_append.mp member with old | new
                · exact (h.queued c n old).mono _
                · exact ⟨parcel, by simp, here.symm, (List.mem_singleton.mp new).symm⟩
            · exact (h.queued c n member).mono _
        case served =>
            intro e member
            exact ⟨(h.served e member).1.mono _, (h.served e member).2⟩
      · simp only [taken]
        refine { h with held := ?_ }
        intro parcel' stillHeld
        cases stillHeld

theorem isolated_serve {r : Service κ} (h : Isolated r) (c : ContextId) :
    Isolated (Happening.apply r (.serve c)) := by
  simp only [Happening.apply]
  rcases Client.nextNotification?_eq r.client c with
    ⟨none, _⟩ | ⟨n, s, taken, rest, others, _, count, transport, _⟩
  · rw [none]
    exact h
  · rw [taken]
    have same := Client.transport_route s c n
    have left (c' : ContextId) (n' : Notification) (member : n' ∈ (s.route c n).2.queue c') :
        n' ∈ r.client.queue c' := by
      rw [Client.queue_route] at member
      by_cases here : c' = c
      · rw [here] at member ⊢
        rw [rest]
        exact List.mem_cons_of_mem n member
      · rwa [Client.queue_of_slot?_eq (others c' here)] at member
    have kept : Isolated { r with client := (s.route c n).2 } := by
      apply h.keep ((Client.length_route s c n).trans count) _ _ left
      · rw [same, transport]
      · rw [same, transport]
        exact .inl rfl
    refine { kept with served := ?_ }
    intro e member
    rcases List.mem_append.mp member with old | new
    · exact h.served e old
    · rw [List.mem_singleton.mp new]
      refine ⟨h.queued c n ?_, Client.route_outcome s c n⟩
      rw [rest]
      exact List.mem_cons_self

theorem isolated_apply {r : Service κ} (h : Isolated r) (happening : Happening κ) :
    Isolated (happening.apply r) := by
  cases happening with
  | program act => exact isolated_program h act
  | lookUp payload => exact isolated_lookUp h payload
  | handOver => exact isolated_handOver h
  | serve c => exact isolated_serve h c
  | write =>
      obtain ⟨session, next⟩ := writeNext_session r.client.transport
      exact h.keep rfl next (.inl session) fun _ _ member => member
  | breakWriter | read | buffer => exact h.keep rfl rfl (.inl rfl) fun _ _ member => member
  | close => exact h.keep rfl rfl (.inr rfl) fun _ _ member => member

theorem isolated_after {r : Service κ} (h : Isolated r) (happenings : List (Happening κ)) :
    Isolated (r.after happenings) := by
  induction happenings generalizing r with
  | nil => exact h
  | cons happening happenings ih => exact ih (isolated_apply h happening)

/-! ### The reader -/

theorem Service.after_append (r : Service κ) (first second : List (Happening κ)) :
    r.after (first ++ second) = (r.after first).after second :=
  List.foldl_append

/-- The reader's two steps, with nothing in between, are the receipt of a payload. -/
theorem receive_happens (r : Service κ) (free : r.held = none) (payload : Bytes) :
    (r.after [.lookUp payload, .handOver]).client = receive r.client payload ∧
      (r.after [.lookUp payload, .handOver]).held = none := by
  simp only [Service.after, List.foldl_cons, List.foldl_nil, Happening.apply, free, receive]
  cases r.client.transport.addressee? payload with
  | none => simp
  | some found =>
      simp only [Option.isSome_none, Bool.false_eq_true, if_false, Option.map_some]
      cases r.client.deliver found.1 found.2 with
      | mk result client => cases result <;> simp

/-- All that the reader does is made of such happenings. -/
theorem readArrived_happens (steps : Nat) (r : Service κ) (free : r.held = none) :
    ∃ happenings, (r.after happenings).client = readArrived steps r.client ∧
      (r.after happenings).held = none := by
  induction steps generalizing r with
  | zero => exact ⟨[], rfl, free⟩
  | succ steps ih =>
      simp only [readArrived]
      split
      · exact ⟨[], rfl, free⟩
      · split
        · exact ⟨[], rfl, free⟩
        · exact ⟨[.close], rfl, free⟩
        · next payload rest _ =>
            obtain ⟨received, held⟩ :=
              receive_happens (r.after [.buffer rest]) free payload
            obtain ⟨happenings, read, free'⟩ := ih _ held
            refine ⟨[.buffer rest] ++ ([.lookUp payload, .handOver] ++ happenings), ?_, ?_⟩
            · rw [Service.after_append, Service.after_append, read, received]
              rfl
            · rw [Service.after_append, Service.after_append, free']

theorem arrive_happens (r : Service κ) (free : r.held = none) (bytes : Bytes) :
    ∃ happenings, (r.after happenings).client = arrive r.client bytes ∧
      (r.after happenings).held = none := by
  let fed := Happening.apply r (.buffer (r.client.transport.arrived ++ bytes))
  obtain ⟨happenings, read, free'⟩ :=
    readArrived_happens fed.client.transport.arrived.length fed free
  exact ⟨.buffer (r.client.transport.arrived ++ bytes) :: happenings, read, free'⟩

/-- So is all that a daemon does. Only that it is gone shows in none of them, and nothing depends on
it but the daemon's own commands. -/
theorem obey_happens (r : Service κ) (free : r.held = none) (command : Command) :
    ∃ happenings, (r.after happenings).held = none ∧
      (obey r.client command).2 = withTransport (r.after happenings).client
        ({ · with attended := (obey r.client command).2.transport.attended }) := by
  have whole {happenings : List (Happening κ)} {s : Client Connection κ}
      (made : (r.after happenings).client = s) :
      s = withTransport (r.after happenings).client ({ · with attended := s.transport.attended }) := by
    rw [made]
    rfl
  cases command with
  | describe => exact ⟨[], free, rfl⟩
  | read count =>
      simp only [obey]
      split
      · exact ⟨[.read count], free, rfl⟩
      · exact ⟨[], free, rfl⟩
  | send text =>
      simp only [obey]
      split
      · obtain ⟨happenings, made, free'⟩ :=
          arrive_happens r free (Frame.encode (Text.bytes text))
        exact ⟨happenings, free', whole made⟩
      · exact ⟨[], free, rfl⟩
  | sendBytes bytes =>
      simp only [obey]
      split
      · obtain ⟨happenings, made, free'⟩ := arrive_happens r free bytes
        exact ⟨happenings, free', whole made⟩
      · exact ⟨[], free, rfl⟩
  | hangUp =>
      simp only [obey]
      split
      · exact ⟨[.close], free, rfl⟩
      · exact ⟨[], free, rfl⟩

/-! ### Isolation -/

theorem Isolated.mem_opened {r : Service κ} (h : Isolated r) {c : ContextId} {number : UInt64} :
    (c, number) ∈ r.opened ↔ c < r.opened.length ∧ number = UInt64.ofNat (c + 1) := by
  rw [h.numbers, List.mem_map, List.length_map, List.length_range]
  constructor
  · rintro ⟨c', member, same⟩
    cases same
    exact ⟨List.mem_range.mp member, rfl⟩
  · rintro ⟨below, rfl⟩
    exact ⟨c, List.mem_range.mpr below, rfl⟩

/-- As long as the numbers do not run out, a later session has a greater one. -/
theorem Isolated.increasing {r : Service κ} (h : Isolated r) (few : r.opened.length < UInt64.size)
    {c c' : ContextId} {number number' : UInt64} (member : (c, number) ∈ r.opened)
    (member' : (c', number') ∈ r.opened) : c < c' ↔ number < number' := by
  obtain ⟨below, rfl⟩ := h.mem_opened.mp member
  obtain ⟨below', rfl⟩ := h.mem_opened.mp member'
  have value (k : Nat) (hk : k < r.opened.length) : (UInt64.ofNat (k + 1)).toNat = k + 1 :=
    UInt64.toNat_ofNat_of_lt' (Nat.lt_of_le_of_lt hk few)
  rw [UInt64.lt_iff_toNat_lt, value c below, value c' below']
  exact (Nat.add_lt_add_iff_right).symm

theorem Isolated.contexts_increasing {r : Service κ} (h : Isolated r) :
    r.opened.Pairwise fun a b => a.1 < b.1 := by
  rw [h.numbers, List.pairwise_map]
  exact List.pairwise_lt_range

theorem Isolated.opened_increasing {r : Service κ} (h : Isolated r)
    (few : r.opened.length < UInt64.size) :
    r.opened.Pairwise fun a b => a.1 < b.1 ∧ a.2 < b.2 := by
  rw [h.numbers, List.pairwise_map]
  refine List.Pairwise.imp_of_mem ?_ List.pairwise_lt_range
  intro c c' below below' earlier
  have member := h.mem_opened.mpr ⟨List.mem_range.mp below, rfl⟩
  have member' := h.mem_opened.mpr ⟨List.mem_range.mp below', rfl⟩
  exact ⟨earlier, (h.increasing few member member').mp earlier⟩

/-- However acts of the program, the reader's two steps and what happens on the connection come
after one another, and with fewer than 2^64 sessions: session numbers increase strictly, every
notification on a channel came in a frame with the number of its context's session, and a callback
of a context only runs for such a frame, whose number no other context has. -/
theorem sessions_isolated (address : Address) (accounts : Accounts)
    (happenings : List (Happening κ))
    (few : (Service.after { client := .start { address, accounts } } happenings).opened.length <
      UInt64.size) :
    let r : Service κ := Service.after { client := .start { address, accounts } } happenings
    (r.opened.Pairwise fun a b => a.1 < b.1 ∧ a.2 < b.2) ∧
    (∀ parcel ∈ r.put, parcel.Addressed r.opened) ∧
    (∀ c, ∀ n ∈ r.client.queue c, WasPut r.put c n) ∧
    ∀ e ∈ r.served, ∀ i, e.outcome = .ok (some i) →
      i.context = e.context ∧
      (∃ parcel ∈ r.put, parcel.channel = e.context ∧ ∃ number,
        SessionNotification.decoder.decode parcel.payload = .ok ⟨number, e.notification⟩ ∧
        ∀ c, (c, number) ∈ r.opened ↔ c = e.context) ∧
      ∀ kind id, e.notification.Completes kind id → ∃ context entry, e.found = some context ∧
        Registry.entry? (context.registry kind) id = some entry ∧
        i.callback = entry.callback ∧ i.userData = entry.userData := by
  intro r
  have isolated : Isolated r := isolated_after (isolated_start address accounts) happenings
  refine ⟨isolated.opened_increasing few, isolated.put, isolated.queued, ?_⟩
  · intro e member i ran
    obtain ⟨⟨parcel, put, channel, notification⟩, routed⟩ := isolated.served e member
    obtain ⟨number, own, decoded⟩ := isolated.put parcel put
    rw [channel] at own
    rw [notification] at decoded
    have only (c : ContextId) : (c, number) ∈ r.opened ↔ c = e.context := by
      constructor
      · intro other
        rcases Nat.lt_trichotomy c e.context with lt | eq | gt
        · exact absurd ((isolated.increasing few other own).mp lt) (UInt64.lt_irrefl number)
        · exact eq
        · exact absurd ((isolated.increasing few own other).mp gt) (UInt64.lt_irrefl number)
      · intro same
        rwa [same]
    rw [Served.Routed, ran] at routed
    cases found : e.found with
    | none =>
        rw [found] at routed
        cases routed
    | some context =>
        rw [found] at routed
        refine ⟨(Context.route_invocation routed.symm).1,
          ⟨parcel, put, channel, number, decoded, only⟩, ?_⟩
        intro kind id completes
        obtain ⟨entry, waits, callback⟩ := Context.route_entry routed.symm completes
        exact ⟨context, entry, rfl, waits, callback⟩

/-- The payload of a frame for the first session. -/
def firstEvent : Bytes :=
  Text.bytes <| "\x7b\"session\":1,\"notification\":" ++
    "\x7b\"method\":\"event\",\"params\":\x7b\"name\":\"e\"\x7d\x7d\x7d"

/-- The event of the first session is put on its channel, and a second session is opened. -/
def twoSessions : List (Happening Nat) :=
  [.program .acquire, .lookUp firstEvent, .handOver, .program .release, .program .acquire]

theorem twoSessions_opened :
    (Service.after { client := .start { address := ⟨.short 127 0 0 1, 4337⟩ } }
      twoSessions).opened = [(0, 1), (1, 2)] := by
  rfl

theorem twoSessions_isolated :
    let r : Service Nat :=
      Service.after { client := .start { address := ⟨.short 127 0 0 1, 4337⟩ } } twoSessions
    r.opened.length < UInt64.size ∧ r.put.length = 1 ∧
      ∀ parcel ∈ r.put, parcel.Addressed [(0, 1), (1, 2)] := by
  have few : (Service.after { client := .start { address := ⟨.short 127 0 0 1, 4337⟩ } }
      twoSessions).opened.length < UInt64.size := by
    rw [twoSessions_opened]
    decide
  have isolated := sessions_isolated ⟨.short 127 0 0 1, 4337⟩ .standard twoSessions few
  refine ⟨few, rfl, ?_⟩
  have addressed := isolated.2.1
  rwa [twoSessions_opened] at addressed

end EventClient.Connection
