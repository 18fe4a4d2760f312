import EventClient.Proofs.Client.Calls
import EventClient.Transport.Connection

/-!
What a call does to a connection. It asks the daemon for at most one thing: opening and closing a
session change the session first, and then the request is queued or refused.
-/
namespace EventClient.Connection

/-- The request of a call, if it asks anything of the daemon. -/
def request? (t : Connection) : Call → Except ClientError (Option Request)
  | .openContext _ => .ok (some (.createContext t.nextSession))
  | .closeContext => .ok (t.session.map fun session => .destroyContext session.number)
  | .subscribe events => .ok (some (.subscribe events))
  | .sendEvent event payload id target =>
    (sendRequest t.accounts event payload id target).map some
  | .listApplications id scope => .ok (some (.listApplications id scope))
  | .setTracing patterns => .ok (some (.setDebug patterns))
  | .bridgeSignals => .ok (some .bridgeSignals)

/-- The connection as the request of a call finds it. A session number is used up even where the
connection is closed. -/
def readied (t : Connection) : Call → Connection
  | .openContext c =>
    { t with
      nextSession := t.nextSession + 1
      session := if t.closed then t.session else some ⟨t.nextSession, c⟩ }
  | .closeContext => { t with session := none }
  | _ => t

theorem perform_eq (t : Connection) (call : Call) :
    t.perform call =
      match t.request? call with
      | .error e => (t, .error e)
      | .ok none => (t, .ok ())
      | .ok (some request) => (t.readied call).enqueue request := by
  cases call with
  | openContext c =>
      simp only [perform, openSession, request?, readied]
      cases t.closed <;> simp [enqueue, lost]
  | closeContext =>
      simp only [perform, closeSession, request?, readied]
      cases t.session <;> rfl
  | sendEvent event payload id target =>
      simp only [perform, request?, readied]
      cases sendRequest t.accounts event payload id target <;> rfl
  | subscribe | listApplications | setTracing | bridgeSignals => rfl

theorem readied_same (t : Connection) (call : Call) :
    (t.readied call).queue = t.queue ∧ (t.readied call).wire = t.wire ∧
      (t.readied call).writing = t.writing ∧ (t.readied call).closed = t.closed := by
  cases call <;> exact ⟨rfl, rfl, rfl, rfl⟩

/-- A request is queued by an open connection whose writer has not ended, and else changes nothing.
Whether it fits into a frame is not looked at. -/
theorem enqueue_cases (t : Connection) (request : Request) :
    (∃ e, t.enqueue request = (t, .error e) ∧
      ∀ payload, request.encode = .ok payload → ¬ (t.closed = false ∧ t.writing = true)) ∨
    ∃ payload, request.encode = .ok payload ∧ (t.closed = false ∧ t.writing = true) ∧
      t.enqueue request = ({ t with queue := t.queue ++ [payload] }, .ok ()) := by
  simp only [enqueue]
  split
  · next closed => exact .inl ⟨_, rfl, fun _ _ h => by simp [closed] at h⟩
  · next open_ =>
      cases encoded : request.encode with
      | error e => exact .inl ⟨e, rfl, nofun⟩
      | ok payload =>
          dsimp only
          split
          · next writing => exact .inr ⟨payload, rfl, ⟨by simpa using open_, writing⟩, rfl⟩
          · next ended => exact .inl ⟨_, rfl, fun _ _ h => ended h.2⟩

theorem enqueue_session (t : Connection) (request : Request) :
    (t.enqueue request).1.session = t.session ∧
      (t.enqueue request).1.nextSession = t.nextSession := by
  rcases enqueue_cases t request with ⟨e, refused, _⟩ | ⟨payload, _, _, taken⟩
  · rw [refused]
    exact ⟨rfl, rfl⟩
  · rw [taken]
    exact ⟨rfl, rfl⟩

/-- Opening a session uses up a number, whatever comes of it. -/
theorem perform_opening (t : Connection) (c : ContextId) :
    (t.perform (.openContext c)).1.nextSession = t.nextSession + 1 ∧
      ((t.perform (.openContext c)).1.session = t.session ∨
        (t.perform (.openContext c)).1.session = some ⟨t.nextSession, c⟩) := by
  obtain ⟨session, next⟩ :=
    enqueue_session (t.readied (.openContext c)) (.createContext t.nextSession)
  have asked : t.perform (.openContext c) =
      (t.readied (.openContext c)).enqueue (.createContext t.nextSession) :=
    perform_eq t (.openContext c)
  rw [asked, session, next]
  refine ⟨rfl, ?_⟩
  rw [readied]
  dsimp only
  split
  · exact .inl rfl
  · exact .inr rfl

theorem perform_keeping (t : Connection) {call : Call} (keeps : call.opens = false) :
    (t.perform call).1.nextSession = t.nextSession ∧
      ((t.perform call).1.session = t.session ∨ (t.perform call).1.session = none) := by
  have readied : (t.readied call).nextSession = t.nextSession ∧
      ((t.readied call).session = t.session ∨ (t.readied call).session = none) := by
    cases call with
    | openContext => cases keeps
    | closeContext => exact ⟨rfl, .inr rfl⟩
    | subscribe | sendEvent | listApplications | setTracing | bridgeSignals =>
        exact ⟨rfl, .inl rfl⟩
  rw [perform_eq]
  split
  · exact ⟨rfl, .inl rfl⟩
  · exact ⟨rfl, .inl rfl⟩
  · next request _ =>
      obtain ⟨session, next⟩ := enqueue_session (t.readied call) request
      rw [session, next]
      exact readied

def payload? (t : Connection) (call : Call) : Except ClientError (Option Bytes) :=
  match t.request? call with
  | .error e => .error e
  | .ok none => .ok none
  | .ok (some request) => request.encode.map some

/-- The encodings of the requests that a call had accepted: one or none. -/
def accepted (t : Connection) (call : Call) : List Bytes :=
  match (t.perform call).2, t.payload? call with
  | .ok (), .ok (some payload) => [payload]
  | _, _ => []

/-- A call queues what it had accepted, and has nothing accepted once the writer has ended. -/
theorem perform_queues (t : Connection) (call : Call) :
    (t.perform call).1.wire = t.wire ∧ (t.perform call).1.writing = t.writing ∧
      (t.perform call).1.queue = t.queue ++ t.accepted call ∧
      (t.writing = false → t.accepted call = []) := by
  obtain ⟨queue, wire, writing, _⟩ := readied_same t call
  simp only [accepted, payload?]
  rw [perform_eq]
  cases t.request? call with
  | error e => simp
  | ok request? =>
      cases request? with
      | none => simp
      | some request =>
          rcases enqueue_cases (t.readied call) request with
            ⟨e, refused, _⟩ | ⟨payload, encoded, going, taken⟩
          · simp [refused, queue, wire, writing]
          · have goes : t.writing = true := writing.symm.trans going.2
            simp [taken, encoded, Except.map, queue, wire, writing, goes]

/-- A request is accepted just when the connection is open and its writer has not ended. -/
theorem perform_taken {t : Connection} {call : Call} {payload : Bytes}
    (encoded : t.payload? call = .ok (some payload)) :
    (t.perform call).2 = .ok () ↔ t.closed = false ∧ t.writing = true := by
  obtain ⟨_, _, writing, closed⟩ := readied_same t call
  simp only [payload?] at encoded
  rw [perform_eq, ← writing, ← closed]
  cases asked : t.request? call with
  | error e =>
      rw [asked] at encoded
      cases encoded
  | ok request? =>
      rw [asked] at encoded
      cases request? with
      | none => cases encoded
      | some request =>
          rcases enqueue_cases (t.readied call) request with
            ⟨e, refused, stays⟩ | ⟨payload', _, going, taken⟩
          · cases h : request.encode with
            | error e' =>
                simp only [h] at encoded
                cases encoded
            | ok payload' => simp [refused, stays payload' h]
          · simp [taken, going]

theorem accepted_taken {t : Connection} {call : Call} {payload : Bytes}
    (encoded : t.payload? call = .ok (some payload)) (going : t.closed = false ∧ t.writing = true) :
    t.accepted call = [payload] := by
  rw [accepted, (perform_taken encoded).mpr going, encoded]

/-- A call that is refused leaves everything as it was that is on its way to the daemon. -/
theorem accepted_refused {t : Connection} {call : Call} {e : ClientError}
    (refused : (t.perform call).2 = .error e) : t.accepted call = [] := by
  rw [accepted, refused]

/-! ### A connection that goes on, and one that does not -/

/-- A request goes into the queue just while this holds. -/
def Going (t : Connection) : Prop := t.closed = false ∧ t.writing = true

/-- No call ends the reader or the writer. -/
theorem perform_ends (t : Connection) (call : Call) :
    (t.perform call).1.closed = t.closed ∧ (t.perform call).1.writing = t.writing := by
  obtain ⟨_, _, writing, closed⟩ := readied_same t call
  rw [perform_eq]
  split
  · exact ⟨rfl, rfl⟩
  · exact ⟨rfl, rfl⟩
  · next request _ =>
      rcases enqueue_cases (t.readied call) request with ⟨e, refused, _⟩ | ⟨_, _, _, taken⟩
      · rw [refused]
        exact ⟨closed, writing⟩
      · rw [taken]
        exact ⟨closed, writing⟩

theorem perform_going (t : Connection) (call : Call) :
    (t.perform call).1.Going ↔ t.Going := by
  obtain ⟨closed, writing⟩ := perform_ends t call
  rw [Going, Going, closed, writing]

theorem perform_halted {t : Connection} (halted : ¬ t.Going) (call : Call) :
    (t.perform call).1.queue = t.queue := by
  obtain ⟨queue, _, writing, closed⟩ := readied_same t call
  rw [perform_eq]
  split
  · rfl
  · rfl
  · next request _ =>
      rcases enqueue_cases (t.readied call) request with ⟨e, refused, _⟩ | ⟨_, _, going, _⟩
      · rw [refused]
        exact queue
      · rw [closed, writing] at going
        exact (halted going).elim

/-- A call that is neither of the lifecycle's is refused, which changes nothing, or queued. -/
theorem perform_plain {t : Connection} {call : Call} (plain : t.readied call = t) :
    (t.perform call).1 = t ∨
      ∃ request payload, t.request? call = .ok (some request) ∧ request.encode = .ok payload ∧
        (t.perform call).1 = { t with queue := t.queue ++ [payload] } := by
  rw [perform_eq, plain]
  split
  · exact .inl rfl
  · exact .inl rfl
  · next request asked =>
      rcases enqueue_cases t request with ⟨e, refused, _⟩ | ⟨payload, encoded, _, taken⟩
      · exact .inl (by rw [refused])
      · exact .inr ⟨request, payload, asked, encoded, by rw [taken]⟩

theorem enqueue_going {t : Connection} (going : t.Going) {request : Request} {payload : Bytes}
    (encoded : request.encode = .ok payload) :
    t.enqueue request = ({ t with queue := t.queue ++ [payload] }, .ok ()) := by
  rw [enqueue, going.1, encoded]
  exact if_pos going.2

theorem perform_opens {t : Connection} (going : t.Going) (c : ContextId) :
    ∃ payload, (Request.createContext t.nextSession).encode = .ok payload ∧
      t.perform (.openContext c) =
        ({ t with
            nextSession := t.nextSession + 1
            session := some ⟨t.nextSession, c⟩
            queue := t.queue ++ [payload] }, .ok ()) := by
  obtain ⟨payload, encoded⟩ : ∃ payload,
      (Request.createContext t.nextSession).encode = .ok payload := ⟨_, rfl⟩
  refine ⟨payload, encoded, ?_⟩
  let opened : Connection :=
    { t with nextSession := t.nextSession + 1, session := some ⟨t.nextSession, c⟩ }
  have taken := enqueue_going (t := opened) going encoded
  rw [perform, openSession]
  exact (if_neg (by simp [going.1])).trans taken

theorem perform_closes {t : Connection} (going : t.Going) {session : Session}
    (active : t.session = some session) :
    ∃ payload, (Request.destroyContext session.number).encode = .ok payload ∧
      (t.perform .closeContext).1 = { t with session := none, queue := t.queue ++ [payload] } := by
  obtain ⟨payload, encoded⟩ : ∃ payload,
      (Request.destroyContext session.number).encode = .ok payload := ⟨_, rfl⟩
  refine ⟨payload, encoded, ?_⟩
  rw [perform, closeSession, active]
  exact congrArg Prod.fst (enqueue_going (t := { t with session := none }) going encoded)

end EventClient.Connection
