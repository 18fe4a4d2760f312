import EventClient.Proofs.Connection.Sessions

/-!
What opening a session leaves of a connection. A closed connection refuses and has no session. While
the reader goes on, the session is installed before its request is queued, so it stays when the
request is refused because the writer has ended; the context that it was opened for is not there,
and nothing is ever delivered to it.
-/
namespace EventClient.Connection

variable {κ : Type}

/-- A closed connection has no open session. -/
def Sealed (t : Connection) : Prop := t.closed = true → t.session = none

theorem perform_sealed {t : Connection} (h : t.Sealed) (call : Call) :
    (t.perform call).1.Sealed := by
  intro closed
  rw [(perform_ends t call).1] at closed
  have readied : (t.readied call).session = none := by
    cases call with
    | openContext => simp [Connection.readied, closed, h closed]
    | closeContext => rfl
    | subscribe | sendEvent | listApplications | setTracing | bridgeSignals => exact h closed
  rw [perform_eq]
  split
  · exact h closed
  · exact h closed
  · next request _ => rw [(enqueue_session (t.readied call) request).1, readied]

theorem sealed_act {s : Client Connection κ} (h : s.transport.Sealed)
    (act : Client.Act Connection κ) : (act.apply s).transport.Sealed := by
  rcases Client.hands_act s act with same | ⟨call, _, handed⟩
  · rw [same]
    exact h
  · rw [handed]
    exact perform_sealed h call

theorem writeNext_closed (t : Connection) : t.writeNext.closed = t.closed := by
  simp only [writeNext]
  repeat' split
  all_goals rfl

theorem sealed_apply {r : Service κ} (h : r.client.transport.Sealed) (happening : Happening κ) :
    (happening.apply r).client.transport.Sealed := by
  rw [transport_apply]
  cases happening with
  | program act => exact sealed_act h act
  | lookUp | handOver | serve | breakWriter | read | buffer => exact h
  | close => exact fun _ => rfl
  | write =>
      intro closed
      rw [writeNext_closed] at closed
      rw [(writeNext_session _).1, h closed]

theorem sealed_after {r : Service κ} (h : r.client.transport.Sealed)
    (happenings : List (Happening κ)) : (r.after happenings).client.transport.Sealed := by
  induction happenings generalizing r with
  | nil => exact h
  | cons happening happenings ih => exact ih (sealed_apply h happening)

/-! ### What opening leaves -/

/-- Opening fails just when requests are not queued any more. -/
theorem openContext_answer (t : Connection) (c : ContextId) :
    (t.perform (.openContext c)).2 =
      if t.closed = false ∧ t.writing = true then .ok () else .error t.lost := by
  obtain ⟨payload, encoded⟩ : ∃ payload,
      (Request.createContext t.nextSession).encode = .ok payload := ⟨_, rfl⟩
  simp only [perform, openSession, enqueue, encoded]
  cases t.closed <;> cases t.writing <;> rfl

theorem openContext_session (t : Connection) (c : ContextId) :
    (t.perform (.openContext c)).1.session =
      if t.closed then t.session else some ⟨t.nextSession, c⟩ := by
  rw [perform_eq]
  exact (enqueue_session (t.readied (.openContext c)) _).1

/-- The frames that find a channel on a connection: those with the number of the open session. -/
theorem addressee?_session {t : Connection} {number : UInt64} {c : ContextId}
    (active : t.session = some ⟨number, c⟩) (payload : Bytes) (c' : ContextId) (n : Notification) :
    t.addressee? payload = some (c', n) ↔
      c' = c ∧ SessionNotification.decoder.decode payload = .ok ⟨number, n⟩ := by
  simp only [addressee?, active]
  cases SessionNotification.decoder.decode payload with
  | error e => simp
  | ok sent =>
      obtain ⟨number', n'⟩ := sent
      by_cases same : number = number'
      · subst same
        simp [eq_comm]
      · simp [same, Ne.symm same]

theorem addressee?_none {t : Connection} (idle : t.session = none) (payload : Bytes) :
    t.addressee? payload = none := by
  simp only [addressee?, idle]
  cases SessionNotification.decoder.decode payload <;> rfl

/-! ### A context whose opening failed -/

/-- A number that was tried and has no context, for which nothing was put on a channel or served. -/
structure Shunned (r : Service κ) (c : ContextId) : Prop where
  tried : c < r.client.slots.length
  absent : r.client.context? c = none
  put : ∀ parcel ∈ r.put, parcel.channel ≠ c
  served : ∀ e ∈ r.served, e.context ≠ c

/-- What is put on a channel or taken off one has a context. -/
theorem shunned_apply {r : Service κ} {c : ContextId} (h : Shunned r c)
    (happening : Happening κ) : Shunned (happening.apply r) c := by
  have unopened : r.client.slot? c = none := Option.map_eq_none_iff.mp h.absent
  have client := Client.absent_after h.tried h.absent (happening.moves r)
  rw [← client_apply] at client
  refine ⟨client.1, client.2, ?_, ?_⟩
  · cases happening with
    | handOver =>
        simp only [Happening.apply]
        cases held : r.held with
        | none => exact h.put
        | some parcel =>
            dsimp only
            split
            · next delivered =>
                intro parcel' member
                rcases List.mem_append.mp member with old | new
                · exact h.put parcel' old
                · rw [List.mem_singleton.mp new]
                  rintro rfl
                  simp [Client.deliver, Client.isHeld, unopened] at delivered
            · exact h.put
    | lookUp =>
        simp only [Happening.apply]
        split <;> exact h.put
    | serve =>
        simp only [Happening.apply]
        split <;> exact h.put
    | program | write | breakWriter | read | buffer | close => exact h.put
  · cases happening with
    | serve c' =>
        simp only [Happening.apply]
        cases taken : r.client.nextNotification? c' with
        | none => exact h.served
        | some found =>
            intro e member
            rcases List.mem_append.mp member with old | new
            · exact h.served e old
            · rw [List.mem_singleton.mp new]
              rintro rfl
              simp [Client.nextNotification?, unopened] at taken
    | lookUp =>
        simp only [Happening.apply]
        split <;> exact h.served
    | handOver =>
        simp only [Happening.apply]
        split
        · exact h.served
        · split <;> exact h.served
    | program | write | breakWriter | read | buffer | close => exact h.served

theorem shunned_after {r : Service κ} {c : ContextId} (h : Shunned r c)
    (happenings : List (Happening κ)) : Shunned (r.after happenings) c := by
  induction happenings generalizing r with
  | nil => exact h
  | cons happening happenings ih => exact ih (shunned_apply h happening)

/-- The number of a context whose opening fails was nobody's before. -/
theorem shunned_refused {r : Service κ} (h : Isolated r) (free : r.client.current = none)
    {e : ClientError} (failed : r.client.acquire.1 = .error e) :
    Shunned (Happening.apply r (.program .acquire)) r.client.slots.length := by
  have unused {c : ContextId} {number : UInt64} (member : (c, number) ∈ r.opened) :
      c ≠ r.client.slots.length := by
    rw [h.count]
    exact Nat.ne_of_lt (h.mem_opened.mp member).1
  have put (parcel : Parcel) (member : parcel ∈ r.put) :
      parcel.channel ≠ r.client.slots.length := by
    obtain ⟨number, own, _⟩ := h.put parcel member
    exact unused own
  have slots : r.client.acquire.2.slots = r.client.slots ++ [none] := by
    cases answer : Transport.perform r.client.transport (.openContext r.client.slots.length) with
    | mk t result =>
    cases result with
    | error e => exact (Client.acquire_refused free answer).2.2.2.1
    | ok _ =>
        rw [(Client.acquire_opened free answer).1] at failed
        cases failed
  refine ⟨?_, ?_, put, ?_⟩
  · simp [Happening.apply, Client.Act.apply, slots]
  · have same := Client.slot?_of_slots_append slots r.client.slots.length
    rw [if_pos rfl] at same
    exact Option.map_eq_none_iff.mpr same
  · intro e member
    obtain ⟨⟨parcel, parcelPut, channel, _⟩, _⟩ := h.served e member
    rw [← channel]
    exact put parcel parcelPut

/-- In every state that a connection can come to, opening a session fails just when the reader or
the writer has ended. Once the reader has, no session is open afterwards. While it has not, the
session is open afterwards even where opening it failed, and frames with its number go to the
channel it was opened for; yet a context that could not be opened is never there, and nothing is
put on its channel or served. -/
theorem opening_fails (address : Address) (accounts : Accounts)
    (happenings : List (Happening κ)) :
    let r : Service κ := Service.after { client := .start { address, accounts } } happenings
    let t := r.client.transport
    (∀ c, (t.perform (.openContext c)).2 =
      if t.closed = false ∧ t.writing = true then .ok () else .error t.lost) ∧
    (t.closed = true → ∀ c, (t.perform (.openContext c)).1.session = none ∧
      ∀ payload, (t.perform (.openContext c)).1.addressee? payload = none) ∧
    (t.closed = false → ∀ c, (t.perform (.openContext c)).1.session = some ⟨t.nextSession, c⟩ ∧
      ∀ payload c' n, (t.perform (.openContext c)).1.addressee? payload = some (c', n) ↔
        c' = c ∧ SessionNotification.decoder.decode payload = .ok ⟨t.nextSession, n⟩) ∧
    ∀ e, r.client.current = none → r.client.acquire.1 = .error e →
      ∀ later, Shunned ((Happening.apply r (.program .acquire)).after later)
        r.client.slots.length := by
  intro r t
  refine ⟨openContext_answer t, ?_, ?_, ?_⟩
  · intro closed c
    have unopened : ({ address, accounts } : Connection).Sealed := fun _ => rfl
    have idle : t.session = none := sealed_after unopened happenings closed
    have left : (t.perform (.openContext c)).1.session = none := by
      rw [openContext_session, if_pos closed, idle]
    exact ⟨left, addressee?_none left⟩
  · intro going c
    have left : (t.perform (.openContext c)).1.session = some ⟨t.nextSession, c⟩ := by
      rw [openContext_session, if_neg (by simp [going])]
    exact ⟨left, addressee?_session left⟩
  · intro e free failed later
    have isolated : Isolated r := isolated_after (isolated_start address accounts) happenings
    exact shunned_after (shunned_refused isolated free failed) later

/-- The writer has ended, and the reader has not. -/
def writerless : Service Nat :=
  Service.after { client := .start { address := ⟨.short 127 0 0 1, 4337⟩ } } [.breakWriter]

theorem writerless_shuns :
    writerless.client.current = none ∧
    writerless.client.acquire.1 = .error writerless.client.transport.lost ∧
    ∀ later, Shunned ((Happening.apply writerless (.program .acquire)).after later) 0 := by
  have refused : writerless.client.acquire.1 = .error writerless.client.transport.lost := rfl
  have fails := opening_fails (κ := Nat) ⟨.short 127 0 0 1, 4337⟩ .standard [.breakWriter]
  exact ⟨rfl, refused, fails.2.2.2 _ rfl refused⟩

/-- Opening fails, and the session is left with the channel that it was opened for. -/
theorem writerless_opening_lingers :
    (writerless.client.transport.perform (.openContext 0)).2 =
      .error writerless.client.transport.lost ∧
    (writerless.client.transport.perform (.openContext 0)).1.session = some ⟨1, 0⟩ ∧
    ∃ n, (writerless.client.transport.perform (.openContext 0)).1.addressee? firstEvent =
      some (0, n) :=
  ⟨rfl, rfl, _, rfl⟩

end EventClient.Connection
