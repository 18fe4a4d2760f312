import EventClient.Proofs.Client.Calls
import EventClient.Proofs.Connection.Frames

/-!
What the reader of a connection puts on the channel of the open session: the notifications in the
complete frames of its stream that are addressed to the session, in order. Frames with other
payloads are passed over. The first oversized length and the end of the stream end the reading and
close the channel. Between two pieces of the stream anything may happen that leaves the session open
and its channel in use.
-/
namespace EventClient

namespace Client

variable {T κ : Type}

theorem isHeld_deliver (s : Client T κ) (c : ContextId) (n : Notification) (c' : ContextId) :
    (s.deliver c n).2.isHeld c' = s.isHeld c' := by
  have there : ((s.deliver c n).2.slot? c').isSome = (s.slot? c').isSome := by
    rw [slot?_deliver]
    split
    · next same => rw [same.1, Option.isSome_map]
    · rfl
  rw [isHeld, isHeld, there]
  simp only [deliver, updateSlot]
  repeat' split
  all_goals rfl

end Client

namespace Connection

variable {κ : Type}

/-- The notification that a payload holds for a session, if it holds one. -/
def notification? (number : UInt64) (payload : Bytes) : Option Notification :=
  match SessionNotification.decoder.decode payload with
  | .error _ => none
  | .ok n => if n.session = number then some n.notification else none

/-- Notifications for one channel, and none for the others. -/
def only (c : ContextId) (ns : List Notification) (c' : ContextId) : List Notification :=
  if c' = c then ns else []

/-- Notifications were put on one channel, and nothing else happened to any. -/
def Puts (c : ContextId) (s s' : Client Connection κ) (ns : List Notification) : Prop :=
  ∀ c', s'.queue c' = s.queue c' ++ only c ns c'

theorem Puts.nothing {s s' : Client Connection κ} (c : ContextId)
    (same : ∀ c', s'.queue c' = s.queue c') : Puts c s s' [] := by
  intro c'
  rw [same, only, ite_self, List.append_nil]

theorem only_append (c : ContextId) (ns more : List Notification) (c' : ContextId) :
    only c (ns ++ more) c' = only c ns c' ++ only c more c' := by
  simp only [only]
  split <;> rfl

theorem Puts.trans {s₁ s₂ s₃ : Client Connection κ} {c : ContextId} {ns more : List Notification}
    (first : Puts c s₁ s₂ ns) (second : Puts c s₂ s₃ more) : Puts c s₁ s₃ (ns ++ more) := by
  intro c'
  rw [second, first, List.append_assoc, only_append]

/-- The reader is at work for an open session whose channel is in use, and no frame is complete. -/
structure Listening (number : UInt64) (c : ContextId) (s : Client Connection κ) : Prop where
  session : s.transport.session = some ⟨number, c⟩
  reads : s.transport.closed = false
  attended : s.transport.attended = true
  held : s.isHeld c = true
  incomplete : arrival s.transport.arrived = .incomplete

inductive Inbound (κ : Type) where
  /-- A piece of the stream arrives and is read. -/
  | piece (bytes : Bytes)
  /-- The stream ends or fails, wherever in a frame that is. -/
  | hangUp
  | other (move : Client.Move Connection κ)

/-- The reader's part of a client is left alone, and the channel stays in use while it reads. -/
structure Spares (c : ContextId) (s s' : Client Connection κ) : Prop where
  session : s'.transport.session = s.transport.session
  closed : s'.transport.closed = s.transport.closed
  attended : s'.transport.attended = s.transport.attended
  arrived : s'.transport.arrived = s.transport.arrived
  held : s.transport.closed = false → s'.isHeld c = true

def Undisturbed (c : ContextId) : Client Connection κ → List (Inbound κ) → Prop
  | _, [] => True
  | s, .piece bytes :: rest => Undisturbed c (arrive s bytes) rest
  | s, .hangUp :: rest => Undisturbed c (obey s .hangUp).2 rest
  | s, .other move :: rest => Spares c s (move.apply s) ∧ Undisturbed c (move.apply s) rest

/-- The pieces of the stream, up to its end. -/
def pieces : List (Inbound κ) → List Bytes
  | [] | .hangUp :: _ => []
  | .piece bytes :: rest => bytes :: pieces rest
  | .other _ :: rest => pieces rest

/-- Whether the stream ends. -/
def hangsUp : List (Inbound κ) → Bool
  | [] => false
  | .hangUp :: _ => true
  | .piece _ :: rest | .other _ :: rest => hangsUp rest

/-- A client with what its reader has put on each channel so far. -/
structure Reception (κ : Type) where
  client : Client Connection κ
  delivered : ContextId → List Notification := fun _ => []

/-- The reader turns the client into another. What it puts on a channel is behind what waits there.
-/
def Reception.read (r : Reception κ) (s : Client Connection κ) : Reception κ where
  client := s
  delivered c := r.delivered c ++ (s.queue c).drop (r.client.queue c).length

def Inbound.apply (r : Reception κ) : Inbound κ → Reception κ
  | .piece bytes => r.read (arrive r.client bytes)
  | .hangUp => r.read (obey r.client .hangUp).2
  | .other move => { r with client := move.apply r.client }

def Reception.after (r : Reception κ) (inbound : List (Inbound κ)) : Reception κ :=
  inbound.foldl Inbound.apply r

/-! ### One frame -/

theorem addressee?_eq {t : Connection} {number : UInt64} {c : ContextId}
    (session : t.session = some ⟨number, c⟩) (payload : Bytes) :
    t.addressee? payload = (notification? number payload).map fun n => (c, n) := by
  simp only [addressee?, notification?]
  cases SessionNotification.decoder.decode payload with
  | error e => rfl
  | ok n =>
      simp only [session, Option.bind_some, eq_comm (a := number)]
      split <;> rfl

theorem queue_receive_prefix (s : Client Connection κ) (payload : Bytes) (c : ContextId) :
    s.queue c <+: (receive s payload).queue c := by
  simp only [receive]
  split
  · exact List.prefix_rfl
  · rw [Client.queue_deliver]
    split
    · exact List.prefix_append ..
    · exact List.prefix_rfl

/-- The payload of a frame goes to the open session's channel if it is addressed to the session. -/
theorem receive_eq {s : Client Connection κ} {number : UInt64} {c : ContextId}
    (session : s.transport.session = some ⟨number, c⟩) (held : s.isHeld c = true)
    (payload : Bytes) :
    (receive s payload).transport = s.transport ∧ (receive s payload).isHeld c = true ∧
      Puts c s (receive s payload) (notification? number payload).toList := by
  rw [receive, addressee?_eq session]
  cases notification? number payload with
  | none => exact ⟨rfl, held, .nothing c fun _ => rfl⟩
  | some n =>
      dsimp only [Option.map_some]
      refine ⟨?_, (Client.isHeld_deliver s c n c).trans held, ?_⟩
      · simp only [Client.deliver, held, if_true]
        exact Client.transport_updateSlot ..
      · intro c'
        rw [Client.queue_deliver, only]
        by_cases here : c' = c
        · rw [if_pos ⟨here, held⟩, if_pos here]
          rfl
        · rw [if_neg fun both => here both.1, if_neg here, List.append_nil]

/-! ### The reading of what has arrived -/

/-- Where the reader stands in a stream, which may be over, when it has read the complete frames: it
waits for the rest of a frame, or it has ended at an oversized length or at the end of the stream,
and the session's channel is closed. -/
inductive Stands (number : UInt64) (c : ContextId) (stream : Bytes) (finished : Bool)
    (front : List Bytes) (s : Client Connection κ) : Prop where
  | waiting (going : finished = false)
      (whole : stream = front.flatMap Frame.encode ++ s.transport.arrived)
      (listening : Listening number c s)
  | ended (rest : Bytes) (whole : stream = front.flatMap Frame.encode ++ rest)
      (stops : arrival rest = .oversized ∨ finished = true ∧ arrival rest = .incomplete)
      (closed : s.transport.closed = true) (idle : s.transport.session = none)

/-- What a reader has read of a stream, and what it has put on the channels since. -/
def Read (number : UInt64) (c : ContextId) (stream : Bytes) (s s' : Client Connection κ) : Prop :=
  ∃ front, (∀ payload ∈ front, Frame.fits payload = true) ∧
    Puts c s s' (front.filterMap (notification? number)) ∧ Stands number c stream false front s'

/-- A frame is read, and then what is behind it. -/
theorem Read.cons {number : UInt64} {c : ContextId} {payload rest : Bytes}
    {s₁ s₂ s₃ : Client Connection κ} (fits : Frame.fits payload = true)
    (put : Puts c s₁ s₂ (notification? number payload).toList)
    (later : Read number c rest s₂ s₃) :
    Read number c (Frame.encode payload ++ rest) s₁ s₃ := by
  obtain ⟨front, fit, more, stands⟩ := later
  refine ⟨payload :: front, ?_, ?_, ?_⟩
  · intro p member
    rcases List.mem_cons.mp member with rfl | later
    · exact fits
    · exact fit p later
  · have both := put.trans more
    cases h : notification? number payload <;> simpa [h] using both
  · cases stands with
    | waiting going whole listening =>
        refine .waiting going ?_ listening
        rw [List.flatMap_cons, List.append_assoc, ← whole]
    | ended left whole stops closed idle =>
        refine .ended left ?_ stops closed idle
        rw [List.flatMap_cons, List.append_assoc, ← whole]

theorem readArrived_closed {s : Client Connection κ} (closed : s.transport.closed = true)
    (steps : Nat) : readArrived steps s = s := by
  cases steps with
  | zero => rfl
  | succ steps => rw [readArrived, if_pos closed]

/-- The induction is on the steps; every frame that is read takes some of the bytes. -/
theorem readArrived_reads {number : UInt64} {c : ContextId} {steps : Nat}
    {s : Client Connection κ} (session : s.transport.session = some ⟨number, c⟩)
    (reads : s.transport.closed = false) (attended : s.transport.attended = true)
    (held : s.isHeld c = true) (enough : s.transport.arrived.length ≤ steps) :
    Read number c s.transport.arrived s (readArrived steps s) := by
  induction steps generalizing s with
  | zero =>
      have none : s.transport.arrived = [] := List.eq_nil_of_length_eq_zero (Nat.le_zero.mp enough)
      have listening : Listening number c s :=
        ⟨session, reads, attended, held, by rw [none]; rfl⟩
      exact ⟨[], by simp, .nothing c fun _ => rfl, .waiting rfl rfl listening⟩
  | succ steps ih =>
      simp only [readArrived, reads, Bool.false_eq_true, if_false]
      split
      · next incomplete =>
          have listening : Listening number c s := ⟨session, reads, attended, held, incomplete⟩
          exact ⟨[], by simp, .nothing c fun _ => rfl, .waiting rfl rfl listening⟩
      · next large =>
          exact ⟨[], by simp, .nothing c fun _ => rfl,
            .ended s.transport.arrived rfl (.inl large) rfl rfl⟩
      · next payload rest found =>
          obtain ⟨fits, whole⟩ := arrival_frame.mp found
          have shorter : rest.length ≤ steps := by
            rw [whole, List.length_append, Frame.length_encode] at enough
            omega
          obtain ⟨transport, held', put⟩ :=
            receive_eq (s := withTransport s ({ · with arrived := rest })) session held payload
          generalize receive (withTransport s ({ · with arrived := rest })) payload = taken at *
          have arrived : taken.transport.arrived = rest := by rw [transport]; rfl
          have later := ih (s := taken) (by rw [transport]; exact session)
            (by rw [transport]; exact reads) (by rw [transport]; exact attended) held'
            (by rw [arrived]; exact shorter)
          rw [arrived] at later
          rw [whole]
          exact .cons fits put later

theorem queue_readArrived_prefix (steps : Nat) (s : Client Connection κ) (c : ContextId) :
    s.queue c <+: (readArrived steps s).queue c := by
  induction steps generalizing s with
  | zero => exact List.prefix_rfl
  | succ steps ih =>
      simp only [readArrived]
      split
      · exact List.prefix_rfl
      · split
        · exact List.prefix_rfl
        · exact List.prefix_rfl
        · next payload rest _ =>
            have first :=
              queue_receive_prefix (withTransport s ({ · with arrived := rest })) payload c
            exact first.trans (ih _)

theorem queue_arrive_prefix (s : Client Connection κ) (bytes : Bytes) (c : ContextId) :
    s.queue c <+: (arrive s bytes).queue c :=
  queue_readArrived_prefix _ (withTransport s fun t => { t with arrived := t.arrived ++ bytes }) c

/-- The end of the stream ends the reader, and what waits on the channels stays there. -/
theorem obey_hangUp {s : Client Connection κ} (attended : s.transport.attended = true) :
    (obey s .hangUp).2 = withTransport (withTransport s close) ({ · with attended := false }) := by
  simp only [obey, attended, if_true]
  rfl

theorem queue_hangUp (s : Client Connection κ) (c : ContextId) :
    (obey s .hangUp).2.queue c = s.queue c := by
  simp only [obey]
  split <;> rfl

/-! ### The whole stream -/

/-- What a reception has come to after a stream, which may be over: what it put on the channels are
the session's notifications in the frames that were read. -/
def Reception.Received (number : UInt64) (c : ContextId) (stream : Bytes) (finished : Bool)
    (r : Reception κ) : Prop :=
  ∃ front, (∀ payload ∈ front, Frame.fits payload = true) ∧
    (∀ c', r.delivered c' = only c (front.filterMap (notification? number)) c') ∧
    Stands number c stream finished front r.client

theorem Reception.read_nothing {r : Reception κ} {s : Client Connection κ}
    (same : ∀ c, s.queue c = r.client.queue c) : (r.read s).delivered = r.delivered := by
  funext c
  simp only [Reception.read, same, List.drop_length, List.append_nil]

/-- A reader that has ended puts nothing on any channel any more: it only lets bytes pile up. -/
theorem ended_apply {r : Reception κ} (closed : r.client.transport.closed = true)
    (idle : r.client.transport.session = none) {c : ContextId} (turn : Inbound κ)
    (undisturbed : Undisturbed c r.client [turn]) :
    (turn.apply r).client.transport.closed = true ∧
      (turn.apply r).client.transport.session = none ∧ (turn.apply r).delivered = r.delivered := by
  cases turn with
  | piece bytes =>
      let fed := withTransport r.client fun t => { t with arrived := t.arrived ++ bytes }
      have stays : arrive r.client bytes = fed := readArrived_closed (s := fed) closed _
      simp only [Inbound.apply, stays]
      exact ⟨closed, idle, Reception.read_nothing fun _ => rfl⟩
  | hangUp =>
      refine ⟨?_, ?_, Reception.read_nothing (queue_hangUp r.client)⟩
      all_goals
        simp only [Inbound.apply, Reception.read, obey]
        split
        · rfl
        · assumption
  | other move =>
      obtain ⟨spares, -⟩ := undisturbed
      exact ⟨spares.closed.trans closed, spares.session.trans idle, rfl⟩

/-- A piece is read where the one before it ended. -/
theorem received_piece {number : UInt64} {c : ContextId} {stream : Bytes} {r : Reception κ}
    (h : r.Received number c stream false) (bytes : Bytes) :
    (Inbound.apply r (.piece bytes)).Received number c (stream ++ bytes) false := by
  obtain ⟨front, fit, delivered, stands⟩ := h
  cases stands with
  | waiting _ whole listening =>
      let fed := withTransport r.client fun t => { t with arrived := t.arrived ++ bytes }
      obtain ⟨more, fit', put, stands⟩ := readArrived_reads (s := fed) listening.session
        listening.reads listening.attended listening.held (Nat.le_refl _)
      have put : Puts c r.client (arrive r.client bytes) _ := put
      have joined : stream ++ bytes =
          front.flatMap Frame.encode ++ fed.transport.arrived := by
        rw [whole, List.append_assoc]
        rfl
      refine ⟨front ++ more, ?_, ?_, ?_⟩
      · intro payload member
        rcases List.mem_append.mp member with old | new
        · exact fit payload old
        · exact fit' payload new
      · intro c'
        simp only [Inbound.apply, Reception.read, put c', List.drop_left, delivered,
          List.filterMap_append]
        exact (only_append c _ _ c').symm
      · rw [joined]
        cases stands with
        | waiting going whole' listening' =>
            refine .waiting going ?_ listening'
            rw [whole', List.flatMap_append, List.append_assoc]
            rfl
        | ended rest whole' stops closed idle =>
            refine .ended rest ?_ stops closed idle
            rw [whole', List.flatMap_append, List.append_assoc]
  | ended rest whole stops closed idle =>
      obtain large | ⟨finished, -⟩ := stops
      · obtain ⟨closed', idle', same⟩ := ended_apply (c := c) closed idle (.piece bytes) trivial
        refine ⟨front, fit, fun c' => by rw [same, delivered],
          .ended (rest ++ bytes) ?_ (.inl (arrival_oversized_append large bytes)) closed' idle'⟩
        rw [whole, List.append_assoc]
      · cases finished

/-- The end of the stream closes the channel, and whatever is there of a frame is dropped. -/
theorem received_hangUp {number : UInt64} {c : ContextId} {stream : Bytes} {r : Reception κ}
    (h : r.Received number c stream false) :
    (Inbound.apply r .hangUp).Received number c stream true := by
  obtain ⟨front, fit, delivered, stands⟩ := h
  have same : (Inbound.apply r .hangUp).delivered = r.delivered :=
    Reception.read_nothing (queue_hangUp r.client)
  refine ⟨front, fit, fun c' => by rw [same, delivered], ?_⟩
  cases stands with
  | waiting _ whole listening =>
      have left := obey_hangUp listening.attended
      refine .ended r.client.transport.arrived whole (.inr ⟨rfl, listening.incomplete⟩) ?_ ?_
      all_goals
        rw [Inbound.apply, Reception.read, left]
        rfl
  | ended rest whole stops closed idle =>
      obtain large | ⟨finished, -⟩ := stops
      · obtain ⟨closed', idle', -⟩ := ended_apply (c := c) closed idle .hangUp trivial
        exact .ended rest whole (.inl large) closed' idle'
      · cases finished

theorem received_other {number : UInt64} {c : ContextId} {stream : Bytes} {finished : Bool}
    {r : Reception κ} (h : r.Received number c stream finished) {move : Client.Move Connection κ}
    (spares : Spares c r.client (move.apply r.client)) :
    (Inbound.apply r (.other move)).Received number c stream finished := by
  obtain ⟨front, fit, delivered, stands⟩ := h
  refine ⟨front, fit, delivered, ?_⟩
  cases stands with
  | waiting going whole listening =>
      refine .waiting going (whole.trans (congrArg _ spares.arrived.symm)) ?_
      exact ⟨spares.session.trans listening.session, spares.closed.trans listening.reads,
        spares.attended.trans listening.attended, spares.held listening.reads,
        (congrArg arrival spares.arrived).trans listening.incomplete⟩
  | ended rest whole stops closed idle =>
      exact .ended rest whole stops (spares.closed.trans closed) (spares.session.trans idle)

/-- Nothing is received behind the end of the stream. -/
theorem received_finished {number : UInt64} {c : ContextId} {stream : Bytes} {r : Reception κ}
    (h : r.Received number c stream true) {inbound : List (Inbound κ)}
    (undisturbed : Undisturbed c r.client inbound) :
    (r.after inbound).Received number c stream true := by
  induction inbound generalizing r with
  | nil => exact h
  | cons turn inbound ih =>
      have first : Undisturbed c r.client [turn] ∧ Undisturbed c (turn.apply r).client inbound := by
        cases turn with
        | piece | hangUp => exact ⟨trivial, undisturbed⟩
        | other move => exact ⟨⟨undisturbed.1, trivial⟩, undisturbed.2⟩
      obtain ⟨front, fit, delivered, stands⟩ := h
      cases stands with
      | waiting going => cases going
      | ended rest whole stops closed idle =>
          obtain ⟨closed', idle', same⟩ := ended_apply closed idle turn first.1
          exact ih ⟨front, fit, fun c' => by rw [same, delivered],
            .ended rest whole stops closed' idle'⟩ first.2

theorem received_after {number : UInt64} {c : ContextId} {stream : Bytes} {r : Reception κ}
    (h : r.Received number c stream false) {inbound : List (Inbound κ)}
    (undisturbed : Undisturbed c r.client inbound) :
    (r.after inbound).Received number c (stream ++ (pieces inbound).flatten)
      (hangsUp inbound) := by
  induction inbound generalizing r stream with
  | nil =>
      rw [pieces, List.flatten_nil, List.append_nil]
      exact h
  | cons turn inbound ih =>
      cases turn with
      | piece bytes =>
          have later := ih (received_piece h bytes) undisturbed
          rwa [List.append_assoc] at later
      | hangUp =>
          rw [pieces, List.flatten_nil, List.append_nil]
          exact received_finished (received_hangUp h) undisturbed
      | other move => exact ih (received_other h undisturbed.1) undisturbed.2

/-- Behind complete frames that no other follows, these are all there are. -/
theorem complete_front {front : List Bytes} {rest : Bytes}
    (fit : ∀ payload ∈ front, Frame.fits payload = true)
    (none : ∀ payload left, arrival rest ≠ .frame payload left) :
    Frame.complete (front.flatMap Frame.encode ++ rest) = front := by
  rw [Frame.complete_append fit, Frame.complete_stop none, List.append_nil]

theorem Stands.complete {number : UInt64} {c : ContextId} {stream : Bytes} {finished : Bool}
    {front : List Bytes} {s : Client Connection κ} (h : Stands number c stream finished front s)
    (fit : ∀ payload ∈ front, Frame.fits payload = true) : Frame.complete stream = front := by
  cases h with
  | waiting _ whole listening =>
      rw [whole]
      exact complete_front fit (by simp [listening.incomplete])
  | ended rest whole stops =>
      rw [whole]
      obtain large | ⟨-, cut⟩ := stops
      · exact complete_front fit (by simp [large])
      · exact complete_front fit (by simp [cut])

/-- The reader has ended just when the stream is over or an oversized length stands behind complete
frames. -/
theorem Stands.closed_iff {number : UInt64} {c : ContextId} {stream : Bytes} {finished : Bool}
    {front : List Bytes} {s : Client Connection κ} (h : Stands number c stream finished front s)
    (fit : ∀ payload ∈ front, Frame.fits payload = true) :
    s.transport.closed = true ↔ finished = true ∨
      ∃ front rest, (∀ payload ∈ front, Frame.fits payload = true) ∧
        stream = List.flatMap Frame.encode front ++ rest ∧ arrival rest = .oversized := by
  have complete := h.complete fit
  cases h with
  | waiting going whole listening =>
      constructor
      · intro closed
        rw [listening.reads] at closed
        cases closed
      · rintro (finished | ⟨front', rest, fit', whole', large⟩)
        · cases going.symm.trans finished
        · have same : front' = front := by
            rw [← complete, whole', complete_front fit' (by simp [large])]
          rw [same, whole] at whole'
          rw [← List.append_cancel_left whole', listening.incomplete] at large
          cases large
  | ended rest whole stops closed =>
      refine ⟨fun _ => ?_, fun _ => closed⟩
      exact stops.symm.imp And.left fun large => ⟨front, rest, fit, whole, large⟩

/-- The channel stays open until the reader ends, and then it is closed. -/
theorem Stands.holder {number : UInt64} {c : ContextId} {stream : Bytes} {finished : Bool}
    {front : List Bytes} {s : Client Connection κ} (h : Stands number c stream finished front s) :
    Transport.holder s.transport = if s.transport.closed then none else some c := by
  have holder : Transport.holder s.transport = s.transport.session.map (·.channel) := rfl
  cases h with
  | waiting _ _ listening =>
      rw [holder, listening.session, listening.reads]
      rfl
  | ended _ _ _ closed idle =>
      rw [holder, idle, closed]
      rfl

theorem arrival_oversized {stream : Bytes} :
    arrival stream = .oversized ↔
      4 ≤ stream.length ∧ Settings.maxFrameSize < Frame.announced (stream.take 4) := by
  simp only [arrival]
  split
  · next short => simp [Nat.not_le.mpr short]
  · next long =>
      split
      · next large => simp [large, Nat.not_lt.mp long]
      · next fits => split <;> simp [fits]

/-- However a stream is cut into pieces, wherever it ends, and whatever happens meanwhile as long as
the session stays open and its channel in use: the reader puts on the session's channel, in order,
exactly the notifications for the session in the complete frames at the start of the stream, and
nothing on any other. It ends at the end of the stream and at the first oversized length, and from
then on, but not before, nobody holds the channel, on which everything stays. Frames of legal size
put in between others make no difference if they hold no notification for the session. -/
theorem delivered_complete_frames {number : UInt64} {c : ContextId} {s : Client Connection κ}
    (listening : Listening number c s) {inbound : List (Inbound κ)}
    (undisturbed : Undisturbed c s inbound) :
    let r := Reception.after { client := s } inbound
    let stream := s.transport.arrived ++ (pieces inbound).flatten
    (∀ failure steps, stream.length < steps → ∀ c', r.delivered c' = only c
      ((Frame.readAll steps { pieces := s.transport.arrived :: pieces inbound, failure }).1.filterMap
        (notification? number)) c') ∧
    (∀ (s' : Client Connection κ) c', (∀ bytes, s'.queue c' <+: (arrive s' bytes).queue c') ∧
      (obey s' .hangUp).2.queue c' = s'.queue c') ∧
    (r.client.transport.closed = true ↔ hangsUp inbound = true ∨
      ∃ front rest, (∀ payload ∈ front, Frame.fits payload = true) ∧
        stream = List.flatMap Frame.encode front ++ rest ∧
        4 ≤ rest.length ∧ Settings.maxFrameSize < Frame.announced (rest.take 4)) ∧
    Transport.holder r.client.transport = (if r.client.transport.closed then none else some c) ∧
    ∀ inbound', Undisturbed c s inbound' → ∀ front rest inserted,
      (∀ payload ∈ front ++ inserted, Frame.fits payload = true) →
      (∀ payload ∈ inserted, notification? number payload = none) →
      stream = List.flatMap Frame.encode front ++ rest →
      s.transport.arrived ++ (pieces inbound').flatten =
        List.flatMap Frame.encode front ++ List.flatMap Frame.encode inserted ++ rest →
      (Reception.after { client := s } inbound').delivered = r.delivered := by
  intro r stream
  have received {inbound : List (Inbound κ)} (undisturbed : Undisturbed c s inbound) :
      (Reception.after { client := s } inbound).Received number c
        (s.transport.arrived ++ (pieces inbound).flatten) (hangsUp inbound) := by
    have started : Reception.Received number c s.transport.arrived false { client := s } :=
      ⟨[], by simp, fun c' => (ite_self _).symm, .waiting rfl rfl listening⟩
    exact received_after started undisturbed
  obtain ⟨front, fit, delivered, stands⟩ := received undisturbed
  have complete := stands.complete fit
  refine ⟨?_, fun s' c' => ⟨fun bytes => queue_arrive_prefix s' bytes c', queue_hangUp s' c'⟩, ?_,
    stands.holder, ?_⟩
  · intro failure steps enough c'
    rw [Frame.readAll_eq_complete (by simpa [Source.rest, stream] using enough), delivered,
      ← complete]
    rfl
  · simp only [← arrival_oversized]
    exact stands.closed_iff fit
  · intro inbound' undisturbed' kept rest inserted legal foreign whole whole'
    obtain ⟨front', fit', delivered', stands'⟩ := received undisturbed'
    have legal' : ∀ payload ∈ kept, Frame.fits payload = true :=
      fun payload member => legal payload (List.mem_append_left _ member)
    have before : front = kept ++ Frame.complete rest := by
      rw [← complete, ← Frame.complete_append legal', ← whole]
    have behind : front' = kept ++ inserted ++ Frame.complete rest := by
      rw [← stands'.complete fit', whole', ← List.flatMap_append, Frame.complete_append legal]
    have nothing : inserted.filterMap (notification? number) = [] :=
      List.filterMap_eq_nil_iff.mpr foreign
    funext c'
    rw [delivered', delivered, before, behind]
    simp only [List.filterMap_append, nothing, List.append_nil]

/-- A client whose first session is open. -/
def listeningClient : Client Connection Nat :=
  (Client.start { address := ⟨.short 127 0 0 1, 4337⟩ }).acquire.2

/-- A frame with an event for the session. -/
def eventFrame : Bytes :=
  Frame.encode <| Text.bytes <|
    "\x7b\"session\":1,\"notification\":" ++
      "\x7b\"method\":\"event\",\"params\":\x7b\"name\":\"e\"\x7d\x7d\x7d"

/-- The frame in two pieces, between which the channel is looked at, then a frame that holds nothing
and a length that is too large. -/
def cutEvent : List (Inbound Nat) :=
  [.piece (eventFrame.take 10), .other (.program (.takeNext 0)),
    .piece (eventFrame.drop 10 ++ Frame.encode [0x78] ++ [0xFF, 0xFF, 0xFF, 0xFF]),
    .other (.program (.takeNext 0))]

/-- The stream ends within a second such frame. -/
def cutOff : List (Inbound Nat) :=
  [.piece (eventFrame ++ eventFrame.take 10), .hangUp, .other (.program (.takeNext 0))]

theorem cutEvent_delivered :
    Listening 1 0 listeningClient ∧
      ∀ inbound ∈ [cutEvent, cutOff], Undisturbed 0 listeningClient inbound ∧
        (Reception.after { client := listeningClient } inbound).delivered 0 =
          [.event ⟨"e", "\x7b\x7d"⟩] ∧
        Transport.holder (Reception.after { client := listeningClient } inbound).client.transport =
          none := by
  have listening : Listening 1 0 listeningClient := ⟨rfl, rfl, rfl, rfl, rfl⟩
  have spared : Undisturbed 0 listeningClient cutEvent :=
    ⟨⟨rfl, rfl, rfl, rfl, fun _ => rfl⟩, ⟨rfl, rfl, rfl, rfl, fun _ => rfl⟩, trivial⟩
  have spared' : Undisturbed 0 listeningClient cutOff :=
    ⟨⟨rfl, rfl, rfl, rfl, fun _ => rfl⟩, trivial⟩
  obtain ⟨delivered, -, closed, holder, -⟩ := delivered_complete_frames listening spared
  obtain ⟨delivered', -, closed', holder', -⟩ := delivered_complete_frames listening spared'
  -- Behind the two complete frames stands an oversized length.
  rw [closed.mpr (.inr ⟨[eventFrame.drop 4, [0x78]], [0xFF, 0xFF, 0xFF, 0xFF], by decide, rfl,
    by decide⟩)] at holder
  rw [closed'.mpr (.inl rfl)] at holder'
  refine ⟨listening, ?_⟩
  simp only [List.forall_mem_cons]
  exact ⟨⟨spared, (delivered none 200 (by decide) 0).trans rfl, holder⟩,
    ⟨spared', (delivered' none 200 (by decide) 0).trans rfl, holder'⟩, by simp⟩

end Connection

end EventClient
