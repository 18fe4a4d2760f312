import EventClient.Proofs.Connection.Requests
import EventClient.Proofs.Json.Scalars

/-!
What reaches the daemon. Payloads are queued, written and read in the order in which their requests
were accepted. The writer ends at the first one that does not fit into a frame, although its request
was accepted like any other, and nothing behind it is written.
-/
namespace EventClient

/-- The frames of an answer of the daemon's side. -/
def Answer.payloads : Answer → List Bytes
  | .frames payloads _ => payloads
  | _ => []

namespace Connection

/-- What happens on the way to the daemon. -/
inductive Turn where
  | call (call : Call)
  /-- The writer takes the oldest queued payload. -/
  | write
  | read (count : Nat)
  /-- The reader ends. -/
  | close

/-- A connection with the payloads of the requests that it accepted and those that the daemon read,
each in order. -/
structure Traffic where
  connection : Connection
  accepted : List Bytes := []
  read : List Bytes := []

def Turn.apply (r : Traffic) : Turn → Traffic
  | .call asked =>
    { r with
      connection := (r.connection.perform asked).1
      accepted := r.accepted ++ r.connection.accepted asked }
  | .write => { r with connection := r.connection.writeNext }
  | .read count =>
    { r with
      connection := (r.connection.daemonRead count).2
      read := r.read ++ (r.connection.daemonRead count).1.payloads }
  | .close => { r with connection := r.connection.close }

def Traffic.after (r : Traffic) (turns : List Turn) : Traffic := turns.foldl Turn.apply r

/-- Where the accepted payloads are: those that the daemon read, then those on the wire, which all
fit into frames, then those that still wait. Once the writer has ended, the one it ended at is
missing. -/
inductive Carried (r : Traffic) : Prop where
  | writing (goes : r.connection.writing = true)
      (order : r.accepted = r.read ++ r.connection.wire ++ r.connection.queue)
      (fit : ∀ payload ∈ r.read ++ r.connection.wire, Frame.fits payload = true)
  | ended (stopped : r.connection.writing = false) (large : Bytes)
      (tooLarge : Frame.fits large = false)
      (order : r.accepted = r.read ++ r.connection.wire ++ large :: r.connection.queue)
      (fit : ∀ payload ∈ r.read ++ r.connection.wire, Frame.fits payload = true)

/-! ### What each turn preserves -/

theorem writeNext_empty {t : Connection} (empty : t.queue = []) : t.writeNext = t := by
  rw [writeNext, empty]

theorem writeNext_ended {t : Connection} (stopped : t.writing = false) : t.writeNext = t := by
  simp only [writeNext]
  split
  · rfl
  · simp [stopped]

theorem writeNext_fits {t : Connection} {payload : Bytes} {queue : List Bytes}
    (goes : t.writing = true) (waits : t.queue = payload :: queue)
    (fits : Frame.fits payload = true) :
    t.writeNext = { t with queue, wire := t.wire ++ [payload] } := by
  simp [writeNext, waits, goes, fits]

theorem writeNext_large {t : Connection} {payload : Bytes} {queue : List Bytes}
    (goes : t.writing = true) (waits : t.queue = payload :: queue)
    (large : Frame.fits payload = false) :
    t.writeNext = { t with queue, writing := false } := by
  simp [writeNext, waits, goes, large]

theorem carried_call {r : Traffic} (h : Carried r) (call : Call) :
    Carried (Turn.apply r (.call call)) := by
  obtain ⟨wire, writing, queue, nothing⟩ := perform_queues r.connection call
  cases h with
  | writing goes order fit =>
      refine .writing (writing.trans goes) ?_ ?_
      · simp only [Turn.apply, wire, queue, order, List.append_assoc]
      · simpa only [Turn.apply, wire] using fit
  | ended stopped large tooLarge order fit =>
      refine .ended (writing.trans stopped) large tooLarge ?_ ?_
      · simp only [Turn.apply, wire, queue, order, nothing stopped, List.append_nil]
      · simpa only [Turn.apply, wire] using fit

theorem carried_write {r : Traffic} (h : Carried r) : Carried (Turn.apply r .write) := by
  cases h with
  | writing goes order fit =>
      cases waits : r.connection.queue with
      | nil =>
          simp only [Turn.apply, writeNext_empty waits]
          exact .writing goes order fit
      | cons payload queue =>
          rw [waits] at order
          cases large : Frame.fits payload with
          | false =>
              simp only [Turn.apply, writeNext_large goes waits large]
              exact .ended rfl payload large order fit
          | true =>
              simp only [Turn.apply, writeNext_fits goes waits large]
              refine .writing goes ?_ ?_
              · simpa only [List.append_assoc, List.cons_append, List.nil_append] using order
              · intro payload' member
                rw [← List.append_assoc] at member
                rcases List.mem_append.mp member with old | new
                · exact fit payload' old
                · rw [List.mem_singleton.mp new]
                  exact large
  | ended stopped large tooLarge order fit =>
      simp only [Turn.apply, writeNext_ended stopped]
      exact .ended stopped large tooLarge order fit

theorem carried_read {r : Traffic} (h : Carried r) (count : Nat) :
    Carried (Turn.apply r (.read count)) := by
  have moved : r.read ++ r.connection.wire.take count ++ r.connection.wire.drop count =
      r.read ++ r.connection.wire := by
    rw [List.append_assoc, List.take_append_drop]
  cases h with
  | writing goes order fit =>
      rw [← moved] at order fit
      exact .writing goes order fit
  | ended stopped large tooLarge order fit =>
      rw [← moved] at order fit
      exact .ended stopped large tooLarge order fit

theorem carried_apply {r : Traffic} (h : Carried r) (turn : Turn) : Carried (turn.apply r) := by
  cases turn with
  | call call => exact carried_call h call
  | write => exact carried_write h
  | read count => exact carried_read h count
  | close =>
      cases h with
      | writing goes order fit => exact .writing goes order fit
      | ended stopped large tooLarge order fit => exact .ended stopped large tooLarge order fit

theorem carried_after {r : Traffic} (h : Carried r) (turns : List Turn) :
    Carried (r.after turns) := by
  induction turns generalizing r with
  | nil => exact h
  | cons turn turns ih => exact ih (carried_apply h turn)

/-! ### Writing everything -/

theorem writeNext_shortens (t : Connection) :
    t.writing = false ∨ t.writeNext.queue.length = t.queue.length - 1 := by
  cases goes : t.writing with
  | false => exact .inl rfl
  | true =>
      right
      cases waits : t.queue with
      | nil => rw [writeNext_empty waits, waits, List.length_nil]
      | cons payload queue =>
          cases fits : Frame.fits payload with
          | true => rw [writeNext_fits goes waits fits]; rfl
          | false => rw [writeNext_large goes waits fits]; rfl

/-- A writer with enough turns takes everything that is queued unless it ends before. The induction
is on the turns. -/
theorem queue_written (turns : List Bytes) {t : Connection}
    (enough : t.queue.length ≤ turns.length) :
    let written := turns.foldl (fun t _ => t.writeNext) t
    written.writing = false ∨ written.queue = [] := by
  induction turns generalizing t with
  | nil => exact .inr (List.eq_nil_of_length_eq_zero (Nat.le_zero.mp enough))
  | cons turn turns ih =>
      rcases writeNext_shortens t with stopped | shorter
      · -- A writer that has ended stays as it is.
        have stays : turns.foldl (fun t _ => t.writeNext) t = t := by
          clear ih enough
          induction turns with
          | nil => rfl
          | cons _ turns ih => rw [List.foldl_cons, writeNext_ended stopped, ih]
        left
        rw [List.foldl_cons, writeNext_ended stopped, stays]
        exact stopped
      · apply ih
        rw [shorter]
        exact Nat.sub_le_of_le_add enough

theorem carried_written {r : Traffic} (h : Carried r) (turns : List Bytes) :
    Carried { r with connection := turns.foldl (fun t _ => t.writeNext) r.connection } := by
  induction turns generalizing r with
  | nil => exact h
  | cons turn turns ih => exact ih (carried_write h)

/-- Where nothing waits for a writer that goes on, what was written is all that was accepted before
the first payload that is too large. -/
theorem Carried.delivered {r : Traffic} (h : Carried r)
    (settled : r.connection.writing = false ∨ r.connection.queue = []) :
    r.read ++ r.connection.wire = r.accepted.takeWhile Frame.fits := by
  cases h with
  | writing goes order fit =>
      have empty := settled.resolve_left (by simp [goes])
      rw [order, List.takeWhile_append_of_pos fit, empty]
      exact (List.append_nil _).symm
  | ended stopped large tooLarge order fit =>
      rw [order, List.takeWhile_append_of_pos fit]
      simp [tooLarge]

/-- Every payload that the daemon ever reads is that of an accepted request, in the order in which
they were accepted and none twice. Once everything was written and read, these are all up to the
first that is too large for a frame, and so all of them just when all fit. That a request is too
large is no reason to refuse it; it ends the writer, and then all are refused and none is queued. -/
theorem delivered_until_oversized (address : Address) (accounts : Accounts) (turns : List Turn) :
    let r := Traffic.after { connection := { address, accounts } } turns
    let delivered := r.read ++ r.connection.writeQueued.wire
    r.read <+: r.accepted ∧
    delivered = r.accepted.takeWhile Frame.fits ∧
    (delivered = r.accepted ↔ ∀ payload ∈ r.accepted, Frame.fits payload = true) ∧
    (∀ call payload, r.connection.payload? call = .ok (some payload) →
      ((r.connection.perform call).2 = .ok () ↔
        r.connection.closed = false ∧ r.connection.writing = true)) ∧
    (r.connection.writing = false → ∃ payload ∈ r.accepted, Frame.fits payload = false) ∧
    ∀ call e, (r.connection.perform call).2 = .error e →
      (r.connection.perform call).1.queue = r.connection.queue ∧
      (r.connection.perform call).1.wire = r.connection.wire := by
  intro r delivered
  have carried : Carried r := carried_after (.writing rfl rfl (by simp)) turns
  have all : delivered = r.accepted.takeWhile Frame.fits :=
    (carried_written carried r.connection.queue).delivered (queue_written _ (Nat.le_refl _))
  refine ⟨?_, all, ?_, fun call payload => perform_taken, ?_, ?_⟩
  · cases carried with
    | writing goes order fit =>
        rw [order, List.append_assoc]
        exact List.prefix_append ..
    | ended stopped large tooLarge order fit =>
        rw [order, List.append_assoc]
        exact List.prefix_append ..
  · rw [all]
    constructor
    · intro same payload member
      rw [← same] at member
      exact List.all_eq_true.mp List.all_takeWhile payload member
    · intro fit
      rw [← List.append_nil r.accepted, List.takeWhile_append_of_pos fit]
      rfl
  · intro stopped
    cases carried with
    | writing goes order fit => simp [stopped] at goes
    | ended stopped large tooLarge order fit => exact ⟨large, by simp [order], tooLarge⟩
  · intro call e refused
    obtain ⟨wire, _, queue, _⟩ := perform_queues r.connection call
    rw [accepted_refused refused, List.append_nil] at queue
    exact ⟨queue, wire⟩

/-! ### A request that is too large -/

/-- The text of a subscription is at least as long as each name in it. -/
theorem subscription_too_large {name : String}
    (long : Settings.maxFrameSize < (Text.bytes name).length) :
    ∃ payload, (Request.subscribe [name]).encode = .ok payload ∧ Frame.fits payload = false := by
  refine ⟨_, rfl, ?_⟩
  rw [Frame.fits, decide_eq_false_iff_not, Nat.not_le]
  refine Nat.lt_of_lt_of_le long ?_
  have byte {b : UInt8} {rest : Bytes} (h : (Text.bytes name).length ≤ rest.length) :
      (Text.bytes name).length ≤ (b :: rest).length := Nat.le_succ_of_le h
  have text {t : String} {rest : Bytes} (h : (Text.bytes name).length ≤ rest.length) :
      (Text.bytes name).length ≤ (Json.writeText t rest).length :=
    Nat.le_trans (Nat.le_add_right_of_le (Nat.le_add_left_of_le h)) (Json.length_writeText t rest)
  simp only [Json.encode, Json.write, Json.writeMembers, Json.writeItems, List.map]
  apply byte <| text <| byte <| text <| byte <| text <| byte <| byte <| text <| byte <| byte ?_
  exact Nat.le_trans (Nat.le_add_right_of_le (Nat.le_add_right ..)) (Json.length_writeText name _)

theorem length_pushn (n : Nat) : (Text.bytes ("".pushn 'a' n)).length = n := by
  induction n with
  | zero => rfl
  | succ n ih =>
      have pushed := String.utf8ByteSize_push (s := "".pushn 'a' n) (c := 'a')
      exact pushed.trans (congrArg (· + 1) ih)

/-- A subscription that is too large and the request behind it are both accepted, and neither ever
reaches the daemon. -/
theorem large_accepted_and_lost (address : Address) {name : String}
    (long : Settings.maxFrameSize < (Text.bytes name).length) :
    let t : Connection := { address }
    let r := Traffic.after { connection := t } [.call (.subscribe [name]), .call .bridgeSignals]
    (t.perform (.subscribe [name])).2 = .ok () ∧
      ((t.perform (.subscribe [name])).1.perform .bridgeSignals).2 = .ok () ∧
      r.accepted.length = 2 ∧ r.read ++ r.connection.writeQueued.wire = [] := by
  intro t r
  obtain ⟨payload, encoded, large⟩ := subscription_too_large long
  have first : t.perform (.subscribe [name]) = ({ t with queue := [payload] }, .ok ()) := by
    simp [perform, enqueue, encoded, t]
  have taken : t.accepted (.subscribe [name]) = [payload] :=
    accepted_taken (by simp [payload?, request?, encoded, Except.map]) ⟨rfl, rfl⟩
  have both : ∃ bridged, r = { connection := { t with queue := [payload, bridged] }
                               accepted := [payload, bridged] } := by
    refine ⟨Json.encode (.object [("method", .string "bridge_signals")]), ?_⟩
    simp only [r, Traffic.after, List.foldl_cons, List.foldl_nil, Turn.apply, first, taken]
    rfl
  obtain ⟨bridged, both⟩ := both
  refine ⟨by rw [first], by rw [first]; rfl, by rw [both]; rfl, ?_⟩
  rw [both]
  simp [writeQueued, writeNext, large, t]

theorem oversized_accepted_and_lost :
    let t : Connection := { address := ⟨.short 127 0 0 1, 4337⟩ }
    let asked : Call := .subscribe ["".pushn 'a' (Settings.maxFrameSize + 1)]
    let r := Traffic.after { connection := t } [.call asked, .call .bridgeSignals]
    (t.perform asked).2 = .ok () ∧ ((t.perform asked).1.perform .bridgeSignals).2 = .ok () ∧
      r.accepted.length = 2 ∧ r.read ++ r.connection.writeQueued.wire = [] :=
  large_accepted_and_lost _ (Nat.lt_of_lt_of_eq (Nat.lt_succ_self _) (length_pushn _).symm)

end Connection

end EventClient
