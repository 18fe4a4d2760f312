import EventClient.Proofs.Frame

/-!
Frames written to a sink of any size. A sink takes what it is offered, in pieces of its own size,
until its room is used up, and refuses everything from there on. So it holds the front of what was
to be written, and the writes that fail are those that reach beyond it.
-/
namespace EventClient

namespace Sink

/-- The second sink is the first one after it took some bytes. -/
structure Took (s : Sink) (bytes : Bytes) (s' : Sink) : Prop where
  written : s'.written = s.written ++ bytes
  settings : s' = { s with pieces := s'.pieces, room := s.room.map (· - bytes.length) }

/-- The front of some bytes that there is room for. -/
def roomFor (s : Sink) (bytes : Bytes) : Bytes := s.room.elim bytes bytes.take

/-- What a write fails with when the room is used up. -/
def refused (s : Sink) : IoError := s.refusal.getD nothingTaken

/-- There is room for bytes as a whole just when there is for their number. -/
theorem roomFor_eq_self {s : Sink} {bytes : Bytes} :
    s.roomFor bytes = bytes ↔ ∀ room ∈ s.room, bytes.length ≤ room := by
  rw [roomFor]
  cases s.room with
  | none => exact ⟨fun _ => nofun, fun _ => rfl⟩
  | some room =>
      constructor
      · rintro whole _ ⟨rfl⟩
        have length := congrArg List.length whole
        rw [Option.elim_some, List.length_take] at length
        omega
      · intro fits
        exact List.take_of_length_le (fits room rfl)

theorem roomFor_nil (s : Sink) : s.roomFor [] = [] :=
  roomFor_eq_self.mpr fun room _ => Nat.zero_le room

/-- Behind bytes that there is no room for as a whole there is room for nothing. -/
theorem roomFor_append_short {s : Sink} {front : Bytes} (short : s.roomFor front ≠ front)
    (back : Bytes) : s.roomFor (front ++ back) = s.roomFor front := by
  simp only [roomFor] at short ⊢
  cases room : s.room with
  | none =>
      rw [room] at short
      exact (short rfl).elim
  | some room' =>
      rw [room] at short
      have less : room' < front.length :=
        Nat.lt_of_not_le fun fits => short (List.take_of_length_le fits)
      exact List.take_append_of_le_length (Nat.le_of_lt less)

namespace Took

variable {s s' s'' : Sink} {front back : Bytes}

theorem none (s : Sink) : s.Took [] s := by
  refine ⟨(List.append_nil _).symm, ?_⟩
  cases s with
  | mk pieces chunk room refusal flushFailure => cases room <;> rfl

theorem trans (first : s.Took front s') (second : s'.Took back s'') :
    s.Took (front ++ back) s'' := by
  refine ⟨by rw [second.written, first.written, List.append_assoc], ?_⟩
  rw [second.settings, first.settings]
  simp only [Option.map_map, List.length_append]
  congr 2
  funext room
  exact Nat.sub_sub room _ _

theorem takes (took : s.Took front s') (takes : s.chunk ≠ some 0) : s'.chunk ≠ some 0 := by
  rw [took.settings]
  exact takes

theorem room (took : s.Took front s') : s'.room = s.room.map (· - front.length) := by
  rw [took.settings]

theorem refused (took : s.Took front s') : s'.refused = s.refused := by
  rw [took.settings]
  rfl

theorem flushFailure (took : s.Took front s') : s'.flushFailure = s.flushFailure := by
  rw [took.settings]

theorem flush (took : s.Took front s') : s'.flush = s.flush := by
  rw [Sink.flush, Sink.flush, took.flushFailure]

/-- What there is room for of two parts is what there is room for of the first and then, in the sink
that took this, of the second. -/
theorem roomFor_append (took : s.Took (s.roomFor front) s') (back : Bytes) :
    s.roomFor (front ++ back) = s.roomFor front ++ s'.roomFor back := by
  have left := took.room
  simp only [roomFor] at left ⊢
  rw [left]
  cases s.room with
  | none => rfl
  | some room =>
      have same : room - (front.take room).length = room - front.length := by
        rw [List.length_take]
        omega
      dsimp only [Option.elim_some, Option.map_some]
      rw [List.take_append, same]

end Took

/-- One write takes a front of what is offered that there is room for, and that is not empty unless
the room is used up. -/
theorem accepted_split {s : Sink} {bytes : Bytes} (takes : s.chunk ≠ some 0)
    (something : bytes ≠ []) :
    (s.room = some 0 ∧ s.accepted bytes = []) ∨
      ∃ piece rest, piece ≠ [] ∧ bytes = piece ++ rest ∧ s.accepted bytes = piece ∧
        s.roomFor piece = piece := by
  -- Without regard to the room, the size of the pieces decides.
  obtain ⟨part, rest, nonempty, cut, offered⟩ : ∃ part rest, part ≠ [] ∧ bytes = part ++ rest ∧
      s.accepted bytes = s.roomFor part := by
    simp only [accepted, roomFor]
    cases chunk : s.chunk with
    | none =>
        refine ⟨bytes, [], something, (List.append_nil _).symm, ?_⟩
        cases s.room <;> rfl
    | some size =>
        have positive : size ≠ 0 := fun zero => takes (zero ▸ chunk)
        refine ⟨bytes.take size, bytes.drop size, ?_, (List.take_append_drop ..).symm, ?_⟩
        · simp [positive, something]
        · cases s.room <;> rfl
  rw [offered]
  simp only [roomFor]
  cases room : s.room with
  | none => exact .inr ⟨part, rest, nonempty, cut, rfl, rfl⟩
  | some room' =>
      cases room' with
      | zero => exact .inl ⟨rfl, rfl⟩
      | succ less =>
          right
          refine ⟨part.take (less + 1), part.drop (less + 1) ++ rest, ?_, ?_, rfl, ?_⟩
          · simp [nonempty]
          · rw [← List.append_assoc, List.take_append_drop, cut]
          · exact List.take_of_length_le (List.length_take_le ..)

/-- A sink takes all that it has room for, and fails just when this is not everything. The induction
is on the steps: each piece leaves fewer bytes. -/
theorem writeAll_takes {steps : Nat} {s : Sink} {bytes : Bytes} (takes : s.chunk ≠ some 0)
    (enough : bytes.length ≤ steps) :
    ∃ s', s.writeAll steps bytes =
        (if s.roomFor bytes = bytes then .ok () else .error s.refused, s') ∧
      s.Took (s.roomFor bytes) s' := by
  induction steps generalizing s bytes with
  | zero =>
      obtain rfl := List.eq_nil_of_length_eq_zero (Nat.le_zero.mp enough)
      rw [roomFor_nil, if_pos rfl]
      exact ⟨s, rfl, .none s⟩
  | succ steps ih =>
      cases bytes with
      | nil =>
          rw [roomFor_nil, if_pos rfl]
          exact ⟨s, rfl, .none s⟩
      | cons first others =>
          rcases accepted_split takes (List.cons_ne_nil first others) with
            ⟨full, accepted⟩ | ⟨piece, rest, something, cut, accepted, room⟩
          · have nothing : s.roomFor (first :: others) = [] := by
              rw [roomFor, full]
              rfl
            rw [nothing, if_neg (List.cons_ne_nil first others).symm]
            simp only [writeAll, accepted]
            exact ⟨s, rfl, .none s⟩
          · obtain ⟨head, tail, rfl⟩ := List.exists_cons_of_ne_nil something
            -- One write takes a piece, and the sink that it leaves decides on the rest.
            have took : s.Took (s.roomFor (head :: tail)) { s with
                pieces := (head :: tail) :: s.pieces
                room := s.room.map (· - (head :: tail).length) } := by
              rw [room]
              exact ⟨by simp [written], rfl⟩
            have fewer : rest.length ≤ steps := by
              rw [cut, List.length_append, List.length_cons] at enough
              omega
            obtain ⟨s', wrote, took'⟩ := ih (took.takes takes) fewer
            have split := took.roomFor_append rest
            rw [← cut] at split
            refine ⟨s', ?_, by rw [split]; exact took.trans took'⟩
            simp only [writeAll, accepted]
            rw [split, room, cut, List.drop_left, wrote, took.refused]
            simp only [List.append_right_inj]

end Sink

namespace Frame

variable {payload : Bytes} {payloads : List Bytes}

/-- The frames of those payloads that fit into one, as they are to be written. -/
def stream (payloads : List Bytes) : Bytes := (payloads.filter fits).flatMap encode

theorem write_oversized {s : Sink} (large : fits payload = false) :
    write payload s = (.error (tooLarge payload.length), s) := by
  rw [write, large]
  rfl

/-- Of a frame the sink takes what it has room for, and the frame is flushed if this is all of
it. -/
theorem write_takes {s : Sink} (takes : s.chunk ≠ some 0) (fit : fits payload = true) :
    ∃ s', write payload s =
        (if s.roomFor (encode payload) = encode payload then s.flush.mapError .io
          else .error (.io s.refused), s') ∧
      s.Took (s.roomFor (encode payload)) s' := by
  have four := length_header payload.length
  obtain ⟨between, wrote, took⟩ := Sink.writeAll_takes takes (Nat.le_of_eq four)
  by_cases room : s.roomFor (header payload.length) = header payload.length
  · rw [if_pos room] at wrote
    obtain ⟨s', wrote', took'⟩ :=
      Sink.writeAll_takes (took.takes takes) (Nat.le_refl payload.length)
    have split := took.roomFor_append payload
    rw [room] at split took
    rw [← encode] at split
    have whole : s.Took (s.roomFor (encode payload)) s' := by
      rw [split]
      exact took.trans took'
    have same :
        between.roomFor payload = payload ↔ s.roomFor (encode payload) = encode payload := by
      rw [split]
      exact (List.append_right_inj _).symm
    refine ⟨s', ?_, whole⟩
    simp only [write, fit, Bool.not_true, Bool.false_eq_true, if_false, wrote, wrote', same]
    by_cases room' : s.roomFor (encode payload) = encode payload
    · simp only [if_pos room', whole.flush]
    · simp only [if_neg room', took.refused]
  · rw [if_neg room] at wrote
    have nothing := Sink.roomFor_append_short room payload
    rw [← encode] at nothing
    have cut : s.roomFor (encode payload) ≠ encode payload := by
      intro whole
      apply room
      rw [Sink.roomFor_eq_self] at whole ⊢
      intro size there
      exact Nat.le_trans (by simp [encode]) (whole size there)
    refine ⟨between, ?_, by rw [nothing]; exact took⟩
    rw [if_neg cut]
    simp only [write, fit, Bool.not_true, Bool.false_eq_true, if_false, wrote]

/-! ### Payload after payload -/

theorem stream_append (front back : List Bytes) :
    stream (front ++ back) = stream front ++ stream back := by
  rw [stream, List.filter_append, List.flatMap_append]
  rfl

theorem stream_fits (fit : fits payload = true) : stream [payload] = encode payload := by
  rw [stream, List.filter_cons_of_pos fit]
  exact List.append_nil _

theorem stream_oversized (large : fits payload = false) : stream [payload] = [] := by
  simp [stream, large]

/-- Each payload is written to the sink that those before it leave. -/
theorem writeEach_append (front back : List Bytes) (s : Sink) :
    writeEach (front ++ back) s =
      ((writeEach front s).1 ++ (writeEach back (writeEach front s).2).1,
        (writeEach back (writeEach front s).2).2) := by
  induction front generalizing s with
  | nil => rfl
  | cons payload front ih => simp only [List.cons_append, writeEach, ih]

theorem length_writeEach (payloads : List Bytes) (s : Sink) :
    (writeEach payloads s).1.length = payloads.length := by
  induction payloads generalizing s with
  | nil => rfl
  | cons payload payloads ih => simp only [writeEach, List.length_cons, ih]

theorem writeEach_at (front : List Bytes) (payload : Bytes) (back : List Bytes) (s : Sink) :
    (writeEach (front ++ payload :: back) s).1[front.length]? =
      some (write payload (writeEach front s).2).1 := by
  rw [writeEach_append, List.getElem?_append_right (Nat.le_of_eq (length_writeEach front s)),
    length_writeEach, Nat.sub_self]
  rfl

/-- Of all the frames together the sink takes what it has room for. -/
theorem writeEach_takes {s : Sink} (takes : s.chunk ≠ some 0) (payloads : List Bytes) :
    s.Took (s.roomFor (stream payloads)) (writeEach payloads s).2 := by
  induction payloads generalizing s with
  | nil =>
      rw [stream, List.filter_nil, List.flatMap_nil, Sink.roomFor_nil]
      exact .none s
  | cons payload payloads ih =>
      rw [← List.singleton_append, stream_append]
      simp only [List.singleton_append, writeEach]
      cases fit : fits payload with
      | false =>
          rw [stream_oversized fit, write_oversized fit]
          exact ih takes
      | true =>
          obtain ⟨s', wrote, took⟩ := write_takes takes fit
          rw [stream_fits fit, took.roomFor_append, wrote]
          exact took.trans (ih (took.takes takes))

/-- A payload that fits into a frame succeeds if there is room for its frame behind those before
it. -/
theorem writeEach_verdict {s : Sink} {capacity : Nat} (takes : s.chunk ≠ some 0)
    (limited : s.room = some capacity) (front : List Bytes) (fit : fits payload = true)
    (back : List Bytes) :
    (writeEach (front ++ payload :: back) s).1[front.length]? =
      some (if (stream (front ++ [payload])).length ≤ capacity then s.flush.mapError .io
        else .error (.io s.refused)) := by
  have took := writeEach_takes takes front
  obtain ⟨s', wrote, _⟩ := write_takes (took.takes takes) fit
  -- A frame is never empty, so it finds no room in a sink that is full.
  have something : 0 < (encode payload).length := by
    rw [length_encode]
    exact Nat.succ_pos _
  have room : (writeEach front s).2.roomFor (encode payload) = encode payload ↔
      (stream (front ++ [payload])).length ≤ capacity := by
    rw [Sink.roomFor_eq_self, took.room, limited, stream_append, stream_fits fit,
      List.length_append]
    simp only [Option.map_some, Option.mem_some_iff, forall_eq', Sink.roomFor, limited,
      Option.elim_some, List.length_take]
    omega
  rw [writeEach_at, wrote, took.flush, took.refused]
  simp only [room]

/-- What a sink of limited room holds in the end is the front of the frames of all payloads that fit
into one. An oversized payload is refused without a trace. A payload that fits succeeds just when
the room suffices for its frame behind those before it; once it does not, no later one succeeds
either, and where it does but the flush fails, the payload fails with all of its frame written. -/
theorem written_within_room {s : Sink} {capacity : Nat} (takes : s.chunk ≠ some 0)
    (limited : s.room = some capacity) (payloads : List Bytes) :
    (writeEach payloads s).2.written = s.written ++ (stream payloads).take capacity ∧
    ∀ front payload back, payloads = front ++ payload :: back →
      let result := (writeEach payloads s).1[front.length]?
      let needed := (stream (front ++ [payload])).length
      (Settings.maxFrameSize < payload.length →
        result = some (.error (tooLarge payload.length)) ∧
          (writeEach (front ++ [payload]) s).2 = (writeEach front s).2) ∧
      (payload.length ≤ Settings.maxFrameSize → capacity < needed →
        result = some (.error (.io s.refused)) ∧
          ∀ middle later rest, back = middle ++ later :: rest →
            later.length ≤ Settings.maxFrameSize →
            (writeEach payloads s).1[(front ++ payload :: middle).length]? =
              some (.error (.io s.refused))) ∧
      (payload.length ≤ Settings.maxFrameSize → needed ≤ capacity →
        (s.flushFailure = none → result = some (.ok ())) ∧
          ∀ failure, s.flushFailure = some failure → result = some (.error (.io failure)) ∧
            (writeEach (front ++ [payload]) s).2.written =
              s.written ++ stream (front ++ [payload])) := by
  have written (payloads : List Bytes) :
      (writeEach payloads s).2.written = s.written ++ (stream payloads).take capacity := by
    rw [(writeEach_takes takes payloads).written, Sink.roomFor, limited]
    rfl
  refine ⟨written payloads, ?_⟩
  rintro front payload back rfl result needed
  refine ⟨?_, ?_, ?_⟩
  · intro large
    have large : fits payload = false := decide_eq_false (Nat.not_le.mpr large)
    have refused := writeEach_at front payload back s
    rw [write_oversized large] at refused
    refine ⟨refused, ?_⟩
    rw [writeEach_append]
    simp only [writeEach, write_oversized large]
  · intro fit short
    have verdict := writeEach_verdict takes limited front (decide_eq_true fit) back
    rw [if_neg (Nat.not_le.mpr short)] at verdict
    refine ⟨verdict, ?_⟩
    rintro middle later rest rfl fit'
    have behind := writeEach_verdict takes limited (front ++ payload :: middle)
      (decide_eq_true fit') rest
    have longer : needed ≤ (stream (front ++ payload :: middle ++ [later])).length := by
      have split : front ++ payload :: middle ++ [later] =
          (front ++ [payload]) ++ (middle ++ [later]) := by simp
      rw [split, stream_append (front ++ [payload]), List.length_append]
      exact Nat.le_add_right ..
    rw [if_neg (Nat.not_le.mpr (Nat.lt_of_lt_of_le short longer))] at behind
    rwa [List.append_assoc, List.cons_append] at behind
  · intro fit room
    have verdict := writeEach_verdict takes limited front (decide_eq_true fit) back
    rw [if_pos room] at verdict
    refine ⟨?_, ?_⟩
    · intro works
      rwa [Sink.flush, works] at verdict
    · intro failure fails
      rw [Sink.flush, fails] at verdict
      refine ⟨verdict, ?_⟩
      rw [written, List.take_of_length_le room]

/-- A sink of ten bytes that takes three at once. The first payload's frame and an empty one's fill
it, an oversized payload between them takes no room, and the last one finds none. -/
theorem tenBytes_refuse_third :
    let s : Sink := { chunk := some 3, room := some 10 }
    let large := List.replicate (Settings.maxFrameSize + 1) 7
    s.chunk ≠ some 0 ∧
      (writeEach [[1, 2], large, [], [3]] s).2.written = [0, 0, 0, 2, 1, 2, 0, 0, 0, 0] ∧
      (writeEach [[1, 2], large, [], [3]] s).1[1]? =
        some (.error (tooLarge (Settings.maxFrameSize + 1))) ∧
      (writeEach [[1, 2], large, [], [3]] s).1[2]? = some (.ok ()) ∧
      (writeEach [[1, 2], large, [], [3]] s).1[3]? = some (.error (.io Sink.nothingTaken)) := by
  intro s large
  have takes : s.chunk ≠ some 0 := by decide
  have length : large.length = Settings.maxFrameSize + 1 := List.length_replicate
  have oversized : fits large = false := decide_eq_false (by omega)
  have skipped (front back : List Bytes) : stream (front ++ large :: back) =
      stream (front ++ back) := by
    rw [stream_append, ← List.singleton_append, stream_append, stream_oversized oversized,
      List.nil_append, stream_append]
  have frames : stream [[1, 2], large, [], [3]] = stream [[1, 2], [], [3]] :=
    skipped [[1, 2]] [[], [3]]
  obtain ⟨written, verdicts⟩ := written_within_room takes rfl [[1, 2], large, [], [3]]
  rw [frames] at written
  have second := (verdicts [[1, 2]] large [[], [3]] rfl).1 (by omega)
  have full : (stream [[1, 2], large, []]).length = 10 :=
    congrArg List.length (skipped [[1, 2]] [[]])
  have beyond : (stream [[1, 2], large, [], [3]]).length = 15 := congrArg List.length frames
  have third := (verdicts [[1, 2], large] [] [[3]] rfl).2.2 (by decide) (Nat.le_of_eq full)
  have last := (verdicts [[1, 2], large, []] [3] [] rfl).2.1 (by decide)
    (Nat.lt_of_lt_of_eq (by decide) beyond.symm)
  rw [length] at second
  exact ⟨takes, written, second.1, third.1 rfl, last.1⟩

end Frame

end EventClient
