import EventClient.Proofs.Frame.RoundTrip

/-!
Reading from a stream of any bytes. What is read are the frames at its front, as many as there are;
then reading stops within a length, at a length over the limit, or within a payload. None of this
depends on the pieces in which the stream arrives. Only within a length does it go unnoticed that
the stream was cut: its end there is taken for the end of the frames.
-/
namespace EventClient.Frame

open Connection (arrival arrival_frame)

/-! ### The pieces do not matter -/

/-- Two sources with the same bytes and the same end are read alike. -/
theorem read_same {s s' : Source} (bytes : s'.rest = s.rest) (failure : s'.failure = s.failure) :
    (read s').1 = (read s).1 ∧ (read s').2.rest = (read s).2.rest ∧
      (read s').2.failure = (read s).2.failure := by
  have ending : (read s').2.failure = (read s).2.failure := by
    rw [read_failure, read_failure, failure]
  have cases := read_cases s
  have cases' := read_cases s'
  rw [bytes, failure] at cases'
  rcases cases with ⟨payload, arrived, outcome⟩ | stops
  · rcases cases' with ⟨payload', arrived', outcome'⟩ | stops'
    · obtain ⟨rfl, rest⟩ := Connection.Arrival.frame.inj (arrived'.symm.trans arrived)
      exact ⟨outcome'.trans outcome.symm, rest, ending⟩
    · exact (stops'.no_frame _ _ arrived).elim
  · rcases cases' with ⟨payload', arrived', _⟩ | stops'
    · exact (stops.no_frame _ _ arrived').elim
    · obtain ⟨outcome, rest⟩ := stops'.unique stops
      exact ⟨outcome, rest, ending⟩

theorem readAll_same {s s' : Source} (bytes : s'.rest = s.rest) (failure : s'.failure = s.failure)
    (steps : Nat) :
    (readAll steps s').1 = (readAll steps s).1 ∧ (readAll steps s').2.1 = (readAll steps s).2.1 ∧
      (readAll steps s').2.2.rest = (readAll steps s).2.2.rest := by
  induction steps generalizing s s' with
  | zero => exact ⟨rfl, rfl, bytes⟩
  | succ steps ih =>
      have same := read_same bytes failure
      cases found : read s with
      | mk outcome left =>
      cases found' : read s' with
      | mk outcome' left' =>
      rw [found, found'] at same
      dsimp only at same
      obtain ⟨rfl, bytes', failure'⟩ := same
      simp only [readAll, found, found']
      cases outcome' with
      | frame payload =>
          obtain ⟨payloads, ending, rest⟩ := ih bytes' failure'
          exact ⟨congrArg (payload :: ·) payloads, ending, rest⟩
      | ended | failed => exact ⟨rfl, rfl, bytes'⟩

/-! ### The frames at the front -/

/-- Every stream begins with some frames that no other follows. The induction is on its length. -/
theorem exists_front (stream : Bytes) :
    ∃ (payloads : List Bytes) (behind : Bytes), (∀ payload ∈ payloads, fits payload = true) ∧
      stream = payloads.flatMap encode ++ behind ∧
      ∀ payload rest, arrival behind ≠ .frame payload rest := by
  induction length : stream.length using Nat.strongRecOn generalizing stream with
  | ind length' ih =>
      cases arrived : arrival stream with
      | frame payload rest =>
          obtain ⟨fit, front⟩ := arrival_frame.mp arrived
          have shorter : rest.length < length' := by
            rw [← length, front, List.length_append, length_encode]
            omega
          obtain ⟨payloads, behind, fit', whole, none⟩ := ih rest.length shorter rest rfl
          refine ⟨payload :: payloads, behind, List.forall_mem_cons.mpr ⟨fit, fit'⟩, ?_, none⟩
          rw [front, whole, List.flatMap_cons, List.append_assoc]
      | incomplete | oversized =>
          refine ⟨[], stream, nofun, rfl, ?_⟩
          intro payload rest frame
          cases arrived.symm.trans frame

/-- Every frame stands in the stream behind those before it, its length first. -/
theorem frame_at {stream behind : Bytes} {front : List Bytes} {payload : Bytes} {back : List Bytes}
    (fit : fits payload = true)
    (whole : stream = (front ++ payload :: back).flatMap encode ++ behind) :
    let here := stream.drop (front.flatMap encode).length
    announced (here.take 4) = payload.length ∧ (here.drop 4).take payload.length = payload := by
  have four := length_header payload.length
  rw [List.flatMap_append, List.flatMap_cons, encode, List.append_assoc, List.append_assoc,
    List.append_assoc] at whole
  simp only [whole, List.drop_left, List.take_left' four, List.drop_left' four, List.take_left,
    announced_encode fit, true_and]

/-- Reading over and over takes the frames at the front of a stream, as many as there are: each
payload is as long as the length before it says, and writing the payloads gives back exactly the
bytes that they were read from. Then reading stops, at an oversized length behind its four bytes.
Neither the payloads nor the end nor the bytes that are left depend on the pieces in which the
stream arrives. -/
theorem longest_front_read (s : Source) :
    ∃ payloads behind outcome last,
      (∀ payload ∈ payloads, payload.length ≤ Settings.maxFrameSize) ∧
      s.rest = payloads.flatMap encode ++ behind ∧
      (∀ others rest, (∀ payload ∈ others, payload.length ≤ Settings.maxFrameSize) →
        s.rest = others.flatMap encode ++ rest → others <+: payloads) ∧
      (∀ front payload back, payloads = front ++ payload :: back →
        let here := s.rest.drop (front.flatMap encode).length
        announced (here.take 4) = payload.length ∧
          (here.drop 4).take payload.length = payload) ∧
      (∀ sink, sink.Holds (payloads.flatMap encode).length → sink.flushFailure = none →
        ∃ sink', writeEach payloads sink = (payloads.map fun _ => .ok (), sink') ∧
          sink'.written = sink.written ++ s.rest.take (s.rest.length - behind.length)) ∧
      Stops s.failure behind outcome last.rest ∧
      (∀ steps, (readAll steps s).1 = payloads.take steps) ∧
      (∀ steps, payloads.length < steps → readAll steps s = (payloads, outcome, last)) ∧
      ∀ s', s'.rest = s.rest → s'.failure = s.failure → ∀ steps,
        (readAll steps s').1 = (readAll steps s).1 ∧
          (readAll steps s').2.1 = (readAll steps s).2.1 ∧
          (readAll steps s').2.2.rest = (readAll steps s).2.2.rest := by
  obtain ⟨payloads, behind, fit, whole, none⟩ := exists_front s.rest
  obtain ⟨reached, left, same, through⟩ := readAll_through fit whole
  have none' : ∀ payload rest, arrival reached.rest ≠ .frame payload rest := by rwa [left]
  have stops := read_stops none'
  rw [left, same] at stops
  have all (steps : Nat) (enough : payloads.length < steps) :
      readAll steps s = (payloads, read reached) := by
    obtain ⟨more, rfl⟩ := Nat.exists_eq_add_of_lt enough
    rw [Nat.add_assoc, through, readAll_stop none', List.append_nil]
  refine ⟨payloads, behind, (read reached).1, (read reached).2,
    fun payload there => length_le_of_fits (fit payload there), whole, ?_, ?_, ?_, stops, ?_, all,
    fun s' bytes failure => readAll_same bytes failure⟩
  · intro others rest legal whole'
    have legal : ∀ payload ∈ others, fits payload = true :=
      fun payload there => decide_eq_true (legal payload there)
    refine ⟨complete rest, ?_⟩
    rw [← complete_append legal, ← whole', whole, complete_append fit, complete_stop none,
      List.append_nil]
  · rintro front payload back rfl
    exact frame_at (fit payload (by simp)) whole
  · intro sink holds flushes
    obtain ⟨sink', wrote, took⟩ := writeEach_took fit holds flushes
    refine ⟨sink', wrote, ?_⟩
    rw [took.written, whole, List.length_append, Nat.add_sub_cancel, List.take_left]
  · intro steps
    by_cases enough : payloads.length < steps
    · rw [all steps enough, List.take_of_length_le (Nat.le_of_lt enough)]
    · have split : s.rest = (payloads.take steps).flatMap encode ++
          ((payloads.drop steps).flatMap encode ++ behind) := by
        rw [whole, ← List.append_assoc, ← List.flatMap_append, List.take_append_drop]
      obtain ⟨_, _, _, through'⟩ :=
        readAll_through (fun payload there => fit payload (List.mem_of_mem_take there)) split
      have read := through' 0
      rw [List.length_take_of_le (Nat.not_lt.mp enough), Nat.add_zero] at read
      rw [read]
      exact List.append_nil _

/-! ### The end of a stream -/

theorem endInHeader_ended_iff (failure : Option IoError) :
    endInHeader failure = .ended ↔ ∀ failure' ∈ failure, failure'.kind = .unexpectedEnd := by
  cases failure with
  | none => exact ⟨fun _ => nofun, fun _ => rfl⟩
  | some failure => simp [endInHeader]

/-- Reading finds the end of the frames just where fewer bytes are left than a length has and the
stream does not fail, or fails as if it had ended. -/
theorem read_ended_iff (s : Source) :
    (read s).1 = .ended ↔
      s.rest.length < 4 ∧ ∀ failure ∈ s.failure, failure.kind = .unexpectedEnd := by
  have cases := read_cases s
  generalize (read s).1 = outcome at cases ⊢
  generalize (read s).2.rest = left at cases
  rcases cases with ⟨payload, arrived, rfl⟩ | stops
  · have whole := congrArg List.length (arrival_frame.mp arrived).2
    rw [List.length_append, length_encode] at whole
    refine ⟨nofun, ?_⟩
    rintro ⟨short, _⟩
    omega
  · cases stops with
    | inHeader short => rw [endInHeader_ended_iff, and_iff_right short]
    | oversized long | inPayload long =>
        refine ⟨nofun, ?_⟩
        rintro ⟨short, _⟩
        omega

/-- The stream is over within a length: some of its bytes are there or the stream fails, but if it
fails it is with an unexpected end. -/
def CutInLength (s : Source) : Prop :=
  ¬(s.rest = [] ∧ s.failure = none) ∧ s.rest.length < 4 ∧
    ∀ failure ∈ s.failure, failure.kind = .unexpectedEnd

/-- The end of the frames is found where the stream ended with nothing left, and where it was cut
within a length as well. Wherever else no frame is at the front reading fails, and where fewer
bytes are left than a length has it does with the failure of the stream. The pieces in which the
stream arrives change nothing. -/
theorem cut_length_taken_for_end (s : Source) :
    ((read s).1 = .ended ↔ (s.rest = [] ∧ s.failure = none) ∨ CutInLength s) ∧
      ((∃ error, (read s).1 = .failed error) ↔
        ¬((s.rest = [] ∧ s.failure = none) ∨ CutInLength s) ∧
        ∀ payload rest, payload.length ≤ Settings.maxFrameSize →
          s.rest ≠ encode payload ++ rest) ∧
      (∀ failure, s.failure = some failure → s.rest.length < 4 →
        failure.kind ≠ .unexpectedEnd → (read s).1 = .failed (.io failure)) ∧
      ∀ s' : Source, s'.rest = s.rest → s'.failure = s.failure → (read s').1 = (read s).1 := by
  have ended : (read s).1 = .ended ↔ (s.rest = [] ∧ s.failure = none) ∨ CutInLength s := by
    rw [read_ended_iff]
    by_cases clean : s.rest = [] ∧ s.failure = none
    · simp [clean.1, clean.2]
    · simp [CutInLength, clean]
  refine ⟨ended, ?_, ?_, fun s' bytes failure => (read_same bytes failure).1⟩
  · rw [← ended]
    constructor
    · rintro ⟨error, failed⟩
      refine ⟨fun atEnd => ?_, ?_⟩
      · cases failed.symm.trans atEnd
      · intro payload rest legal front
        obtain ⟨_, found, _⟩ := read_frame (arrival_frame.mpr ⟨decide_eq_true legal, front⟩)
        cases failed.symm.trans (congrArg Prod.fst found)
    · rintro ⟨goesOn, none⟩
      have stops := read_stops fun payload rest arrived =>
        none payload rest (length_le_of_fits (arrival_frame.mp arrived).1)
          (arrival_frame.mp arrived).2
      cases outcome : (read s).1 with
      | frame payload => exact (stops.ne_frame payload outcome).elim
      | ended => exact (goesOn outcome).elim
      | failed error => exact ⟨error, rfl⟩
  · intro failure fails short kind
    simp only [read, Source.take_short short, fails, endInHeader, if_neg kind]

/-- Three bytes of a length are taken for the end of the frames, and so is a failure. -/
theorem threeBytes_taken_for_end :
    let cut : Source := { pieces := [[0], [0, 0]] }
    let failing : Source := { pieces := [], failure := some ⟨.unexpectedEnd, "peer gone"⟩ }
    cut.rest = [0, 0, 0] ∧ cut.failure = none ∧ (read cut).1 = .ended ∧
      failing.failure ≠ none ∧ (read failing).1 = .ended := by
  decide

end EventClient.Frame
