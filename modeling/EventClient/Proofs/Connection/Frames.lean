import EventClient.Proofs.Frame
import EventClient.Transport.Connection

/-!
The frames at the start of a stream. A connection that keeps what has arrived, and a source that is
read frame by frame, find the same payloads, however the stream is cut into pieces.
-/
namespace EventClient

namespace Connection

/-- A frame has arrived just when its encoding is at the front. -/
theorem arrival_frame {stream payload rest : Bytes} :
    arrival stream = .frame payload rest ↔
      Frame.fits payload = true ∧ stream = Frame.encode payload ++ rest := by
  constructor
  · intro arrived
    simp only [arrival] at arrived
    split at arrived
    · cases arrived
    · next long =>
        split at arrived
        · cases arrived
        · next fits =>
            split at arrived
            · cases arrived
            · next whole =>
                cases arrived
                have four : (stream.take 4).length = 4 := List.length_take_of_le (by omega)
                have size : ((stream.drop 4).take (Frame.announced (stream.take 4))).length =
                    Frame.announced (stream.take 4) := List.length_take_of_le (by omega)
                refine ⟨decide_eq_true (by omega), ?_⟩
                rw [Frame.encode, size, Frame.header_announced four, List.append_assoc,
                  List.take_append_drop, List.take_append_drop]
  · rintro ⟨fits, rfl⟩
    have header := Frame.length_header payload.length
    have front : (Frame.encode payload ++ rest).take 4 = Frame.header payload.length := by
      rw [Frame.encode, List.append_assoc, List.take_left' header]
    have back : (Frame.encode payload ++ rest).drop 4 = payload ++ rest := by
      rw [Frame.encode, List.append_assoc, List.drop_left' header]
    have long : ¬ (Frame.encode payload ++ rest).length < 4 := by simp [Frame.encode, header]
    simp only [arrival]
    rw [if_neg long, front, back, Frame.announced_encode fits,
      if_neg (Nat.not_lt.mpr (Frame.length_le_of_fits fits)), if_neg (by simp),
      List.take_left, List.drop_left]

/-- An oversized length stays one whatever comes behind it. -/
theorem arrival_oversized_append {stream : Bytes} (h : arrival stream = .oversized)
    (more : Bytes) : arrival (stream ++ more) = .oversized := by
  simp only [arrival] at h
  split at h
  · cases h
  · next long =>
      split at h
      · next large =>
          have front : (stream ++ more).take 4 = stream.take 4 :=
            List.take_append_of_le_length (by omega)
          simp only [arrival, front]
          rw [if_neg (by rw [List.length_append]; omega), if_pos large]
      · split at h <;> cases h

end Connection

namespace Frame

open Connection (arrival arrival_frame)

theorem endInHeader_ne (failure : Option IoError) (payload : Bytes) :
    endInHeader failure ≠ .frame payload := by
  cases failure with
  | none => nofun
  | some failure =>
      simp only [endInHeader]
      split <;> nofun

/-- How reading stops where no frame is at the front, and which bytes it leaves. -/
inductive Stops (failure : Option IoError) (behind : Bytes) : Outcome → Bytes → Prop where
  | inHeader (short : behind.length < 4) : Stops failure behind (endInHeader failure) []
  /-- Of an oversized frame only the four bytes of its length are taken. -/
  | oversized (long : 4 ≤ behind.length)
      (large : Settings.maxFrameSize < announced (behind.take 4)) :
      Stops failure behind (.failed (tooLarge (announced (behind.take 4)))) (behind.drop 4)
  | inPayload (long : 4 ≤ behind.length)
      (legal : announced (behind.take 4) ≤ Settings.maxFrameSize)
      (cut : (behind.drop 4).length < announced (behind.take 4)) :
      Stops failure behind (.failed (.io (failure.getD cutShort))) []

namespace Stops

variable {failure : Option IoError} {behind rest rest' : Bytes} {outcome outcome' : Outcome}

theorem no_frame (stops : Stops failure behind outcome rest) (payload left : Bytes) :
    arrival behind ≠ .frame payload left := by
  simp only [arrival]
  cases stops with
  | inHeader short =>
      rw [if_pos short]
      nofun
  | oversized long large =>
      rw [if_neg (Nat.not_lt.mpr long), if_pos large]
      nofun
  | inPayload long legal cut =>
      rw [if_neg (Nat.not_lt.mpr long), if_neg (Nat.not_lt.mpr legal), if_pos cut]
      nofun

theorem ne_frame (stops : Stops failure behind outcome rest) (payload : Bytes) :
    outcome ≠ .frame payload := by
  cases stops with
  | inHeader => exact endInHeader_ne failure payload
  | oversized | inPayload => nofun

theorem unique (stops : Stops failure behind outcome rest)
    (stops' : Stops failure behind outcome' rest') : outcome = outcome' ∧ rest = rest' := by
  cases stops with
  | inHeader short =>
      cases stops' with
      | inHeader => exact ⟨rfl, rfl⟩
      | oversized | inPayload => omega
  | oversized long large =>
      cases stops' with
      | oversized => exact ⟨rfl, rfl⟩
      | inHeader | inPayload => omega
  | inPayload long legal cut =>
      cases stops' with
      | inPayload => exact ⟨rfl, rfl⟩
      | inHeader | oversized => omega

end Stops

/-- Reading takes the frame that has arrived, or it stops. -/
theorem read_cases (s : Source) :
    (∃ payload, arrival s.rest = .frame payload (read s).2.rest ∧ (read s).1 = .frame payload) ∨
      Stops s.failure s.rest (read s).1 (read s).2.rest := by
  by_cases short : s.rest.length < 4
  · right
    simp only [read, Source.take_short short]
    exact .inHeader short
  · have long := Nat.not_lt.mp short
    obtain ⟨behind, took, left, failure⟩ := Source.take_full long
    by_cases large : Settings.maxFrameSize < announced (s.rest.take 4)
    · right
      simp only [read, took, if_pos large, left]
      exact .oversized long large
    · by_cases cut : behind.rest.length < announced (s.rest.take 4)
      · right
        simp only [read, took, if_neg large, Source.take_short cut, failure]
        exact .inPayload long (Nat.not_lt.mp large) (left ▸ cut)
      · left
        obtain ⟨last, took', left', _⟩ := Source.take_full (Nat.not_lt.mp cut)
        simp only [read, took, if_neg large, took']
        refine ⟨_, ?_, rfl⟩
        rw [left', left]
        simp only [arrival]
        rw [if_neg short, if_neg large, if_neg (left ▸ cut)]

theorem read_frame {s : Source} {payload rest : Bytes} (h : arrival s.rest = .frame payload rest) :
    ∃ s', read s = (.frame payload, s') ∧ s'.rest = rest := by
  rcases read_cases s with ⟨payload', arrived, outcome⟩ | stops
  · cases h.symm.trans arrived
    exact ⟨(read s).2, Prod.ext outcome rfl, rfl⟩
  · exact (stops.no_frame payload rest h).elim

theorem read_stops {s : Source} (h : ∀ payload rest, arrival s.rest ≠ .frame payload rest) :
    Stops s.failure s.rest (read s).1 (read s).2.rest := by
  rcases read_cases s with ⟨payload, arrived, _⟩ | stops
  · exact (h payload _ arrived).elim
  · exact stops

/-- The payloads of the complete frames at the start of a stream, up to an oversized one. -/
def complete (stream : Bytes) : List Bytes :=
  (readAll (stream.length + 1) { pieces := [stream] }).1

theorem readAll_frame {s s' : Source} {payload : Bytes} (found : read s = (.frame payload, s'))
    (steps : Nat) : (readAll (steps + 1) s).1 = payload :: (readAll steps s').1 := by
  rw [readAll, found]

theorem readAll_stop {s : Source} (none : ∀ payload rest, arrival s.rest ≠ .frame payload rest)
    (steps : Nat) : readAll (steps + 1) s = ([], read s) := by
  have stops := read_stops none
  cases found : read s with
  | mk outcome left =>
  rw [found] at stops
  rw [readAll, found]
  cases outcome with
  | frame payload => exact (stops.ne_frame payload rfl).elim
  | ended | failed => rfl

/-- What is read depends on the bytes alone, once the steps suffice. The induction is on the steps
of the one reading; each frame is at least as long as its header. -/
theorem readAll_congr {steps steps' : Nat} {s s' : Source} (same : s.rest = s'.rest)
    (enough : s.rest.length < steps) (enough' : s.rest.length < steps') :
    (readAll steps s).1 = (readAll steps' s').1 := by
  induction steps generalizing steps' s s' with
  | zero => cases enough
  | succ steps ih =>
      cases steps' with
      | zero => cases enough'
      | succ steps' =>
          by_cases arrived : ∃ payload rest, arrival s.rest = .frame payload rest
          · obtain ⟨payload, rest, arrived⟩ := arrived
            obtain ⟨behind, found, left⟩ := read_frame arrived
            obtain ⟨behind', found', left'⟩ := read_frame (same ▸ arrived)
            have shorter : s.rest.length = payload.length + 4 + rest.length := by
              rw [(arrival_frame.mp arrived).2, List.length_append, length_encode]
            have fewer : behind.rest.length < steps ∧ behind.rest.length < steps' := by
              rw [left]
              omega
            rw [readAll_frame found, readAll_frame found',
              ih (left.trans left'.symm) fewer.1 fewer.2]
          · have none : ∀ payload rest, arrival s.rest ≠ .frame payload rest :=
              fun payload rest h => arrived ⟨payload, rest, h⟩
            rw [readAll_stop none, readAll_stop (same ▸ none)]

theorem readAll_eq_complete {steps : Nat} {s : Source} (enough : s.rest.length < steps) :
    (readAll steps s).1 = complete s.rest :=
  readAll_congr (by simp [Source.rest]) enough (Nat.lt_succ_self _)

/-- Of a stream without a frame at its start nothing is read. -/
theorem complete_stop {stream : Bytes}
    (none : ∀ payload rest, arrival stream ≠ .frame payload rest) : complete stream = [] :=
  congrArg Prod.fst (readAll_stop (by simpa [Source.rest] using none) stream.length)

theorem complete_encode {payload : Bytes} (fits : fits payload = true) (rest : Bytes) :
    complete (encode payload ++ rest) = payload :: complete rest := by
  have arrived : arrival (Source.rest { pieces := [encode payload ++ rest] }) =
      .frame payload rest := by
    simpa [Source.rest] using arrival_frame.mpr ⟨fits, rfl⟩
  obtain ⟨behind, found, left⟩ := read_frame arrived
  have enough : behind.rest.length < (encode payload ++ rest).length := by
    rw [left, List.length_append, length_encode]
    omega
  rw [complete, readAll_frame found, readAll_eq_complete enough, left]

theorem complete_append {payloads : List Bytes} (fit : ∀ payload ∈ payloads, fits payload = true)
    (rest : Bytes) : complete (payloads.flatMap encode ++ rest) = payloads ++ complete rest := by
  induction payloads with
  | nil => rfl
  | cons payload payloads ih =>
      rw [List.flatMap_cons, List.append_assoc, complete_encode (fit payload List.mem_cons_self),
        ih fun p member => fit p (List.mem_cons_of_mem _ member), List.cons_append]

end Frame

end EventClient
