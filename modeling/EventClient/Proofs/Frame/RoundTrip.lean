import EventClient.Proofs.Connection.Frames
import EventClient.Proofs.Frame.Writing

/-!
Frames written and read back. What a sink takes is what it is offered, in pieces of its own size and
as far as it has room, and a source gives its bytes whatever the size of the pieces they arrive in.
-/
namespace EventClient

namespace Sink

/-- The sink takes something of all it is offered, and has room for that many bytes. -/
structure Holds (s : Sink) (size : Nat) : Prop where
  takes : s.chunk ≠ some 0
  room : ∀ room ∈ s.room, size ≤ room

theorem Took.holds {s s' : Sink} {front : Bytes} {size : Nat} (took : s.Took front s')
    (holds : s.Holds (front.length + size)) : s'.Holds size := by
  rw [took.settings]
  refine ⟨holds.takes, ?_⟩
  intro room left
  obtain ⟨before, some, rfl⟩ := Option.map_eq_some_iff.mp left
  have enough := holds.room before some
  omega

theorem Holds.front {s : Sink} {size more : Nat} (holds : s.Holds (size + more)) : s.Holds size :=
  ⟨holds.takes, fun room there => Nat.le_trans (Nat.le_add_right ..) (holds.room room there)⟩

end Sink

namespace Source

theorem flatten_chunks {size steps : Nat} {bytes : Bytes} (positive : 0 < size)
    (enough : bytes.length ≤ steps) : (chunks size steps bytes).flatten = bytes := by
  induction steps generalizing bytes with
  | zero => exact (List.eq_nil_of_length_eq_zero (Nat.le_zero.mp enough)).symm
  | succ steps ih =>
      simp only [chunks]
      split
      · next none => simpa [Nat.ne_of_gt positive] using none.symm
      · have fewer : (bytes.drop size).length ≤ steps := by
          rw [List.length_drop]
          omega
        rw [List.flatten_cons, ih fewer, List.take_append_drop]

theorem rest_ofBytes {chunk : Option Nat} (positive : chunk ≠ some 0) (bytes : Bytes)
    (failure : Option IoError) : (ofBytes bytes chunk failure).rest = bytes := by
  cases chunk with
  | none => exact List.flatten_singleton
  | some size =>
      have positive : 0 < size := Nat.pos_of_ne_zero fun zero => positive (zero ▸ rfl)
      exact flatten_chunks positive (Nat.le_refl _)

end Source

namespace Frame

variable {payload : Bytes} {payloads : List Bytes}

/-- A frame that there is room for is taken as a whole. -/
theorem write_took {s : Sink} (fit : fits payload = true) (holds : s.Holds (encode payload).length)
    (flushes : s.flushFailure = none) :
    ∃ s', write payload s = (.ok (), s') ∧ s.Took (encode payload) s' := by
  obtain ⟨s', wrote, took⟩ := write_takes holds.takes fit
  have whole := Sink.roomFor_eq_self.mpr holds.room
  rw [if_pos whole, Sink.flush, flushes] at wrote
  rw [whole] at took
  exact ⟨s', wrote, took⟩

theorem writeEach_took {s : Sink} (fit : ∀ payload ∈ payloads, fits payload = true)
    (holds : s.Holds (payloads.flatMap encode).length) (flushes : s.flushFailure = none) :
    ∃ s', writeEach payloads s = (payloads.map fun _ => .ok (), s') ∧
      s.Took (payloads.flatMap encode) s' := by
  induction payloads generalizing s with
  | nil => exact ⟨s, rfl, .none s⟩
  | cons payload payloads ih =>
      rw [List.flatMap_cons, List.length_append] at holds
      obtain ⟨between, wrote, took⟩ :=
        write_took (fit payload List.mem_cons_self) holds.front flushes
      obtain ⟨s', wrote', took'⟩ := ih (fun p there => fit p (List.mem_cons_of_mem _ there))
        (took.holds holds) (took.flushFailure.trans flushes)
      exact ⟨s', by simp only [writeEach, wrote, wrote', List.map_cons], took.trans took'⟩

/-- How a stream ends is not touched by reading from it. -/
theorem read_failure (s : Source) : (read s).2.failure = s.failure := by
  have kept {size : Nat} {s s' : Source} {bytes : Bytes} (took : s.take size = .full bytes s') :
      s'.failure = s.failure := by
    simp only [Source.take] at took
    split at took <;> cases took
    rfl
  simp only [read]
  cases took : s.take 4 with
  | short failure => rfl
  | full header behind =>
      have first : behind.failure = s.failure := kept took
      dsimp only
      split
      · exact first
      · cases took' : behind.take (announced header) with
        | short failure => exact first
        | full payload last => exact (kept took').trans first

/-- At the end of a stream nothing more is read, whatever the steps. -/
theorem readAll_end {s : Source} (nothing : s.rest = []) (steps : Nat) :
    readAll (steps + 1) s = ([], endInHeader s.failure, s.drained) := by
  have short : s.rest.length < 4 := by simp [nothing]
  have none (payload rest : Bytes) : Connection.arrival s.rest ≠ .frame payload rest :=
    (Stops.inHeader short : Stops s.failure _ _ _).no_frame payload rest
  rw [readAll_stop none, read, Source.take_short short]

/-- As many readings as there are frames take these frames and nothing else. -/
theorem readAll_through {s : Source} {rest : Bytes}
    (fit : ∀ payload ∈ payloads, fits payload = true)
    (frames : s.rest = payloads.flatMap encode ++ rest) :
    ∃ last : Source, last.rest = rest ∧ last.failure = s.failure ∧ ∀ steps,
      readAll (payloads.length + steps) s =
        (payloads ++ (readAll steps last).1, (readAll steps last).2) := by
  induction payloads generalizing s with
  | nil =>
      refine ⟨s, frames, rfl, fun steps => ?_⟩
      rw [List.length_nil, Nat.zero_add, List.nil_append]
  | cons payload payloads ih =>
      rw [List.flatMap_cons, List.append_assoc] at frames
      have arrived := Connection.arrival_frame.mpr ⟨fit payload List.mem_cons_self, frames⟩
      obtain ⟨behind, found, left⟩ := read_frame arrived
      obtain ⟨last, left', same, through⟩ :=
        ih (fun p there => fit p (List.mem_cons_of_mem _ there)) left
      have same' : behind.failure = s.failure := by
        rw [← read_failure s, found]
      refine ⟨last, left', same.trans same', fun steps => ?_⟩
      rw [List.length_cons, Nat.add_right_comm, readAll, found]
      simp only [through steps, List.cons_append]

/-- Payloads that fit into frames are written as one frame each, and read back in order: as many
readings as there are payloads leave no byte, and the next one finds the end. The sizes of the
pieces on either side do not matter. -/
theorem written_read_back (fit : ∀ payload ∈ payloads, payload.length ≤ Settings.maxFrameSize)
    {writeChunk readChunk : Nat} (writes : 0 < writeChunk) (reads : 0 < readChunk) :
    ∃ sink : Sink,
      writeEach payloads { chunk := some writeChunk } = (payloads.map fun _ => .ok (), sink) ∧
      sink.written = payloads.flatMap encode ∧
      let source := Source.ofBytes sink.written (some readChunk) none
      (readAll payloads.length source).1 = payloads ∧
      (readAll payloads.length source).2.2.rest = [] ∧
      ∀ steps, payloads.length < steps →
        readAll steps source = (payloads, .ended, { pieces := [] }) := by
  have fit : ∀ payload ∈ payloads, fits payload = true :=
    fun payload there => decide_eq_true (fit payload there)
  have chunked {size : Nat} (positive : 0 < size) : some size ≠ some 0 :=
    fun zero => Nat.ne_of_gt positive (Option.some.inj zero)
  have holds : Sink.Holds { chunk := some writeChunk } (payloads.flatMap encode).length :=
    ⟨chunked writes, nofun⟩
  obtain ⟨sink, wrote, took⟩ := writeEach_took fit holds rfl
  have frames : sink.written = payloads.flatMap encode := took.written
  refine ⟨sink, wrote, frames, ?_⟩
  intro source
  have whole : source.rest = payloads.flatMap encode ++ [] := by
    rw [Source.rest_ofBytes (chunked reads), frames, List.append_nil]
  obtain ⟨last, nothing, same, through⟩ := readAll_through fit whole
  have clean : last.failure = none := same
  have all : readAll payloads.length source = (payloads, .ended, last) := by
    have here := through 0
    rwa [readAll, List.append_nil] at here
  refine ⟨by rw [all], by rw [all]; exact nothing, ?_⟩
  intro steps enough
  obtain ⟨more, rfl⟩ := Nat.exists_eq_add_of_lt enough
  rw [Nat.add_assoc, through, readAll_end nothing, Source.drained, clean, List.append_nil]
  rfl

/-- A run with the empty payload and the longest one, whose headers are cut by both sizes. -/
theorem longest_read_back :
    ∃ sink : Sink,
      writeEach [[], List.replicate Settings.maxFrameSize 7, [1]] { chunk := some 3 } =
        ([.ok (), .ok (), .ok ()], sink) ∧
      ∀ steps, 3 < steps →
        readAll steps (Source.ofBytes sink.written (some 1) none) =
          ([[], List.replicate Settings.maxFrameSize 7, [1]], .ended, { pieces := [] }) := by
  have fit : ∀ payload ∈ [[], List.replicate Settings.maxFrameSize (7 : UInt8), [1]],
      payload.length ≤ Settings.maxFrameSize := by
    intro payload there
    simp only [List.mem_cons, List.not_mem_nil, or_false] at there
    obtain rfl | rfl | rfl := there
    · exact Nat.zero_le _
    · exact Nat.le_of_eq List.length_replicate
    · exact Nat.succ_le_of_lt (by decide)
  obtain ⟨sink, wrote, _, _, _, ended⟩ :=
    written_read_back fit (show 0 < 3 by decide) (show 0 < 1 by decide)
  exact ⟨sink, wrote, ended⟩

end Frame

end EventClient
