import EventClient.Frame

/-!
Streams and frames. What a source gives depends only on the bytes that are still to come and not on
the pieces in which they arrive, and four bytes of length are read as they were written.
-/
namespace EventClient

namespace Source

/-- Bytes are taken across the pieces; all but their number is left as it was. -/
theorem takeFrom_full {size : Nat} {pieces : List Bytes} (taken : List Bytes)
    (enough : size ≤ pieces.flatten.length) :
    ∃ rest, takeFrom taken size pieces =
        some (taken.reverse.flatten ++ pieces.flatten.take size, rest) ∧
      rest.flatten = pieces.flatten.drop size := by
  induction pieces generalizing taken size with
  | nil =>
      have zero : size = 0 := Nat.le_zero.mp enough
      exact ⟨[], by simp [takeFrom, zero], by simp⟩
  | cons piece pieces ih =>
      simp only [List.flatten_cons, List.length_append] at enough ⊢
      by_cases within : size ≤ piece.length
      · refine ⟨piece.drop size :: pieces, ?_, ?_⟩
        · simp [takeFrom, within, List.take_append_of_le_length]
        · rw [List.flatten_cons, List.drop_append_of_le_length within]
      · have whole : piece.take size = piece := List.take_of_length_le (by omega)
        have none : piece.drop size = [] := List.drop_of_length_le (by omega)
        have enough' : size - piece.length ≤ pieces.flatten.length := by omega
        obtain ⟨rest, took, left⟩ := ih (piece :: taken) enough'
        refine ⟨rest, ?_, ?_⟩
        · simp only [takeFrom, whole]
          rw [if_neg (by omega), took, List.take_append, whole]
          simp
        · rw [left, List.drop_append, none, List.nil_append]

theorem takeFrom_short {size : Nat} {pieces : List Bytes} (taken : List Bytes)
    (few : pieces.flatten.length < size) : takeFrom taken size pieces = none := by
  induction pieces generalizing taken size with
  | nil => exact if_neg (Nat.ne_of_gt few)
  | cons piece pieces ih =>
      simp only [List.flatten_cons, List.length_append] at few
      have whole : piece.take size = piece := List.take_of_length_le (by omega)
      simp only [takeFrom, whole]
      rw [if_neg (by omega)]
      exact ih _ (by omega)

theorem take_full {s : Source} {size : Nat} (enough : size ≤ s.rest.length) :
    ∃ s', s.take size = .full (s.rest.take size) s' ∧ s'.rest = s.rest.drop size ∧
      s'.failure = s.failure := by
  obtain ⟨pieces, took, left⟩ := takeFrom_full [] enough
  refine ⟨{ s with pieces }, ?_, left, rfl⟩
  rw [take, took]
  rfl

theorem take_short {s : Source} {size : Nat} (few : s.rest.length < size) :
    s.take size = .short s.failure := by
  rw [take, takeFrom_short [] few]

end Source

namespace Frame

theorem length_header (size : Nat) : (header size).length = 4 := rfl

theorem length_encode (payload : Bytes) : (encode payload).length = payload.length + 4 := by
  rw [encode, List.length_append, length_header, Nat.add_comm]

theorem announced_header {size : Nat} (small : size < 4294967296) :
    announced (header size) = size := by
  simp only [announced, header, List.foldl_cons, List.foldl_nil, Nat.toUInt8_eq,
    UInt8.toNat_ofNat']
  omega

/-- Only one header announces a size. -/
theorem header_announced {bytes : Bytes} (four : bytes.length = 4) :
    header (announced bytes) = bytes := by
  match bytes, four with
  | [a, b, c, d], _ =>
      have := a.toNat_lt
      have := b.toNat_lt
      have := c.toNat_lt
      have := d.toNat_lt
      simp only [announced, header, List.foldl_cons, List.foldl_nil, Nat.toUInt8_eq,
        List.cons.injEq, and_true, ← UInt8.toNat_inj, UInt8.toNat_ofNat']
      omega

theorem length_le_of_fits {payload : Bytes} (h : fits payload = true) :
    payload.length ≤ Settings.maxFrameSize :=
  of_decide_eq_true h

theorem announced_encode {payload : Bytes} (h : fits payload = true) :
    announced (header payload.length) = payload.length :=
  announced_header (Nat.lt_of_le_of_lt (length_le_of_fits h) (by decide))

end Frame

end EventClient
