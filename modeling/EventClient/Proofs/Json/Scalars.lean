import EventClient.Json.Reader
import EventClient.Proofs.Json.Values

/-!
Texts and numbers are read as they are written. Whatever stands behind a text is left alone; behind
a number no byte may stand that would go on with it.
-/
namespace EventClient.Json

/-! ### Texts -/

theorem takeText_plain {b : UInt8} (quote : b ≠ ascii '"') (backslash : b ≠ ascii '\\')
    (visible : ¬ b < 0x20) (read rest : Bytes) :
    takeText read (b :: rest) = takeText (b :: read) rest := by
  rw [takeText.eq_def]
  simp only [quote, backslash, visible, if_false]

theorem takeText_escape {letter escaped : UInt8} (h : shortEscape? letter = some escaped)
    (read rest : Bytes) :
    takeText read (ascii '\\' :: letter :: rest) = takeText (escaped :: read) rest := by
  rw [takeText.eq_def]
  simp only [show ascii '\\' ≠ ascii '"' by decide, if_false, if_true, h]

/-- A unit that stands for a character on its own. -/
theorem takeText_unit {a b c d : UInt8} {unit : Nat} (h : hexUnit? a b c d = some unit)
    (trailing : isTrailing unit = false) (leading : isLeading unit = false) (read rest : Bytes) :
    takeText read (ascii '\\' :: ascii 'u' :: a :: b :: c :: d :: rest) =
      takeText (pushChar unit read) rest := by
  rw [takeText.eq_def]
  simp only [show ascii '\\' ≠ ascii '"' by decide, if_false, if_true,
    show shortEscape? (ascii 'u') = none by decide, h, trailing, leading, Bool.false_eq_true]

theorem hexUnit?_control : ∀ n < 32,
    hexUnit? (ascii '0') (ascii '0') (hexDigit (n / 16)) (hexDigit (n % 16)) = some n := by
  decide

theorem encodeChar_control : ∀ n < 32, Text.encodeChar (Char.ofNat n) = [n.toUInt8] := by
  decide

theorem takeText_writeByte (b : UInt8) (read rest : Bytes) :
    takeText read (writeByte b rest) = takeText (b :: read) rest := by
  unfold writeByte
  split
  · next h => subst h; exact takeText_escape (by decide) read rest
  · next quote =>
    split
    · next h => subst h; exact takeText_escape (by decide) read rest
    · next backslash =>
      split
      · next visible => exact takeText_plain quote backslash (UInt8.not_lt.mpr visible) read rest
      · next control =>
        have small : b.toNat < 32 := UInt8.lt_iff_toNat_lt.mp (UInt8.not_le.mp control)
        have trailing : isTrailing b.toNat = false := decide_eq_false (by omega)
        have leading : isLeading b.toNat = false := decide_eq_false (by omega)
        have unit := takeText_unit (hexUnit?_control b.toNat small) trailing leading read rest
        split
        · next h => subst h; exact takeText_escape (by decide) read rest
        split
        · next h => subst h; exact takeText_escape (by decide) read rest
        split
        · next h => subst h; exact takeText_escape (by decide) read rest
        split
        · next h => subst h; exact takeText_escape (by decide) read rest
        split
        · next h => subst h; exact takeText_escape (by decide) read rest
        rw [unit, pushChar, encodeChar_control b.toNat small]
        simp

theorem takeText_written (content read rest : Bytes) :
    takeText read (content.foldr writeByte (ascii '"' :: rest)) =
      .ok (read.reverse ++ content, rest) := by
  induction content generalizing read with
  | nil =>
      rw [List.foldr_nil, takeText.eq_def, List.append_nil]
      rfl
  | cons b content ih =>
      rw [List.foldr_cons, takeText_writeByte, ih, List.reverse_cons, List.append_assoc]
      rfl

/-- Behind its opening quote a written text is read back. -/
theorem readText_written (text : String) (rest : Bytes) :
    readText ((Text.bytes text).foldr writeByte (ascii '"' :: rest)) = .ok (text, rest) := by
  rw [readText, takeText_written]
  simp only [List.reverse_nil, List.nil_append, Text.ofBytes?_bytes]

theorem length_writeByte (b : UInt8) (rest : Bytes) :
    rest.length + 1 ≤ (writeByte b rest).length := by
  simp only [writeByte]
  repeat' split
  all_goals simp

/-- A text takes at least the room of its bytes and of two quotes. -/
theorem length_writeText (text : String) (rest : Bytes) :
    (Text.bytes text).length + rest.length + 2 ≤ (writeText text rest).length := by
  have body (content : Bytes) (rest : Bytes) :
      content.length + rest.length ≤ (content.foldr writeByte rest).length := by
    induction content with
    | nil => simp
    | cons b content ih =>
        have longer := length_writeByte b (content.foldr writeByte rest)
        rw [List.foldr_cons, List.length_cons]
        omega
  have quoted := body (Text.bytes text) (ascii '"' :: rest)
  simp only [writeText, List.length_cons] at quoted ⊢
  omega

/-! ### Numbers -/

/-- A number ends before this text. -/
def Ends (rest : Bytes) : Prop :=
  ∀ b ∈ rest.head?, isDigit b = false ∧ b ≠ ascii '.' ∧ isExponentMark b = false

theorem Ends.nil : Ends [] := nofun

theorem Ends.startsWithDigit {rest : Bytes} (h : Ends rest) : startsWithDigit rest = false := by
  cases rest with
  | nil => rfl
  | cons b rest => exact (h b rfl).1

theorem digit_isDigit : ∀ d < 10, isDigit (48 + d).toUInt8 = true := by
  decide

theorem digit_value : ∀ d < 10, digitValue (48 + d).toUInt8 = d := by
  decide

theorem digit_zero : ∀ d < 10, (48 + d).toUInt8 = ascii '0' → d = 0 := by
  decide

theorem takeDigits_ends (significand count : Nat) {rest : Bytes} (h : Ends rest) :
    takeDigits significand count rest = (significand, count, rest) := by
  cases rest with
  | nil => rfl
  | cons b rest =>
      rw [takeDigits, (h b rfl).1]
      rfl

/-- A written number is a digit and the digits behind it, which lead to its value as long as that is
in bounds. The induction is on the number, without its last digit. -/
theorem writeNat_eq (n : Nat) (bound : n < integerBound) (rest : Bytes) :
    ∃ first digits count, writeNat n rest = first :: digits ∧ isDigit first = true ∧
      (first = ascii '0' → n = 0 ∧ digits = rest) ∧
      takeDigits (digitValue first) 0 digits = takeDigits n count rest := by
  induction n using Nat.strongRecOn generalizing rest with
  | ind n ih =>
  rw [writeNat]
  split
  · next small =>
      refine ⟨_, rest, 0, rfl, digit_isDigit n small,
        fun zero => ⟨digit_zero n small zero, rfl⟩, ?_⟩
      rw [digit_value n small]
  · next large =>
      have last : n % 10 < 10 := Nat.mod_lt n (by decide)
      obtain ⟨first, digits, count, written, digit, zero, taken⟩ :=
        ih (n / 10) (by omega) (by omega) ((48 + n % 10).toUInt8 :: rest)
      refine ⟨first, digits, count + 1, written, digit, fun h => ?_, ?_⟩
      · have none := (zero h).1
        omega
      · have whole : n / 10 * 10 + n % 10 = n := by omega
        rw [taken, takeDigits, digit_isDigit _ last, digit_value _ last, whole,
          decide_eq_true bound]
        rfl

theorem readAfterDigits_ends (negative : Bool) (significand : Nat) {rest : Bytes} (h : Ends rest) :
    readAfterDigits negative significand rest = integerOrReal negative significand rest := by
  cases rest with
  | nil => rfl
  | cons b rest =>
      obtain ⟨_, point, mark⟩ := h b rfl
      rw [readAfterDigits, if_neg point, mark]
      rfl

theorem readMagnitude_written (negative : Bool) {n : Nat} (bound : n < integerBound)
    {rest : Bytes} (ends : Ends rest) :
    readMagnitude negative (writeNat n rest) = integerOrReal negative n rest := by
  obtain ⟨first, digits, count, written, digit, zero, taken⟩ := writeNat_eq n bound rest
  rw [written, readMagnitude]
  split
  · next isZero =>
      obtain ⟨rfl, rfl⟩ := zero isZero
      rw [ends.startsWithDigit]
      exact readAfterDigits_ends negative 0 ends
  · rw [taken, takeDigits_ends n count ends]
    dsimp only
    rw [ends.startsWithDigit]
    exact readAfterDigits_ends negative n ends

theorem natAbs_lt_of_isExact {n : Int} (exact : (JsonNumber.integer n).IsExact) :
    n.natAbs < integerBound := by
  obtain ⟨low, high⟩ := exact
  rw [integerBound, UInt64.size]
  omega

/-- An integer of 64 bits is read as it is written. -/
theorem readNumber_written {n : Int} (exact : (JsonNumber.integer n).IsExact) {rest : Bytes}
    (ends : Ends rest) : readNumber (writeInt n rest) = .ok (.integer n, rest) := by
  obtain ⟨low, high⟩ := exact
  have bound := natAbs_lt_of_isExact ⟨low, high⟩
  have magnitude (negative : Bool) := readMagnitude_written negative bound ends
  rw [writeInt]
  split
  · next negative =>
      have whole : -(n.natAbs : Int) = n := by omega
      have positive : 0 < n.natAbs := by omega
      have small : n.natAbs ≤ 9223372036854775808 := by omega
      rw [readNumber, if_pos rfl, magnitude, integerOrReal, decide_eq_true positive,
        decide_eq_true small, whole]
      rfl
  · next natural =>
      have whole : (n.natAbs : Int) = n := by omega
      obtain ⟨first, digits, count, written, digit, _⟩ := writeNat_eq n.natAbs bound rest
      have unsigned : first ≠ ascii '-' := by
        rintro rfl
        cases digit
      have read := magnitude false
      rw [written] at read ⊢
      rw [readNumber, if_neg unsigned, read, integerOrReal, whole]
      rfl

/-- The first byte of an integer. -/
def IsNumeral (b : UInt8) : Prop := b = ascii '-' ∨ isDigit b = true

theorem writeInt_numeral {n : Int} (exact : (JsonNumber.integer n).IsExact) (rest : Bytes) :
    ∃ first text, writeInt n rest = first :: text ∧ IsNumeral first := by
  rw [writeInt]
  split
  · exact ⟨_, _, rfl, .inl rfl⟩
  · obtain ⟨first, digits, _, written, digit, _⟩ :=
      writeNat_eq n.natAbs (natAbs_lt_of_isExact exact) rest
    exact ⟨first, digits, written, .inr digit⟩

theorem IsNumeral.test {b : UInt8} (h : IsNumeral b) :
    (decide (b = ascii '-') || isDigit b) = true := by
  rw [Bool.or_eq_true, decide_eq_true_iff]
  exact h

theorem IsNumeral.ne {b c : UInt8} (h : IsNumeral b) (minus : c ≠ ascii '-')
    (digit : isDigit c = false) : b ≠ c := by
  rintro rfl
  rcases h with h | h
  · exact minus h
  · rw [digit] at h
    cases h

theorem IsNumeral.not_isSpace {b : UInt8} (h : IsNumeral b) : isSpace b = false := by
  simp only [isSpace, Bool.or_eq_false_iff, beq_eq_false_iff_ne]
  exact ⟨⟨⟨h.ne (by decide) (by decide), h.ne (by decide) (by decide)⟩,
    h.ne (by decide) (by decide)⟩, h.ne (by decide) (by decide)⟩

theorem readScalar_numeral {first : UInt8} (h : IsNumeral first) (text : Bytes) :
    readScalar first text = do
      let (value, rest) ← readNumber (first :: text)
      return (.number value, rest) := by
  have null : first ≠ ascii 'n' := h.ne (by decide) (by decide)
  have yes : first ≠ ascii 't' := h.ne (by decide) (by decide)
  have no : first ≠ ascii 'f' := h.ne (by decide) (by decide)
  simp only [readScalar, null, yes, no, if_false, h.test, if_true]

/-! ### Words and spaces -/

theorem skipSpace_cons {b : UInt8} (visible : isSpace b = false) (rest : Bytes) :
    skipSpace (b :: rest) = b :: rest := by
  rw [skipSpace, List.dropWhile_cons, visible]
  rfl

theorem readWord_written (word rest : Bytes) : readWord word (word ++ rest) = .ok rest := by
  induction word with
  | nil => cases rest <;> rfl
  | cons letter word ih => rw [List.cons_append, readWord, if_pos rfl, ih]

theorem readScalar_null (rest : Bytes) :
    readScalar (ascii 'n') (Text.bytes "ull" ++ rest) = .ok (.null, rest) := by
  simp only [readScalar, if_true, readWord_written]
  rfl

theorem readScalar_true (rest : Bytes) :
    readScalar (ascii 't') (Text.bytes "rue" ++ rest) = .ok (.bool true, rest) := by
  simp only [readScalar, show ascii 't' ≠ ascii 'n' by decide, if_false, if_true, readWord_written]
  rfl

theorem readScalar_false (rest : Bytes) :
    readScalar (ascii 'f') (Text.bytes "alse" ++ rest) = .ok (.bool false, rest) := by
  simp only [readScalar, show ascii 'f' ≠ ascii 'n' by decide,
    show ascii 'f' ≠ ascii 't' by decide, if_false, if_true, readWord_written]
  rfl

theorem readScalar_text (text : Bytes) :
    readScalar (ascii '"') text = do
      let (value, rest) ← readText text
      return (.string value, rest) :=
  rfl

end EventClient.Json
