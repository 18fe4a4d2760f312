import EventClient.Proofs.Json.Lexemes

/-!
Whatever is read, or passed over, was written: in front of what is left there stands a writing. What
is read of a number only has to be passed over, since every number that is read can be.
-/
namespace EventClient.Json

/-- A result in two steps comes from one of the first. -/
theorem bind_ok {ε α β : Type} {x : Except ε α} {f : α → Except ε β} {b : β}
    (h : x >>= f = .ok b) : ∃ a, x = .ok a ∧ f a = .ok b := by
  cases x with
  | error e => cases h
  | ok a => exact ⟨a, rfl, h⟩

/-! ### Texts -/

/-- A text ends in front of `rest`, from behind its opening quote. -/
def EndsText (text rest : Bytes) : Prop :=
  ∃ content : Content, text = content.bytes ++ ascii '"' :: rest

namespace EndsText

variable {text rest : Bytes}

theorem quote (rest : Bytes) : EndsText (ascii '"' :: rest) rest := ⟨[], rfl⟩

theorem cons (piece : Piece) (h : EndsText text rest) : EndsText (piece.bytes ++ text) rest := by
  obtain ⟨content, rfl⟩ := h
  exact ⟨piece :: content, by rw [Content.bytes_cons, List.append_assoc]⟩

theorem of_takeText {read content : Bytes} (h : takeText read text = .ok (content, rest)) :
    EndsText text rest := by
  fun_induction takeText read text with
  | case2 read text =>
      cases h
      exact quote _
  | case4 read letter text escaped known backslash ih => exact (ih h).cons (.short _ _ known)
  | case13 read a b c d leading hex single isLeading mark letter marked lettered a' b' c' d' text
      trailing hex' isTrailing backslash long ih =>
      rw [ne_eq, Decidable.not_not] at marked lettered
      subst marked lettered
      exact ((ih h).cons (.unit _ _ _ _ _ hex')).cons (.unit _ _ _ _ _ hex)
  | case16 read a b c d text unit hex trailing leading backslash long ih =>
      exact (ih h).cons (.unit _ _ _ _ _ hex)
  | case20 read b text quote backslash visible ih =>
      exact (ih h).cons (.plain b quote backslash visible)
  | _ => cases h

theorem of_skipText (h : skipText text = .ok rest) : EndsText text rest := by
  fun_induction skipText text with
  | case2 text =>
      cases h
      exact quote _
  | case4 letter text known backslash ih =>
      obtain ⟨escaped, known⟩ := Option.isSome_iff_exists.mp known
      exact (ih h).cons (.short _ _ known)
  | case5 a b c d text known backslash long ih =>
      obtain ⟨unit, hex⟩ := Option.isSome_iff_exists.mp known
      exact (ih h).cons (.unit _ _ _ _ _ hex)
  | case10 b text quote backslash visible ih => exact (ih h).cons (.plain b quote backslash visible)
  | _ => cases h

theorem of_readText {value : String} (h : readText text = .ok (value, rest)) :
    EndsText text rest := by
  rw [readText] at h
  split at h
  · cases h
  · next content rest' taken =>
      split at h
      · cases h
        exact of_takeText taken
      · cases h

end EndsText

/-! ### Numbers -/

/-- Digits up to the first byte that is none. -/
theorem exists_digits {first : UInt8} (digit : isDigit first = true) (text : Bytes) :
    ∃ digits : Digits, digits.first = first ∧
      first :: text = digits.bytes ++ text.dropWhile isDigit :=
  ⟨⟨first, text.takeWhile isDigit, digit, List.all_takeWhile⟩, rfl,
    congrArg (first :: ·) List.takeWhile_append_dropWhile.symm⟩

theorem skipExponent_ok {text rest : Bytes} (h : skipExponent text = .ok rest) :
    ∃ (sign : Option UInt8) (digits : Digits), (∀ b ∈ sign, b = ascii '+' ∨ b = ascii '-') ∧
      text = sign.toList ++ (digits.bytes ++ rest) := by
  rw [skipExponent.eq_def] at h
  dsimp only at h
  split at h
  · next b text =>
      split at h
      · next signed =>
          split at h
          · cases h
          · next first text =>
              split at h
              · next digit =>
                  cases h
                  obtain ⟨digits, -, written⟩ := exists_digits digit text
                  refine ⟨some b, digits, ?_, congrArg (b :: ·) written⟩
                  rintro _ ⟨⟩
                  exact signed
              · cases h
      · dsimp only at h
        split at h
        · next digit =>
            cases h
            obtain ⟨digits, -, written⟩ := exists_digits digit text
            exact ⟨none, digits, nofun, written⟩
        · cases h
  · cases h

theorem skipExponentMark_ok {text rest : Bytes} (h : skipExponentMark text = .ok rest) :
    ∃ exponent, text = exponentBytes exponent ++ rest := by
  rw [skipExponentMark.eq_def] at h
  split at h
  · next mark text =>
      split at h
      · next marked =>
          obtain ⟨sign, digits, signed, rfl⟩ := skipExponent_ok h
          refine ⟨some ⟨mark, sign, digits, marked, signed⟩, ?_⟩
          rw [exponentBytes, Exponent.bytes, List.cons_append, List.cons_append, List.append_assoc]
      · cases h
        exact ⟨none, rfl⟩
  · cases h
    exact ⟨none, rfl⟩

theorem skipAfterDigits_ok {text rest : Bytes} (h : skipAfterDigits text = .ok rest) :
    ∃ fraction exponent, text = fractionBytes fraction ++ (exponentBytes exponent ++ rest) := by
  rw [skipAfterDigits.eq_def] at h
  split at h
  · next b text =>
      split at h
      · next point =>
          subst point
          split at h
          · next digits =>
              cases text with
              | nil => cases digits
              | cons first text =>
                  have digit : isDigit first = true := digits
                  rw [List.dropWhile_cons_of_pos digit] at h
                  obtain ⟨digits, -, written⟩ := exists_digits digit text
                  obtain ⟨exponent, behind⟩ := skipExponentMark_ok h
                  refine ⟨some digits, exponent, ?_⟩
                  rw [written, behind, fractionBytes, List.cons_append]
          · cases h
      · obtain ⟨exponent, written⟩ := skipExponentMark_ok h
        exact ⟨none, exponent, written⟩
  · cases h
    exact ⟨none, none, rfl⟩

theorem skipMagnitude_ok {text rest : Bytes} (h : skipMagnitude text = .ok rest) (negative : Bool) :
    ∃ n : Numeral, n.negative = negative ∧ text = n.magnitude ++ rest := by
  rw [skipMagnitude.eq_def] at h
  split at h
  · cases h
  · next first text =>
      split at h
      · next zero =>
          split at h
          · cases h
          · obtain ⟨fraction, exponent, rfl⟩ := skipAfterDigits_ok h
            subst zero
            refine ⟨⟨negative, ⟨ascii '0', [], by decide, rfl⟩, fraction, exponent, fun _ => rfl⟩,
              rfl, ?_⟩
            simp only [Numeral.magnitude, Numeral.tail, Digits.bytes, List.cons_append,
              List.nil_append, List.append_assoc]
      · next zero =>
          split at h
          · next digit =>
              obtain ⟨fraction, exponent, behind⟩ := skipAfterDigits_ok h
              obtain ⟨digits, same, written⟩ := exists_digits digit text
              refine ⟨⟨negative, digits, fraction, exponent, fun h => absurd (same ▸ h) zero⟩,
                rfl, ?_⟩
              rw [written, behind]
              simp only [Numeral.magnitude, Numeral.tail, List.append_assoc]
          · cases h

/-! Numbers that are read -/

theorem dropWhile_other {text : Bytes} (other : startsWithDigit text = false) :
    text.dropWhile isDigit = text :=
  @dropWhile_digits [] rfl text other

/-- Taking digits leaves the other digits and what is behind them. -/
theorem takeDigits_cases (significand count : Nat) (text : Bytes) :
    (takeDigits significand count text).2.2.dropWhile isDigit = text.dropWhile isDigit ∧
      (startsWithDigit text = true ∨
        takeDigits significand count text = (significand, count, text)) := by
  fun_induction takeDigits significand count text with
  | case1 => exact ⟨rfl, .inr rfl⟩
  | case2 significand count b text digit ih =>
      rw [Bool.and_eq_true] at digit
      refine ⟨?_, .inl digit.1⟩
      rw [ih.1, List.dropWhile_cons_of_pos digit.1]
  | case3 => exact ⟨rfl, .inr rfl⟩

theorem takeExponent_cases (value : Nat) (text : Bytes) :
    (takeExponent value text).2.dropWhile isDigit = text.dropWhile isDigit ∧
      ((takeExponent value text).1.isSome →
        startsWithDigit (takeExponent value text).2 = false) := by
  fun_induction takeExponent value text with
  | case1 => exact ⟨rfl, fun _ => rfl⟩
  | case2 value b text digit fits ih =>
      rw [List.dropWhile_cons_of_pos digit]
      exact ih
  | case3 value b text digit large =>
      rw [List.dropWhile_cons_of_pos digit]
      exact ⟨rfl, nofun⟩
  | case4 value b text other => exact ⟨rfl, fun _ => eq_false_of_ne_true other⟩

section
variable {negative : Bool} {significand : Nat} {power : Int} {text rest : Bytes}
  {value : JsonNumber}

theorem toReal_ok (h : toReal negative significand power text = .ok (value, rest)) :
    text = rest := by
  rw [toReal] at h
  split at h
  · cases h
    rfl
  · cases h

theorem dropWhile_of_readPower (down : Bool) (first : UInt8) (text : Bytes)
    (h : readPower negative significand power down first text = .ok (value, rest)) :
    text.dropWhile isDigit = rest := by
  obtain ⟨left, ended⟩ := takeExponent_cases (digitValue first) text
  rw [readPower] at h
  split at h
  · next total text' taken =>
      rw [taken] at left ended
      rw [← left, ← toReal_ok h, dropWhile_other (ended rfl)]
  · next text' taken =>
      rw [taken] at left
      split at h
      · cases h
      · rw [← left, toReal_ok h]

theorem skipExponent_of_read
    (h : readExponent negative significand power text = .ok (value, rest)) :
    skipExponent text = .ok rest := by
  rw [readExponent.eq_def] at h
  dsimp only at h
  split at h
  · next b text =>
      split at h
      · next plus =>
          split at h
          · cases h
          · next first text =>
              split at h
              · next digit =>
                  simp only [skipExponent, plus, true_or, if_true, digit,
                    dropWhile_of_readPower false first text h]
              · cases h
      · next plus =>
          split at h
          · next minus =>
              split at h
              · cases h
              · next first text =>
                  split at h
                  · next digit =>
                      simp only [skipExponent, minus, or_true, if_true, digit,
                        dropWhile_of_readPower true first text h]
                  · cases h
          · next minus =>
              dsimp only at h
              split at h
              · next digit =>
                  simp only [skipExponent, plus, minus, or_self, if_false, if_true, digit,
                    dropWhile_of_readPower false b text h]
              · cases h
  · cases h

theorem skipExponentMark_of_read
    (h : readScaled negative significand power text = .ok (value, rest)) :
    skipExponentMark text = .ok rest := by
  rw [readScaled.eq_def] at h
  rw [skipExponentMark.eq_def]
  split at h
  · split at h
    · next marked => exact (if_pos marked).trans (skipExponent_of_read h)
    · next unmarked => exact (if_neg unmarked).trans (congrArg _ (toReal_ok h))
  · cases toReal_ok h
    rfl

theorem skipFraction_of_read
    (h : readFraction negative significand power text = .ok (value, rest)) :
    startsWithDigit text = true ∧ skipExponentMark (text.dropWhile isDigit) = .ok rest := by
  obtain ⟨left, starts⟩ := takeDigits_cases significand 0 text
  rw [readFraction.eq_def] at h
  split at h
  next total count text' taken =>
  rw [taken] at left starts
  split at h
  · next digit =>
      refine ⟨?_, by rw [← left]; exact skipExponentMark_of_read h⟩
      rcases starts with starts | same
      · exact starts
      · cases same
        exact digit
  · next other =>
      split at h
      · split at h <;> cases h
      · next some =>
          rcases starts with starts | same
          · rw [← left, dropWhile_other (eq_false_of_ne_true other)]
            exact ⟨starts, skipExponentMark_of_read h⟩
          · cases same
            exact absurd rfl some

theorem skipAfterDigits_of_read
    (h : readAfterDigits negative significand text = .ok (value, rest)) :
    skipAfterDigits text = .ok rest := by
  have whole {text : Bytes} (h : integerOrReal negative significand text = .ok (value, rest)) :
      text = rest := by
    rw [integerOrReal] at h
    split at h
    · cases h
      rfl
    · split at h
      · cases h
        rfl
      · exact toReal_ok h
  rw [readAfterDigits.eq_def] at h
  split at h
  · next b text =>
      rw [skipAfterDigits]
      split at h
      · next point =>
          obtain ⟨digits, behind⟩ := skipFraction_of_read h
          rw [if_pos point, if_pos digits, behind]
      · next point =>
          rw [if_neg point, skipExponentMark]
          split at h
          · next marked => rw [if_pos marked, skipExponent_of_read h]
          · next unmarked => rw [if_neg unmarked, whole h]
  · cases whole h
    rfl

theorem skipAfterDigits_of_readLong (h : readLong negative significand text = .ok (value, rest)) :
    skipAfterDigits (text.dropWhile isDigit) = .ok rest := by
  rw [readLong] at h
  split at h
  · next b text' left =>
      rw [left, skipAfterDigits]
      split at h
      · next point =>
          obtain ⟨digits, behind⟩ := skipFraction_of_read h
          rw [if_pos point, if_pos digits, behind]
      · next point => rw [if_neg point, skipExponentMark_of_read h]
  · next left =>
      rw [left]
      exact skipExponentMark_of_read h

theorem skipMagnitude_of_read (h : readMagnitude negative text = .ok (value, rest)) :
    skipMagnitude text = .ok rest := by
  rw [readMagnitude.eq_def] at h
  split at h
  · cases h
  · next first text =>
      rw [skipMagnitude]
      split at h
      · next zero =>
          rw [if_pos zero]
          split at h
          · cases h
          · next other => rw [if_neg other, skipAfterDigits_of_read h]
      · next zero =>
          rw [if_neg zero]
          split at h
          · next digit =>
              rw [if_pos digit]
              obtain ⟨left, -⟩ := takeDigits_cases (digitValue first) 0 text
              split at h
              next significand count text' taken =>
              rw [taken] at left
              split at h
              · rw [← left, skipAfterDigits_of_readLong h]
              · next other =>
                  rw [← left, dropWhile_other (eq_false_of_ne_true other),
                    skipAfterDigits_of_read h]
          · cases h

theorem readNumber_ok (h : readNumber text = .ok (value, rest)) :
    ∃ n : Numeral, text = n.bytes ++ rest := by
  rw [readNumber.eq_def] at h
  split at h
  · cases h
  · next b text =>
      split at h
      · next minus =>
          obtain ⟨n, negative, rfl⟩ := skipMagnitude_ok (skipMagnitude_of_read h) true
          exact ⟨n, by rw [Numeral.bytes, if_pos negative, minus, List.cons_append]⟩
      · obtain ⟨n, negative, written⟩ := skipMagnitude_ok (skipMagnitude_of_read h) false
        refine ⟨n, ?_⟩
        rw [Numeral.bytes, negative, written]
        rfl

end

end EventClient.Json
