import EventClient.Json.Skip
import EventClient.Proofs.Json.Writing

/-!
Texts and numbers as they may be written. They are read, or they have a fault, whatever stands
behind them: a text is read as what it spells, a number as what it would be on its own. All of them
can be passed over.
-/
namespace EventClient.Json

/-- A reader either comes to no result or to the one it is known to come to. -/
theorem error_or_ok {ε α β : Type} {x : Except ε β} {result : Option α} {f : α → β}
    (h : x.toOption = result.map f) :
    (result = none ∧ ∃ e, x = .error e) ∨ ∃ a, result = some a ∧ x = .ok (f a) := by
  cases x with
  | error e => exact .inl ⟨Option.map_eq_none_iff.mp h.symm, e, rfl⟩
  | ok b =>
      obtain ⟨a, found, rfl⟩ := Option.map_eq_some_iff.mp h.symm
      exact .inr ⟨a, found, rfl⟩

theorem error_of_none {ε α : Type} {x : Except ε α} (h : x.toOption = none) :
    ∃ e, x = .error e := by
  cases x with
  | error e => exact ⟨e, rfl⟩
  | ok a => cases h

theorem ok_of_some {ε α : Type} {x : Except ε α} {a : α} (h : x.toOption = some a) : x = .ok a := by
  cases x with
  | error e => cases h
  | ok a => cases h; rfl

/-! ### Texts -/

theorem takeText_end (read rest : Bytes) :
    takeText read (ascii '"' :: rest) = .ok (read.reverse, rest) := by
  rw [takeText.eq_def]
  rfl

theorem takeText_trailing {a b c d : UInt8} {unit : Nat} (h : hexUnit? a b c d = some unit)
    (trailing : isTrailing unit = true) (read rest : Bytes) :
    takeText read (ascii '\\' :: ascii 'u' :: a :: b :: c :: d :: rest) =
      fail .loneSurrogate rest := by
  rw [takeText.eq_def]
  simp only [show ascii '\\' ≠ ascii '"' by decide, if_false, if_true,
    show shortEscape? (ascii 'u') = none by decide, h, trailing]

theorem takeText_pair {a b c d a' b' c' d' : UInt8} {unit second : Nat}
    (h : hexUnit? a b c d = some unit) (trailing : isTrailing unit = false)
    (leading : isLeading unit = true) (h' : hexUnit? a' b' c' d' = some second)
    (read rest : Bytes) :
    takeText read (ascii '\\' :: ascii 'u' :: a :: b :: c :: d ::
        ascii '\\' :: ascii 'u' :: a' :: b' :: c' :: d' :: rest) =
      if isTrailing second then takeText (pushChar (paired unit second) read) rest
      else fail .loneSurrogate rest := by
  rw [takeText.eq_def]
  simp only [show ascii '\\' ≠ ascii '"' by decide, if_false, if_true, ne_eq, not_true_eq_false,
    show shortEscape? (ascii 'u') = none by decide, h, h', trailing, leading, Bool.false_eq_true]

/-- A leading unit with anything but another unit behind it. -/
theorem takeText_lone {a b c d : UInt8} {unit : Nat} (h : hexUnit? a b c d = some unit)
    (trailing : isTrailing unit = false) (leading : isLeading unit = true) {rest : Bytes}
    (other : ∀ text, rest ≠ ascii '\\' :: ascii 'u' :: text) (read : Bytes) :
    (takeText read (ascii '\\' :: ascii 'u' :: a :: b :: c :: d :: rest)).toOption = none := by
  rw [takeText.eq_def]
  simp only [show ascii '\\' ≠ ascii '"' by decide, if_false, if_true,
    show shortEscape? (ascii 'u') = none by decide, h, trailing, leading, Bool.false_eq_true]
  split
  · rfl
  · split <;> rfl
  · next mark letter text =>
      split
      · rfl
      · next backslash =>
          split
          · rfl
          · next escape =>
              rw [ne_eq, Decidable.not_not] at backslash escape
              exact absurd (backslash ▸ escape ▸ rfl) (other text)

namespace Content

/-- What is behind a leading unit that is not followed by another unit. -/
theorem not_unit {content : Content} (other : ∀ a b c d value hex rest,
      content ≠ Piece.unit a b c d value hex :: rest) (text rest : Bytes) :
    content.bytes ++ ascii '"' :: rest ≠ ascii '\\' :: ascii 'u' :: text := by
  intro same
  cases content with
  | nil => exact absurd (List.cons.inj same).1 (by decide)
  | cons piece content =>
      cases piece with
      | plain b quote backslash visible => exact backslash (List.cons.inj same).1
      | short letter escaped known =>
          have escape := (List.cons.inj (List.cons.inj same).2).1
          subst escape
          cases known
      | unit a b c d value hex => exact other a b c d value hex content rfl

/-- Reading goes on behind bytes that were put on those read so far. -/
theorem read_further (put read rest : Bytes) (spelled : Option Bytes) :
    (spelled.map fun spelled => ((put.reverse ++ read).reverse ++ spelled, rest)) =
      (spelled.map (put ++ ·)).map fun spelled => (read.reverse ++ spelled, rest) := by
  simp only [Option.map_map, Function.comp_def, List.reverse_append, List.reverse_reverse,
    List.append_assoc]

/-- The induction follows what is spelled, two units at a time where they form a pair. -/
theorem takeText_content (content : Content) (read rest : Bytes) :
    (takeText read (bytes content ++ ascii '"' :: rest)).toOption =
      content.spelled?.map fun spelled => (read.reverse ++ spelled, rest) := by
  fun_induction spelled? content generalizing read with
  | case1 =>
      rw [bytes, List.flatMap_nil, List.nil_append, takeText_end, Option.map_some, List.append_nil]
      rfl
  | case2 b quote backslash visible content ih =>
      rw [bytes_cons]
      exact (congrArg _ (takeText_plain quote backslash visible read _)).trans
        ((ih (b :: read)).trans (read_further [b] read rest _))
  | case3 letter escaped known content ih =>
      rw [bytes_cons]
      exact (congrArg _ (takeText_escape known read _)).trans
        ((ih (escaped :: read)).trans (read_further [escaped] read rest _))
  | case4 a b c d leading hex content trailing =>
      rw [bytes_cons]
      exact congrArg _ (takeText_trailing hex trailing read _)
  | case5 a b c d leading hex single isLeading a' b' c' d' trailing hex' content isTrailing ih =>
      rw [bytes_cons, bytes_cons]
      refine (congrArg _ (takeText_pair hex (eq_false_of_ne_true single) isLeading hex' read
        _)).trans ?_
      rw [if_pos isTrailing]
      exact (ih _).trans (read_further _ read rest _)
  | case6 a b c d leading hex single isLeading a' b' c' d' trailing hex' content isTrailing =>
      rw [bytes_cons, bytes_cons]
      refine (congrArg _ (takeText_pair hex (eq_false_of_ne_true single) isLeading hex' read
        _)).trans ?_
      rw [if_neg isTrailing]
      rfl
  | case7 a b c d leading hex content single isLeading other =>
      rw [bytes_cons]
      exact takeText_lone hex (eq_false_of_ne_true single) isLeading (not_unit other · rest) read
  | case8 a b c d unit hex content trailing leading ih =>
      rw [bytes_cons]
      exact (congrArg _ (takeText_unit hex (eq_false_of_ne_true trailing)
        (eq_false_of_ne_true leading) read _)).trans ((ih _).trans (read_further _ read rest _))

/-- Behind its opening quote a text is read as what it spells, if that is one. -/
theorem readText_content (content : Content) (rest : Bytes) :
    (readText (bytes content ++ ascii '"' :: rest)).toOption =
      content.text?.map fun text => (text, rest) := by
  rw [readText, text?]
  obtain ⟨none, fault, failed⟩ | ⟨spelled, found, taken⟩ :=
    error_or_ok (takeText_content content [] rest)
  · rw [failed, none]
    rfl
  · simp only [taken, found, Option.bind_some, List.reverse_nil, List.nil_append]
    cases Text.ofBytes? spelled <;> rfl

theorem skipText_content (content : Content) (rest : Bytes) :
    skipText (bytes content ++ ascii '"' :: rest) = .ok rest := by
  induction content with
  | nil =>
      rw [bytes, List.flatMap_nil, List.nil_append, skipText.eq_def]
      exact if_pos rfl
  | cons piece content ih =>
      rw [bytes_cons, List.append_assoc, skipText.eq_def]
      cases piece with
      | plain b quote backslash visible =>
          simp only [Piece.bytes, List.cons_append, List.nil_append, quote, backslash, visible,
            if_false]
          exact ih
      | short letter escaped known =>
          simp only [Piece.bytes, List.cons_append, List.nil_append, known, Option.isSome_some,
            show ascii '\\' ≠ ascii '"' by decide, if_false, if_true]
          exact ih
      | unit a b c d value hex =>
          simp only [Piece.bytes, List.cons_append, List.nil_append, hex, Option.isSome_some,
            show ascii '\\' ≠ ascii '"' by decide, if_false, if_true, Option.isSome_none,
            show shortEscape? (ascii 'u') = none by decide, Bool.false_eq_true]
          exact ih

end Content

/-! ### Numbers -/

/-- What is read in front of `rest` does not depend on it. -/
def Settled {α : Type} (read : Bytes → Except Fault (α × Bytes)) : Prop :=
  ∃ result : Option α, ∀ rest, Ends rest → (read rest).toOption = result.map fun a => (a, rest)

theorem Settled.congr {α : Type} {read read' : Bytes → Except Fault (α × Bytes)}
    (h : Settled read') (same : ∀ rest, Ends rest → read rest = read' rest) : Settled read := by
  obtain ⟨result, read⟩ := h
  exact ⟨result, fun rest ends => same rest ends ▸ read rest ends⟩

theorem Settled.failed {α : Type} {read : Bytes → Except Fault (α × Bytes)}
    (h : ∀ rest, Ends rest → (read rest).toOption = none) : Settled read :=
  ⟨none, h⟩

theorem dropWhile_digits {digits : Bytes} (all : digits.all isDigit = true) {rest : Bytes}
    (other : startsWithDigit rest = false) : (digits ++ rest).dropWhile isDigit = rest := by
  rw [List.all_eq_true] at all
  rw [List.dropWhile_append_of_pos all]
  cases rest with
  | nil => rfl
  | cons b rest => exact List.dropWhile_cons_of_neg (by simpa [startsWithDigit] using other)

theorem length_takeWhile_digits {digits : Bytes} (all : digits.all isDigit = true) {rest : Bytes}
    (other : startsWithDigit rest = false) :
    ((digits ++ rest).takeWhile isDigit).length = digits.length := by
  rw [List.all_eq_true] at all
  rw [List.takeWhile_append_of_pos all]
  cases rest with
  | nil => rw [List.takeWhile_nil, List.append_nil]
  | cons b rest =>
      rw [List.takeWhile_cons_of_neg (by simpa [startsWithDigit] using other), List.append_nil]

/-- Digits are taken from the front as long as they fit; those that are left are in front of
whatever stands behind all of them. -/
theorem takeDigits_digits {digits : Bytes} (all : digits.all isDigit = true)
    (significand count : Nat) :
    ∃ value taken left, left.all isDigit = true ∧ ∀ rest, startsWithDigit rest = false →
      takeDigits significand count (digits ++ rest) = (value, taken, left ++ rest) := by
  induction digits generalizing significand count with
  | nil =>
      refine ⟨significand, count, [], rfl, fun rest other => ?_⟩
      cases rest with
      | nil => rfl
      | cons b rest =>
          have digit : isDigit b = false := other
          simp only [List.nil_append, takeDigits, digit, Bool.false_and, Bool.false_eq_true,
            if_false]
  | cons b digits ih =>
      have both := all
      rw [List.all_cons, Bool.and_eq_true] at both
      by_cases fits : significand * 10 + digitValue b < integerBound
      · obtain ⟨value, taken, left, rest, step⟩ :=
          ih both.2 (significand * 10 + digitValue b) (count + 1)
        refine ⟨value, taken, left, rest, fun rest other => ?_⟩
        rw [List.cons_append, takeDigits, both.1, decide_eq_true fits]
        exact step rest other
      · refine ⟨significand, count, b :: digits, all, fun rest _ => ?_⟩
        rw [List.cons_append, takeDigits, both.1, decide_eq_false fits]
        rfl

theorem takeExponent_digits {digits : Bytes} (all : digits.all isDigit = true) (value : Nat) :
    (∃ total, ∀ rest, startsWithDigit rest = false →
      takeExponent value (digits ++ rest) = (some total, rest)) ∨
    ∃ left, left.all isDigit = true ∧ ∀ rest, startsWithDigit rest = false →
      takeExponent value (digits ++ rest) = (none, left ++ rest) := by
  induction digits generalizing value with
  | nil =>
      refine .inl ⟨value, fun rest other => ?_⟩
      cases rest with
      | nil => rfl
      | cons b rest =>
          have digit : isDigit b = false := other
          simp only [List.nil_append, takeExponent, digit, Bool.false_eq_true, if_false]
  | cons b digits ih =>
      rw [List.all_cons, Bool.and_eq_true] at all
      by_cases fits : value * 10 + digitValue b < exponentBound
      · have step (rest : Bytes) : takeExponent value (b :: digits ++ rest) =
            takeExponent (value * 10 + digitValue b) (digits ++ rest) := by
          rw [List.cons_append, takeExponent, if_pos all.1, if_pos fits]
        simp only [step]
        exact ih all.2 _
      · refine .inr ⟨digits, all.2, fun rest _ => ?_⟩
        rw [List.cons_append, takeExponent, if_pos all.1, if_neg fits]

theorem settled_toReal (negative : Bool) (significand : Nat) (power : Int) :
    Settled (toReal negative significand power) := by
  cases value : Binary64.ofDecimal? significand power with
  | none => exact .failed fun rest _ => by rw [toReal, value]; rfl
  | some x => exact ⟨some _, fun rest _ => by rw [toReal, value]; rfl⟩

theorem settled_integerOrReal (negative : Bool) (significand : Nat) :
    Settled (integerOrReal negative significand) := by
  by_cases natural : (!negative) = true
  · exact ⟨some _, fun rest _ => by rw [integerOrReal, if_pos natural]; rfl⟩
  · by_cases integral :
        (decide (0 < significand) && decide (significand ≤ 9223372036854775808)) = true
    · refine ⟨some (.integer (-(significand : Int))), fun rest _ => ?_⟩
      rw [integerOrReal, if_neg natural, if_pos integral]
      rfl
    · refine (settled_toReal negative significand 0).congr fun rest _ => ?_
      rw [integerOrReal, if_neg natural, if_neg integral]

theorem Digits.unsigned (digits : Digits) :
    digits.first ≠ ascii '-' ∧ digits.first ≠ ascii '+' := by
  have leading := digits.leading
  constructor <;> intro sign <;> rw [sign] at leading <;> cases leading

/-- The number, from behind the first digit of its exponent. -/
def readPower (negative : Bool) (significand : Nat) (power : Int) (down : Bool) (first : UInt8)
    (text : Bytes) : Except Fault (JsonNumber × Bytes) :=
  match takeExponent (digitValue first) text with
  | (some value, text) =>
    toReal negative significand (if down then power - value else power + value) text
  | (none, text) =>
    if significand != 0 && !down then fail .numberTooLarge text
    else toReal negative 0 0 (text.dropWhile isDigit)

theorem settled_readPower (negative : Bool) (significand : Nat) (power : Int) (down : Bool)
    (digits : Digits) :
    Settled fun rest =>
      readPower negative significand power down digits.first (digits.others ++ rest) := by
  rcases takeExponent_digits digits.following (digitValue digits.first) with
    ⟨total, taken⟩ | ⟨left, others, taken⟩
  · refine (settled_toReal negative significand
      (if down then power - total else power + total)).congr fun rest ends => ?_
    rw [readPower, taken rest ends.startsWithDigit]
  · by_cases large : (significand != 0 && !down) = true
    · refine .failed fun rest ends => ?_
      rw [readPower, taken rest ends.startsWithDigit]
      exact congrArg Except.toOption (if_pos large)
    · refine (settled_toReal negative 0 0).congr fun rest ends => ?_
      rw [readPower, taken rest ends.startsWithDigit]
      exact (if_neg large).trans (congrArg _ (dropWhile_digits others ends.startsWithDigit))

theorem settled_readExponent (negative : Bool) (significand : Nat) (power : Int) (e : Exponent) :
    Settled fun rest =>
      readExponent negative significand power (e.sign.toList ++ (e.digits.bytes ++ rest)) := by
  obtain ⟨minus, plus⟩ := e.digits.unsigned
  have digits (down : Bool) := settled_readPower negative significand power down e.digits
  cases sign : e.sign with
  | none =>
      refine (digits false).congr fun rest _ => ?_
      simp only [Option.toList_none, List.nil_append, Digits.bytes, List.cons_append, readExponent,
        plus, minus, e.digits.leading, if_true, if_false]
      rfl
  | some b =>
      rcases e.signed b sign with rfl | rfl
      · refine (digits false).congr fun rest _ => ?_
        simp only [Option.toList_some, List.nil_append, Digits.bytes, List.cons_append,
          readExponent, e.digits.leading, if_true]
        rfl
      · refine (digits true).congr fun rest _ => ?_
        simp only [Option.toList_some, List.nil_append, Digits.bytes, List.cons_append,
          readExponent, e.digits.leading, if_true, show ascii '-' ≠ ascii '+' by decide, if_false]
        rfl

theorem Exponent.starts (e : Exponent) : isDigit e.mark = false ∧ e.mark ≠ ascii '.' := by
  have marked := e.marked
  simp only [isExponentMark, Bool.or_eq_true, beq_iff_eq] at marked
  rcases marked with mark | mark <;> rw [mark] <;> decide

/-- Behind the last digits of a number there is neither another digit nor a point. -/
theorem exponent_starts (exponent : Option Exponent) {rest : Bytes} (ends : Ends rest) :
    ∀ b ∈ (exponentBytes exponent ++ rest).head?, isDigit b = false ∧ b ≠ ascii '.' := by
  cases exponent with
  | none => exact fun b there => ⟨(ends b there).1, (ends b there).2.1⟩
  | some e =>
      intro b there
      cases there
      exact e.starts

theorem ends_exponent (exponent : Option Exponent) {rest : Bytes} (ends : Ends rest) :
    startsWithDigit (exponentBytes exponent ++ rest) = false := by
  have starts := exponent_starts exponent ends
  cases written : exponentBytes exponent ++ rest with
  | nil => rfl
  | cons b text => exact (starts b (by rw [written]; rfl)).1

section
variable (negative : Bool) (significand : Nat) (power : Int) (exponent : Option Exponent)

theorem settled_readScaled : Settled fun rest =>
    readScaled negative significand power (exponentBytes exponent ++ rest) := by
  cases exponent with
  | none =>
      refine (settled_toReal negative significand power).congr fun rest ends => ?_
      cases rest with
      | nil => rfl
      | cons b rest =>
          have mark := (ends b rfl).2.2
          simp only [exponentBytes, List.nil_append, readScaled, mark, Bool.false_eq_true, if_false]
  | some e =>
      refine (settled_readExponent negative significand power e).congr fun rest _ => ?_
      simp only [exponentBytes, Exponent.bytes, List.cons_append, List.append_assoc, readScaled,
        e.marked, if_true]

theorem settled_readFraction (digits : Digits) : Settled fun rest =>
    readFraction negative significand power
      (digits.bytes ++ (exponentBytes exponent ++ rest)) := by
  have all : digits.bytes.all isDigit = true := by
    rw [Digits.bytes, List.all_cons, digits.leading, digits.following]
    rfl
  obtain ⟨value, taken, left, leftDigits, step⟩ := takeDigits_digits all significand 0
  cases left with
  | nil =>
      by_cases none : taken = 0
      · refine .failed fun rest ends => ?_
        have other := ends_exponent exponent ends
        rw [readFraction, step _ other]
        simp only [List.nil_append, other, none, if_true, Bool.false_eq_true, if_false]
        split <;> rfl
      · refine (settled_readScaled negative value (power - taken) exponent).congr
          fun rest ends => ?_
        have other := ends_exponent exponent ends
        rw [readFraction, step _ other]
        simp only [List.nil_append, other, none, Bool.false_eq_true, if_false]
  | cons b left =>
      refine (settled_readScaled negative value (power - taken) exponent).congr
        fun rest ends => ?_
      have other := ends_exponent exponent ends
      have digit (text : Bytes) : startsWithDigit (b :: left ++ text) = true := by
        rw [List.all_cons, Bool.and_eq_true] at leftDigits
        exact leftDigits.1
      rw [readFraction, step _ other]
      simp only [digit, if_true, dropWhile_digits leftDigits other]

end

namespace Numeral

variable (n : Numeral)

theorem tail_append (rest : Bytes) :
    n.tail ++ rest = fractionBytes n.fraction ++ (exponentBytes n.exponent ++ rest) :=
  List.append_assoc ..

theorem ends_tail {rest : Bytes} (ends : Ends rest) : startsWithDigit (n.tail ++ rest) = false := by
  rw [tail_append]
  cases n.fraction with
  | none => exact ends_exponent n.exponent ends
  | some digits => rfl

theorem settled_readAfterDigits (negative : Bool) (significand : Nat) :
    Settled fun rest => readAfterDigits negative significand (n.tail ++ rest) := by
  simp only [tail_append]
  cases n.fraction with
  | none =>
      cases n.exponent with
      | none =>
          exact (settled_integerOrReal negative significand).congr fun rest ends =>
            readAfterDigits_ends negative significand ends
      | some e =>
          refine (settled_readExponent negative significand 0 e).congr fun rest _ => ?_
          simp only [fractionBytes, exponentBytes, Exponent.bytes, List.nil_append,
            List.cons_append, List.append_assoc, readAfterDigits, e.starts.2, e.marked, if_true,
            if_false]
  | some digits =>
      refine (settled_readFraction negative significand 0 n.exponent digits).congr fun rest _ => ?_
      simp only [fractionBytes, List.cons_append, readAfterDigits, if_true]

/-- More digits than an integer may have are in front of the point. -/
theorem settled_readLong (negative : Bool) (significand : Nat) {left : Bytes}
    (digits : left.all isDigit = true) :
    Settled fun rest => readLong negative significand (left ++ (n.tail ++ rest)) := by
  have point (rest : Bytes) : readLong negative significand (left ++ ascii '.' :: rest) =
      readFraction negative significand left.length rest := by
    rw [readLong, dropWhile_digits digits rfl, length_takeWhile_digits digits rfl]
    exact if_pos rfl
  have other {text : Bytes} (starts : ∀ b ∈ text.head?, isDigit b = false ∧ b ≠ ascii '.') :
      readLong negative significand (left ++ text) =
        readScaled negative significand left.length text := by
    cases text with
    | nil => rw [readLong, dropWhile_digits digits rfl, length_takeWhile_digits digits rfl]
    | cons b text =>
        obtain ⟨digit, noPoint⟩ := starts b rfl
        have stops : startsWithDigit (b :: text) = false := digit
        rw [readLong, dropWhile_digits digits stops, length_takeWhile_digits digits stops]
        exact if_neg noPoint
  cases fraction : n.fraction with
  | none =>
      refine (settled_readScaled negative significand left.length n.exponent).congr
        fun rest ends => ?_
      rw [tail_append, fraction, fractionBytes, List.nil_append,
        other (exponent_starts n.exponent ends)]
  | some digits =>
      refine (settled_readFraction negative significand left.length n.exponent digits).congr
        fun rest ends => ?_
      rw [tail_append, fraction, fractionBytes, List.cons_append, point]

theorem settled_readMagnitude (negative : Bool) :
    Settled fun rest => readMagnitude negative (n.magnitude ++ rest) := by
  have written (rest : Bytes) : n.magnitude ++ rest =
      n.whole.first :: (n.whole.others ++ (n.tail ++ rest)) := by
    simp only [magnitude, Digits.bytes, List.cons_append, List.append_assoc]
  simp only [written]
  by_cases zero : n.whole.first = ascii '0'
  · refine (n.settled_readAfterDigits negative 0).congr fun rest ends => ?_
    rw [readMagnitude, if_pos zero, n.plain zero, List.nil_append, n.ends_tail ends]
    rfl
  · obtain ⟨value, taken, left, digits, step⟩ :=
      takeDigits_digits n.whole.following (digitValue n.whole.first) 0
    cases left with
    | nil =>
        refine (n.settled_readAfterDigits negative value).congr fun rest ends => ?_
        have other := n.ends_tail ends
        rw [readMagnitude, if_neg zero, if_pos n.whole.leading, step _ other]
        simp only [List.nil_append, other, Bool.false_eq_true, if_false]
    | cons b left =>
        refine (n.settled_readLong negative value digits).congr fun rest ends => ?_
        have digit (text : Bytes) : startsWithDigit (b :: left ++ text) = true := by
          rw [List.all_cons, Bool.and_eq_true] at digits
          exact digits.1
        rw [readMagnitude, if_neg zero, if_pos n.whole.leading, step _ (n.ends_tail ends)]
        simp only [digit, if_true]

theorem settled_readNumber : Settled fun rest => readNumber (n.bytes ++ rest) := by
  cases sign : n.negative with
  | false =>
      refine (n.settled_readMagnitude false).congr fun rest _ => ?_
      rw [bytes, sign, if_neg (by decide)]
      exact if_neg n.whole.unsigned.1
  | true =>
      refine (n.settled_readMagnitude true).congr fun rest _ => ?_
      rw [bytes, sign, if_pos rfl, List.cons_append, readNumber]
      exact if_pos rfl

/-- The value that the number has on its own, if it has one. -/
def value? : Option JsonNumber := (readNumber n.bytes).toOption.map Prod.fst

theorem readNumber_numeral {rest : Bytes} (ends : Ends rest) :
    (readNumber (n.bytes ++ rest)).toOption = n.value?.map fun value => (value, rest) := by
  obtain ⟨result, read⟩ := n.settled_readNumber
  have alone : (readNumber (n.bytes ++ [])).toOption = _ := read [] Ends.nil
  rw [List.append_nil] at alone
  rw [read rest ends, value?, alone, Option.map_map, Option.map_map]
  rfl

theorem skipExponentMark_written (exponent : Option Exponent) {rest : Bytes} (ends : Ends rest) :
    skipExponentMark (exponentBytes exponent ++ rest) = .ok rest := by
  cases exponent with
  | none =>
      rw [exponentBytes, List.nil_append]
      cases rest with
      | nil => rfl
      | cons b rest =>
          rw [skipExponentMark, (ends b rfl).2.2]
          rfl
  | some e =>
      have behind := dropWhile_digits e.digits.following ends.startsWithDigit
      simp only [exponentBytes, Exponent.bytes, List.cons_append, List.append_assoc,
        skipExponentMark, e.marked, if_true]
      cases sign : e.sign with
      | none =>
          obtain ⟨minus, plus⟩ := e.digits.unsigned
          simp only [Option.toList_none, List.nil_append, Digits.bytes, List.cons_append,
            skipExponent, plus, minus, or_self, e.digits.leading, behind, if_true, if_false]
      | some b =>
          have signed := e.signed b sign
          simp only [Option.toList_some, List.nil_append, Digits.bytes, List.cons_append,
            skipExponent, signed, e.digits.leading, behind, if_true]

theorem skipAfterDigits_tail {rest : Bytes} (ends : Ends rest) :
    skipAfterDigits (n.tail ++ rest) = .ok rest := by
  have behind := skipExponentMark_written n.exponent ends
  rw [tail_append]
  cases n.fraction with
  | none =>
      have starts := exponent_starts n.exponent ends
      rw [fractionBytes, List.nil_append]
      cases written : exponentBytes n.exponent ++ rest with
      | nil =>
          rw [written] at behind
          exact behind
      | cons b text =>
          rw [written] at behind
          rw [skipAfterDigits, if_neg (starts b (by rw [written]; rfl)).2, behind]
  | some digits =>
      have dropped := dropWhile_digits digits.following (ends_exponent n.exponent ends)
      have digit : startsWithDigit (digits.bytes ++ (exponentBytes n.exponent ++ rest)) = true :=
        digits.leading
      have whole : (digits.bytes ++ (exponentBytes n.exponent ++ rest)).dropWhile isDigit =
          exponentBytes n.exponent ++ rest := by
        rw [Digits.bytes, List.cons_append, List.dropWhile_cons_of_pos digits.leading, dropped]
      simp only [fractionBytes, List.cons_append, skipAfterDigits, digit, if_true, whole, behind]

/-- Any number can be passed over, however large it is. -/
theorem skipMagnitude_numeral {rest : Bytes} (ends : Ends rest) :
    skipMagnitude (n.magnitude ++ rest) = .ok rest := by
  have behind : skipAfterDigits (n.tail ++ rest) = .ok rest := n.skipAfterDigits_tail ends
  have other := n.ends_tail ends
  rw [magnitude, Digits.bytes, List.cons_append, List.cons_append, skipMagnitude]
  by_cases zero : n.whole.first = ascii '0'
  · rw [if_pos zero, n.plain zero, List.nil_append, other]
    exact behind
  · rw [if_neg zero, if_pos n.whole.leading, List.append_assoc,
      dropWhile_digits n.whole.following other, behind]

end Numeral

end EventClient.Json
