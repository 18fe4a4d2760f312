import EventClient.Proofs.Json.Reading

/-!
Passing over a value takes exactly what was written of it, whatever it holds and however deep its
brackets nest, and ends well before the steps it is given are used up.
-/
namespace EventClient.Json

/-! ### Labels and single values -/

/-- From the name of a member up to its value. -/
theorem skipKey_label (label : Label) {text text' : Bytes}
    (spaced : skipSpace text = ascii '"' :: (Content.bytes label.content ++ ascii '"' ::
      (label.colon.bytes ++ ascii ':' :: (label.value.bytes ++ text')))) :
    skipKey text = .ok (label.value.bytes ++ text') := by
  simp only [skipKey, spaced, if_true, Content.skipText_content, bind, Except.bind, colon_gap]

theorem skipScalar_digit {first : UInt8} (digit : isDigit first = true) (text : Bytes) :
    skipScalar first text = skipMagnitude (first :: text) := by
  have other {b : UInt8} (minus : b ≠ ascii '-') (h : isDigit b = false) : first ≠ b :=
    IsNumeral.ne (.inr digit) minus h
  have unsigned : first ≠ ascii '-' := by
    rintro rfl
    cases digit
  have null : first ≠ ascii 'n' := other (by decide) (by decide)
  have yes : first ≠ ascii 't' := other (by decide) (by decide)
  have no : first ≠ ascii 'f' := other (by decide) (by decide)
  simp only [skipScalar, null, yes, no, unsigned, digit, if_false, if_true]

theorem skipScalar_writing {w : Writing} {first : UInt8} {text rest : Bytes}
    (written : w.bytes ++ rest = first :: text) (ends : Ends rest) (list : first ≠ ascii '[')
    (object : first ≠ ascii '\x7b') : skipScalar first text = .ok rest := by
  cases w with
  | null =>
      cases written
      exact readWord_written (Text.bytes "ull") rest
  | bool value =>
      cases value with
      | false =>
          cases written
          exact readWord_written (Text.bytes "alse") rest
      | true =>
          cases written
          exact readWord_written (Text.bytes "rue") rest
  | number n =>
      have passed := n.skipMagnitude_numeral ends
      rw [Writing.bytes, Numeral.bytes] at written
      cases sign : n.negative with
      | false =>
          rw [sign, if_neg (by decide)] at written
          rw [written] at passed
          have digit : isDigit first = true := by
            rw [← (List.cons.inj written).1]
            exact n.whole.leading
          rw [skipScalar_digit digit, passed]
      | true =>
          rw [sign, if_pos rfl] at written
          obtain ⟨rfl, rfl⟩ := List.cons.inj written
          exact passed
  | string content =>
      rw [Writing.string_append] at written
      obtain ⟨rfl, rfl⟩ := List.cons.inj written
      exact Content.skipText_content content rest
  | list items closing =>
      rw [Writing.list_append] at written
      exact absurd (List.cons.inj written).1.symm list
  | object members closing =>
      rw [Writing.object_append] at written
      exact absurd (List.cons.inj written).1.symm object

/-! ### Values with brackets -/

/-- Passing over `w` takes so many steps and leaves what stands behind it, whatever is open. -/
def Passes (w : Writing) (turns : Nat) : Prop :=
  ∀ (more : Nat) (outer : List Bracket) (text rest : Bytes),
    skipSpace text = w.bytes ++ rest → Ends rest →
      skipOpen (turns + more) .value outer text = skipOpen more .ended outer rest

/-- Where passing over the inside of a bracket stands. -/
def Passing.inside (first : Bool) : Passing := if first then .opened else .ended

theorem skipOpen_item (steps : Nat) (first : Bool) (outer : List Bracket) (separator : Separator)
    (w : Writing) (rest : Bytes) :
    ∃ text, skipSpace text = w.bytes ++ rest ∧
      skipOpen (steps + 1) (.inside first) (.list :: outer)
          (separator.bytes first ++ (w.bytes ++ rest)) =
        skipOpen steps .value (.list :: outer) text := by
  obtain ⟨b, text, written, visible, closing, -⟩ := w.starts rest
  cases first with
  | true =>
      refine ⟨w.bytes ++ rest, Writing.skipSpace_writing w rest, ?_⟩
      simp only [Passing.inside, if_true, Separator.bytes, written, skipOpen,
        skipSpace_gap_cons _ visible, Bracket.closing, closing, if_false, Bracket.skipLabel, bind,
        Except.bind]
  | false =>
      refine ⟨separator.behind.bytes ++ (w.bytes ++ rest),
        by rw [skipSpace_gap, Writing.skipSpace_writing], ?_⟩
      simp only [Passing.inside, Bool.false_eq_true, if_false, Separator.bytes, List.append_assoc,
        List.cons_append, skipOpen, skipSpace_gap_cons _ (show isSpace (ascii ',') = false by decide),
        Bracket.closing, show ascii ',' ≠ ascii ']' by decide, if_true, Bracket.skipLabel, bind,
        Except.bind]

theorem skipOpen_member (steps : Nat) (first : Bool) (outer : List Bracket) (label : Label)
    (text : Bytes) :
    skipOpen (steps + 1) (.inside first) (.object :: outer) (label.bytes first ++ text) =
      skipOpen steps .value (.object :: outer) (label.value.bytes ++ text) := by
  cases first with
  | true =>
      have key := @skipKey_label label (ascii '"' :: (Content.bytes label.content ++
        ascii '"' :: (label.colon.bytes ++ ascii ':' :: (label.value.bytes ++ text)))) text
        (skipSpace_cons (by decide) _)
      simp only [Passing.inside, if_true, Label.bytes, Separator.bytes, List.append_assoc,
        List.cons_append, skipOpen, skipSpace_gap_cons _ (show isSpace (ascii '"') = false by decide),
        Bracket.closing, show ascii '"' ≠ ascii '\x7d' by decide, if_false, Bracket.skipLabel, key,
        bind, Except.bind]
  | false =>
      have key := @skipKey_label label (label.separator.behind.bytes ++ ascii '"' ::
        (Content.bytes label.content ++
        ascii '"' :: (label.colon.bytes ++ ascii ':' :: (label.value.bytes ++ text)))) text
        (skipSpace_gap_cons _ (by decide) _)
      simp only [Passing.inside, Bool.false_eq_true, if_false, Label.bytes, Separator.bytes,
        List.append_assoc, List.cons_append, skipOpen,
        skipSpace_gap_cons _ (show isSpace (ascii ',') = false by decide), Bracket.closing,
        show ascii ',' ≠ ascii '\x7d' by decide, if_true, Bracket.skipLabel, key, bind,
        Except.bind]

theorem skipOpen_closing (bracket : Bracket) (steps : Nat) (first : Bool) (outer : List Bracket)
    (closing : Gap) (rest : Bytes) :
    skipOpen (steps + 1) (.inside first) (bracket :: outer)
        (closing.bytes ++ bracket.closing :: rest) = skipOpen steps .ended outer rest := by
  have visible : isSpace bracket.closing = false := by cases bracket <;> rfl
  cases first <;>
    simp only [Passing.inside, Bool.false_eq_true, if_true, if_false, skipOpen,
      skipSpace_gap_cons closing visible]

theorem passes_items {items : List (Separator × Writing)}
    (each : ∀ item ∈ items, ∃ turns, turns < 2 * item.2.bytes.length ∧ Passes item.2 turns)
    (closing : Gap) (first : Bool) :
    ∃ turns, turns ≤ 2 * (Writing.itemsBytes first items).length ∧
      ∀ more outer rest, skipOpen (turns + 1 + more) (.inside first) (.list :: outer)
        (Writing.listTail first items closing rest) = skipOpen more .ended outer rest := by
  induction items generalizing first with
  | nil =>
      refine ⟨0, Nat.zero_le _, fun more outer rest => ?_⟩
      rw [Nat.zero_add, Nat.add_comm]
      exact skipOpen_closing .list more first outer closing rest
  | cons item items ih =>
      obtain ⟨separator, w⟩ := item
      obtain ⟨⟨turns, few, passes⟩, others⟩ := List.forall_mem_cons.mp each
      obtain ⟨further, few', through⟩ := ih others false
      refine ⟨turns + 1 + further, ?_, fun more outer rest => ?_⟩
      · simp only [Writing.itemsBytes, List.length_append] at few ⊢
        omega
      · obtain ⟨text, spaced, step⟩ := skipOpen_item (turns + (further + 1 + more)) first outer
          separator w (Writing.listTail false items closing rest)
        have count : turns + 1 + further + 1 + more = turns + (further + 1 + more) + 1 := by omega
        rw [Writing.listTail_cons, count, step,
          passes _ _ _ _ spaced (Writing.ends_listTail items closing rest)]
        exact through more outer rest

theorem passes_members {members : List (Label × Writing)}
    (each : ∀ member ∈ members, ∃ turns, turns < 2 * member.2.bytes.length ∧ Passes member.2 turns)
    (closing : Gap) (first : Bool) :
    ∃ turns, turns ≤ 2 * (Writing.membersBytes first members).length ∧
      ∀ more outer rest, skipOpen (turns + 1 + more) (.inside first) (.object :: outer)
        (Writing.objectTail first members closing rest) = skipOpen more .ended outer rest := by
  induction members generalizing first with
  | nil =>
      refine ⟨0, Nat.zero_le _, fun more outer rest => ?_⟩
      rw [Nat.zero_add, Nat.add_comm]
      exact skipOpen_closing .object more first outer closing rest
  | cons member members ih =>
      obtain ⟨label, w⟩ := member
      obtain ⟨⟨turns, few, passes⟩, others⟩ := List.forall_mem_cons.mp each
      obtain ⟨further, few', through⟩ := ih others false
      refine ⟨turns + 1 + further, ?_, fun more outer rest => ?_⟩
      · simp only [Writing.membersBytes, List.length_append] at few ⊢
        omega
      · have step := skipOpen_member (turns + (further + 1 + more)) first outer label
          (w.bytes ++ Writing.objectTail false members closing rest)
        have spaced := Writing.skipSpace_behind label.value w
          (Writing.objectTail false members closing rest)
        have count : turns + 1 + further + 1 + more = turns + (further + 1 + more) + 1 := by omega
        rw [Writing.objectTail_cons, count, step,
          passes _ _ _ _ spaced (Writing.ends_objectTail members closing rest)]
        exact through more outer rest

theorem Passes.scalar {w : Writing} (list : ∀ items closing, w ≠ .list items closing)
    (object : ∀ members closing, w ≠ .object members closing) :
    ∃ turns, turns < 2 * w.bytes.length ∧ Passes w turns := by
  have room := w.length_pos
  refine ⟨1, by omega, fun more outer text rest spaced ends => ?_⟩
  obtain ⟨first, behind, written, -, list, object⟩ := Writing.scalar_starts list object rest
  rw [Nat.add_comm, skipOpen, spaced, written]
  simp only [list, object, if_false, skipScalar_writing written ends list object, bind, Except.bind]

/-- The induction is on the writing. Every step but the last is paid for by a byte: one by the byte
that opens a bracket, closes it or separates two values, and one more by a value. -/
theorem exists_passes (w : Writing) : ∃ turns, turns < 2 * w.bytes.length ∧ Passes w turns := by
  induction w with
  | null | bool _ | number _ | string _ => exact Passes.scalar (by simp) (by simp)
  | list items closing ih =>
      obtain ⟨turns, few, through⟩ := passes_items ih closing true
      refine ⟨turns + 2, ?_, fun more outer text rest spaced _ => ?_⟩
      · simp only [Writing.bytes, List.length_append, List.length_cons]
        omega
      · have count : turns + 2 + more = turns + 1 + more + 1 := by omega
        rw [Writing.list_append] at spaced
        rw [count, skipOpen, spaced]
        exact (if_pos rfl).trans (through more outer rest)
  | object members closing ih =>
      obtain ⟨turns, few, through⟩ := passes_members ih closing true
      refine ⟨turns + 2, ?_, fun more outer text rest spaced _ => ?_⟩
      · simp only [Writing.bytes, List.length_append, List.length_cons]
        omega
      · have count : turns + 2 + more = turns + 1 + more + 1 := by omega
        rw [Writing.object_append] at spaced
        rw [count, skipOpen, spaced]
        exact (if_neg (by decide)).trans ((if_pos rfl).trans (through more outer rest))

/-- A value that nobody asked for is passed over, and nothing else is. -/
theorem skipValue_writing (w : Writing) {text rest : Bytes} {steps : Nat}
    (spaced : skipSpace text = w.bytes ++ rest) (ends : Ends rest)
    (short : (w.bytes ++ rest).length ≤ steps) : skipValue steps text = .ok rest := by
  obtain ⟨turns, few, passes⟩ := exists_passes w
  rw [List.length_append] at short
  have enough : 3 * steps = turns + (3 * steps - turns - 1 + 1) := by omega
  rw [skipValue, enough, passes _ _ _ _ spaced ends, skipOpen]

end EventClient.Json
