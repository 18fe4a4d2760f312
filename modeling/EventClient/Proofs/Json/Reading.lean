import EventClient.Proofs.Json.Lexemes
import EventClient.Proofs.Json.RoundTrip

/-!
Values as they may be written are read, or have a fault, whatever stands behind them. What is read
is told by the writing alone, and so is whether anything is: the brackets may nest no deeper than the
reader allows, every text between quotes has to be one, and every number has to have a value.
-/
namespace EventClient.Json

/-! ### Separators and labels -/

theorem nextItem_writing (separator : Separator) (first : Bool) (w : Writing) (rest : Bytes) :
    nextItem first (separator.bytes first ++ (w.bytes ++ rest)) = .ok (true, w.bytes ++ rest) := by
  obtain ⟨b, text, written, visible, closing, -⟩ := w.starts rest
  cases first with
  | true =>
      simp only [Separator.bytes, if_true, written, nextItem, skipSpace_gap_cons _ visible, closing,
        if_false]
  | false =>
      simp only [Separator.bytes, Bool.false_eq_true, if_false, List.append_assoc, List.cons_append,
        written, nextItem, skipSpace_gap_cons _ (show isSpace (ascii ',') = false by decide),
        skipSpace_gap_cons _ visible, closing, if_true, show ascii ',' ≠ ascii ']' by decide]

theorem nextItem_closing (first : Bool) (closing : Gap) (rest : Bytes) :
    nextItem first (closing.bytes ++ ascii ']' :: rest) = .ok (false, ascii ']' :: rest) := by
  rw [nextItem, skipSpace_gap_cons closing (by decide)]
  exact if_pos rfl

theorem endList_gap (closing : Gap) (rest : Bytes) :
    endList (Writing.listTail false [] closing rest) = .ok rest := by
  rw [Writing.listTail, Writing.itemsBytes, List.nil_append, endList,
    skipSpace_gap_cons closing (by decide)]
  exact if_pos rfl

theorem endList_more (separator : Separator) (first : Bool) (w : Writing) (rest : Bytes) :
    ∃ fault, endList (separator.bytes first ++ (w.bytes ++ rest)) = .error fault := by
  obtain ⟨b, text, written, visible, closing, comma⟩ := w.starts rest
  cases first with
  | true =>
      refine ⟨⟨.trailingCharacters, text⟩, ?_⟩
      simp only [Separator.bytes, if_true, written, endList, skipSpace_gap_cons _ visible, closing,
        comma, if_false]
      rfl
  | false =>
      refine ⟨⟨.trailingCharacters, text⟩, ?_⟩
      simp only [Separator.bytes, Bool.false_eq_true, if_false, List.append_assoc, List.cons_append,
        written, endList, skipSpace_gap_cons _ (show isSpace (ascii ',') = false by decide),
        skipSpace_gap_cons _ visible, closing, if_true, show ascii ',' ≠ ascii ']' by decide]
      rfl

theorem nextKey_label (label : Label) (first : Bool) (text : Bytes) :
    (nextKey first (label.bytes first ++ text)).toOption = label.name?.map fun name =>
      (some name, label.colon.bytes ++ ascii ':' :: (label.value.bytes ++ text)) := by
  let behind := label.colon.bytes ++ ascii ':' :: (label.value.bytes ++ text)
  have key : nextKey first (label.bytes first ++ text) =
      (readText (Content.bytes label.content ++ ascii '"' :: behind)).map fun read =>
        (some read.1, read.2) := by
    cases first with
    | true =>
        simp only [Label.bytes, Separator.bytes, if_true, nextKey, List.append_assoc,
          List.cons_append, skipSpace_gap_cons _ (show isSpace (ascii '"') = false by decide),
          show ascii '"' ≠ ascii '\x7d' by decide, if_false, behind]
        cases readText _ <;> rfl
    | false =>
        simp only [Label.bytes, Separator.bytes, Bool.false_eq_true, if_true, if_false, nextKey,
          List.append_assoc, List.cons_append,
          skipSpace_gap_cons _ (show isSpace (ascii '"') = false by decide),
          skipSpace_gap_cons _ (show isSpace (ascii ',') = false by decide),
          show ascii ',' ≠ ascii '\x7d' by decide, behind]
        cases readText _ <;> rfl
  rw [key, Label.name?]
  obtain ⟨none, fault, failed⟩ | ⟨name, found, read⟩ :=
    error_or_ok (Content.readText_content label.content behind)
  · rw [failed, none]
    rfl
  · rw [read, found]
    rfl

theorem nextKey_closing (first : Bool) (closing : Gap) (rest : Bytes) :
    nextKey first (closing.bytes ++ ascii '\x7d' :: rest) = .ok (none, ascii '\x7d' :: rest) := by
  rw [nextKey, skipSpace_gap_cons closing (by decide)]
  exact if_pos rfl

theorem colon_gap (gap : Gap) (rest : Bytes) :
    colon (gap.bytes ++ ascii ':' :: rest) = .ok rest := by
  rw [colon, skipSpace_gap_cons gap (by decide)]
  exact if_pos rfl

/-! ### Lists and objects -/

theorem short_behind {part behind : Bytes} {size : Nat} (h : (part ++ behind).length ≤ size) :
    behind.length ≤ size := by
  rw [List.length_append] at h
  omega

theorem short_parts {front part behind : Bytes} {size : Nat}
    (h : (front ++ (part ++ behind)).length ≤ size) :
    (part ++ behind).length ≤ size ∧ behind.length ≤ size := by
  simp only [List.length_append] at h ⊢
  omega

section
variable {α : Type}

/-- What `read` makes of a writing, or that it makes nothing of it, whatever stands behind it and
whatever spaces stand in front. -/
def Yields (read : Bytes → Except Fault (α × Bytes)) (size : Nat) (w : Writing)
    (result : Option α) : Prop :=
  ∀ text rest, skipSpace text = w.bytes ++ rest → Ends rest → (w.bytes ++ rest).length ≤ size →
    (read text).toOption = result.map fun a => (a, rest)

variable {read : Bytes → Except Fault (α × Bytes)} {size : Nat} {value : Writing → Option α}

theorem readItems_yields {items : List (Separator × Writing)}
    (each : ∀ item ∈ items, Yields read size item.2 (value item.2)) (closing : Gap) (rest : Bytes)
    (before : List α) {steps : Nat} (enough : items.length < steps)
    (short : (Writing.listTail before.isEmpty items closing rest).length ≤ size) :
    (readItems read steps before (Writing.listTail before.isEmpty items closing rest)).toOption =
      (items.mapM fun item => value item.2).map fun values =>
        (before.reverse ++ values, ascii ']' :: rest) := by
  obtain ⟨steps, rfl⟩ := Nat.exists_eq_add_one.mpr (Nat.zero_lt_of_lt enough)
  induction items generalizing before steps with
  | nil =>
      simp only [Writing.listTail, Writing.itemsBytes, List.nil_append, readItems,
        nextItem_closing, bind, Except.bind, List.mapM_nil, pure, Option.map_some, List.append_nil]
      rfl
  | cons item items ih =>
      obtain ⟨separator, w⟩ := item
      obtain ⟨here, others⟩ := List.forall_mem_cons.mp each
      have fewer := Nat.lt_of_succ_lt_succ enough
      obtain ⟨steps, rfl⟩ := Nat.exists_eq_add_one.mpr (Nat.zero_lt_of_lt fewer)
      rw [Writing.listTail_cons] at short ⊢
      obtain ⟨shorter, shortest⟩ := short_parts short
      rw [readItems, nextItem_writing, List.mapM_cons]
      obtain ⟨none, fault, failed⟩ | ⟨a, found, taken⟩ := error_or_ok
        (here _ _ (Writing.skipSpace_writing w _) (Writing.ends_listTail items closing rest) shorter)
      · simp only [bind, Except.bind, failed, none, Option.bind_none]
        rfl
      · have rest := ih others (a :: before) shortest steps fewer
        rw [List.isEmpty_cons] at rest
        simp only [bind, Except.bind, taken, found, Option.bind_some, rest]
        cases items.mapM fun item => value item.2 <;> simp

/-- A member under the name that is read. -/
def named (value : Writing → Option α) (member : Label × Writing) : Option (String × α) := do
  return (← member.1.name?, ← value member.2)

theorem readMembers_yields {members : List (Label × Writing)}
    (each : ∀ member ∈ members, Yields read size member.2 (value member.2)) (closing : Gap)
    (rest : Bytes) (before : List (String × α)) {steps : Nat} (enough : members.length < steps)
    (short : (Writing.objectTail before.isEmpty members closing rest).length ≤ size) :
    (readMembers read steps before
        (Writing.objectTail before.isEmpty members closing rest)).toOption =
      (members.mapM (named value)).map fun values =>
        (before.reverse ++ values, ascii '\x7d' :: rest) := by
  obtain ⟨steps, rfl⟩ := Nat.exists_eq_add_one.mpr (Nat.zero_lt_of_lt enough)
  induction members generalizing before steps with
  | nil =>
      simp only [Writing.objectTail, Writing.membersBytes, List.nil_append, readMembers,
        nextKey_closing, bind, Except.bind, List.mapM_nil, pure, Option.map_some, List.append_nil]
      rfl
  | cons member members ih =>
      obtain ⟨label, w⟩ := member
      obtain ⟨here, others⟩ := List.forall_mem_cons.mp each
      have fewer := Nat.lt_of_succ_lt_succ enough
      obtain ⟨steps, rfl⟩ := Nat.exists_eq_add_one.mpr (Nat.zero_lt_of_lt fewer)
      rw [Writing.objectTail_cons] at short ⊢
      obtain ⟨shorter, shortest⟩ := short_parts short
      rw [readMembers, List.mapM_cons]
      obtain ⟨none, fault, failed⟩ | ⟨name, written, key⟩ :=
        error_or_ok (nextKey_label label before.isEmpty
          (w.bytes ++ Writing.objectTail false members closing rest))
      · simp only [bind, Except.bind, failed, named, none, Option.bind_none]
        rfl
      obtain ⟨none, fault, failed⟩ | ⟨a, found, taken⟩ := error_or_ok
        (here (label.value.bytes ++ (w.bytes ++ Writing.objectTail false members closing rest)) _
          (Writing.skipSpace_behind ..) (Writing.ends_objectTail members closing rest) shorter)
      · simp only [bind, Except.bind, key, colon_gap, failed, named, none, written, Option.bind_some,
          Option.bind_none]
        rfl
      · have rest := ih others ((name, a) :: before) shortest steps fewer
        rw [List.isEmpty_cons] at rest
        simp only [bind, Except.bind, key, colon_gap, taken, named, found, written, Option.bind_some,
          rest]
        cases members.mapM (named value) <;> simp

end

/-! ### Values -/

namespace Writing

mutual

/-- What a text is read as where so many brackets may be opened. -/
def value? : Nat → Writing → Option Json
  | _, .null => some .null
  | _, .bool value => some (.bool value)
  | _, .number n => n.value?.map .number
  | _, .string content => content.text?.map .string
  | 0, .list _ _ | 0, .object _ _ => none
  | levels + 1, .list items _ => (itemValues levels items).map .list
  | levels + 1, .object members _ => (memberValues levels members).map .object

def itemValues (levels : Nat) : List (Separator × Writing) → Option (List Json)
  | [] => some []
  | (_, w) :: items => do return (← w.value? levels) :: (← itemValues levels items)

def memberValues (levels : Nat) : List (Label × Writing) → Option (List (String × Json))
  | [] => some []
  | (label, w) :: members => do
    return (← label.name?, ← w.value? levels) :: (← memberValues levels members)

end

theorem itemValues_eq (levels : Nat) (items : List (Separator × Writing)) :
    itemValues levels items = items.mapM fun item => item.2.value? levels := by
  induction items with
  | nil => rfl
  | cons item items ih => rw [itemValues, List.mapM_cons, ih]

theorem memberValues_eq (levels : Nat) (members : List (Label × Writing)) :
    memberValues levels members = members.mapM (named (value? levels)) := by
  induction members with
  | nil => rfl
  | cons member members ih =>
      rw [memberValues, List.mapM_cons, ih]
      simp only [named, bind_assoc, pure_bind]

/-- A text is read as a value of its own kind. -/
theorem kind_of_value {levels : Nat} {w : Writing} {v : Json} (h : w.value? levels = some v) :
    match v with
    | .null => w = .null
    | .bool b => w = .bool b
    | .number _ => ∃ n, w = .number n
    | .string _ => ∃ content, w = .string content
    | .list _ => ∃ items closing, w = .list items closing
    | .object _ => ∃ members closing, w = .object members closing := by
  cases w with
  | null => cases h; rfl
  | bool b => cases h; rfl
  | number n =>
      obtain ⟨value, -, rfl⟩ := Option.map_eq_some_iff.mp h
      exact ⟨n, rfl⟩
  | string content =>
      obtain ⟨text, -, rfl⟩ := Option.map_eq_some_iff.mp h
      exact ⟨content, rfl⟩
  | list items closing =>
      cases levels with
      | zero => cases h
      | succ levels =>
          obtain ⟨values, -, rfl⟩ := Option.map_eq_some_iff.mp h
          exact ⟨items, closing, rfl⟩
  | object members closing =>
      cases levels with
      | zero => cases h
      | succ levels =>
          obtain ⟨values, -, rfl⟩ := Option.map_eq_some_iff.mp h
          exact ⟨members, closing, rfl⟩

end Writing

/-- A value without brackets, from behind its first byte. -/
theorem readScalar_yields {w : Writing} {first : UInt8} {text rest : Bytes}
    (written : w.bytes ++ rest = first :: text) (ends : Ends rest) (levels : Nat)
    (list : first ≠ ascii '[') (object : first ≠ ascii '\x7b') :
    (readScalar first text).toOption = (w.value? levels).map fun v => (v, rest) := by
  cases w with
  | null =>
      cases written
      exact congrArg _ (readScalar_null rest)
  | bool value =>
      cases value with
      | false =>
          cases written
          exact congrArg _ (readScalar_false rest)
      | true =>
          cases written
          exact congrArg _ (readScalar_true rest)
  | number n =>
      obtain ⟨b, behind, same, numeral⟩ := n.starts rest
      obtain ⟨rfl, rfl⟩ := List.cons.inj (same.symm.trans written)
      rw [readScalar_numeral numeral, ← written, Writing.bytes, Writing.value?]
      obtain ⟨none, fault, failed⟩ | ⟨value, found, read⟩ := error_or_ok (n.readNumber_numeral ends)
      · rw [failed, none]
        rfl
      · rw [read, found]
        rfl
  | string content =>
      rw [Writing.string_append] at written
      obtain ⟨rfl, rfl⟩ := List.cons.inj written
      rw [readScalar_text, Writing.value?]
      obtain ⟨none, fault, failed⟩ | ⟨value, found, read⟩ :=
        error_or_ok (Content.readText_content content rest)
      · rw [failed, none]
        rfl
      · rw [read, found]
        rfl
  | list items closing =>
      rw [Writing.list_append] at written
      exact absurd (List.cons.inj written).1.symm list
  | object members closing =>
      rw [Writing.object_append] at written
      exact absurd (List.cons.inj written).1.symm object

theorem readValue_skipSpace {text text' : Bytes} (same : skipSpace text = skipSpace text')
    (steps levels : Nat) : readValue steps levels text = readValue steps levels text' := by
  rw [readValue_eq, readWith, readWith, same]

theorem Yields.readValue {steps levels : Nat} {w : Writing} {result : Option Json}
    (h : ∀ rest, Ends rest → (w.bytes ++ rest).length ≤ steps →
      (Json.readValue steps levels (w.bytes ++ rest)).toOption = result.map fun v => (v, rest)) :
    Yields (Json.readValue steps levels) steps w result := by
  intro text rest spaced
  rw [← Writing.skipSpace_writing] at spaced
  rw [readValue_skipSpace spaced]
  exact h rest

theorem Yields.scalar {w : Writing} (list : ∀ items closing, w ≠ .list items closing)
    (object : ∀ members closing, w ≠ .object members closing) (steps levels : Nat) :
    Yields (Json.readValue steps levels) steps w (w.value? levels) := by
  refine .readValue fun rest ends short => ?_
  obtain ⟨first, text, written, visible, list, object⟩ := Writing.scalar_starts list object rest
  rw [written, readValue_scalar visible list object]
  exact readScalar_yields written ends levels list object

/-- The induction is on the writing; what stands in its brackets is read with one level less. -/
theorem readValue_yields (w : Writing) (steps levels : Nat) :
    Yields (readValue steps levels) steps w (w.value? levels) := by
  induction w generalizing levels with
  | null | bool _ | number _ | string _ => exact .scalar (by simp) (by simp) steps levels
  | list items closing ih =>
      refine .readValue fun rest ends short => ?_
      rw [Writing.list_append] at short ⊢
      cases levels with
      | zero =>
          rw [readValue_bracket (.inl rfl)]
          rfl
      | succ levels =>
          have enough := Writing.length_listTail true items closing rest
          rw [readValue_list, Writing.value?, Writing.itemValues_eq]
          obtain ⟨none, fault, failed⟩ | ⟨values, found, taken⟩ := error_or_ok
            (readItems_yields (fun item there => ih item there levels) closing rest []
              (Nat.lt_trans enough short) (Nat.le_of_succ_le short))
          · rw [List.isEmpty_nil] at failed
            simp only [bind, Except.bind, failed, none]
            rfl
          · rw [List.isEmpty_nil] at taken
            simp only [bind, Except.bind, taken, found, endList_written]
            rfl
  | object members closing ih =>
      refine .readValue fun rest ends short => ?_
      rw [Writing.object_append] at short ⊢
      cases levels with
      | zero =>
          rw [readValue_bracket (.inr rfl)]
          rfl
      | succ levels =>
          have enough := Writing.length_objectTail true members closing rest
          rw [readValue_object, Writing.value?, Writing.memberValues_eq]
          obtain ⟨none, fault, failed⟩ | ⟨values, found, taken⟩ := error_or_ok
            (readMembers_yields (fun member there => ih member there levels) closing rest []
              (Nat.lt_trans enough short) (Nat.le_of_succ_le short))
          · rw [List.isEmpty_nil] at failed
            simp only [bind, Except.bind, failed, none]
            rfl
          · rw [List.isEmpty_nil] at taken
            simp only [bind, Except.bind, taken, found, endObject_written]
            rfl

end EventClient.Json
