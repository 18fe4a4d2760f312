import Mathlib.Data.List.Forall2
import EventClient.Proofs.Json.Scalars

/-!
A value whose numbers are integers of 64 bits is read back from its text, as long as its brackets
nest no deeper than the reader allows; where they do, the reader says so. Both are proved along the
value, the text behind it being arbitrary but for the end of a number.
-/
namespace EventClient.Json

theorem isExact_list {items : List Json} :
    (Json.list items).IsExact ↔ ∀ item ∈ items, item.IsExact := by
  simp only [IsExact, numbers, itemsNumbers_eq, List.mem_flatMap]
  exact ⟨fun h item there n inside => h n ⟨item, there, inside⟩,
    fun h n ⟨item, there, inside⟩ => h item there n inside⟩

theorem isExact_object {members : List (String × Json)} :
    (Json.object members).IsExact ↔ ∀ member ∈ members, member.2.IsExact := by
  simp only [IsExact, numbers, membersNumbers_eq, List.mem_flatMap]
  exact ⟨fun h member there n inside => h n ⟨member, there, inside⟩,
    fun h n ⟨member, there, inside⟩ => h member there n inside⟩

theorem IsExact.integer {n : Int} (h : (Json.number (.integer n)).IsExact) :
    (JsonNumber.integer n).IsExact :=
  h _ (List.mem_singleton.mpr rfl)

theorem not_isExact_real (x : Binary64) : ¬ (Json.number (.real x)).IsExact :=
  fun h => h _ (List.mem_singleton.mpr rfl)

/-! ### Lengths of written texts -/

theorem length_writeNat (n : Nat) (rest : Bytes) : rest.length < (writeNat n rest).length := by
  induction n using Nat.strongRecOn generalizing rest with
  | ind n ih =>
  rw [writeNat]
  split
  · exact Nat.lt_succ_self _
  · next large =>
      have more := ih (n / 10) (by omega) ((48 + n % 10).toUInt8 :: rest)
      rw [List.length_cons] at more
      omega

theorem length_writeInt (n : Int) (rest : Bytes) : rest.length < (writeInt n rest).length := by
  have more := length_writeNat n.natAbs rest
  rw [writeInt]
  split
  · exact Nat.lt_succ_of_lt more
  · exact more

theorem length_writeWord {word : String} (letters : 0 < (Text.bytes word).length) (rest : Bytes) :
    rest.length < (writeWord word rest).length := by
  rw [writeWord, List.length_append]
  omega

theorem length_writeItems {items : List Json}
    (longer : ∀ item ∈ items, ∀ rest : Bytes, rest.length < (item.write rest).length)
    (rest : Bytes) : rest.length + items.length < (writeItems items rest).length := by
  induction items with
  | nil => simp [writeItems]
  | cons item items ih =>
      obtain ⟨first, others⟩ := List.forall_mem_cons.mp longer
      have more := first (writeItems items rest)
      have before := ih others
      simp only [writeItems, List.length_cons]
      omega

theorem length_writeMembers {members : List (String × Json)}
    (longer : ∀ member ∈ members, ∀ rest : Bytes, rest.length < (member.2.write rest).length)
    (rest : Bytes) : rest.length + members.length < (writeMembers members rest).length := by
  induction members with
  | nil => simp [writeMembers]
  | cons member members ih =>
      obtain ⟨first, others⟩ := List.forall_mem_cons.mp longer
      have more := first (writeMembers members rest)
      have before := ih others
      have key := length_writeText member.1
        (ascii ':' :: member.2.write (writeMembers members rest))
      simp only [writeMembers, List.length_cons] at key ⊢
      omega

theorem length_write {v : Json} (exact : v.IsExact) (rest : Bytes) :
    rest.length < (v.write rest).length := by
  induction v generalizing rest with
  | null => exact length_writeWord (by decide) rest
  | bool b => cases b <;> exact length_writeWord (by decide) rest
  | number n =>
      cases n with
      | integer n => exact length_writeInt n rest
      | real x => exact absurd exact (not_isExact_real x)
  | string text =>
      have more := length_writeText text rest
      rw [write]
      omega
  | list items ih =>
      have inside := isExact_list.mp exact
      cases items with
      | nil => exact Nat.lt_succ_of_lt (Nat.lt_succ_self _)
      | cons item items =>
          have longer := length_writeItems
            (fun item' there => ih item' (.tail _ there) (inside item' (.tail _ there))) rest
          have first := ih item (.head _) (inside item (.head _)) (writeItems items rest)
          simp only [write, List.length_cons]
          omega
  | object members ih =>
      have inside := isExact_object.mp exact
      cases members with
      | nil => exact Nat.lt_succ_of_lt (Nat.lt_succ_self _)
      | cons member members =>
          have longer := length_writeMembers
            (fun member' there => ih member' (.tail _ there) (inside member' (.tail _ there))) rest
          have first := ih member (.head _) (inside member (.head _)) (writeMembers members rest)
          have key := length_writeText member.1
            (ascii ':' :: member.2.write (writeMembers members rest))
          simp only [write, List.length_cons] at key ⊢
          omega

/-! ### What stands in front and behind -/

theorem ends_writeItems (items : List Json) (rest : Bytes) : Ends (writeItems items rest) := by
  cases items <;> intro b there <;> cases there <;> decide

theorem ends_writeMembers (members : List (String × Json)) (rest : Bytes) :
    Ends (writeMembers members rest) := by
  cases members <;> intro b there <;> cases there <;> decide

/-- The first byte of a value is neither a space nor one that ends or separates. -/
structure Starts (v : Json) (first : UInt8) : Prop where
  visible : isSpace first = false
  closing : first ≠ ascii ']'
  null : first = ascii 'n' → v = .null

theorem write_starts {v : Json} (exact : v.IsExact) (rest : Bytes) :
    ∃ first text, v.write rest = first :: text ∧ Starts v first := by
  cases v with
  | null => exact ⟨_, _, rfl, by decide, by decide, fun _ => rfl⟩
  | bool b => cases b <;> exact ⟨_, _, rfl, by decide, by decide, fun h => absurd h (by decide)⟩
  | string text => exact ⟨_, _, rfl, by decide, by decide, fun h => absurd h (by decide)⟩
  | list items =>
      cases items <;> exact ⟨_, _, rfl, by decide, by decide, fun h => absurd h (by decide)⟩
  | object members =>
      cases members <;> exact ⟨_, _, rfl, by decide, by decide, fun h => absurd h (by decide)⟩
  | number n =>
      cases n with
      | real x => exact absurd exact (not_isExact_real x)
      | integer n =>
          obtain ⟨first, text, written, numeral⟩ := writeInt_numeral exact.integer rest
          exact ⟨first, text, written, numeral.not_isSpace, numeral.ne (by decide) (by decide),
            fun h => absurd h (numeral.ne (by decide) (by decide))⟩

/-- The text of a list from behind its bracket or from behind an item. -/
def itemsText (first : Bool) : List Json → Bytes → Bytes
  | [], rest => ascii ']' :: rest
  | v :: items, rest =>
    if first then v.write (writeItems items rest) else ascii ',' :: v.write (writeItems items rest)

/-- The text of an object from behind its bracket or from behind a member. -/
def membersText (first : Bool) : List (String × Json) → Bytes → Bytes
  | [], rest => ascii '\x7d' :: rest
  | (name, v) :: members, rest =>
    let text := writeText name (ascii ':' :: v.write (writeMembers members rest))
    if first then text else ascii ',' :: text

theorem itemsText_later (items : List Json) (rest : Bytes) :
    itemsText false items rest = writeItems items rest := by
  cases items <;> rfl

theorem membersText_later (members : List (String × Json)) (rest : Bytes) :
    membersText false members rest = writeMembers members rest := by
  cases members <;> rfl

theorem write_list (items : List Json) (rest : Bytes) :
    (Json.list items).write rest = ascii '[' :: itemsText true items rest := by
  cases items <;> rfl

theorem write_object (members : List (String × Json)) (rest : Bytes) :
    (Json.object members).write rest = ascii '\x7b' :: membersText true members rest := by
  cases members <;> rfl

theorem nextItem_there {v : Json} (exact : v.IsExact) (first : Bool) (items : List Json)
    (rest : Bytes) :
    nextItem first (itemsText first (v :: items) rest) =
      .ok (true, v.write (writeItems items rest)) := by
  obtain ⟨b, text, written, starts⟩ := write_starts exact (writeItems items rest)
  cases first with
  | true =>
      simp only [itemsText, if_true, written, nextItem, skipSpace_cons starts.visible,
        starts.closing, if_false]
  | false =>
      simp only [itemsText, written, nextItem, skipSpace_cons starts.visible, starts.closing,
        skipSpace_cons (show isSpace (ascii ',') = false by decide), if_false, if_true,
        Bool.false_eq_true, show ascii ',' ≠ ascii ']' by decide]

theorem nextItem_none (first : Bool) (rest : Bytes) :
    nextItem first (itemsText first [] rest) = .ok (false, ascii ']' :: rest) := by
  rw [itemsText, nextItem, skipSpace_cons (by decide)]
  exact if_pos rfl

theorem nextKey_there (first : Bool) (name : String) (v : Json) (members : List (String × Json))
    (rest : Bytes) :
    nextKey first (membersText first ((name, v) :: members) rest) =
      .ok (some name, ascii ':' :: v.write (writeMembers members rest)) := by
  have key := readText_written name (ascii ':' :: v.write (writeMembers members rest))
  cases first with
  | true =>
      simp only [membersText, if_true, writeText, nextKey, if_false, key,
        skipSpace_cons (show isSpace (ascii '"') = false by decide),
        show ascii '"' ≠ ascii '\x7d' by decide]
  | false =>
      simp only [membersText, writeText, nextKey, if_false, if_true, key, Bool.false_eq_true,
        skipSpace_cons (show isSpace (ascii '"') = false by decide),
        skipSpace_cons (show isSpace (ascii ',') = false by decide),
        show ascii ',' ≠ ascii '\x7d' by decide]

theorem nextKey_none (first : Bool) (rest : Bytes) :
    nextKey first (membersText first [] rest) = .ok (none, ascii '\x7d' :: rest) := by
  rw [membersText, nextKey, skipSpace_cons (by decide)]
  exact if_pos rfl

theorem endList_written (rest : Bytes) : endList (ascii ']' :: rest) = .ok rest := by
  rw [endList, skipSpace_cons (by decide)]
  exact if_pos rfl

theorem endObject_written (rest : Bytes) : endObject (ascii '\x7d' :: rest) = .ok rest := by
  rw [endObject, skipSpace_cons (by decide)]
  exact if_pos rfl

theorem colon_written (rest : Bytes) : colon (ascii ':' :: rest) = .ok rest := by
  rw [colon, skipSpace_cons (by decide)]
  exact if_pos rfl

/-! ### Lists and objects -/

section
variable {α : Type}

/-- Where `item` reads something from the text of a value, whatever comes behind it. -/
structure ReadsBack (item : Bytes → Except Fault (α × Bytes)) (size : Nat) (v : Json) (a : α) :
    Prop where
  exact : v.IsExact
  read : ∀ rest, Ends rest → (v.write rest).length ≤ size → item (v.write rest) = .ok (a, rest)

/-- Where `item` finds a value nested too deeply. -/
structure Overflows (item : Bytes → Except Fault (α × Bytes)) (size : Nat) (v : Json) :
    Prop where
  exact : v.IsExact
  fault : ∀ rest, Ends rest → (v.write rest).length ≤ size →
    ∃ unread, item (v.write rest) = .error ⟨.nestedTooDeep, unread⟩

end

theorem length_itemsText {v : Json} (exact : v.IsExact) (first : Bool) (items : List Json)
    (rest : Bytes) :
    (v.write (writeItems items rest)).length ≤ (itemsText first (v :: items) rest).length ∧
      (itemsText false items rest).length < (itemsText first (v :: items) rest).length := by
  have longer := length_write exact (writeItems items rest)
  rw [itemsText_later, itemsText]
  cases first
  · simp only [Bool.false_eq_true, if_false, List.length_cons]
    omega
  · simp only [if_true]
    omega

theorem length_membersText {v : Json} (exact : v.IsExact) (first : Bool) (name : String)
    (members : List (String × Json)) (rest : Bytes) :
    (v.write (writeMembers members rest)).length ≤
        (membersText first ((name, v) :: members) rest).length ∧
      (membersText false members rest).length <
        (membersText first ((name, v) :: members) rest).length := by
  have longer := length_write exact (writeMembers members rest)
  have key := length_writeText name (ascii ':' :: v.write (writeMembers members rest))
  rw [membersText_later, membersText]
  rw [List.length_cons] at key
  cases first
  · simp only [Bool.false_eq_true, if_false, List.length_cons]
    omega
  · simp only [if_true]
    omega

theorem length_items {items : List Json} (exact : (Json.list items).IsExact) (rest : Bytes) :
    items.length < ((Json.list items).write rest).length := by
  have longer := length_writeItems
    (fun item there => length_write (isExact_list.mp exact item there)) rest
  rw [write_list, List.length_cons]
  cases items with
  | nil => exact Nat.succ_pos _
  | cons item items =>
      simp only [writeItems, List.length_cons, itemsText, if_true] at longer ⊢
      omega

theorem length_members {members : List (String × Json)} (exact : (Json.object members).IsExact)
    (rest : Bytes) : members.length < ((Json.object members).write rest).length := by
  have longer := length_writeMembers
    (fun member there => length_write (isExact_object.mp exact member there)) rest
  rw [write_object, List.length_cons]
  cases members with
  | nil => exact Nat.succ_pos _
  | cons member members =>
      simp only [writeMembers, List.length_cons, membersText, if_true] at longer ⊢
      omega

section
variable {α : Type} {item : Bytes → Except Fault (α × Bytes)} {size : Nat} {rest : Bytes}

/-- Items that are read back are behind the reader. -/
theorem readItems_through {items later : List Json} {values : List α}
    (reads : List.Forall₂ (ReadsBack item size) items values) (read : List α) (steps : Nat)
    (short : (itemsText read.isEmpty (items ++ later) rest).length ≤ size) :
    let behind := values.reverse ++ read
    readItems item (items.length + steps) read (itemsText read.isEmpty (items ++ later) rest) =
        readItems item steps behind (itemsText behind.isEmpty later rest) ∧
      (itemsText behind.isEmpty later rest).length ≤ size := by
  induction reads generalizing read with
  | nil => exact ⟨by rw [List.length_nil, Nat.zero_add]; rfl, short⟩
  | @cons v a items values first others ih =>
      obtain ⟨here, there⟩ := length_itemsText first.exact read.isEmpty (items ++ later) rest
      have value := first.read _ (ends_writeItems (items ++ later) rest) (Nat.le_trans here short)
      have through := ih (a :: read) (Nat.le_of_lt (Nat.lt_of_lt_of_le there short))
      rw [List.isEmpty_cons, itemsText_later, List.append_cons, ← List.reverse_cons] at through
      rw [List.length_cons, Nat.add_right_comm, List.cons_append, readItems,
        nextItem_there first.exact]
      simp only [bind, Except.bind, value]
      exact through

theorem readItems_all {items : List Json} {values : List α}
    (reads : List.Forall₂ (ReadsBack item size) items values) {steps : Nat}
    (enough : items.length < steps) (short : (itemsText true items rest).length ≤ size) :
    readItems item steps [] (itemsText true items rest) = .ok (values, ascii ']' :: rest) := by
  obtain ⟨more, rfl⟩ := Nat.exists_eq_add_of_lt enough
  have whole : items ++ [] = items := List.append_nil items
  have through := (readItems_through reads [] (more + 1) (whole.symm ▸ short)).1
  rw [whole, List.append_nil, List.isEmpty_nil] at through
  rw [Nat.add_assoc, through, readItems, nextItem_none, List.reverse_reverse]
  rfl

/-- The first item that is nested too deeply ends the list. -/
theorem readItems_overflow {items later : List Json} {values : List α} {v : Json}
    (reads : List.Forall₂ (ReadsBack item size) items values) (deeper : Overflows item size v)
    {steps : Nat} (enough : items.length < steps)
    (short : (itemsText true (items ++ v :: later) rest).length ≤ size) :
    ∃ unread, readItems item steps [] (itemsText true (items ++ v :: later) rest) =
      .error ⟨.nestedTooDeep, unread⟩ := by
  obtain ⟨more, rfl⟩ := Nat.exists_eq_add_of_lt enough
  obtain ⟨through, short'⟩ := readItems_through reads [] (more + 1) short
  rw [List.append_nil] at through short'
  obtain ⟨here, -⟩ := length_itemsText deeper.exact values.reverse.isEmpty later rest
  obtain ⟨unread, fault⟩ :=
    deeper.fault _ (ends_writeItems later rest) (Nat.le_trans here short')
  refine ⟨unread, ?_⟩
  rw [List.isEmpty_nil] at through
  rw [Nat.add_assoc, through, readItems, nextItem_there deeper.exact]
  simp only [bind, Except.bind, fault]

end

section
variable {item : Bytes → Except Fault (Json × Bytes)} {size : Nat} {rest : Bytes}

/-- Members that are read back are behind the reader. -/
theorem readMembers_through {members later : List (String × Json)}
    (reads : ∀ m ∈ members, ReadsBack item size m.2 m.2) (read : List (String × Json)) (steps : Nat)
    (short : (membersText read.isEmpty (members ++ later) rest).length ≤ size) :
    let behind := members.reverse ++ read
    readMembers item (members.length + steps) read
          (membersText read.isEmpty (members ++ later) rest) =
        readMembers item steps behind (membersText behind.isEmpty later rest) ∧
      (membersText behind.isEmpty later rest).length ≤ size := by
  induction members generalizing read with
  | nil => exact ⟨by rw [List.length_nil, Nat.zero_add]; rfl, short⟩
  | cons m members ih =>
      obtain ⟨name, v⟩ := m
      obtain ⟨first, others⟩ := List.forall_mem_cons.mp reads
      obtain ⟨here, there⟩ :=
        length_membersText first.exact read.isEmpty name (members ++ later) rest
      have value := first.read _ (ends_writeMembers (members ++ later) rest)
        (Nat.le_trans here short)
      have through := ih others ((name, v) :: read) (Nat.le_of_lt (Nat.lt_of_lt_of_le there short))
      rw [List.isEmpty_cons, membersText_later, List.append_cons, ← List.reverse_cons] at through
      rw [List.length_cons, Nat.add_right_comm, List.cons_append, readMembers, nextKey_there]
      simp only [bind, Except.bind, colon_written, value]
      exact through

theorem readMembers_all {members : List (String × Json)}
    (reads : ∀ m ∈ members, ReadsBack item size m.2 m.2) {steps : Nat}
    (enough : members.length < steps) (short : (membersText true members rest).length ≤ size) :
    readMembers item steps [] (membersText true members rest) =
      .ok (members, ascii '\x7d' :: rest) := by
  obtain ⟨more, rfl⟩ := Nat.exists_eq_add_of_lt enough
  have whole : members ++ [] = members := List.append_nil members
  have through := (readMembers_through reads [] (more + 1) (whole.symm ▸ short)).1
  rw [whole, List.append_nil, List.isEmpty_nil] at through
  rw [Nat.add_assoc, through, readMembers, nextKey_none, List.reverse_reverse]
  rfl

theorem readMembers_overflow {members later : List (String × Json)} {name : String} {v : Json}
    (reads : ∀ m ∈ members, ReadsBack item size m.2 m.2) (deeper : Overflows item size v)
    {steps : Nat} (enough : members.length < steps)
    (short : (membersText true (members ++ (name, v) :: later) rest).length ≤ size) :
    ∃ unread, readMembers item steps [] (membersText true (members ++ (name, v) :: later) rest) =
      .error ⟨.nestedTooDeep, unread⟩ := by
  obtain ⟨more, rfl⟩ := Nat.exists_eq_add_of_lt enough
  obtain ⟨through, short'⟩ := readMembers_through reads [] (more + 1) short
  rw [List.append_nil] at through short'
  obtain ⟨here, -⟩ := length_membersText deeper.exact members.reverse.isEmpty name later rest
  obtain ⟨unread, fault⟩ :=
    deeper.fault _ (ends_writeMembers later rest) (Nat.le_trans here short')
  refine ⟨unread, ?_⟩
  rw [List.isEmpty_nil] at through
  rw [Nat.add_assoc, through, readMembers, nextKey_there]
  simp only [bind, Except.bind, colon_written, fault]

end

/-! ### Values -/

/-- The reader of what stands in a value's brackets. -/
def inner? (steps : Nat) : Nat → Option (Bytes → Except Fault (Json × Bytes))
  | 0 => none
  | levels + 1 => some (readValue steps levels)

theorem readValue_eq (steps levels : Nat) :
    readValue steps levels = readWith steps (inner? steps levels) := by
  cases levels <;> rfl

theorem readValue_scalar {first : UInt8} (visible : isSpace first = false)
    (list : first ≠ ascii '[') (object : first ≠ ascii '\x7b') (steps levels : Nat)
    (text : Bytes) : readValue steps levels (first :: text) = readScalar first text := by
  rw [readValue_eq, readWith, skipSpace_cons visible]
  simp only [list, object, if_false]

theorem readValue_null (steps levels : Nat) (rest : Bytes) :
    readValue steps levels (Json.null.write rest) = .ok (.null, rest) := by
  rw [write, writeWord, show Text.bytes "null" = ascii 'n' :: Text.bytes "ull" by decide,
    List.cons_append, readValue_scalar (by decide) (by decide) (by decide), readScalar_null]

theorem readValue_bool (b : Bool) (steps levels : Nat) (rest : Bytes) :
    readValue steps levels ((Json.bool b).write rest) = .ok (.bool b, rest) := by
  cases b with
  | false =>
      rw [write, writeWord, show Text.bytes "false" = ascii 'f' :: Text.bytes "alse" by decide,
        List.cons_append, readValue_scalar (by decide) (by decide) (by decide), readScalar_false]
  | true =>
      rw [write, writeWord, show Text.bytes "true" = ascii 't' :: Text.bytes "rue" by decide,
        List.cons_append, readValue_scalar (by decide) (by decide) (by decide), readScalar_true]

theorem readValue_integer {n : Int} (exact : (JsonNumber.integer n).IsExact)
    (steps levels : Nat) {rest : Bytes} (ends : Ends rest) :
    readValue steps levels ((Json.number (.integer n)).write rest) =
      .ok (.number (.integer n), rest) := by
  have read := readNumber_written exact ends
  obtain ⟨first, text, written, numeral⟩ := writeInt_numeral exact rest
  rw [written] at read
  rw [write, writeNumber, written, readValue_scalar numeral.not_isSpace
    (numeral.ne (by decide) (by decide)) (numeral.ne (by decide) (by decide)),
    readScalar_numeral numeral, read]
  rfl

theorem readValue_string (value : String) (steps levels : Nat) (rest : Bytes) :
    readValue steps levels ((Json.string value).write rest) = .ok (.string value, rest) := by
  rw [write, writeText, readValue_scalar (by decide) (by decide) (by decide), readScalar_text,
    readText_written]
  rfl

theorem readValue_list (steps levels : Nat) (text : Bytes) :
    readValue steps (levels + 1) (ascii '[' :: text) = do
      let (items, rest) ← readItems (readValue steps levels) steps [] text
      return (.list items, ← endList rest) := by
  rw [readValue, readWith, skipSpace_cons (by decide)]
  exact if_pos rfl

theorem readValue_object (steps levels : Nat) (text : Bytes) :
    readValue steps (levels + 1) (ascii '\x7b' :: text) = do
      let (members, rest) ← readMembers (readValue steps levels) steps [] text
      return (.object members, ← endObject rest) := by
  rw [readValue, readWith, skipSpace_cons (by decide)]
  rfl

theorem readValue_bracket {bracket : UInt8} (h : bracket = ascii '[' ∨ bracket = ascii '\x7b')
    (steps : Nat) (text : Bytes) :
    readValue steps 0 (bracket :: text) = .error ⟨.nestedTooDeep, text⟩ := by
  rcases h with rfl | rfl <;> rfl

/-- The induction is on the value; what stands in its brackets is read with one level less. -/
theorem readsBack_readValue {v : Json} (exact : v.IsExact) {steps levels : Nat}
    (deep : v.depth ≤ levels) : ReadsBack (readValue steps levels) steps v v := by
  refine ⟨exact, ?_⟩
  induction v generalizing levels with
  | null => exact fun rest _ _ => readValue_null steps levels rest
  | bool b => exact fun rest _ _ => readValue_bool b steps levels rest
  | number n =>
      cases n with
      | real x => exact absurd exact (not_isExact_real x)
      | integer n => exact fun rest ends _ => readValue_integer exact.integer steps levels ends
  | string text => exact fun rest _ _ => readValue_string text steps levels rest
  | list items ih =>
      intro rest _ short
      obtain ⟨levels, rfl⟩ := Nat.exists_eq_add_one.mpr (Nat.zero_lt_of_lt deep)
      have inside := itemsDepth_le.mp (Nat.le_of_succ_le_succ deep)
      have exacts := isExact_list.mp exact
      have reads : List.Forall₂ (ReadsBack (readValue steps levels) steps) items items :=
        List.forall₂_same.mpr fun v there =>
          ⟨exacts v there, ih v there (exacts v there) (inside v there)⟩
      have enough := Nat.lt_of_lt_of_le (length_items exact rest) short
      rw [write_list, List.length_cons] at short
      rw [write_list, readValue_list, readItems_all reads enough (Nat.le_of_succ_le short)]
      simp only [bind, Except.bind, endList_written]
      rfl
  | object members ih =>
      intro rest _ short
      obtain ⟨levels, rfl⟩ := Nat.exists_eq_add_one.mpr (Nat.zero_lt_of_lt deep)
      have inside := membersDepth_le.mp (Nat.le_of_succ_le_succ deep)
      have exacts := isExact_object.mp exact
      have reads : ∀ m ∈ members, ReadsBack (readValue steps levels) steps m.2 m.2 :=
        fun m there => ⟨exacts m there, ih m there (exacts m there) (inside m there)⟩
      have enough := Nat.lt_of_lt_of_le (length_members exact rest) short
      rw [write_object, List.length_cons] at short
      rw [write_object, readValue_object, readMembers_all reads enough (Nat.le_of_succ_le short)]
      simp only [bind, Except.bind, endObject_written]
      rfl

theorem exists_first_deep {α : Type} (depth : α → Nat) {items : List α} {levels : Nat}
    (h : ¬ ∀ a ∈ items, depth a ≤ levels) :
    ∃ before a after, items = before ++ a :: after ∧ (∀ b ∈ before, depth b ≤ levels) ∧
      levels < depth a := by
  induction items with
  | nil => exact absurd nofun h
  | cons a items ih =>
      by_cases flat : depth a ≤ levels
      · rw [List.forall_mem_cons, not_and] at h
        obtain ⟨before, b, after, rfl, reads, deep⟩ := ih (h flat)
        exact ⟨a :: before, b, after, rfl, List.forall_mem_cons.mpr ⟨flat, reads⟩, deep⟩
      · exact ⟨[], a, items, rfl, nofun, Nat.lt_of_not_le flat⟩

/-- Where a value is nested more deeply than the reader allows, what is read up to the first place
where it is has no fault. -/
theorem overflows_readValue {v : Json} (exact : v.IsExact) {steps levels : Nat}
    (deep : levels < v.depth) : Overflows (readValue steps levels) steps v := by
  refine ⟨exact, ?_⟩
  induction v generalizing levels with
  | null | bool | number | string => exact absurd deep (Nat.not_lt_zero _)
  | list items ih =>
      intro rest _ short
      have enough := Nat.lt_of_lt_of_le (length_items exact rest) short
      rw [write_list] at short ⊢
      cases levels with
      | zero => exact ⟨_, readValue_bracket (.inl rfl) steps _⟩
      | succ levels =>
          have exacts := isExact_list.mp exact
          obtain ⟨before, v, after, rfl, flat, deep⟩ := exists_first_deep Json.depth
            fun flat => Nat.not_lt.mpr (itemsDepth_le.mpr flat) (Nat.lt_of_succ_lt_succ deep)
          have there : v ∈ before ++ v :: after := List.mem_append_right _ List.mem_cons_self
          have deeper : Overflows (readValue steps levels) steps v :=
            ⟨exacts v there, ih v there (exacts v there) deep⟩
          rw [List.length_append] at enough
          obtain ⟨unread, fault⟩ := readItems_overflow
            (List.forall₂_same.mpr fun u earlier =>
              readsBack_readValue (exacts u (List.mem_append_left _ earlier)) (flat u earlier))
            deeper (Nat.lt_of_le_of_lt (Nat.le_add_right _ _) enough) (Nat.le_of_succ_le short)
          refine ⟨unread, ?_⟩
          rw [readValue_list, fault]
          rfl
  | object members ih =>
      intro rest _ short
      have enough := Nat.lt_of_lt_of_le (length_members exact rest) short
      rw [write_object] at short ⊢
      cases levels with
      | zero => exact ⟨_, readValue_bracket (.inr rfl) steps _⟩
      | succ levels =>
          have exacts := isExact_object.mp exact
          obtain ⟨before, ⟨name, v⟩, after, rfl, flat, deep⟩ :=
            exists_first_deep (fun m : String × Json => m.2.depth)
              fun flat => Nat.not_lt.mpr (membersDepth_le.mpr flat) (Nat.lt_of_succ_lt_succ deep)
          have there : (name, v) ∈ before ++ (name, v) :: after :=
            List.mem_append_right _ List.mem_cons_self
          have deeper : Overflows (readValue steps levels) steps v :=
            ⟨exacts _ there, ih _ there (exacts _ there) deep⟩
          rw [List.length_append] at enough
          obtain ⟨unread, fault⟩ := readMembers_overflow
            (fun u earlier => readsBack_readValue (exacts u (List.mem_append_left _ earlier))
              (flat u earlier))
            deeper (Nat.lt_of_le_of_lt (Nat.le_add_right _ _) enough) (Nat.le_of_succ_le short)
          refine ⟨unread, ?_⟩
          rw [readValue_object, fault]
          rfl

/-- What a text is parsed to is in canonical form. -/
theorem canonical_of_parse {text : Bytes} {v : Json} (h : parse text = .ok v) :
    v.canonical = v := by
  simp only [parse, bind, Except.bind] at h
  split at h
  · cases h
  · split at h
    · cases h
    · cases h
      exact canonical_canonical _

/-- The text of a value is one: it is read back in canonical form, unless it is nested too
deeply. -/
theorem parse_encode {v : Json} (exact : v.IsExact) :
    (v.depth ≤ nestingLimit → parse v.encode = .ok v.canonical) ∧
    (nestingLimit < v.depth → ∃ unread, parse v.encode = .error ⟨.nestedTooDeep, unread⟩) := by
  constructor
  · intro flat
    have read := (readsBack_readValue exact flat).read [] Ends.nil (Nat.le_succ _)
    simp only [parse, encode, read, bind, Except.bind]
    rfl
  · intro deep
    obtain ⟨unread, fault⟩ := (overflows_readValue exact deep).fault [] Ends.nil (Nat.le_succ _)
    refine ⟨unread, ?_⟩
    simp only [parse, encode, fault, bind, Except.bind]

end EventClient.Json
