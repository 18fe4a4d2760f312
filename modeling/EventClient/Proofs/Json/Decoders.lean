import EventClient.Json.Decoder
import EventClient.Proofs.Json.RoundTrip

/-!
Decoders on written values. A decoder reads something from the text of a value if it does so
whatever stands behind the text and however much more may be read, as long as the brackets of the
value may be opened; decoders that are put together from others read what those read.
-/
namespace EventClient.Json

variable {α β : Type}

structure Decoder.Reads (d : Decoder α) (v : Json) (a : α) : Prop where
  exact : v.IsExact
  read : ∀ (budget : Budget) (rest : Bytes), Ends rest → v.depth ≤ budget.levels →
    (v.write rest).length ≤ budget.steps → d.read budget (v.write rest) = .ok (a, rest)

/-- The decoder finds a value nested more deeply than it may open brackets. -/
structure Decoder.Overflows (d : Decoder α) (levels : Nat) (v : Json) : Prop where
  exact : v.IsExact
  fault : ∀ (steps : Nat) (rest : Bytes), Ends rest → (v.write rest).length ≤ steps →
    ∃ unread, d.read ⟨steps, levels⟩ (v.write rest) = .error ⟨.nestedTooDeep, unread⟩

/-! ### Plain decoders -/

theorem Decoder.Overflows.json {v : Json} (exact : v.IsExact) {levels : Nat}
    (deep : levels < v.depth) : Decoder.json.Overflows levels v where
  exact := exact
  fault steps rest ends short := by
    obtain ⟨unread, fault⟩ := (overflows_readValue exact deep).fault rest ends short
    refine ⟨unread, ?_⟩
    simp only [Decoder.json, fault, bind, Except.bind]

namespace Decoder.Reads

variable {d : Decoder α} {v : Json} {a : α} {b : β}

theorem refine (h : d.Reads v a) {check : α → Except Mismatch β} (checked : check a = .ok b) :
    (d.refine check).Reads v b where
  exact := h.exact
  read budget rest ends flat short := by
    simp only [Decoder.refine, h.read budget rest ends flat short, bind, Except.bind, checked,
      inText]

theorem map (h : d.Reads v a) (f : α → β) : (d.map f).Reads v (f a) := h.refine rfl

theorem json (exact : v.IsExact) : Decoder.json.Reads v v.canonical where
  exact := exact
  read budget rest ends flat short := by
    have value := (readsBack_readValue exact flat).read rest ends short
    simp only [Decoder.json, bind, Except.bind, value]
    rfl

theorem string (text : String) : Decoder.string.Reads (.string text) text where
  exact := nofun
  read budget rest _ _ _ := by
    simp only [Decoder.string, atValue, write, writeText,
      skipSpace_cons (show isSpace (ascii '"') = false by decide), if_true, readText_written]

theorem integer {low high n : Int} (exact : (JsonNumber.integer n).IsExact) (least : low ≤ n)
    (most : n ≤ high) : (Decoder.integer low high).Reads (.number (.integer n)) n where
  exact := by
    intro number there
    cases List.mem_singleton.mp there
    exact exact
  read budget rest ends _ _ := by
    have read := readNumber_written exact ends
    obtain ⟨first, text, written, numeral⟩ := writeInt_numeral exact rest
    rw [written] at read
    have digit : (first = ascii '-' || isDigit first) = true := numeral.test
    simp only [Decoder.integer, atValue, write, writeNumber, written,
      skipSpace_cons numeral.not_isSpace, digit, if_true, read, bind, Except.bind, integerOf,
      least, most, and_self, inText]

theorem uint64 (n : UInt64) : Decoder.uint64.Reads (.ofNat n.toNat) n := by
  have bound := n.toNat_lt
  have read : (Decoder.integer 0 18446744073709551615).Reads (.ofNat n.toNat) (n.toNat : Int) :=
    integer ⟨by omega, by omega⟩ (by omega) (by omega)
  have made := read.map fun value => UInt64.ofNat value.toNat
  rwa [Int.toNat_natCast, UInt64.ofNat_toNat] at made

theorem uint32 (n : UInt32) : Decoder.uint32.Reads (.ofNat n.toNat) n := by
  have bound := n.toNat_lt
  have read : (Decoder.integer 0 4294967295).Reads (.ofNat n.toNat) (n.toNat : Int) :=
    integer ⟨by omega, by omega⟩ (by omega) (by omega)
  have made := read.map fun value => UInt32.ofNat value.toNat
  rwa [Int.toNat_natCast, UInt32.ofNat_toNat] at made

theorem int32 (n : Int32) : Decoder.int32.Reads (.ofInt n.toInt) n := by
  have least := n.le_toInt
  have most := n.toInt_lt
  have read : (Decoder.integer (-2147483648) 2147483647).Reads (.ofInt n.toInt) n.toInt :=
    integer ⟨by omega, by omega⟩ (by omega) (by omega)
  have made := read.map Int32.ofInt
  rwa [Int32.ofInt_toInt] at made

theorem optional (h : d.Reads v a) (there : v ≠ .null) : d.optional.Reads v (some a) where
  exact := h.exact
  read budget rest ends flat short := by
    have read := h.read budget rest ends flat short
    obtain ⟨first, text, written, starts⟩ := write_starts h.exact rest
    have present : first ≠ ascii 'n' := fun null => there (starts.null null)
    rw [written] at read ⊢
    simp only [Decoder.optional, skipSpace_cons starts.visible, present, if_false, read, bind,
      Except.bind]
    rfl

theorem readsBack (h : d.Reads v a) (steps : Nat) {levels : Nat} (flat : v.depth ≤ levels) :
    ReadsBack (d.read ⟨steps, levels⟩) steps v a :=
  ⟨h.exact, fun rest ends short => h.read ⟨steps, levels⟩ rest ends flat short⟩

/-- A list is read item by item, with one level less. -/
theorem list {items : List Json} {values : List α} (h : List.Forall₂ d.Reads items values) :
    d.list.Reads (.list items) values := by
  have exact : (Json.list items).IsExact := by
    rw [isExact_list]
    induction h with
    | nil => exact nofun
    | cons first _ ih => exact List.forall_mem_cons.mpr ⟨first.exact, ih⟩
  refine ⟨exact, ?_⟩
  rintro ⟨steps, levels⟩ rest _ flat short
  obtain ⟨levels, rfl⟩ := Nat.exists_eq_add_one.mpr (Nat.zero_lt_of_lt flat)
  have inside := itemsDepth_le.mp (Nat.le_of_succ_le_succ flat)
  have reads : List.Forall₂ (ReadsBack (d.read ⟨steps, levels⟩) steps) items values :=
    ((List.forall₂_and_left _ _).mpr ⟨inside, h⟩).imp
      fun _ _ ⟨flat, read⟩ => read.readsBack steps flat
  have enough := Nat.lt_of_lt_of_le (length_items exact rest) short
  rw [write_list, List.length_cons] at short
  have all := readItems_all reads enough (Nat.le_of_succ_le short)
  rw [write_list]
  simp only [Decoder.list, atValue, skipSpace_cons (show isSpace (ascii '[') = false by decide),
    if_true, Budget.inside, bind, Except.bind, all, endList_written]
  rfl

theorem listOf {write : α → Json} {values : List α} (h : ∀ a ∈ values, d.Reads (write a) a) :
    d.list.Reads (.list (values.map write)) values :=
  list (List.forall₂_map_left_iff.mpr (List.forall₂_same.mpr h))

theorem strings (texts : List String) :
    (Decoder.list .string).Reads (.list (texts.map .string)) texts :=
  listOf fun text _ => .string text

/-- A variant named by a text alone. -/
theorem variantName {names : List (String × α)} {name : String}
    (found : names.lookup name = some a) : (Decoder.variantName names).Reads (.string name) a where
  exact := nofun
  read budget rest _ _ _ := by
    simp only [Decoder.variantName, atValue, write, writeText, if_true, bind,
      skipSpace_cons (show isSpace (ascii '"') = false by decide), readText_written, Except.bind,
      lookup, found, inText]

theorem decode (h : d.Reads v a) (flat : v.depth ≤ nestingLimit) : d.decode v.encode = .ok a := by
  have read := h.read (.whole v.encode) [] Ends.nil flat (Nat.le_succ _)
  simp only [Decoder.decode, encode, bind, Except.bind] at read ⊢
  rw [read]
  rfl

end Decoder.Reads

theorem Decoder.Overflows.decode {d : Decoder α} {v : Json} (h : d.Overflows nestingLimit v) :
    ∃ unread, d.decode v.encode = .error ⟨.nestedTooDeep, unread⟩ := by
  obtain ⟨unread, fault⟩ := h.fault (v.encode.length + 1) [] Ends.nil (Nat.le_succ _)
  refine ⟨unread, ?_⟩
  simp only [Decoder.decode, encode, Budget.whole, bind, Except.bind] at fault ⊢
  rw [fault]

/-! ### Writers -/

/-- A list passes if each of its members does. -/
theorem mapM_ok_iff {ε : Type} {f : α → Except ε β} {xs : List α} {ys : List β} :
    xs.mapM f = .ok ys ↔ List.Forall₂ (fun x y => f x = .ok y) xs ys := by
  induction xs generalizing ys with
  | nil =>
      rw [List.mapM_nil, List.forall₂_nil_left_iff]
      exact ⟨fun h => (Except.ok.inj h).symm, fun h => h ▸ rfl⟩
  | cons x xs ih =>
      rw [List.mapM_cons, List.forall₂_cons_left_iff]
      constructor
      · intro h
        cases first : f x with
        | error e =>
            rw [first] at h
            cases h
        | ok y =>
            cases rest : xs.mapM f with
            | error e =>
                rw [first, rest] at h
                cases h
            | ok ys' =>
                rw [first, rest] at h
                cases h
                exact ⟨y, ys', rfl, ih.mp rest, rfl⟩
      · rintro ⟨y, ys', first, rest, rfl⟩
        rw [first, ih.mpr rest]
        rfl

theorem mapM_error {ε : Type} {f : α → Except ε β} {xs : List α} {e : ε}
    (h : xs.mapM f = .error e) : ∃ x ∈ xs, f x = .error e := by
  induction xs with
  | nil => cases h
  | cons x xs ih =>
      rw [List.mapM_cons] at h
      cases first : f x with
      | error e' =>
          rw [first] at h
          cases h
          exact ⟨x, List.mem_cons_self, first⟩
      | ok y =>
          cases rest : xs.mapM f with
          | error e' =>
              rw [first, rest] at h
              cases h
              obtain ⟨x', there, failed⟩ := ih rest
              exact ⟨x', List.mem_cons_of_mem _ there, failed⟩
          | ok ys =>
              rw [first, rest] at h
              cases h

section
variable {ε : Type} {write : α → Except ε Json} {d : Decoder α} {levels : Nat} {a : α}

/-- What is made of a value can be decoded and gives the value back. -/
def RoundTrips (write : α → Except ε Json) (d : Decoder α) (a : α) : Prop :=
  ∃ v, write a = .ok v ∧ d.decode v.encode = .ok a

/-- What is made of a value is read as the value and has no more brackets than `levels`. -/
def Carries (write : α → Except ε Json) (d : Decoder α) (levels : Nat) (a : α) : Prop :=
  ∃ v, write a = .ok v ∧ d.Reads v a ∧ v.depth ≤ levels

theorem Carries.roundTrips (h : Carries write d levels a) (flat : levels ≤ nestingLimit) :
    RoundTrips write d a := by
  obtain ⟨v, written, reads, deep⟩ := h
  exact ⟨v, written, reads.decode (Nat.le_trans deep flat)⟩

theorem Carries.items {values : List α} (h : ∀ a ∈ values, Carries write d levels a) :
    ∃ items, values.mapM write = .ok items ∧ List.Forall₂ d.Reads items values ∧
      itemsDepth items ≤ levels := by
  induction values with
  | nil => exact ⟨[], rfl, .nil, Nat.zero_le _⟩
  | cons a values ih =>
      obtain ⟨first, others⟩ := List.forall_mem_cons.mp h
      obtain ⟨v, written, reads, flat⟩ := first
      obtain ⟨items, written', reads', flat'⟩ := ih others
      refine ⟨v :: items, ?_, .cons reads reads', Nat.max_le.mpr ⟨flat, flat'⟩⟩
      simp only [List.mapM_cons, written, written', bind, Except.bind]
      rfl

end

/-! ### Records -/

namespace Field

variable {σ τ : Type}

/-- What reading the members of an object gathers in the state of a record, member by member. -/
inductive Gathers (fields : List (Field σ)) : List (String × Json) → σ → σ → Prop where
  | nil (state : σ) : Gathers fields [] state state
  | cons {field : Field σ} {name : String} {v : Json} {members : List (String × Json)}
      {state state' state'' : σ} (exact : v.IsExact)
      (found : fields.find? (·.name == name) = some field) (unset : field.isSet state = false)
      (read : ∀ (budget : Budget) (rest : Bytes), Ends rest → v.depth ≤ budget.levels →
        (v.write rest).length ≤ budget.steps →
        field.read budget (v.write rest) state = .ok (state', rest))
      (others : Gathers fields members state' state'') :
      Gathers fields ((name, v) :: members) state state''

variable {fields : List (Field σ)} {members later : List (String × Json)} {state state' : σ}
  {budget : Budget} {rest : Bytes}

theorem Gathers.exact (h : Gathers fields members state state') :
    ∀ m ∈ members, m.2.IsExact := by
  induction h with
  | nil => exact nofun
  | cons exact _ _ _ _ ih => exact List.forall_mem_cons.mpr ⟨exact, ih⟩

theorem Gathers.known (h : Gathers fields members state state') :
    ∀ m ∈ members, ∃ field ∈ fields, field.name = m.1 := by
  induction h with
  | nil => exact nofun
  | cons _ found _ _ _ ih =>
      have named := List.find?_some found
      exact List.forall_mem_cons.mpr
        ⟨⟨_, List.mem_of_find?_eq_some found, beq_iff_eq.mp named⟩, ih⟩

theorem Gathers.append {state'' : σ} (h : Gathers fields members state state')
    (h' : Gathers fields later state' state'') :
    Gathers fields (members ++ later) state state'' := by
  induction h with
  | nil => exact h'
  | cons exact found unset read _ ih => exact .cons exact found unset read (ih h')

/-- Members that are gathered are behind the reader. -/
theorem readMembers_through (h : Gathers fields members state state')
    (flat : ∀ m ∈ members, m.2.depth ≤ budget.levels) (first : Bool) (steps : Nat)
    (short : (membersText first (members ++ later) rest).length ≤ budget.steps) :
    let behind := first && members.isEmpty
    readMembers fields budget (members.length + steps) first state
          (membersText first (members ++ later) rest) =
        readMembers fields budget steps behind state' (membersText behind later rest) ∧
      (membersText behind later rest).length ≤ budget.steps := by
  induction h generalizing first with
  | nil state =>
      simp only [List.isEmpty_nil, Bool.and_true, List.length_nil, Nat.zero_add, List.nil_append]
      exact ⟨trivial, short⟩
  | @cons field name v members state state' state'' exact found unset read others ih =>
      obtain ⟨flat, flats⟩ := List.forall_mem_cons.mp flat
      obtain ⟨here, there⟩ := length_membersText exact first name (members ++ later) rest
      have value := read budget _ (ends_writeMembers (members ++ later) rest) flat
        (Nat.le_trans here short)
      have through := ih flats false (Nat.le_of_lt (Nat.lt_of_lt_of_le there short))
      rw [membersText_later] at through
      simp only [List.isEmpty_cons, Bool.and_false, Bool.false_and] at through ⊢
      rw [List.length_cons, Nat.add_right_comm, List.cons_append, readMembers, nextKey_there]
      simp only [bind, Except.bind, found, unset, Bool.false_eq_true, if_false, colon_written,
        value]
      exact through

/-- The next member holds a value that the reader of its field finds nested too deeply. -/
structure Overflows (fields : List (Field σ)) (levels : Nat) (state : σ) (name : String)
    (v : Json) : Prop where
  exact : v.IsExact
  fault : ∃ field, fields.find? (·.name == name) = some field ∧ field.isSet state = false ∧
    ∀ (steps : Nat) (rest : Bytes), Ends rest → (v.write rest).length ≤ steps →
      ∃ unread, field.read ⟨steps, levels⟩ (v.write rest) state = .error ⟨.nestedTooDeep, unread⟩

theorem readMembers_all (h : Gathers fields members state state')
    (flat : ∀ m ∈ members, m.2.depth ≤ budget.levels) {steps : Nat}
    (enough : members.length < steps)
    (short : (membersText true members rest).length ≤ budget.steps) :
    readMembers fields budget steps true state (membersText true members rest) =
      .ok (state', ascii '\x7d' :: rest) := by
  obtain ⟨more, rfl⟩ := Nat.exists_eq_add_of_lt enough
  have whole : members ++ [] = members := List.append_nil members
  have through := (readMembers_through h flat true (more + 1) (whole.symm ▸ short)).1
  rw [whole] at through
  rw [Nat.add_assoc, through, readMembers, nextKey_none]
  rfl

theorem readMembers_overflow {name : String} {v : Json} (h : Gathers fields members state state')
    (flat : ∀ m ∈ members, m.2.depth ≤ budget.levels)
    (deeper : Overflows fields budget.levels state' name v) {steps : Nat}
    (enough : members.length < steps)
    (short : (membersText true (members ++ (name, v) :: later) rest).length ≤ budget.steps) :
    ∃ unread, readMembers fields budget steps true state
        (membersText true (members ++ (name, v) :: later) rest) =
      .error ⟨.nestedTooDeep, unread⟩ := by
  obtain ⟨more, rfl⟩ := Nat.exists_eq_add_of_lt enough
  obtain ⟨through, short'⟩ := readMembers_through h flat true (more + 1) short
  obtain ⟨here, -⟩ := length_membersText deeper.exact (true && members.isEmpty) name later rest
  obtain ⟨field, found, unset, fault⟩ := deeper.fault
  obtain ⟨unread, fault⟩ :=
    fault budget.steps _ (ends_writeMembers later rest) (Nat.le_trans here short')
  refine ⟨unread, ?_⟩
  rw [Nat.add_assoc, through, readMembers, nextKey_there]
  simp only [bind, Except.bind, found, unset, Bool.false_eq_true, if_false, colon_written, fault]

theorem Overflows.known {levels : Nat} {name : String} {v : Json}
    (h : Overflows fields levels state name v) : name ∈ fields.map (·.name) := by
  obtain ⟨field, found, -⟩ := h.fault
  have named := List.find?_some found
  exact beq_iff_eq.mp named ▸ List.mem_map_of_mem (List.mem_of_find?_eq_some found)

/-! ### A part of a record -/

section
variable (get : τ → σ) (set : τ → σ → τ) {others behind : List (Field τ)} {whole : τ}

theorem find?_within {field : Field σ} {name : String}
    (absent : others.find? (·.name == name) = none)
    (found : fields.find? (·.name == name) = some field) :
    (others ++ (fields.map (·.within get set) ++ behind)).find? (·.name == name) =
      some (field.within get set) := by
  have part : (fields.map (·.within get set)).find? (·.name == name) =
      some (field.within get set) := by
    rw [List.find?_map]
    exact congrArg (Option.map _) found
  rw [List.find?_append, absent, Option.none_or, List.find?_append, part]
  rfl

/-- What the fields of a part gather, they gather in the whole. -/
theorem Gathers.within (h : Gathers fields members state state')
    (get_set : ∀ whole part, get (set whole part) = part)
    (set_set : ∀ whole part part', set (set whole part) part' = set whole part')
    (absent : ∀ m ∈ members, others.find? (·.name == m.1) = none)
    (here : get whole = state) (same : set whole state = whole) :
    Gathers (others ++ (fields.map (·.within get set) ++ behind)) members whole
      (set whole state') := by
  induction h generalizing whole with
  | nil state => exact same.symm ▸ .nil whole
  | @cons field name v members state state' state'' exact found unset read rest ih =>
      obtain ⟨none, nones⟩ := List.forall_mem_cons.mp absent
      have others := ih nones (get_set whole state') (set_set whole state' state')
      rw [set_set] at others
      refine .cons exact (find?_within get set none found) ?_ ?_ others
      · exact (congrArg field.isSet here).trans unset
      · intro budget rest ends flat short
        have value := read budget rest ends flat short
        simp only [Field.within, here, value, bind, Except.bind]
        rfl

theorem Overflows.within {levels : Nat} {name : String} {v : Json}
    (h : Overflows fields levels state name v) (absent : others.find? (·.name == name) = none)
    (here : get whole = state) :
    Overflows (others ++ (fields.map (·.within get set) ++ behind)) levels whole name v where
  exact := h.exact
  fault := by
    obtain ⟨field, found, unset, fault⟩ := h.fault
    refine ⟨_, find?_within get set absent found, (congrArg field.isSet here).trans unset, ?_⟩
    intro steps rest ends short
    obtain ⟨unread, fault⟩ := fault steps rest ends short
    refine ⟨unread, ?_⟩
    simp only [Field.within, here, fault, bind, Except.bind]

end

end Field

namespace Record

def names (r : Record α) : List String := r.fields.map (·.name)

@[simp]
theorem names_required (name : String) (d : Decoder α) : (required name d).names = [name] := rfl

@[simp]
theorem names_defaulted (name : String) (d : Decoder α) (value : α) :
    (defaulted name d value).names = [name] :=
  rfl

@[simp]
theorem names_optional (name : String) (d : Decoder α) : (optional name d).names = [name] := rfl

@[simp]
theorem names_and (r : Record α) (s : Record β) : (r.and s).names = r.names ++ s.names := by
  simp only [names, Record.and, List.map_append, List.map_map]
  rfl

variable {r : Record α} {s : Record β} {members members' : List (String × Json)} {a : α} {b : β}

/-- A record reads members if gathering them makes what the record is made of. -/
def Reads (r : Record α) (members : List (String × Json)) (a : α) : Prop :=
  ∃ state, Field.Gathers r.fields members r.empty state ∧ r.finish state = .ok a

/-- A record reads members up to one that holds a value nested too deeply. -/
def Overflows (r : Record α) (levels : Nat) (members : List (String × Json)) (name : String)
    (v : Json) : Prop :=
  ∃ state, Field.Gathers r.fields members r.empty state ∧
    Field.Overflows r.fields levels state name v

theorem find?_eq_none {τ : Type} {name : String} (h : name ∉ r.names) (get : τ → r.State)
    (set : τ → r.State → τ) :
    (r.fields.map (·.within get set)).find? (·.name == name) = none := by
  rw [List.find?_map, Option.map_eq_none_iff, List.find?_eq_none]
  intro field inside same
  exact h (beq_iff_eq.mp same ▸ List.mem_map_of_mem inside)

theorem name_mem {state state' : r.State} (h : Field.Gathers r.fields members state state')
    {m : String × Json} (there : m ∈ members) : m.1 ∈ r.names := by
  obtain ⟨field, inside, named⟩ := h.known m there
  exact named ▸ List.mem_map_of_mem inside

theorem gathers_left {state state' : r.State} (h : Field.Gathers r.fields members state state')
    (other : s.State) :
    Field.Gathers (r.and s).fields members (state, other) (state', other) := by
  have first : Field.Gathers
      ([] ++ (r.fields.map (·.within Prod.fst fun whole part => (part, whole.2)) ++
        s.fields.map (·.within Prod.snd fun whole part => (whole.1, part))))
      members (state, other) (state', other) :=
    h.within Prod.fst (fun whole part => (part, whole.2)) (fun _ _ => rfl) (fun _ _ _ => rfl)
      (fun _ _ => rfl) rfl rfl
  exact first

theorem gathers_right (differ : ∀ name ∈ s.names, name ∉ r.names) {state state' : s.State}
    (h : Field.Gathers s.fields members state state') (other : r.State) :
    Field.Gathers (r.and s).fields members (other, state) (other, state') := by
  have second : Field.Gathers
      (r.fields.map (·.within Prod.fst fun whole part => (part, whole.2)) ++
        (s.fields.map (·.within Prod.snd fun whole part => (whole.1, part)) ++ []))
      members (other, state) (other, state') :=
    h.within Prod.snd (fun whole part => (whole.1, part)) (fun _ _ => rfl) (fun _ _ _ => rfl)
      (fun m there => find?_eq_none (differ m.1 (name_mem h there)) _ _) rfl rfl
  rwa [List.append_nil] at second

/-- The members of one record, and behind them those of another with other names. -/
theorem Reads.and (h : r.Reads members a) (h' : s.Reads members' b)
    (differ : ∀ name ∈ s.names, name ∉ r.names) :
    (r.and s).Reads (members ++ members') (a, b) := by
  obtain ⟨state, gathers, finish⟩ := h
  obtain ⟨state', gathers', finish'⟩ := h'
  refine ⟨(state, state'),
    (gathers_left gathers s.empty).append (gathers_right differ gathers' state), ?_⟩
  simp only [Record.and, finish, finish', bind, Except.bind]
  rfl

theorem Overflows.left {levels : Nat} {name : String} {v : Json}
    (h : r.Overflows levels members name v) (s : Record β) :
    (r.and s).Overflows levels members name v := by
  obtain ⟨state, gathers, deeper⟩ := h
  have first : Field.Overflows
      ([] ++ (r.fields.map (·.within Prod.fst fun (whole : r.State × s.State) part =>
          (part, whole.2)) ++
        s.fields.map (·.within Prod.snd fun whole part => (whole.1, part))))
      levels (state, s.empty) name v :=
    deeper.within _ _ rfl rfl
  exact ⟨(state, s.empty), gathers_left gathers s.empty, first⟩

theorem Overflows.right {levels : Nat} {name : String} {v : Json} (h : r.Reads members a)
    (h' : s.Overflows levels members' name v) (differ : ∀ name ∈ s.names, name ∉ r.names) :
    (r.and s).Overflows levels (members ++ members') name v := by
  obtain ⟨state, gathers, -⟩ := h
  obtain ⟨state', gathers', deeper⟩ := h'
  have second : Field.Overflows
      (r.fields.map (·.within Prod.fst fun (whole : r.State × s.State) part =>
          (part, whole.2)) ++
        (s.fields.map (·.within Prod.snd fun whole part => (whole.1, part)) ++ []))
      levels (state, state') name v :=
    deeper.within _ _ (find?_eq_none (differ name deeper.known) _ _) rfl
  rw [List.append_nil] at second
  exact ⟨(state, state'),
    (gathers_left gathers s.empty).append (gathers_right differ gathers' state), second⟩

theorem Reads.map (h : r.Reads members a) (f : α → β) : (r.map f).Reads members (f a) := by
  obtain ⟨state, gathers, finish⟩ := h
  refine ⟨state, gathers, ?_⟩
  simp only [Record.map, finish]
  rfl

theorem Overflows.map {levels : Nat} {name : String} {v : Json}
    (h : r.Overflows levels members name v) (f : α → β) :
    (r.map f).Overflows levels members name v := h

/-! One field -/

section
variable {d : Decoder α} {v : Json}

theorem Reads.field (h : d.Reads v a) (name : String) (absent : Except Mismatch α) :
    (Record.field name d absent).Reads [(name, v)] a := by
  refine ⟨some a, .cons h.exact (List.find?_cons_of_pos (beq_self_eq_true name)) rfl ?_ (.nil _),
    rfl⟩
  intro budget rest ends flat short
  simp only [h.read budget rest ends flat short, bind, Except.bind]
  rfl

theorem Reads.absent (name : String) (d : Decoder α) (a : α) :
    (Record.field name d (.ok a)).Reads [] a :=
  ⟨none, .nil _, rfl⟩

theorem Reads.required (h : d.Reads v a) (name : String) :
    (Record.required name d).Reads [(name, v)] a :=
  .field h name _

theorem Reads.defaulted (h : d.Reads v a) (name : String) (value : α) :
    (Record.defaulted name d value).Reads [(name, v)] a :=
  .field h name _

theorem Overflows.field {levels : Nat} (h : d.Overflows levels v) (name : String)
    (absent : Except Mismatch α) : (Record.field name d absent).Overflows levels [] name v := by
  refine ⟨none, .nil _, h.exact, _, List.find?_cons_of_pos (beq_self_eq_true name), rfl, ?_⟩
  intro steps rest ends short
  obtain ⟨unread, fault⟩ := h.fault steps rest ends short
  refine ⟨unread, ?_⟩
  simp only [fault, bind, Except.bind]
  rfl

end

/-! Objects -/

theorem Reads.exact (h : r.Reads members a) : (Json.object members).IsExact := by
  obtain ⟨state, gathers, _⟩ := h
  exact isExact_object.mpr gathers.exact

theorem readObject_written (h : r.Reads members a) {budget : Budget} {rest : Bytes}
    (flat : ∀ m ∈ members, m.2.depth ≤ budget.levels)
    (short : ((Json.object members).write rest).length ≤ budget.steps) :
    r.readObject budget (membersText true members rest) = .ok (a, rest) := by
  have enough := Nat.lt_of_lt_of_le (length_members h.exact rest) short
  rw [write_object, List.length_cons] at short
  obtain ⟨state, gathers, finish⟩ := h
  simp only [readObject, Field.readMembers_all gathers flat enough (Nat.le_of_succ_le short), bind,
    Except.bind, finish, inText, endObject_written]
  rfl

theorem readObject_overflow {budget : Budget} {name : String} {v : Json}
    {later : List (String × Json)} (h : r.Overflows budget.levels members name v)
    (flat : ∀ m ∈ members, m.2.depth ≤ budget.levels)
    (exact : (Json.object (members ++ (name, v) :: later)).IsExact) {rest : Bytes}
    (short : ((Json.object (members ++ (name, v) :: later)).write rest).length ≤ budget.steps) :
    ∃ unread, r.readObject budget (membersText true (members ++ (name, v) :: later) rest) =
      .error ⟨.nestedTooDeep, unread⟩ := by
  have enough := Nat.lt_of_lt_of_le (length_members exact rest) short
  rw [write_object, List.length_cons] at short
  rw [List.length_append] at enough
  obtain ⟨state, gathers, deeper⟩ := h
  obtain ⟨unread, fault⟩ := Field.readMembers_overflow gathers flat deeper
    (Nat.lt_of_le_of_lt (Nat.le_add_right _ _) enough) (Nat.le_of_succ_le short)
  refine ⟨unread, ?_⟩
  simp only [readObject, fault, bind, Except.bind]

/-- A decoder that reads the record from an object reads what the record reads. -/
theorem Reads.opened {d : Decoder α} (h : r.Reads members a)
    (opens : ∀ steps levels text, d.read ⟨steps, levels + 1⟩ (ascii '\x7b' :: text) =
      r.readObject ⟨steps, levels⟩ text) : d.Reads (.object members) a where
  exact := h.exact
  read := by
    rintro ⟨steps, levels⟩ rest _ flat short
    obtain ⟨levels, rfl⟩ := Nat.exists_eq_add_one.mpr (Nat.zero_lt_of_lt flat)
    have inside := membersDepth_le.mp (Nat.le_of_succ_le_succ flat)
    rw [write_object, opens]
    exact readObject_written h inside short

theorem Reads.decoder (h : r.Reads members a) : r.decoder.Reads (.object members) a :=
  h.opened fun _ _ _ => rfl

theorem read_objectDecoder (r : Record α) (steps levels : Nat) (text : Bytes) :
    r.objectDecoder.read ⟨steps, levels + 1⟩ (ascii '\x7b' :: text) =
      r.readObject ⟨steps, levels⟩ text :=
  rfl

theorem Reads.objectDecoder (h : r.Reads members a) :
    r.objectDecoder.Reads (.object members) a :=
  h.opened (read_objectDecoder r)

theorem Overflows.objectDecoder {levels : Nat} {name : String} {v : Json}
    {later : List (String × Json)} (h : r.Overflows levels members name v)
    (flat : ∀ m ∈ members, m.2.depth ≤ levels)
    (exact : (Json.object (members ++ (name, v) :: later)).IsExact) :
    r.objectDecoder.Overflows (levels + 1) (.object (members ++ (name, v) :: later)) where
  exact := exact
  fault steps rest _ short := by
    rw [write_object, read_objectDecoder]
    exact readObject_overflow h flat exact short

end Record

/-! ### Variants -/

namespace Variant

variable {variants : List (Variant α)} {variant : Variant α} {name : String} {v : Json} {a : α}

theorem nextPart_there (part : Part) {budget : Budget} (enough : 0 < budget.steps) (first : Bool)
    (v : Json) (members : List (String × Json)) (rest : Bytes) :
    nextPart budget budget.steps first (membersText first ((part.name, v) :: members) rest) =
      .ok (some part, ascii ':' :: v.write (writeMembers members rest)) := by
  obtain ⟨steps, size⟩ := Nat.exists_eq_add_one.mpr enough
  have known : Part.ofName? part.name = some part := by cases part <;> rfl
  rw [size, nextPart, nextKey_there]
  simp only [bind, Except.bind, known]

theorem nextPart_none {budget : Budget} (enough : 0 < budget.steps) (rest : Bytes) :
    nextPart budget budget.steps false (ascii '\x7d' :: rest) =
      .ok (none, ascii '\x7d' :: rest) := by
  obtain ⟨steps, size⟩ := Nat.exists_eq_add_one.mpr enough
  have none := nextKey_none false rest
  rw [membersText] at none
  rw [size, nextPart, none]
  rfl

theorem read_names (found : (named variants).lookup name = some variant) (budget : Budget)
    (rest : Bytes) :
    (names variants).read budget ((Json.string name).write rest) = .ok (variant, rest) := by
  simp only [names, Decoder.variantName, Decoder.atValue, write, writeText, if_true, bind,
    skipSpace_cons (show isSpace (ascii '"') = false by decide), readText_written, Except.bind,
    Decoder.lookup, found, inText]

/-- An object that starts with its method. -/
theorem read_method (name : String) (members : List (String × Json)) {steps : Nat}
    (enough : 0 < steps) (levels : Nat) (rest : Bytes) :
    (decoder variants).read ⟨steps, levels + 1⟩
        ((Json.object (("method", .string name) :: members)).write rest) =
      readAfterMethod variants ⟨steps, levels⟩
        ((Json.string name).write (writeMembers members rest)) := by
  have bracket (text : Bytes) : (decoder variants).read ⟨steps, levels + 1⟩
      (ascii '\x7b' :: text) = readObject variants ⟨steps, levels⟩ text := rfl
  have budget : 0 < (Budget.mk steps levels).steps := enough
  have method := nextPart_there .method budget true (.string name) members rest
  rw [write_object, bracket, readObject]
  rw [show "method" = Part.method.name from rfl, method]
  simp only [bind, Except.bind, colon_written]

/-- A method that is written in front of its content tells how that is read. -/
theorem read_written (found : (named variants).lookup name = some variant) (v : Json)
    {steps : Nat} (enough : 0 < steps) (levels : Nat) (rest : Bytes) :
    (decoder variants).read ⟨steps, levels + 1⟩
        ((Json.object [("method", .string name), ("params", v)]).write rest) =
      match variant.params.read ⟨steps, levels⟩ (v.write (ascii '\x7d' :: rest)) with
      | .ok (a, text) => endParts ⟨steps, levels⟩ a text
      | .error fault => .error fault := by
  have budget : 0 < (Budget.mk steps levels).steps := enough
  have params := nextPart_there .params budget false v [] rest
  rw [membersText_later] at params
  rw [read_method name _ enough, readAfterMethod]
  simp only [bind, Except.bind, read_names found]
  rw [show "params" = Part.params.name from rfl, params]
  simp only [colon_written]
  rw [writeMembers]
  cases variant.params.read ⟨steps, levels⟩ (v.write (ascii '\x7d' :: rest)) <;> rfl

theorem exact_string (text : String) : (Json.string text).IsExact := nofun

theorem length_params (exact : v.IsExact) (name : String) (rest : Bytes) :
    (v.write (ascii '\x7d' :: rest)).length ≤
      ((Json.object [("method", .string name), ("params", v)]).write rest).length := by
  obtain ⟨-, method⟩ :=
    length_membersText (exact_string name) true "method" [("params", v)] rest
  obtain ⟨params, -⟩ := length_membersText exact false "params" [] rest
  rw [write_object, List.length_cons]
  rw [writeMembers] at params
  omega

theorem reads (found : (named variants).lookup name = some variant)
    (h : variant.params.Reads v a) :
    (decoder variants).Reads (.object [("method", .string name), ("params", v)]) a where
  exact := isExact_object.mpr (by simpa using ⟨exact_string name, h.exact⟩)
  read := by
    rintro ⟨steps, levels⟩ rest _ flat short
    obtain ⟨levels, rfl⟩ := Nat.exists_eq_add_one.mpr (Nat.zero_lt_of_lt flat)
    have inside := membersDepth_le.mp (Nat.le_of_succ_le_succ flat)
    have params := h.read ⟨steps, levels⟩ _ (ends_writeMembers [] rest)
      (inside ("params", v) (by simp)) (Nat.le_trans (length_params h.exact name rest) short)
    have enough : 0 < (Budget.mk steps levels).steps := by
      rw [write_object] at short
      exact Nat.zero_lt_of_lt short
    rw [writeMembers] at params
    rw [read_written found v enough, params]
    simp only [endParts, nextPart_none enough, bind, Except.bind, endObject_written]
    rfl

/-- The content of a record stands inside two objects, its own and that of the variant. -/
theorem reads_record {record : Record α} {members : List (String × Json)} {levels : Nat}
    (found : (named variants).lookup name =
      some { method := name, params := record.objectDecoder })
    (h : record.Reads members a) (flat : membersDepth members ≤ levels) :
    (decoder variants).Reads
        (.object [("method", .string name), ("params", .object members)]) a ∧
      (Json.object [("method", .string name), ("params", .object members)]).depth ≤
        levels + 2 := by
  refine ⟨reads found h.objectDecoder, ?_⟩
  simp only [depth, membersDepth]
  omega

/-- A variant that has no content is written by its method alone. -/
theorem reads_alone (found : (named variants).lookup name = some variant)
    (alone : variant.alone = some a) :
    (decoder variants).Reads (.object [("method", .string name)]) a where
  exact := isExact_object.mpr (by simpa using exact_string name)
  read := by
    rintro ⟨steps, levels⟩ rest _ flat short
    obtain ⟨levels, rfl⟩ := Nat.exists_eq_add_one.mpr (Nat.zero_lt_of_lt flat)
    have enough : 0 < (Budget.mk steps levels).steps := by
      rw [write_object] at short
      exact Nat.zero_lt_of_lt short
    rw [read_method name _ enough, readAfterMethod, writeMembers]
    simp only [bind, Except.bind, read_names found, nextPart_none enough, alone, endObject_written]
    rfl

theorem overflows (found : (named variants).lookup name = some variant) {levels : Nat}
    (h : variant.params.Overflows levels v) :
    (decoder variants).Overflows (levels + 1)
      (.object [("method", .string name), ("params", v)]) where
  exact := isExact_object.mpr (by simpa using ⟨exact_string name, h.exact⟩)
  fault steps rest _ short := by
    have enough : 0 < steps := by
      rw [write_object] at short
      exact Nat.zero_lt_of_lt short
    obtain ⟨unread, fault⟩ := h.fault steps _ (ends_writeMembers [] rest)
      (Nat.le_trans (length_params h.exact name rest) short)
    rw [writeMembers] at fault
    exact ⟨unread, by rw [read_written found v enough, fault]⟩

end Variant

end EventClient.Json
