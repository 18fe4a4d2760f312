import EventClient.Json.Decoder
import EventClient.Proofs.Json.Passing

/-!
What decoders make of values as they may be written. A decoder is settled if what it makes of a
writing, or that it makes nothing of it, is the same whatever stands behind. All decoders are, and
what one that is put together from others makes of a writing is told by what those make of its
parts.
-/
namespace EventClient.Json

variable {α β : Type}

/-- What a reader makes of a writing on its own, where so many brackets may be opened. -/
def outcome (read : Budget → Bytes → Except Fault (α × Bytes)) (levels : Nat) (w : Writing) :
    Option α :=
  (read ⟨w.bytes.length, levels⟩ w.bytes).toOption.map Prod.fst

theorem outcome_eq {read : Budget → Bytes → Except Fault (α × Bytes)} {levels : Nat} {w : Writing}
    {result : Option α} (h : ∀ steps, Yields (read ⟨steps, levels⟩) steps w result) :
    outcome read levels w = result := by
  have alone := h w.bytes.length w.bytes []
  rw [List.append_nil] at alone
  have spaced := Writing.skipSpace_writing w []
  rw [List.append_nil] at spaced
  rw [outcome, alone spaced Ends.nil (Nat.le_refl _), Option.map_map]
  exact Option.map_id'

namespace Decoder

def Yields (d : Decoder α) (levels : Nat) (w : Writing) (result : Option α) : Prop :=
  ∀ steps, Json.Yields (d.read ⟨steps, levels⟩) steps w result

def on (d : Decoder α) (levels : Nat) (w : Writing) : Option α := outcome d.read levels w

def Settled (d : Decoder α) : Prop := ∀ levels w, d.Yields levels w (d.on levels w)

variable {d : Decoder α} {levels : Nat} {w : Writing} {result : Option α}

theorem Yields.on (h : d.Yields levels w result) : d.on levels w = result := outcome_eq h

theorem Settled.of_yields (h : ∀ levels w, ∃ result, d.Yields levels w result) : d.Settled := by
  intro levels w
  obtain ⟨result, yields⟩ := h levels w
  rwa [yields.on]

/-- A whole text is decoded to what the decoder makes of its value. -/
theorem Settled.decode (settled : d.Settled) (document : Document) :
    (d.decode document.bytes).toOption = d.on nestingLimit document.body := by
  have written : document.bytes =
      document.front.bytes ++ (document.body.bytes ++ document.back.bytes) := List.append_assoc ..
  have spaced := Writing.skipSpace_behind document.front document.body document.back.bytes
  have ends : Ends document.back.bytes := by
    have behind := ends_gap document.back Ends.nil
    rwa [List.append_nil] at behind
  have finished : skipSpace document.back.bytes = [] := by
    have behind := skipSpace_gap document.back []
    rwa [List.append_nil] at behind
  have short : (document.body.bytes ++ document.back.bytes).length ≤ document.bytes.length + 1 := by
    simp only [written, List.length_append]
    omega
  rw [← written] at spaced
  rw [Decoder.decode]
  obtain ⟨none, fault, failed⟩ | ⟨a, found, taken⟩ := error_or_ok
    (settled nestingLimit document.body (document.bytes.length + 1) _ _ spaced ends short)
  · simp only [Budget.whole, failed, none]
    rfl
  · simp only [Budget.whole, bind, Except.bind, taken, found, atEnd, finished]
    rfl

/-! ### Plain decoders -/

theorem inText_toOption (rest : Bytes) (x : Except Mismatch α) :
    (inText rest x).toOption = x.toOption.map fun a => (a, rest) := by
  cases x <;> rfl

theorem Yields.refine (h : d.Yields levels w result) (check : α → Except Mismatch β) :
    (d.refine check).Yields levels w (result.bind fun a => (check a).toOption) := by
  intro steps text rest spaced ends short
  simp only [Decoder.refine]
  obtain ⟨none, fault, failed⟩ | ⟨a, found, taken⟩ :=
    error_or_ok (h steps text rest spaced ends short)
  · rw [failed, none]
    rfl
  · simp only [taken, bind, Except.bind, found]
    exact inText_toOption rest (check a)

theorem Yields.map (h : d.Yields levels w result) (f : α → β) :
    (d.map f).Yields levels w (result.map f) := by
  rw [Option.map_eq_bind]
  exact h.refine fun value => .ok (f value)

theorem wrongKind_none (first : UInt8) (rest : Bytes) :
    (wrongKind first rest : Except Fault (α × Bytes)).toOption = none := by
  rw [wrongKind]
  split
  · rfl
  · cases readScalar first rest <;> rfl

/-- What the decoder takes from the value that a writing is read as. -/
def taken (d : Decoder α) (levels : Nat) (w : Writing) : Option α :=
  (w.value? levels).bind fun v => (d.take v).toOption

theorem taken_none (h : ∀ v, w.value? levels = some v → (d.take v).toOption = none) :
    d.taken levels w = none := by
  cases value : w.value? levels with
  | none => rw [taken, value, Option.bind_none]
  | some v => rw [taken, value, Option.bind_some, h v value]

theorem taken_list (d : Decoder α) (levels : Nat) (items : List (Separator × Writing))
    (closing : Gap) :
    d.taken (levels + 1) (.list items closing) =
      (items.mapM fun item : Separator × Writing => item.2.value? levels).bind fun values =>
        (d.take (.list values)).toOption := by
  rw [taken, Writing.value?, Writing.itemValues_eq, Option.bind_map]
  rfl

theorem taken_object (d : Decoder α) (levels : Nat) (members : List (Label × Writing))
    (closing : Gap) :
    d.taken (levels + 1) (.object members closing) =
      (members.mapM (named (·.value? levels))).bind fun values =>
        (d.take (.object values)).toOption := by
  rw [taken, Writing.value?, Writing.memberValues_eq, Option.bind_map]
  rfl

/-- A decoder that starts at the first byte of a value. -/
theorem Yields.atValue {read : Budget → UInt8 → Bytes → Except Fault (α × Bytes)}
    (opens : ∀ budget text, d.read budget text = Decoder.atValue text (read budget))
    (h : ∀ steps first behind rest, w.bytes ++ rest = first :: behind → Ends rest →
      (w.bytes ++ rest).length ≤ steps →
        (read ⟨steps, levels⟩ first behind).toOption = result.map fun a => (a, rest)) :
    d.Yields levels w result := by
  intro steps text rest spaced ends short
  obtain ⟨first, behind, written, -⟩ := w.starts rest
  rw [opens, Decoder.atValue, spaced, written]
  exact h steps first behind rest written ends short

theorem string_yields (levels : Nat) (w : Writing) :
    Decoder.string.Yields levels w (Decoder.string.taken levels w) := by
  refine .atValue (fun _ _ => rfl) fun steps first behind rest written ends short => ?_
  by_cases quote : first = ascii '"'
  · subst quote
    obtain ⟨content, rfl, rfl⟩ := Writing.of_quote written
    rw [if_pos rfl, Content.readText_content, taken, Writing.value?, Option.bind_map]
    cases Content.text? content <;> rfl
  · have other : Decoder.string.taken levels w = none := by
      refine taken_none fun v value => ?_
      cases v with
      | string text =>
          obtain ⟨content, rfl⟩ := Writing.kind_of_value value
          rw [Writing.string_append] at written
          exact absurd (List.cons.inj written).1.symm quote
      | _ => rfl
    rw [if_neg quote, wrongKind_none, other]
    rfl

theorem integer_yields (low high : Int) (levels : Nat) (w : Writing) :
    (integer low high).Yields levels w ((integer low high).taken levels w) := by
  refine .atValue (fun _ _ => rfl) fun steps first behind rest written ends short => ?_
  by_cases numeral : IsNumeral first
  · obtain ⟨n, rfl⟩ := Writing.of_numeral written numeral
    rw [if_pos numeral.test, taken, Writing.value?, Option.bind_map, ← written, Writing.bytes]
    obtain ⟨none, fault, failed⟩ | ⟨value, found, read⟩ := error_or_ok (n.readNumber_numeral ends)
    · rw [failed, none]
      rfl
    · simp only [read, bind, Except.bind, found]
      exact inText_toOption rest (integerOf low high value)
  · have other : (integer low high).taken levels w = none := by
      refine taken_none fun v value => ?_
      cases v with
      | number value' =>
          obtain ⟨n, rfl⟩ := Writing.kind_of_value value
          obtain ⟨b, text, same, is⟩ := n.starts rest
          obtain ⟨rfl, -⟩ := List.cons.inj (same.symm.trans written)
          exact absurd is numeral
      | _ => rfl
    have test : ¬ (decide (first = ascii '-') || isDigit first) = true := by
      rwa [Bool.or_eq_true, decide_eq_true_iff]
    rw [if_neg test, wrongKind_none, other]
    rfl

/-! Lists -/

theorem list_yields {items : List (Separator × Writing)} {value : Writing → Option α}
    (each : ∀ item ∈ items, d.Yields levels item.2 (value item.2)) (closing : Gap) :
    d.list.Yields (levels + 1) (.list items closing)
      (items.mapM fun item => value item.2) := by
  refine .atValue (fun _ _ => rfl) fun steps first behind rest written _ short => ?_
  have enough := Writing.length_listTail true items closing rest
  rw [Writing.list_append] at written short
  obtain ⟨rfl, rfl⟩ := List.cons.inj written
  rw [if_pos rfl]
  simp only [Budget.inside, bind, Except.bind]
  obtain ⟨none, fault, failed⟩ | ⟨values, found, taken⟩ := error_or_ok
    (readItems_yields (fun item there => each item there steps) closing rest []
      (Nat.lt_trans enough short) (Nat.le_of_succ_le short))
  · rw [List.isEmpty_nil] at failed
    rw [failed, none]
    rfl
  · rw [List.isEmpty_nil] at taken
    simp only [taken, found, endList_written]
    rfl

theorem list_outermost (d : Decoder α) (items : List (Separator × Writing)) (closing : Gap) :
    d.list.Yields 0 (.list items closing) none := by
  refine .atValue (fun _ _ => rfl) fun steps first behind rest written _ _ => ?_
  rw [Writing.list_append] at written
  obtain ⟨rfl, rfl⟩ := List.cons.inj written
  rfl

theorem list_other (d : Decoder α) (levels : Nat)
    (other : ∀ items closing, w ≠ .list items closing) :
    d.list.Yields levels w none := by
  refine .atValue (fun _ _ => rfl) fun steps first behind rest written _ _ => ?_
  have openList : first ≠ ascii '[' := by
    rintro rfl
    obtain ⟨items, closing, same, -⟩ := Writing.of_openList written
    exact other items closing same
  rw [if_neg openList, wrongKind_none]
  rfl

theorem Settled.list (h : d.Settled) : d.list.Settled := by
  refine .of_yields fun levels w => ?_
  cases w with
  | list items closing =>
      cases levels with
      | zero => exact ⟨_, d.list_outermost items closing⟩
      | succ levels => exact ⟨_, list_yields (fun item _ => h levels item.2) closing⟩
  | _ => exact ⟨_, d.list_other levels (by simp)⟩

/-! Lists and objects alike -/

/-- What is made of an object and of a list by those who look inside. -/
def bracketed (onObject : Nat → List (Label × Writing) → Option α)
    (onList : Nat → List (Separator × Writing) → Option α) : Nat → Writing → Option α
  | levels + 1, .object members _ => onObject levels members
  | levels + 1, .list items _ => onList levels items
  | _, _ => none

/-- A decoder that reads an object or a list from behind its bracket. -/
theorem Yields.bracketed {readObject readList : Budget → Bytes → Except Fault (α × Bytes)}
    {onObject : Nat → List (Label × Writing) → Option α}
    {onList : Nat → List (Separator × Writing) → Option α}
    (opens : ∀ budget text, d.read budget text = Decoder.atValue text fun first rest =>
      if first = ascii '\x7b' then do readObject (← budget.inside rest) rest
      else if first = ascii '[' then do readList (← budget.inside rest) rest
      else wrongKind first rest)
    (object : ∀ budget members closing rest,
      (Writing.objectTail true members closing rest).length < budget.steps →
        (readObject budget (Writing.objectTail true members closing rest)).toOption =
          (onObject budget.levels members).map fun a => (a, rest))
    (list : ∀ budget items closing rest,
      (Writing.listTail true items closing rest).length < budget.steps →
        (readList budget (Writing.listTail true items closing rest)).toOption =
          (onList budget.levels items).map fun a => (a, rest))
    (levels : Nat) (w : Writing) :
    d.Yields levels w (Decoder.bracketed onObject onList levels w) := by
  refine .atValue opens fun steps first behind rest written ends short => ?_
  split
  · next openObject =>
      subst openObject
      obtain ⟨members, closing, rfl, rfl⟩ := Writing.of_openObject written
      rw [written] at short
      cases levels with
      | zero => rfl
      | succ levels => exact object ⟨steps, levels⟩ members closing rest short
  · next openObject =>
      split
      · next openList =>
          subst openList
          obtain ⟨items, closing, rfl, rfl⟩ := Writing.of_openList written
          rw [written] at short
          cases levels with
          | zero => rfl
          | succ levels => exact list ⟨steps, levels⟩ items closing rest short
      · next openList =>
          rw [wrongKind_none]
          cases w with
          | list items closing =>
              rw [Writing.list_append] at written
              exact absurd (List.cons.inj written).1.symm openList
          | object members closing =>
              rw [Writing.object_append] at written
              exact absurd (List.cons.inj written).1.symm openObject
          | _ => cases levels <;> rfl

end Decoder

/-! ### Records -/

namespace Field

variable {σ τ : Type} {fields : List (Field σ)}

def on (field : Field σ) (levels : Nat) (w : Writing) (state : σ) : Option σ :=
  outcome (field.read · · state) levels w

def Yields (field : Field σ) (levels : Nat) (w : Writing) (state : σ) (result : Option σ) : Prop :=
  ∀ steps, Json.Yields (field.read ⟨steps, levels⟩ · state) steps w result

def Settled (field : Field σ) : Prop :=
  ∀ levels w state, field.Yields levels w state (field.on levels w state)

theorem Yields.on {field : Field σ} {levels : Nat} {w : Writing} {state : σ} {result : Option σ}
    (h : field.Yields levels w state result) : field.on levels w state = result :=
  outcome_eq h

/-- The state in which the members of an object leave a record, other members not being looked
at. -/
def gather (fields : List (Field σ)) (levels : Nat) : List (Label × Writing) → σ → Option σ
  | [], state => some state
  | (label, w) :: members, state => do
    let name ← label.name?
    match fields.find? (·.name == name) with
    | none => gather fields levels members state
    | some field =>
      if field.isSet state then none else gather fields levels members (← field.on levels w state)

/-- The state in which the items of a list leave a record, one for each field. -/
def place (levels : Nat) : List (Field σ) → List (Separator × Writing) → σ → Option σ
  | _, [], state => some state
  | [], _ :: _, _ => none
  | field :: fields, (_, w) :: items, state => do
    place levels fields items (← field.on levels w state)

theorem readMembers_yields (settled : ∀ field ∈ fields, field.Settled) (budget : Budget)
    (members : List (Label × Writing)) (closing : Gap) (rest : Bytes) (first : Bool) (state : σ)
    {steps : Nat} (enough : members.length < steps)
    (short : (Writing.objectTail first members closing rest).length ≤ budget.steps) :
    (readMembers fields budget steps first state
        (Writing.objectTail first members closing rest)).toOption =
      (gather fields budget.levels members state).map fun state =>
        (state, ascii '\x7d' :: rest) := by
  obtain ⟨steps, rfl⟩ := Nat.exists_eq_add_one.mpr (Nat.zero_lt_of_lt enough)
  induction members generalizing first state steps with
  | nil =>
      simp only [Writing.objectTail, Writing.membersBytes, List.nil_append, readMembers,
        nextKey_closing, bind, Except.bind, gather, Option.map_some]
      rfl
  | cons member members ih =>
      obtain ⟨label, w⟩ := member
      have fewer := Nat.lt_of_succ_lt_succ enough
      obtain ⟨steps, rfl⟩ := Nat.exists_eq_add_one.mpr (Nat.zero_lt_of_lt fewer)
      rw [Writing.objectTail_cons] at short ⊢
      obtain ⟨shorter, shortest⟩ := short_parts short
      have spaced := Writing.skipSpace_behind label.value w
        (Writing.objectTail false members closing rest)
      have ends := Writing.ends_objectTail members closing rest
      rw [readMembers, gather]
      obtain ⟨none, fault, failed⟩ | ⟨name, named, key⟩ := error_or_ok (nextKey_label label first
        (w.bytes ++ Writing.objectTail false members closing rest))
      · rw [failed, none]
        rfl
      · simp only [bind, Except.bind, key, named, Option.bind_some, colon_gap]
        cases found : fields.find? (·.name == name) with
        | none =>
            simp only [skipValue_writing w spaced ends shorter]
            exact ih false state shortest steps fewer
        | some field =>
            by_cases set : field.isSet state = true
            · simp only [set, if_true]
              rfl
            · have reads := settled field (List.mem_of_find?_eq_some found) budget.levels w state
              simp only [set]
              obtain ⟨none, fault, failed⟩ | ⟨state', read, taken⟩ :=
                error_or_ok (reads budget.steps _ _ spaced ends shorter)
              · simp only [failed, none]
                rfl
              · simp only [taken, read, Option.bind_some]
                exact ih false state' shortest steps fewer

/-- Reading fields by position either goes wrong, and then the items do not fit, or it ends in
front of the items that are left, which are none exactly if the items fit. The induction is on the
fields. -/
theorem readPositional_yields {budget : Budget} (settled : ∀ field ∈ fields, field.Settled)
    (items : List (Separator × Writing)) (closing : Gap) (rest : Bytes) (first : Bool) (state : σ)
    (short : (Writing.listTail first items closing rest).length ≤ budget.steps) :
    (place budget.levels fields items state = none ∧ ∃ fault, readPositional budget fields first
        state (Writing.listTail first items closing rest) = .error fault) ∨
    ∃ state' text, readPositional budget fields first state
        (Writing.listTail first items closing rest) = .ok (state', text) ∧
      (place budget.levels fields items state = some state' ∧ endList text = .ok rest ∨
        place budget.levels fields items state = none ∧ ∃ fault, endList text = .error fault) := by
  induction fields generalizing items first state with
  | nil =>
      refine .inr ⟨state, _, rfl, ?_⟩
      cases items with
      | nil =>
          exact .inl ⟨rfl, endList_gap closing rest⟩
      | cons item items =>
          rw [Writing.listTail_cons]
          exact .inr ⟨rfl, endList_more item.1 first item.2 _⟩
  | cons field fields ih =>
      obtain ⟨here, others⟩ := List.forall_mem_cons.mp settled
      cases items with
      | nil =>
          refine .inr ⟨state, ascii ']' :: rest, ?_, .inl ⟨rfl, endList_written rest⟩⟩
          simp only [Writing.listTail, Writing.itemsBytes, List.nil_append, readPositional,
            nextItem_closing, bind, Except.bind]
      | cons item items =>
          obtain ⟨separator, w⟩ := item
          rw [Writing.listTail_cons] at short ⊢
          obtain ⟨shorter, shortest⟩ := short_parts short
          rw [readPositional, nextItem_writing, place]
          simp only [bind, Except.bind]
          obtain ⟨none, fault, failed⟩ | ⟨state', read, taken⟩ := error_or_ok
            (here budget.levels w state budget.steps _ _ (Writing.skipSpace_writing w _)
              (Writing.ends_listTail items closing rest) shorter)
          · simp only [failed, none]
            exact .inl ⟨rfl, fault, rfl⟩
          · simp only [taken, read, Option.bind_some]
            exact ih others items false state' shortest

theorem Settled.of_yields {field : Field σ}
    (h : ∀ levels w state, ∃ result, field.Yields levels w state result) : field.Settled := by
  intro levels w state
  obtain ⟨result, yields⟩ := h levels w state
  rwa [yields.on]

theorem Yields.within {field : Field σ} {levels : Nat} {w : Writing} {whole : τ} (get : τ → σ)
    (set : τ → σ → τ) {result : Option σ} (h : field.Yields levels w (get whole) result) :
    (field.within get set).Yields levels w whole (result.map (set whole)) := by
  intro steps text rest spaced ends short
  simp only [Field.within]
  obtain ⟨none, fault, failed⟩ | ⟨part, found, taken⟩ :=
    error_or_ok (h steps text rest spaced ends short)
  · simp only [failed, none]
    rfl
  · simp only [taken, found]
    rfl

theorem Settled.within {field : Field σ} (h : field.Settled) (get : τ → σ) (set : τ → σ → τ) :
    (field.within get set).Settled :=
  .of_yields fun levels w state => ⟨_, (h levels w (get state)).within get set⟩

end Field

namespace Record

variable {r : Record α} {s : Record β}

def Settled (r : Record α) : Prop := ∀ field ∈ r.fields, field.Settled

/-- The field of a record with one field reads what its decoder does. -/
theorem field_yields {d : Decoder α} {name : String} {absent : Except Mismatch α} {levels : Nat}
    {w : Writing} {result : Option α} (h : d.Yields levels w result)
    (state : (Record.field name d absent).State) :
    ∀ field ∈ (Record.field name d absent).fields,
      field.Yields levels w state (result.map some) := by
  refine List.forall_mem_singleton.mpr fun steps text rest spaced ends short => ?_
  obtain ⟨none, fault, failed⟩ | ⟨a, found, taken⟩ :=
    error_or_ok (h steps text rest spaced ends short)
  · simp only [failed, none]
    rfl
  · simp only [taken, found]
    rfl

theorem Settled.field {d : Decoder α} (h : d.Settled) (name : String) (absent : Except Mismatch α) :
    (Record.field name d absent).Settled :=
  fun field there =>
    .of_yields fun levels w state => ⟨_, field_yields (h levels w) state field there⟩

theorem Settled.and (h : r.Settled) (h' : s.Settled) : (r.and s).Settled :=
  List.forall_mem_append.mpr
    ⟨List.forall_mem_map.mpr fun field there => (h field there).within _ _,
      List.forall_mem_map.mpr fun field there => (h' field there).within _ _⟩

theorem Settled.map (h : r.Settled) (f : α → β) : (r.map f).Settled := h

/-- What an object with such members is for the record. -/
def onObject (r : Record α) (levels : Nat) (members : List (Label × Writing)) : Option α :=
  (Field.gather r.fields levels members r.empty).bind fun state => (r.finish state).toOption

def onList (r : Record α) (levels : Nat) (items : List (Separator × Writing)) : Option α :=
  (Field.place levels r.fields items r.empty).bind fun state => (r.finish state).toOption

theorem readObject_yields (settled : r.Settled) (budget : Budget) (members : List (Label × Writing))
    (closing : Gap) (rest : Bytes)
    (short : (Writing.objectTail true members closing rest).length < budget.steps) :
    (r.readObject budget (Writing.objectTail true members closing rest)).toOption =
      (r.onObject budget.levels members).map fun a => (a, rest) := by
  have enough := Writing.length_objectTail true members closing rest
  rw [readObject, onObject]
  obtain ⟨none, fault, failed⟩ | ⟨state, found, taken⟩ := error_or_ok
    (Field.readMembers_yields settled budget members closing rest true r.empty
      (Nat.lt_trans enough short) (Nat.le_of_lt short))
  · rw [failed, none]
    rfl
  · simp only [bind, Except.bind, taken, found, Option.bind_some]
    cases r.finish state with
    | error mismatch => rfl
    | ok value =>
        simp only [inText, endObject_written]
        rfl

theorem readList_yields (settled : r.Settled) (budget : Budget)
    (items : List (Separator × Writing)) (closing : Gap) (rest : Bytes)
    (short : (Writing.listTail true items closing rest).length ≤ budget.steps) :
    (r.readList budget (Writing.listTail true items closing rest)).toOption =
      (r.onList budget.levels items).map fun a => (a, rest) := by
  rw [readList, onList]
  obtain ⟨none, fault, failed⟩ | ⟨state, text, taken, ⟨found, ended⟩ | ⟨none, fault, failed⟩⟩ :=
    Field.readPositional_yields settled items closing rest true r.empty short
  · rw [failed, none]
    rfl
  · simp only [bind, Except.bind, taken, found, Option.bind_some]
    cases r.finish state with
    | error mismatch => rfl
    | ok value =>
        simp only [inText, ended]
        rfl
  · simp only [bind, Except.bind, taken, none, Option.bind_none]
    cases r.finish state with
    | error mismatch => rfl
    | ok value =>
        simp only [inText, failed]
        rfl

theorem decoder_yields (settled : r.Settled) (levels : Nat) (w : Writing) :
    r.decoder.Yields levels w (Decoder.bracketed r.onObject r.onList levels w) :=
  .bracketed (fun _ _ => rfl) (fun budget members closing rest short =>
    readObject_yields settled budget members closing rest short)
    (fun budget items closing rest short =>
      readList_yields settled budget items closing rest (Nat.le_of_lt short)) levels w

theorem objectDecoder_yields (settled : r.Settled) (levels : Nat) (w : Writing) :
    r.objectDecoder.Yields levels w
      (Decoder.bracketed r.onObject (fun _ _ => none) levels w) := by
  have refused : ∀ (budget : Budget) items closing rest,
      (Writing.listTail true items closing rest).length < budget.steps →
        (fail (.mismatch .kind) (Writing.listTail true items closing rest) :
          Except Fault (α × Bytes)).toOption = none :=
    fun _ _ _ _ _ => rfl
  exact .bracketed (fun _ _ => rfl) (fun budget members closing rest short =>
    readObject_yields settled budget members closing rest short) refused levels w

end Record

end EventClient.Json
