import EventClient.Proofs.Json.Decoders
import EventClient.Proofs.Json.Variants

/-!
Values that are kept until it is known what they should be. A decoder is faithful on a writing if
it makes of the text what it takes from the value that the text is read as. Plain decoders always
are; a record is on objects in which it knows every name, for members with other names are passed
over in a text but have to be read to be kept.
-/
namespace EventClient.Json

variable {α β : Type}

namespace Decoder

def Faithful (d : Decoder α) (w : Writing) : Prop := ∀ levels, d.on levels w = d.taken levels w

variable {d : Decoder α} {w : Writing}

theorem Faithful.string (w : Writing) : Decoder.string.Faithful w :=
  fun levels => (string_yields levels w).on

theorem Faithful.integer (low high : Int) (w : Writing) : (Decoder.integer low high).Faithful w :=
  fun levels => (integer_yields low high levels w).on

theorem Settled.string : Decoder.string.Settled :=
  .of_yields fun levels w => ⟨_, string_yields levels w⟩

theorem Settled.integer (low high : Int) : (Decoder.integer low high).Settled :=
  .of_yields fun levels w => ⟨_, integer_yields low high levels w⟩

theorem Settled.map (h : d.Settled) (f : α → β) : (d.map f).Settled :=
  .of_yields fun levels w => ⟨_, (h levels w).map f⟩

theorem Faithful.map (h : d.Faithful w) (settled : d.Settled) (f : α → β) :
    (d.map f).Faithful w := by
  intro levels
  rw [((settled levels w).map f).on, h levels, taken, taken, Option.map_bind]
  congr 1
  funext v
  cases taken : d.take v <;> simp [Decoder.map, refine, taken, bind, Except.bind, Except.toOption]

/-- What is taken from each of several values is taken from all of them together. -/
theorem mapM_taken {γ : Type} {f : γ → Option β} {g : β → Except Mismatch α} {h : γ → Option α}
    {xs : List γ} (each : ∀ x ∈ xs, h x = (f x).bind fun y => (g y).toOption) :
    xs.mapM h = (xs.mapM f).bind fun ys => (ys.mapM g).toOption := by
  induction xs with
  | nil => rfl
  | cons x xs ih =>
      obtain ⟨here, others⟩ := List.forall_mem_cons.mp each
      rw [List.mapM_cons, List.mapM_cons, ih others, here]
      cases f x with
      | none => rfl
      | some y =>
          cases xs.mapM f with
          | none =>
              simp only [bind, Option.bind_some, Option.bind_none]
              cases g y <;> rfl
          | some ys =>
              simp only [bind, Option.bind_some, pure, List.mapM_cons]
              cases g y with
              | error mismatch => rfl
              | ok a => cases ys.mapM g <;> rfl

theorem Faithful.list (settled : d.Settled) {items : List (Separator × Writing)}
    (each : ∀ item ∈ items, d.Faithful item.2) (closing : Gap) :
    d.list.Faithful (.list items closing) := by
  intro levels
  cases levels with
  | zero => exact (d.list_outermost items closing).on
  | succ levels =>
      rw [(list_yields (fun item _ => settled levels item.2) closing).on, taken_list]
      exact mapM_taken fun item there => each item there levels

theorem Faithful.list_other (d : Decoder α) (other : ∀ items closing, w ≠ .list items closing) :
    d.list.Faithful w := by
  intro levels
  rw [(d.list_other levels other).on]
  refine (taken_none fun v value => ?_).symm
  cases v with
  | list values =>
      obtain ⟨items, closing, rfl⟩ := Writing.kind_of_value value
      exact absurd rfl (other items closing)
  | _ => rfl

/-- What is read of a writing is always what is taken from its value. -/
structure Direct (d : Decoder α) : Prop where
  settled : d.Settled
  faithful : ∀ w, d.Faithful w

namespace Direct

theorem string : Decoder.string.Direct := ⟨.string, .string⟩

theorem map (h : d.Direct) (f : α → β) : (d.map f).Direct :=
  ⟨h.settled.map f, fun w => (h.faithful w).map h.settled f⟩

theorem integer (low high : Int) : (Decoder.integer low high).Direct :=
  ⟨.integer low high, .integer low high⟩

theorem uint64 : Decoder.uint64.Direct := (integer _ _).map _

theorem uint32 : Decoder.uint32.Direct := (integer _ _).map _

theorem int32 : Decoder.int32.Direct := (integer _ _).map _

theorem list (h : d.Direct) : d.list.Direct := by
  refine ⟨h.settled.list, fun w => ?_⟩
  cases w with
  | list items closing => exact .list h.settled (fun item _ => h.faithful item.2) closing
  | _ => exact .list_other d (by simp)

end Direct

end Decoder

/-! ### Records -/

namespace Field

variable {σ τ : Type} {field : Field σ} {fields : List (Field σ)}

def Faithful (field : Field σ) (w : Writing) : Prop :=
  ∀ levels state, field.on levels w state =
    (w.value? levels).bind fun v => (field.take v state).toOption

theorem Faithful.within {w : Writing} (settled : field.Settled) (h : field.Faithful w)
    (get : τ → σ) (set : τ → σ → τ) : (field.within get set).Faithful w := by
  intro levels state
  rw [((settled levels w (get state)).within get set).on, h levels (get state), Option.map_bind]
  congr 1
  funext v
  simp only [Field.within, Function.comp_apply]
  cases field.take v (get state) <;> rfl

theorem takeMembers_found {name : String} (found : fields.find? (·.name == name) = some field)
    (v : Json) (members : List (String × Json)) (state : σ) :
    (takeMembers fields ((name, v) :: members) state).toOption =
      if field.isSet state then none
      else (field.take v state).toOption.bind fun state =>
        (takeMembers fields members state).toOption := by
  rw [takeMembers]
  simp only [found]
  split
  · rfl
  · cases field.take v state <;> rfl

/-- The induction is on the members; every one of them has a field. -/
theorem gather_kept {levels : Nat} {members : List (Label × Writing)}
    (known : ∀ member ∈ members, ∀ name, member.1.name? = some name →
      ∃ field, fields.find? (·.name == name) = some field ∧ field.Faithful member.2)
    (state : σ) :
    gather fields levels members state =
      (members.mapM (named (·.value? levels))).bind fun values =>
        (takeMembers fields values state).toOption := by
  induction members generalizing state with
  | nil => rfl
  | cons member members ih =>
      obtain ⟨label, w⟩ := member
      obtain ⟨here, others⟩ := List.forall_mem_cons.mp known
      rw [gather, List.mapM_cons]
      simp only [named, bind]
      cases written : label.name? with
      | none => rfl
      | some name =>
      obtain ⟨field, found, faithful⟩ := here name written
      simp only [Option.bind_some, found]
      by_cases set : field.isSet state = true
      · simp only [set, if_true]
        cases w.value? levels with
        | none => rfl
        | some v =>
            cases kept : members.mapM (named (·.value? levels)) with
            | none => rfl
            | some values =>
                simp only [Option.bind_some, pure, takeMembers_found found, set, if_true]
      · rw [if_neg set, faithful levels state]
        cases w.value? levels with
        | none => rfl
        | some v =>
            simp only [Option.bind_some, pure]
            cases kept : members.mapM (named (·.value? levels)) with
            | none =>
                simp only [ih others, kept, Option.bind_none]
                cases field.take v state <;> rfl
            | some values =>
                simp only [ih others, kept, Option.bind_some, takeMembers_found found, if_neg set]

/-- The induction is on the fields, each of which takes the next item. -/
theorem place_kept {levels : Nat} {items : List (Separator × Writing)}
    (known : ∀ field ∈ fields, ∀ item ∈ items, field.Faithful item.2) (state : σ) :
    place levels fields items state =
      (items.mapM fun item : Separator × Writing => item.2.value? levels).bind fun values =>
        (takePositional fields values state).toOption := by
  induction fields generalizing items state with
  | nil =>
      cases items with
      | nil => rfl
      | cons item items =>
          simp only [place, List.mapM_cons, bind]
          cases item.2.value? levels with
          | none => rfl
          | some v => cases items.mapM fun item => item.2.value? levels <;> rfl
  | cons field fields ih =>
      cases items with
      | nil => rfl
      | cons item items =>
          obtain ⟨separator, w⟩ := item
          obtain ⟨here, others⟩ := List.forall_mem_cons.mp known
          obtain ⟨faithful, -⟩ := List.forall_mem_cons.mp here
          have rest (state : σ) := ih
            (fun field there item later => others field there item (.tail _ later)) state
          simp only [place, List.mapM_cons, bind, faithful levels state]
          cases w.value? levels with
          | none => rfl
          | some v =>
              simp only [Option.bind_some, pure]
              cases kept : items.mapM fun item => item.2.value? levels with
              | none =>
                  simp only [rest, kept, Option.bind_none]
                  cases field.take v state <;> rfl
              | some values =>
                  simp only [rest, kept, Option.bind_some, takePositional, bind, Except.bind]
                  cases field.take v state <;> rfl

end Field

namespace Record

variable {r : Record α} {s : Record β}

/-- The fields of this name are read from the writing as they are taken from its value. -/
structure FaithfulAt (r : Record α) (name : String) (w : Writing) : Prop where
  settled : r.Settled
  fields : ∀ field ∈ r.fields, field.name = name → field.Faithful w

/-- Whatever the fields of the record are read from, it is what they are taken from. -/
def Direct (r : Record α) : Prop := ∀ name w, r.FaithfulAt name w

namespace FaithfulAt

variable {d : Decoder α} {name own : String} {w : Writing}

theorem field (settled : d.Settled) (h : own = name → d.Faithful w) (absent : Except Mismatch α) :
    (Record.field own d absent).FaithfulAt name w := by
  refine ⟨.field settled own absent, fun field there same levels state => ?_⟩
  rw [(field_yields (settled levels w) state field there).on]
  obtain rfl := List.mem_singleton.mp there
  have each (x : Except Mismatch α) : x.toOption.map some = (x.map some).toOption := by
    cases x <;> rfl
  rw [h same levels, Decoder.taken]
  cases w.value? levels with
  | none => rfl
  | some v => exact each (d.take v)

theorem required (h : d.Direct) : (Record.required own d).FaithfulAt name w :=
  field h.settled (fun _ => h.faithful w) _

theorem defaulted (h : d.Direct) (value : α) : (Record.defaulted own d value).FaithfulAt name w :=
  field h.settled (fun _ => h.faithful w) _

theorem and (h : r.FaithfulAt name w) (h' : s.FaithfulAt name w) :
    (r.and s).FaithfulAt name w where
  settled := h.settled.and h'.settled
  fields := List.forall_mem_append.mpr
    ⟨List.forall_mem_map.mpr fun field there same =>
        (h.fields field there same).within (h.settled field there) _ _,
      List.forall_mem_map.mpr fun field there same =>
        (h'.fields field there same).within (h'.settled field there) _ _⟩

theorem map (h : r.FaithfulAt name w) (f : α → β) : (r.map f).FaithfulAt name w :=
  ⟨h.settled.map f, h.fields⟩

end FaithfulAt

theorem Direct.settled (h : r.Direct) : r.Settled := (h "" .null).settled

/-- Every name is one of a field. -/
theorem onObject_kept {levels : Nat} {members : List (Label × Writing)}
    (known : ∀ member ∈ members, ∀ name, member.1.name? = some name →
      name ∈ r.names ∧ r.FaithfulAt name member.2) :
    r.onObject levels members = (members.mapM (named (·.value? levels))).bind fun values =>
      (r.takeObject values).toOption := by
  have found : ∀ member ∈ members, ∀ name, member.1.name? = some name →
      ∃ field, r.fields.find? (·.name == name) = some field ∧ field.Faithful member.2 := by
    intro member there name written
    obtain ⟨listed, faithful⟩ := known member there name written
    obtain ⟨field, inside, same⟩ := List.mem_map.mp listed
    cases found : r.fields.find? (·.name == name) with
    | none => exact absurd (beq_iff_eq.mpr same) (List.find?_eq_none.mp found field inside)
    | some field =>
        have matched := List.find?_some found
        exact ⟨field, rfl, faithful.fields field (List.mem_of_find?_eq_some found)
          (beq_iff_eq.mp matched)⟩
  rw [onObject, Field.gather_kept found, Option.bind_assoc]
  congr 1
  funext values
  rw [takeObject]
  cases Field.takeMembers r.fields values r.empty <;> rfl

theorem onList_kept {levels : Nat} {items : List (Separator × Writing)}
    (known : ∀ name, ∀ item ∈ items, r.FaithfulAt name item.2) :
    r.onList levels items =
      (items.mapM fun item : Separator × Writing => item.2.value? levels).bind fun values =>
        (r.decoder.take (.list values)).toOption := by
  rw [onList, Field.place_kept (fun field there item inside =>
    (known field.name item inside).fields field there rfl), Option.bind_assoc]
  congr 1
  funext values
  simp only [decoder]
  cases Field.takePositional r.fields values r.empty <;> rfl

/-- A writing that is no object and no list is no record. -/
theorem taken_scalar {d : Decoder α} {w : Writing} (levels : Nat)
    (list : ∀ items closing, w ≠ .list items closing)
    (object : ∀ members closing, w ≠ .object members closing)
    (refuses : ∀ v, (∀ items, v ≠ .list items) → (∀ members, v ≠ .object members) →
      (d.take v).toOption = none) : d.taken levels w = none := by
  refine Decoder.taken_none fun v value => refuses v ?_ ?_
  · rintro items rfl
    obtain ⟨items, closing, rfl⟩ := Writing.kind_of_value value
    exact list items closing rfl
  · rintro members rfl
    obtain ⟨members, closing, rfl⟩ := Writing.kind_of_value value
    exact object members closing rfl

end Record

/-- An object has no other names than these. -/
def Writing.HasOnly (names : List String) : Writing → Prop
  | .object members _ => ∀ member ∈ members, ∀ name, member.1.name? = some name → name ∈ names
  | _ => True

instance (names : List String) (w : Writing) : Decidable (w.HasOnly names) :=
  match w with
  | .object members _ =>
    inferInstanceAs (Decidable (∀ member ∈ members, ∀ name ∈ member.1.name?, name ∈ names))
  | .null | .bool _ | .number _ | .string _ | .list _ _ => inferInstanceAs (Decidable True)

namespace Decoder.Faithful

variable {r : Record α} {w : Writing}

theorem record (h : r.Direct) (known : w.HasOnly r.names) : r.decoder.Faithful w := by
  intro levels
  rw [(Record.decoder_yields h.settled levels w).on]
  cases w with
  | object members closing =>
      cases levels with
      | zero => rfl
      | succ levels =>
          rw [Decoder.taken_object]
          exact Record.onObject_kept fun member there name written =>
            ⟨known member there name written, h name member.2⟩
  | list items closing =>
      cases levels with
      | zero => rfl
      | succ levels =>
          rw [Decoder.taken_list]
          exact Record.onList_kept fun name item _ => h name item.2
  | _ =>
      rw [Record.taken_scalar levels (by simp) (by simp)]
      · cases levels <;> rfl
      · intro v list object
        cases v with
        | list items => exact absurd rfl (list items)
        | object members => exact absurd rfl (object members)
        | _ => rfl

/-- A record that has to be an object. -/
theorem object (settled : r.Settled) (known : w.HasOnly r.names)
    (fields : ∀ members closing, w = .object members closing → ∀ member ∈ members, ∀ name,
      member.1.name? = some name → r.FaithfulAt name member.2) : r.objectDecoder.Faithful w := by
  intro levels
  rw [(Record.objectDecoder_yields settled levels w).on]
  cases w with
  | object members closing =>
      cases levels with
      | zero => rfl
      | succ levels =>
          rw [Decoder.taken_object]
          exact Record.onObject_kept fun member there name written =>
            ⟨known member there name written, fields members closing rfl member there name written⟩
  | list items closing =>
      cases levels with
      | zero => rfl
      | succ levels =>
          rw [Decoder.taken_list]
          cases items.mapM fun item => item.2.value? levels <;> rfl
  | _ =>
      rw [Record.taken_scalar levels (by simp) (by simp)]
      · cases levels <;> rfl
      · intro v list object
        cases v with
        | list items => exact absurd rfl (list items)
        | object members => exact absurd rfl (object members)
        | _ => rfl

end Decoder.Faithful

/-! ### Variants -/

namespace Variant

variable {variants : List (Variant α)} {levels : Nat} {method params : Label} {m p : Writing}

theorem onObject_methodFirst (named : method.name? = some Part.method.name)
    (content : params.name? = some Part.params.name) :
    onObject variants levels [(method, m), (params, p)] =
      ((names variants).on levels m).bind fun variant => variant.params.on levels p := by
  have part (part : Part) : Part.ofName? part.name = some part := by cases part <;> rfl
  simp only [onObject, nextOf, named, content, bind, Option.bind_some, part, pure, onMethod, ended]
  cases (names variants).on levels m with
  | none => rfl
  | some variant =>
      simp only [Option.bind_some]
      cases variant.params.on levels p <;> rfl

theorem onObject_paramsFirst (named : method.name? = some Part.method.name)
    (content : params.name? = some Part.params.name) :
    onObject variants levels [(params, p), (method, m)] =
      (p.value? levels).bind fun kept =>
        ((names variants).on levels m).bind fun variant => (variant.params.take kept).toOption := by
  have part (part : Part) : Part.ofName? part.name = some part := by cases part <;> rfl
  simp only [onObject, nextOf, named, content, bind, Option.bind_some, part, pure, onParams, ended]
  cases p.value? levels with
  | none => rfl
  | some kept =>
      simp only [Option.bind_some]
      cases (names variants).on levels m with
      | none => rfl
      | some variant =>
          simp only [Option.bind_some]
          cases variant.params.take kept <;> rfl

/-- The order of the two members does not matter where the content is read as it is taken. -/
theorem onObject_either_order (named : method.name? = some Part.method.name)
    (content : params.name? = some Part.params.name)
    (faithful : ∀ variant, (names variants).on levels m = some variant → variant.params.Faithful p) :
    onObject variants levels [(method, m), (params, p)] =
      onObject variants levels [(params, p), (method, m)] := by
  rw [onObject_methodFirst named content, onObject_paramsFirst named content]
  cases known : (names variants).on levels m with
  | none => cases p.value? levels <;> rfl
  | some variant =>
      simp only [Option.bind_some, faithful variant known levels]
      rfl

end Variant

end EventClient.Json
