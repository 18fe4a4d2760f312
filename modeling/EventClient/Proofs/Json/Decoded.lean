import EventClient.Proofs.Json.Enclosed
import EventClient.Proofs.Json.Variants

/-!
Texts that are decoded were written. What a decoder reads is a value, with what it looks at inside
and with what it passes over, so that every text that is decoded is that of a document.
-/
namespace EventClient.Json

variable {α β : Type}

/-! ### Plain decoders and lists -/

def Decoder.ReadsValues (d : Decoder α) : Prop := ∀ budget, Json.ReadsValues (d.read budget)

namespace Decoder

theorem inText_ok {rest rest' : Bytes} {x : Except Mismatch α} {a : α}
    (h : inText rest x = .ok (a, rest')) : x = .ok a ∧ rest = rest' := by
  cases x with
  | error what => cases h
  | ok value =>
      cases h
      exact ⟨rfl, rfl⟩

theorem wrongKind_ne_ok {first : UInt8} {rest rest' : Bytes} {a : α} :
    wrongKind first rest ≠ .ok (a, rest') := by
  intro h
  have none := wrongKind_none (α := α) first rest
  rw [h] at none
  cases none

theorem atValue_ok {read : UInt8 → Bytes → Except Fault (α × Bytes)} {text rest : Bytes} {a : α}
    (h : atValue text read = .ok (a, rest)) :
    ∃ first behind, skipSpace text = first :: behind ∧ read first behind = .ok (a, rest) := by
  rw [atValue] at h
  split at h
  · cases h
  · next first behind visible => exact ⟨first, behind, visible, h⟩

namespace ReadsValues

variable {d : Decoder α}

theorem refine (h : d.ReadsValues) (check : α → Except Mismatch β) :
    (d.refine check).ReadsValues := by
  intro budget text b rest read
  obtain ⟨⟨a, rest'⟩, inside, checked⟩ := bind_ok read
  obtain ⟨-, rfl⟩ := inText_ok checked
  exact h budget text a _ inside

theorem map (h : d.ReadsValues) (f : α → β) : (d.map f).ReadsValues := h.refine _

theorem string : Decoder.string.ReadsValues := by
  intro budget text a rest read
  obtain ⟨first, behind, visible, read⟩ := atValue_ok read
  split at read
  · next quote =>
      subst quote
      exact .string visible (.of_readText read)
  · exact absurd read wrongKind_ne_ok

theorem integer (low high : Int) : (Decoder.integer low high).ReadsValues := by
  intro budget text a rest read
  obtain ⟨first, behind, visible, read⟩ := atValue_ok read
  split at read
  · obtain ⟨⟨value, rest'⟩, number, checked⟩ := bind_ok read
    obtain ⟨-, rfl⟩ := inText_ok checked
    obtain ⟨n, written⟩ := readNumber_ok number
    exact .number (visible.trans written)
  · exact absurd read wrongKind_ne_ok

theorem list (h : d.ReadsValues) : d.list.ReadsValues := by
  intro budget text a rest read
  obtain ⟨first, behind, visible, read⟩ := atValue_ok read
  split at read
  · next isList =>
      subst isList
      obtain ⟨inner, -, read⟩ := bind_ok read
      obtain ⟨⟨items, text'⟩, inside, read⟩ := bind_ok read
      obtain ⟨rest', closes, same⟩ := bind_ok read
      cases same
      exact .list visible (.of_readItems (h inner) inside closes)
  · exact absurd read wrongKind_ne_ok

/-- A decoder that reads an object or a list from behind its bracket. -/
theorem bracketed {readObject readList : Budget → Bytes → Except Fault (α × Bytes)}
    (opens : ∀ budget text, d.read budget text = Decoder.atValue text fun first rest =>
      if first = ascii '\x7b' then do readObject (← budget.inside rest) rest
      else if first = ascii '[' then do readList (← budget.inside rest) rest
      else wrongKind first rest)
    (object : ∀ budget text a rest, readObject budget text = .ok (a, rest) →
      EndsObject true text rest)
    (list : ∀ budget text a rest, readList budget text = .ok (a, rest) → EndsList true text rest) :
    d.ReadsValues := by
  intro budget text a rest read
  rw [opens] at read
  obtain ⟨first, behind, visible, read⟩ := atValue_ok read
  split at read
  · next isObject =>
      subst isObject
      obtain ⟨inner, -, read⟩ := bind_ok read
      exact .object visible (object inner behind a rest read)
  split at read
  · next isList =>
      subst isList
      obtain ⟨inner, -, read⟩ := bind_ok read
      exact .list visible (list inner behind a rest read)
  · exact absurd read wrongKind_ne_ok

/-- Every text that is decoded is that of a document. -/
theorem exists_document (h : d.ReadsValues) {text : Bytes} {a : α}
    (decoded : d.decode text = .ok a) :
    ∃ document : Document, document.bytes = text := by
  obtain ⟨⟨a, rest⟩, read, decoded⟩ := bind_ok decoded
  obtain ⟨_, ended, -⟩ := bind_ok decoded
  obtain ⟨front, w, rfl⟩ := h _ _ _ _ read
  obtain ⟨back, written⟩ := exists_gap rest
  rw [atEnd] at ended
  split at ended
  · next none =>
      rw [none, List.append_nil] at written
      exact ⟨⟨front, w, back⟩, by rw [Document.bytes, ← written, List.append_assoc]⟩
  · cases ended

end ReadsValues

end Decoder

/-! ### Records -/

def Field.ReadsValues {σ : Type} (field : Field σ) : Prop :=
  ∀ budget state, Json.ReadsValues (field.read budget · state)

namespace Field

variable {σ τ : Type} {fields : List (Field σ)}

theorem ReadsValues.within {field : Field σ} (h : field.ReadsValues) (get : τ → σ)
    (set : τ → σ → τ) :
    (field.within get set).ReadsValues := by
  intro budget state text state' rest read
  obtain ⟨⟨part, rest'⟩, inside, same⟩ := bind_ok read
  cases same
  exact h budget (get state) text part rest inside

theorem endsObject_of_readMembers (reads : ∀ field ∈ fields, field.ReadsValues) {budget : Budget}
    {steps : Nat} {first : Bool} {state state' : σ} {text text' rest : Bytes}
    (h : readMembers fields budget steps first state text = .ok (state', text'))
    (closes : endObject text' = .ok rest) : EndsObject first text rest := by
  induction steps generalizing first state text with
  | zero => cases h
  | succ steps ih =>
      rw [readMembers] at h
      obtain ⟨⟨name?, text₁⟩, key, h⟩ := bind_ok h
      cases name? with
      | none =>
          cases h
          exact .of_nextKey key closes
      | some name =>
          dsimp only at h
          split at h
          · obtain ⟨text₂, sep, h⟩ := bind_ok h
            obtain ⟨text₃, value, h⟩ := bind_ok h
            exact .cons (.of_nextKey key sep) (skipValue_ok value) (ih h)
          · next field found =>
              split at h
              · cases h
              · obtain ⟨text₂, sep, h⟩ := bind_ok h
                obtain ⟨⟨next, text₃⟩, value, h⟩ := bind_ok h
                have field := reads field (List.mem_of_find?_eq_some found)
                exact .cons (.of_nextKey key sep) (field _ _ _ _ _ value) (ih h)

theorem endsList_of_readPositional (reads : ∀ field ∈ fields, field.ReadsValues) {budget : Budget}
    {first : Bool} {state state' : σ} {text text' rest : Bytes}
    (h : readPositional budget fields first state text = .ok (state', text'))
    (closes : endList text' = .ok rest) : EndsList first text rest := by
  induction fields generalizing first state text with
  | nil =>
      cases h
      exact .of_endList closes
  | cons field fields ih =>
      obtain ⟨here, others⟩ := List.forall_mem_cons.mp reads
      rw [readPositional] at h
      obtain ⟨⟨more, text₁⟩, next, h⟩ := bind_ok h
      cases more with
      | false =>
          cases h
          exact .of_nextItem next closes
      | true =>
          obtain ⟨⟨state, text₂⟩, value, h⟩ := bind_ok h
          exact .cons (.of_nextItem next) (here _ _ _ _ _ value) (ih others h)

end Field

def Record.ReadsValues (r : Record α) : Prop := ∀ field ∈ r.fields, field.ReadsValues

namespace Record.ReadsValues

variable {d : Decoder α} {r : Record α} {s : Record β}

theorem field (h : d.ReadsValues) (name : String) (absent : Except Mismatch α) :
    (Record.field name d absent).ReadsValues := by
  intro field there budget state text state' rest read
  obtain rfl := List.mem_singleton.mp there
  obtain ⟨⟨a, rest'⟩, inside, same⟩ := bind_ok read
  cases same
  exact h budget text a rest inside

theorem required {name : String} (h : d.ReadsValues) : (Record.required name d).ReadsValues :=
  field h name _

theorem defaulted {name : String} (h : d.ReadsValues) (value : α) :
    (Record.defaulted name d value).ReadsValues :=
  field h name _

theorem and (h : r.ReadsValues) (h' : s.ReadsValues) : (r.and s).ReadsValues :=
  List.forall_mem_append.mpr
    ⟨List.forall_mem_map.mpr fun field there => (h field there).within _ _,
      List.forall_mem_map.mpr fun field there => (h' field there).within _ _⟩

theorem map (h : r.ReadsValues) (f : α → β) : (r.map f).ReadsValues := h

theorem readObject (h : r.ReadsValues) {budget : Budget} {text rest : Bytes} {a : α}
    (read : r.readObject budget text = .ok (a, rest)) : EndsObject true text rest := by
  obtain ⟨⟨state, text₁⟩, members, read⟩ := bind_ok read
  obtain ⟨⟨value, text₂⟩, finished, read⟩ := bind_ok read
  obtain ⟨rest', closes, same⟩ := bind_ok read
  obtain ⟨-, rfl⟩ := Decoder.inText_ok finished
  cases same
  exact Field.endsObject_of_readMembers h members closes

theorem readList (h : r.ReadsValues) {budget : Budget} {text rest : Bytes} {a : α}
    (read : r.readList budget text = .ok (a, rest)) : EndsList true text rest := by
  obtain ⟨⟨state, text₁⟩, items, read⟩ := bind_ok read
  obtain ⟨⟨value, text₂⟩, finished, read⟩ := bind_ok read
  obtain ⟨rest', closes, same⟩ := bind_ok read
  obtain ⟨-, rfl⟩ := Decoder.inText_ok finished
  cases same
  exact Field.endsList_of_readPositional h items closes

theorem decoder (h : r.ReadsValues) : r.decoder.ReadsValues :=
  .bracketed (fun _ _ => rfl) (fun _ _ _ _ read => h.readObject read)
    fun _ _ _ _ read => h.readList read

theorem objectDecoder (h : r.ReadsValues) : r.objectDecoder.ReadsValues :=
  .bracketed (fun _ _ => rfl) (fun _ _ _ _ read => h.readObject read)
    fun _ text _ _ (read : fail (.mismatch .kind) text = _) => nomatch read

end Record.ReadsValues

/-! ### Variants -/

theorem Decoder.readNull_ok {text rest : Bytes} (h : readNull text = .ok rest) :
    EndsValue text rest := by
  rw [readNull] at h
  split at h
  · cases h
  · next first behind visible =>
      split at h
      · next letter =>
          subst letter
          exact .null visible h
      · obtain ⟨⟨value, rest'⟩, wrong, -⟩ := bind_ok h
        exact absurd wrong wrongKind_ne_ok

theorem Decoder.closeVariant_ok {first : Bool} {text rest : Bytes}
    (h : closeVariant text = .ok rest) :
    EndsObject first text rest := by
  rw [closeVariant] at h
  split at h
  · cases h
  · next b behind visible =>
      split at h
      · next isClosing =>
          cases h
          rw [isClosing] at visible
          exact .closed visible
      · cases h

/-- The name of a variant is a value, and one of those there are. -/
theorem Decoder.variantName_ok {names : List (String × α)} {budget : Budget}
    {text rest : Bytes} {a : α} (read : (variantName names).read budget text = .ok (a, rest)) :
    EndsValue text rest ∧ ∃ name, lookup names name = .ok a := by
  obtain ⟨first, behind, visible, read⟩ := atValue_ok read
  split at read
  · next quote =>
      subst quote
      obtain ⟨⟨name, text₁⟩, inside, read⟩ := bind_ok read
      obtain ⟨found, rfl⟩ := inText_ok read
      exact ⟨.string visible (.of_readText inside), name, found⟩
  split at read
  · next isObject =>
      subst isObject
      obtain ⟨_, -, read⟩ := bind_ok read
      obtain ⟨⟨name, text₁⟩, member, read⟩ := bind_ok read
      obtain ⟨⟨value, text₂⟩, listed, read⟩ := bind_ok read
      obtain ⟨found, rfl⟩ := inText_ok listed
      obtain ⟨text₃, sep, read⟩ := bind_ok read
      obtain ⟨text₄, null, read⟩ := bind_ok read
      obtain ⟨text₅, closes, same⟩ := bind_ok read
      cases same
      obtain ⟨⟨name?, text₆⟩, key, member⟩ := bind_ok member
      cases name? with
      | none => cases member
      | some name =>
          cases member
          have inside : EndsObject true behind rest :=
            .cons (.of_nextKey key sep) (readNull_ok null) (closeVariant_ok closes)
          exact ⟨.object visible inside, name, found⟩
  · cases read

namespace Variant

variable {variants : List (Variant α)} {budget : Budget} {text text' rest : Bytes} {a : α}

theorem mem_of_lookup {variant : Variant α} {name : String}
    (h : Decoder.lookup (named variants) name = .ok variant) : variant ∈ variants :=
  (lookup_eq_some (congrArg Except.toOption h)).1

/-- Where no other of the two members follows, the object ends. -/
theorem endsObject_of_nextPart {steps : Nat} {first : Bool}
    (h : nextPart budget steps first text = .ok (none, text'))
    (closes : endObject text' = .ok rest) :
    EndsObject first text rest := by
  induction steps generalizing first text with
  | zero => cases h
  | succ steps ih =>
      rw [nextPart] at h
      obtain ⟨⟨name?, text₁⟩, key, h⟩ := bind_ok h
      cases name? with
      | none =>
          cases h
          exact .of_nextKey key closes
      | some name =>
          dsimp only at h
          split at h
          · cases h
          · obtain ⟨text₂, sep, h⟩ := bind_ok h
            obtain ⟨text₃, value, h⟩ := bind_ok h
            exact .cons (.of_nextKey key sep) (skipValue_ok value) (ih h)

/-- Where one follows, the object ends if it does behind that member. -/
theorem endsObject_of_nextPart_some {steps : Nat} {first : Bool} {part : Part} {text₁ text₂ : Bytes}
    (h : nextPart budget steps first text = .ok (some part, text')) (sep : colon text' = .ok text₁)
    (value : EndsValue text₁ text₂) (others : EndsObject false text₂ rest) :
    EndsObject first text rest := by
  induction steps generalizing first text with
  | zero => cases h
  | succ steps ih =>
      rw [nextPart] at h
      obtain ⟨⟨name?, text₁⟩, key, h⟩ := bind_ok h
      cases name? with
      | none => cases h
      | some name =>
          dsimp only at h
          split at h
          · cases h
            exact .cons (.of_nextKey key sep) value others
          · obtain ⟨text₂, sep', h⟩ := bind_ok h
            obtain ⟨text₃, value', h⟩ := bind_ok h
            exact .cons (.of_nextKey key sep') (skipValue_ok value') (ih h)

theorem endsObject_of_endParts {value : α} (h : endParts budget value text = .ok (a, rest)) :
    EndsObject false text rest := by
  obtain ⟨⟨next, text₁⟩, there, h⟩ := bind_ok h
  cases next with
  | none =>
      obtain ⟨rest', closes, same⟩ := bind_ok h
      cases same
      exact endsObject_of_nextPart there closes
  | some part => cases h

theorem readAfterMethod_ok (reads : ∀ variant ∈ variants, variant.params.ReadsValues)
    (h : readAfterMethod variants budget text = .ok (a, rest)) :
    ∃ behind, EndsValue text behind ∧ EndsObject false behind rest := by
  obtain ⟨⟨variant, text₁⟩, name, h⟩ := bind_ok h
  obtain ⟨value, _, found⟩ := Decoder.variantName_ok name
  refine ⟨text₁, value, ?_⟩
  obtain ⟨⟨next, text₂⟩, there, h⟩ := bind_ok h
  match next, there, h with
  | none, there, h =>
      dsimp only at h
      split at h
      · obtain ⟨rest', closes, same⟩ := bind_ok h
        cases same
        exact endsObject_of_nextPart there closes
      · cases h
  | some .params, there, h =>
      obtain ⟨text₃, sep, h⟩ := bind_ok h
      obtain ⟨⟨value, text₄⟩, content, h⟩ := bind_ok h
      have params := reads variant (mem_of_lookup found)
      exact endsObject_of_nextPart_some there sep (params _ _ _ _ content)
        (endsObject_of_endParts h)
  | some .method, there, h => cases h

theorem readAfterParams_ok (h : readAfterParams variants budget text = .ok (a, rest)) :
    ∃ behind, EndsValue text behind ∧ EndsObject false behind rest := by
  obtain ⟨⟨kept, text₁⟩, content, h⟩ := bind_ok h
  refine ⟨text₁, reads_readValue _ _ _ _ _ content, ?_⟩
  obtain ⟨⟨next, text₂⟩, there, h⟩ := bind_ok h
  match next, there, h with
  | none, there, h => cases h
  | some .method, there, h =>
      obtain ⟨text₃, sep, h⟩ := bind_ok h
      obtain ⟨⟨variant, text₄⟩, name, h⟩ := bind_ok h
      obtain ⟨⟨value, text₅⟩, taken, h⟩ := bind_ok h
      obtain ⟨-, rfl⟩ := Decoder.inText_ok taken
      exact endsObject_of_nextPart_some there sep (Decoder.variantName_ok name).1
        (endsObject_of_endParts h)
  | some .params, there, h => cases h

theorem readObject_ok (reads : ∀ variant ∈ variants, variant.params.ReadsValues)
    (h : readObject variants budget text = .ok (a, rest)) : EndsObject true text rest := by
  obtain ⟨⟨next, text₁⟩, there, h⟩ := bind_ok h
  match next, there, h with
  | none, there, h => cases h
  | some .method, there, h =>
      obtain ⟨text₂, sep, h⟩ := bind_ok h
      obtain ⟨behind, value, others⟩ := readAfterMethod_ok reads h
      exact endsObject_of_nextPart_some there sep value others
  | some .params, there, h =>
      obtain ⟨text₂, sep, h⟩ := bind_ok h
      obtain ⟨behind, value, others⟩ := readAfterParams_ok h
      exact endsObject_of_nextPart_some there sep value others

theorem readList_ok (reads : ∀ variant ∈ variants, variant.params.ReadsValues)
    (h : readList variants budget text = .ok (a, rest)) : EndsList true text rest := by
  obtain ⟨⟨more, text₁⟩, next, h⟩ := bind_ok h
  cases more with
  | false => cases h
  | true =>
      obtain ⟨⟨variant, text₂⟩, name, h⟩ := bind_ok h
      obtain ⟨⟨more, text₃⟩, next', h⟩ := bind_ok h
      cases more with
      | false => cases h
      | true =>
          obtain ⟨⟨value, text₄⟩, content, h⟩ := bind_ok h
          obtain ⟨rest', closes, same⟩ := bind_ok h
          cases same
          obtain ⟨⟨spelled, text₅⟩, string, listed⟩ := bind_ok name
          obtain ⟨found, rfl⟩ := Decoder.inText_ok listed
          have params := reads variant (mem_of_lookup found)
          exact .cons (.of_nextItem next) (Decoder.ReadsValues.string _ _ _ _ string)
            (.cons (.of_nextItem next') (params _ _ _ _ content) (.of_endList closes))

theorem reads_decoder (reads : ∀ variant ∈ variants, variant.params.ReadsValues) :
    (decoder variants).ReadsValues :=
  .bracketed (fun _ _ => rfl) (fun _ _ _ _ read => readObject_ok reads read)
    fun _ _ _ _ read => readList_ok reads read

end Variant

end EventClient.Json
