import EventClient.Proofs.Json.Outcomes

/-!
What is made of variants as they may be written: of their names, which may also stand as the only
member of an object, and of their two members, between which there may be others. The method tells
how the content is read if it comes first; if the content comes first, it is kept as a value.
-/
namespace EventClient.Json

variable {α : Type}

/-! ### Names -/

/-- The name of the only member, if that is null. -/
def soleName? : List (Label × Writing) → Option String
  | [(label, .null)] => label.name?
  | _ => none

/-- The name of a variant, where so many brackets may be opened. -/
def Writing.tag? : Nat → Writing → Option String
  | _, .string content => content.text?
  | _ + 1, .object members _ => soleName? members
  | _, _ => none

/-- One bracket is enough for a name. -/
theorem Writing.tag?_of_tag? {levels : Nat} {w : Writing} {name : String}
    (h : w.tag? levels = some name) (levels' : Nat) : w.tag? (levels' + 1) = some name := by
  cases w with
  | string content => exact h
  | object members closing =>
      cases levels with
      | zero => cases h
      | succ levels => exact h
  | _ => cases levels <;> cases h

theorem Writing.tag?_of_taken {levels levels' : Nat} {w : Writing} {name : String}
    (h : Decoder.string.taken levels w = some name) : w.tag? levels' = some name := by
  obtain ⟨v, value, taken⟩ := Option.bind_eq_some_iff.mp h
  cases v with
  | string text =>
      obtain ⟨content, rfl⟩ := Writing.kind_of_value value
      obtain ⟨text', read, same⟩ := Option.map_eq_some_iff.mp value
      cases same
      cases taken
      exact read
  | _ => cases taken

theorem soleName?_cons (label : Label) (w : Writing) (members : List (Label × Writing)) :
    soleName? ((label, w) :: members) = label.name? ∨ soleName? ((label, w) :: members) = none := by
  cases w with
  | null =>
      cases members with
      | nil => exact .inl rfl
      | cons member members => exact .inr rfl
  | _ => exact .inr rfl

theorem soleName?_other {label : Label} {w : Writing} (other : w ≠ .null)
    (members : List (Label × Writing)) : soleName? ((label, w) :: members) = none := by
  cases w with
  | null => exact absurd rfl other
  | _ => rfl

namespace Decoder

theorem readNull_null (gap : Gap) (rest : Bytes) :
    readNull (gap.bytes ++ (Writing.null.bytes ++ rest)) = .ok rest := by
  rw [readNull, skipSpace_gap, Writing.skipSpace_writing]
  exact readWord_written (Text.bytes "ull") rest

theorem readNull_other (gap : Gap) {w : Writing} (other : w ≠ .null) (rest : Bytes) :
    (readNull (gap.bytes ++ (w.bytes ++ rest))).toOption = none := by
  obtain ⟨first, text, written, -⟩ := w.starts rest
  have letter : first ≠ ascii 'n' := by
    rintro rfl
    cases w with
    | null => exact other rfl
    | bool value => cases value <;> cases written
    | number n =>
        obtain ⟨b, text, same, numeral⟩ := n.starts rest
        exact absurd (List.cons.inj (same.symm.trans written)).1 (numeral.ne (by decide) (by decide))
    | string content => cases written
    | list items closing => cases written
    | object members closing => cases written
  rw [readNull, skipSpace_gap, Writing.skipSpace_writing, written]
  obtain ⟨fault, failed⟩ := error_of_none (wrongKind_none (α := Unit) first text)
  simp only [letter, if_false, failed]
  rfl

theorem closeVariant_closing (closing : Gap) (rest : Bytes) :
    closeVariant (Writing.objectTail false [] closing rest) = .ok rest := by
  rw [Writing.objectTail, Writing.membersBytes, List.nil_append, closeVariant,
    skipSpace_gap_cons closing (by decide)]
  exact if_pos rfl

theorem closeVariant_more (member : Label × Writing) (members : List (Label × Writing))
    (closing : Gap) (rest : Bytes) :
    (closeVariant (Writing.objectTail false (member :: members) closing rest)).toOption =
      none := by
  obtain ⟨label, w⟩ := member
  simp only [Writing.objectTail_cons, Label.bytes, Separator.bytes, Bool.false_eq_true, if_false,
    List.append_assoc, List.cons_append, closeVariant,
    skipSpace_gap_cons _ (show isSpace (ascii ',') = false by decide),
    show ascii ',' ≠ ascii '\x7d' by decide]
  rfl

/-- The name of a variant as the only member of an object, from behind its bracket. -/
theorem readMember_yields (names : List (String × α)) (members : List (Label × Writing))
    (closing : Gap) (rest : Bytes) :
    (do
      let (name, rest) ← memberName (Writing.objectTail true members closing rest)
      let (value, rest) ← inText rest (lookup names name)
      return (value, ← closeVariant (← readNull (← colon rest))) :
        Except Fault (α × Bytes)).toOption =
      ((soleName? members).bind fun name => (lookup names name).toOption).map
        fun value => (value, rest) := by
  cases members with
  | nil =>
      rw [memberName, Writing.objectTail, Writing.membersBytes, List.nil_append, nextKey_closing]
      rfl
  | cons member members =>
      obtain ⟨label, w⟩ := member
      rw [Writing.objectTail_cons, memberName]
      obtain ⟨none, fault, failed⟩ | ⟨name, named, key⟩ := error_or_ok (nextKey_label label true
        (w.bytes ++ Writing.objectTail false members closing rest))
      · rw [failed]
        rcases soleName?_cons label w members with tagged | tagged
        · rw [tagged, none]
          rfl
        · rw [tagged]
          rfl
      · simp only [key, bind, Except.bind, pure, Except.pure]
        cases found : lookup names name with
        | error mismatch =>
            rcases soleName?_cons label w members with tagged | tagged
            · simp only [tagged, named, Option.bind_some, found]
              rfl
            · rw [tagged]
              rfl
        | ok value =>
            simp only [inText, colon_gap]
            by_cases null : w = .null
            · subst null
              simp only [readNull_null]
              cases members with
              | nil =>
                  simp only [closeVariant_closing, soleName?, named, Option.bind_some, found]
                  rfl
              | cons member members =>
                  obtain ⟨fault, failed⟩ :=
                    error_of_none (closeVariant_more member members closing rest)
                  rw [failed]
                  rfl
            · obtain ⟨fault, failed⟩ := error_of_none (readNull_other label.value null
                (Writing.objectTail false members closing rest))
              rw [failed, soleName?_other null]
              rfl

theorem variantName_yields (names : List (String × α)) (levels : Nat) (w : Writing) :
    (variantName names).Yields levels w
      ((w.tag? levels).bind fun name => (lookup names name).toOption) := by
  refine .atValue (fun _ _ => rfl) fun steps first behind rest written ends short => ?_
  split
  · next quote =>
      subst quote
      obtain ⟨content, rfl, rfl⟩ := Writing.of_quote written
      rw [Writing.tag?]
      obtain ⟨none, fault, failed⟩ | ⟨name, found, read⟩ :=
        error_or_ok (Content.readText_content content rest)
      · rw [failed, none]
        rfl
      · simp only [read, bind, Except.bind, found]
        exact inText_toOption rest (lookup names name)
  · next quote =>
      split
      · next openObject =>
          subst openObject
          obtain ⟨members, closing, rfl, rfl⟩ := Writing.of_openObject written
          cases levels with
          | zero => rfl
          | succ levels => exact readMember_yields names members closing rest
      · next openObject =>
          cases w with
          | string content =>
              rw [Writing.string_append] at written
              exact absurd (List.cons.inj written).1.symm quote
          | object members closing =>
              rw [Writing.object_append] at written
              exact absurd (List.cons.inj written).1.symm openObject
          | _ => cases levels <;> rfl

theorem Settled.variantName (names : List (String × α)) : (Decoder.variantName names).Settled :=
  .of_yields fun levels w => ⟨_, variantName_yields names levels w⟩

end Decoder

/-! ### Method and content -/

namespace Variant

/-- The next of the two members, with those behind it. -/
def nextOf : List (Label × Writing) →
    Option (Option (Part × Label × Writing × List (Label × Writing)))
  | [] => some none
  | (label, w) :: members => do
    match Part.ofName? (← label.name?) with
    | some part => return some (part, label, w, members)
    | none => nextOf members

/-- What stands behind the name of a member. -/
def behindName (label : Label) (w : Writing) (members : List (Label × Writing)) (closing : Gap)
    (rest : Bytes) : Bytes :=
  label.colon.bytes ++ ascii ':' ::
    (label.value.bytes ++ (w.bytes ++ Writing.objectTail false members closing rest))

theorem nextPart_yields (budget : Budget) (members : List (Label × Writing)) (closing : Gap)
    (rest : Bytes) (first : Bool) {steps : Nat} (enough : members.length < steps)
    (short : (Writing.objectTail first members closing rest).length ≤ budget.steps) :
    (nextPart budget steps first (Writing.objectTail first members closing rest)).toOption =
      (nextOf members).map fun
        | none => (none, ascii '\x7d' :: rest)
        | some (part, label, w, members) =>
          (some part, behindName label w members closing rest) := by
  obtain ⟨steps, rfl⟩ := Nat.exists_eq_add_one.mpr (Nat.zero_lt_of_lt enough)
  induction members generalizing first steps with
  | nil =>
      simp only [Writing.objectTail, Writing.membersBytes, List.nil_append, nextPart,
        nextKey_closing, bind, Except.bind, nextOf, Option.map_some]
      rfl
  | cons member members ih =>
      obtain ⟨label, w⟩ := member
      have fewer := Nat.lt_of_succ_lt_succ enough
      obtain ⟨steps, rfl⟩ := Nat.exists_eq_add_one.mpr (Nat.zero_lt_of_lt fewer)
      rw [Writing.objectTail_cons] at short ⊢
      obtain ⟨shorter, shortest⟩ := short_parts short
      have spaced := Writing.skipSpace_behind label.value w
        (Writing.objectTail false members closing rest)
      have ends := Writing.ends_objectTail members closing rest
      rw [nextPart, nextOf]
      obtain ⟨none, fault, failed⟩ | ⟨name, named, key⟩ := error_or_ok (nextKey_label label first
        (w.bytes ++ Writing.objectTail false members closing rest))
      · rw [failed, none]
        rfl
      · simp only [bind, Except.bind, key, named, Option.bind_some, colon_gap]
        cases Part.ofName? name with
        | none =>
            simp only [skipValue_writing w spaced ends shorter]
            exact ih false shortest steps fewer
        | some part => rfl

/-- What stands behind a member is no longer than what it stands in. -/
theorem length_nextOf {members later : List (Label × Writing)} {part : Part} {label : Label}
    {w : Writing} (h : nextOf members = some (some (part, label, w, later))) (first : Bool)
    (closing : Gap) (rest : Bytes) :
    (w.bytes ++ Writing.objectTail false later closing rest).length ≤
      (Writing.objectTail first members closing rest).length := by
  induction members generalizing first with
  | nil => cases h
  | cons member members ih =>
      obtain ⟨label', w'⟩ := member
      rw [Writing.objectTail_cons]
      rw [nextOf] at h
      cases named : label'.name? with
      | none =>
          rw [named] at h
          cases h
      | some name =>
          simp only [named, bind, Option.bind_some] at h
          cases found : Part.ofName? name with
          | none =>
              rw [found] at h
              have further := ih h false
              simp only [List.length_append] at further ⊢
              omega
          | some part' =>
              rw [found] at h
              cases h
              simp only [List.length_append]
              omega

/-- What is left behind the content has neither of the two members. -/
def ended (value : α) (members : List (Label × Writing)) : Option α := do
  match ← nextOf members with
  | none => return value
  | some _ => none

def onMethod (variants : List (Variant α)) (levels : Nat) (w : Writing)
    (members : List (Label × Writing)) : Option α := do
  let variant ← (names variants).on levels w
  match ← nextOf members with
  | none => variant.alone
  | some (.method, _) => none
  | some (.params, _, w, members) => ended (← variant.params.on levels w) members

def onParams (variants : List (Variant α)) (levels : Nat) (w : Writing)
    (members : List (Label × Writing)) : Option α := do
  let kept ← w.value? levels
  match ← nextOf members with
  | none => none
  | some (.params, _) => none
  | some (.method, _, w, members) => do
    let variant ← (names variants).on levels w
    ended (← (variant.params.take kept).toOption) members

def onObject (variants : List (Variant α)) (levels : Nat) (members : List (Label × Writing)) :
    Option α := do
  match ← nextOf members with
  | none => none
  | some (.method, _, w, members) => onMethod variants levels w members
  | some (.params, _, w, members) => onParams variants levels w members

def onList (variants : List (Variant α)) (levels : Nat) : List (Separator × Writing) → Option α
  | [(_, method), (_, params)] => do
    (← (plainNames variants).on levels method).params.on levels params
  | _ => none

section
variable {variants : List (Variant α)} {levels : Nat} {w : Writing}

theorem names_settled (variants : List (Variant α)) : (names variants).Settled := .variantName _

theorem plainNames_yields (variants : List (Variant α)) (levels : Nat) (w : Writing) :
    (plainNames variants).Yields levels w ((Decoder.string.taken levels w).bind fun name =>
      (Decoder.lookup (named variants) name).toOption) :=
  (Decoder.string_yields levels w).refine _

theorem plainNames_settled (variants : List (Variant α)) : (plainNames variants).Settled :=
  .of_yields fun levels w => ⟨_, plainNames_yields variants levels w⟩

theorem lookup_eq_some {variant : Variant α} {name : String}
    (h : (Decoder.lookup (named variants) name).toOption = some variant) :
    variant ∈ variants ∧ variant.method = name := by
  rw [Decoder.lookup] at h
  cases listed : (named variants).lookup name with
  | none =>
      rw [listed] at h
      cases h
  | some variant' =>
      rw [listed] at h
      cases h
      obtain ⟨before, after, split, -⟩ := List.lookup_eq_some_iff.mp listed
      have there : (name, variant) ∈ named variants := by
        rw [split]
        exact List.mem_append_right _ List.mem_cons_self
      obtain ⟨member, mem, same⟩ := List.mem_map.mp there
      cases same
      exact ⟨mem, rfl⟩

/-- A method names one of the variants. -/
theorem names_eq_some {variant : Variant α} (h : (names variants).on levels w = some variant) :
    variant ∈ variants ∧ w.tag? levels = some variant.method := by
  rw [names, (Decoder.variantName_yields (named variants) levels w).on] at h
  obtain ⟨name, tagged, found⟩ := Option.bind_eq_some_iff.mp h
  obtain ⟨there, rfl⟩ := lookup_eq_some found
  exact ⟨there, tagged⟩

theorem plainNames_eq_some {variant : Variant α}
    (h : (plainNames variants).on levels w = some variant) :
    variant ∈ variants ∧ Decoder.string.taken levels w = some variant.method := by
  rw [(plainNames_yields variants levels w).on] at h
  obtain ⟨name, read, found⟩ := Option.bind_eq_some_iff.mp h
  obtain ⟨there, rfl⟩ := lookup_eq_some found
  exact ⟨there, read⟩

end

variable {variants : List (Variant α)} (budget : Budget) (members : List (Label × Writing))
  (closing : Gap) (rest : Bytes)

theorem endParts_yields (value : α)
    (short : (Writing.objectTail false members closing rest).length ≤ budget.steps) :
    (endParts budget value (Writing.objectTail false members closing rest)).toOption =
      (ended value members).map fun a => (a, rest) := by
  have enough := Writing.length_objectTail false members closing rest
  rw [endParts, ended]
  obtain ⟨none, fault, failed⟩ | ⟨next, found, taken⟩ := error_or_ok
    (nextPart_yields budget members closing rest false (Nat.lt_of_lt_of_le enough short) short)
  · rw [failed, none]
    rfl
  · simp only [bind, Except.bind, taken, found, Option.bind_some]
    cases next with
    | none =>
        simp only [endObject_written]
        rfl
    | some next => rfl

theorem readAfterMethod_yields (settled : ∀ variant ∈ variants, variant.params.Settled) {gap : Gap}
    (w : Writing)
    (short : (w.bytes ++ Writing.objectTail false members closing rest).length ≤ budget.steps) :
    (readAfterMethod variants budget
        (gap.bytes ++ (w.bytes ++ Writing.objectTail false members closing rest))).toOption =
      (onMethod variants budget.levels w members).map fun a => (a, rest) := by
  have shorter := short_behind short
  have enough := Writing.length_objectTail false members closing rest
  have spaced := Writing.skipSpace_behind gap w
    (Writing.objectTail false members closing rest)
  rw [readAfterMethod, onMethod]
  obtain ⟨none, fault, failed⟩ | ⟨variant, found, taken⟩ := error_or_ok
    (names_settled variants budget.levels w budget.steps _ _ spaced
      (Writing.ends_objectTail members closing rest) short)
  · simp only [bind, Except.bind, failed, none, Option.bind_none]
    rfl
  simp only [bind, Except.bind, taken, found, Option.bind_some]
  obtain ⟨none, fault, failed⟩ | ⟨next, there, passed⟩ := error_or_ok
    (nextPart_yields budget members closing rest false (Nat.lt_of_lt_of_le enough shorter) shorter)
  · simp only [failed, none, Option.bind_none]
    rfl
  simp only [passed, there, Option.bind_some]
  match next, there with
  | none, _ =>
      cases variant.alone with
      | none => rfl
      | some value =>
          simp only [endObject_written]
          rfl
  | some (.method, _, _, _), _ => rfl
  | some (.params, label, p, later), there =>
      have short := Nat.le_trans (length_nextOf there false closing rest) shorter
      have shorter := short_behind short
      have spaced := Writing.skipSpace_behind label.value p
        (Writing.objectTail false later closing rest)
      simp only [behindName, colon_gap]
      obtain ⟨none, fault, failed⟩ | ⟨value, content, read⟩ := error_or_ok
        (settled variant (names_eq_some found).1 budget.levels p budget.steps _ _ spaced
          (Writing.ends_objectTail later closing rest) short)
      · simp only [failed, none, Option.bind_none]
        rfl
      · simp only [read, content, Option.bind_some]
        exact endParts_yields budget later closing rest value shorter

theorem readAfterParams_yields {gap : Gap} (w : Writing)
    (short : (w.bytes ++ Writing.objectTail false members closing rest).length ≤ budget.steps) :
    (readAfterParams variants budget
        (gap.bytes ++ (w.bytes ++ Writing.objectTail false members closing rest))).toOption =
      (onParams variants budget.levels w members).map fun a => (a, rest) := by
  have shorter := short_behind short
  have enough := Writing.length_objectTail false members closing rest
  have spaced := Writing.skipSpace_behind gap w
    (Writing.objectTail false members closing rest)
  rw [readAfterParams, onParams]
  obtain ⟨none, fault, failed⟩ | ⟨kept, found, taken⟩ := error_or_ok
    (readValue_yields w budget.steps budget.levels _ _ spaced
      (Writing.ends_objectTail members closing rest) short)
  · simp only [bind, Except.bind, failed, none, Option.bind_none]
    rfl
  simp only [bind, Except.bind, taken, found, Option.bind_some]
  obtain ⟨none, fault, failed⟩ | ⟨next, there, passed⟩ := error_or_ok
    (nextPart_yields budget members closing rest false (Nat.lt_of_lt_of_le enough shorter) shorter)
  · simp only [failed, none, Option.bind_none]
    rfl
  simp only [passed, there, Option.bind_some]
  match next, there with
  | none, _ => rfl
  | some (.params, _, _, _), _ => rfl
  | some (.method, label, m, later), there =>
      have short := Nat.le_trans (length_nextOf there false closing rest) shorter
      have shorter := short_behind short
      have spaced := Writing.skipSpace_behind label.value m
        (Writing.objectTail false later closing rest)
      simp only [behindName, colon_gap]
      obtain ⟨none, fault, failed⟩ | ⟨variant, named, read⟩ := error_or_ok
        (names_settled variants budget.levels m budget.steps _ _ spaced
          (Writing.ends_objectTail later closing rest) short)
      · simp only [failed, none, Option.bind_none]
        rfl
      · simp only [read, named, Option.bind_some]
        cases variant.params.take kept with
        | error mismatch => rfl
        | ok value => exact endParts_yields budget later closing rest value shorter

theorem readObject_yields (settled : ∀ variant ∈ variants, variant.params.Settled)
    (short : (Writing.objectTail true members closing rest).length < budget.steps) :
    (readObject variants budget (Writing.objectTail true members closing rest)).toOption =
      (onObject variants budget.levels members).map fun a => (a, rest) := by
  have enough := Writing.length_objectTail true members closing rest
  rw [readObject, onObject]
  obtain ⟨none, fault, failed⟩ | ⟨next, there, passed⟩ := error_or_ok
    (nextPart_yields budget members closing rest true (Nat.lt_trans enough short)
      (Nat.le_of_lt short))
  · rw [failed, none]
    rfl
  simp only [bind, Except.bind, passed, there, Option.bind_some]
  match next, there with
  | none, _ => rfl
  | some (.method, label, w, later), there =>
      have short := Nat.le_trans (length_nextOf there true closing rest) (Nat.le_of_lt short)
      simp only [behindName, colon_gap]
      exact readAfterMethod_yields budget later closing rest settled w short
  | some (.params, label, w, later), there =>
      have short := Nat.le_trans (length_nextOf there true closing rest) (Nat.le_of_lt short)
      simp only [behindName, colon_gap]
      exact readAfterParams_yields budget later closing rest w short

/-- Of a list of any other length than two nothing is made, whatever its items are. -/
theorem readList_yields (settled : ∀ variant ∈ variants, variant.params.Settled)
    (items : List (Separator × Writing))
    (short : (Writing.listTail true items closing rest).length < budget.steps) :
    (readList variants budget (Writing.listTail true items closing rest)).toOption =
      (onList variants budget.levels items).map fun a => (a, rest) := by
  have short := Nat.le_of_lt short
  cases items with
  | nil =>
      rw [readList, Writing.listTail, Writing.itemsBytes, List.nil_append, nextItem_closing]
      rfl
  | cons item items =>
      obtain ⟨separator, m⟩ := item
      rw [Writing.listTail_cons] at short ⊢
      obtain ⟨shorter, shortest⟩ := short_parts short
      rw [readList, nextItem_writing]
      simp only [bind, Except.bind]
      obtain ⟨none, fault, failed⟩ | ⟨variant, named, read⟩ := error_or_ok
        (plainNames_settled variants budget.levels m budget.steps _ _
          (Writing.skipSpace_writing m _) (Writing.ends_listTail items closing rest) shorter)
      · rw [failed]
        cases items with
        | nil => rfl
        | cons item items =>
            cases items with
            | nil =>
                rw [onList, none]
                rfl
            | cons item' items => rfl
      · simp only [read]
        cases items with
        | nil =>
            rw [Writing.listTail, Writing.itemsBytes, List.nil_append, nextItem_closing]
            rfl
        | cons item items =>
            obtain ⟨separator', p⟩ := item
            rw [Writing.listTail_cons] at shortest ⊢
            have short := (short_parts shortest).1
            rw [nextItem_writing]
            simp only
            obtain ⟨none, fault, failed⟩ | ⟨value, content, taken⟩ := error_or_ok
              (settled variant (plainNames_eq_some named).1 budget.levels p budget.steps _ _
                (Writing.skipSpace_writing p _) (Writing.ends_listTail items closing rest) short)
            · rw [failed]
              cases items with
              | nil =>
                  simp only [onList, named, none, bind, Option.bind_some]
                  rfl
              | cons item items => rfl
            · simp only [taken]
              cases items with
              | nil =>
                  simp only [endList_gap, onList, named, content, bind, Option.bind_some]
                  rfl
              | cons item items =>
                  obtain ⟨fault, failed⟩ := endList_more item.1 false item.2
                    (Writing.listTail false items closing rest)
                  rw [Writing.listTail_cons, failed]
                  rfl

theorem decoder_yields (settled : ∀ variant ∈ variants, variant.params.Settled) (levels : Nat)
    (w : Writing) :
    (decoder variants).Yields levels w
      (Decoder.bracketed (onObject variants) (onList variants) levels w) :=
  .bracketed (fun _ _ => rfl)
    (fun budget members closing rest short =>
      readObject_yields budget members closing rest settled short)
    (fun budget items closing rest short =>
      readList_yields budget closing rest settled items short) levels w

end Variant

end EventClient.Json
