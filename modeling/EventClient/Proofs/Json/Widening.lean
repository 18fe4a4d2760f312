import EventClient.Proofs.Json.Decoders
import EventClient.Proofs.Json.Variants

/-!
Objects that were widened by members that nobody knows. Members with names of their own may be put
in anywhere, with any values, and some of the members that were there may be widened inside. A
decoder tolerates this if it still makes what it made before.
-/
namespace EventClient.Json

variable {α β : Type}

/-- Members of an object before and after members with unknown names were put in. What was known is
written as it was but for the spaces around it, and its values are related as their names say. -/
inductive Widened (names : List String) (inner : String → Writing → Writing → Prop) :
    List (Label × Writing) → List (Label × Writing) → Prop where
  | nil : Widened names inner [] []
  | keep {label label' : Label} {w w' : Writing} {members members' : List (Label × Writing)}
      (same : label'.content = label.content)
      (inside : ∀ name, label.name? = some name → inner name w w')
      (others : Widened names inner members members') :
      Widened names inner ((label, w) :: members) ((label', w') :: members')
  | insert {label : Label} {name : String} (w : Writing) {members members' : List (Label × Writing)}
      (named : label.name? = some name) (unknown : name ∉ names)
      (others : Widened names inner members members') :
      Widened names inner members ((label, w) :: members')

/-- Items of a list before and after some were widened inside; the names are those of their
places. -/
inductive Replaced (inner : String → Writing → Writing → Prop) :
    List String → List (Separator × Writing) → List (Separator × Writing) → Prop where
  | nil (names : List String) : Replaced inner names [] []
  | cons {name : String} {names : List String} {separator : Separator} {w w' : Writing}
      {items items' : List (Separator × Writing)} (inside : inner name w w')
      (others : Replaced inner names items items') :
      Replaced inner (name :: names) ((separator, w) :: items) ((separator, w') :: items')

/-- A value before and after it was widened, as an object or, by position, as a list. -/
inductive Grown (names : List String) (inner : String → Writing → Writing → Prop) :
    Writing → Writing → Prop where
  | same (w : Writing) : Grown names inner w w
  | object {members members' : List (Label × Writing)} {closing closing' : Gap}
      (h : Widened names inner members members') :
      Grown names inner (.object members closing) (.object members' closing')
  | list {items items' : List (Separator × Writing)} {closing : Gap}
      (h : Replaced inner names items items') :
      Grown names inner (.list items closing) (.list items' closing)

/-- A list before and after each of its items may have been widened. -/
inductive EachGrown (grown : Writing → Writing → Prop) : Writing → Writing → Prop where
  | same (w : Writing) : EachGrown grown w w
  | list {items items' : List (Separator × Writing)} {closing : Gap}
      (h : List.Forall₂ (fun item item' => item'.1 = item.1 ∧ grown item.2 item'.2) items items') :
      EachGrown grown (.list items closing) (.list items' closing)

/-- Only the value under one name is widened inside. -/
def Within (special : String) (grown : Writing → Writing → Prop) (name : String)
    (w w' : Writing) : Prop :=
  w' = w ∨ name = special ∧ grown w w'

section
variable {names : List String} {special : String} {grown : Writing → Writing → Prop}
  {members members' : List (Label × Writing)}

theorem Widened.unchanged (member : Label × Writing)
    (others : Widened names (Within special grown) members members') :
    Widened names (Within special grown) (member :: members) (member :: members') :=
  .keep rfl (fun _ _ => .inl rfl) others

theorem Widened.inside {label : Label} {w w' : Writing} (named : label.name? = some special)
    (h : grown w w') (others : Widened names (Within special grown) members members') :
    Widened names (Within special grown) ((label, w) :: members) ((label, w') :: members') :=
  .keep rfl (fun _ same => .inr ⟨Option.some.inj (same.symm.trans named), h⟩) others

end

/-! ### Tolerant decoders -/

def Decoder.Tolerates (d : Decoder α) (grown : Writing → Writing → Prop) : Prop :=
  ∀ levels w w' a, grown w w' → d.on levels w = some a → d.on levels w' = some a

namespace Decoder

variable {d : Decoder α} {grown : Writing → Writing → Prop}

theorem Tolerates.other {special name : String} (differ : name ≠ special) :
    d.Tolerates (Within special grown name) := by
  rintro levels w w' a (rfl | ⟨same, -⟩) h
  · exact h
  · exact absurd same differ

theorem Tolerates.within (h : d.Tolerates grown) (special name : String) :
    d.Tolerates (Within special grown name) := by
  rintro levels w w' a (rfl | ⟨-, inside⟩) read
  · exact read
  · exact h levels w w' a inside read

/-- Where each of some values still gives what it gave, so do all of them. -/
theorem mapM_tolerates {γ : Type} {f : γ → Option α} {xs ys : List γ} {values : List α}
    (each : List.Forall₂ (fun x y => ∀ a, f x = some a → f y = some a) xs ys)
    (h : xs.mapM f = some values) : ys.mapM f = some values := by
  induction each generalizing values with
  | nil => exact h
  | cons first _ ih =>
      rw [List.mapM_cons] at h ⊢
      obtain ⟨a, here, rest⟩ := Option.bind_eq_some_iff.mp h
      obtain ⟨others, there, made⟩ := Option.bind_eq_some_iff.mp rest
      simp only [bind, first a here, ih there, Option.bind_some]
      exact made

theorem Tolerates.list (settled : d.Settled) (h : d.Tolerates grown) :
    d.list.Tolerates (EachGrown grown) := by
  rintro levels w w' values (_ | ⟨each⟩) read
  · exact read
  · cases levels with
    | zero =>
        rw [(d.list_outermost _ _).on] at read
        cases read
    | succ levels =>
        rw [(list_yields (fun item _ => settled levels item.2) _).on] at read ⊢
        exact mapM_tolerates (each.imp fun item item' h' a => h levels _ _ a h'.2) read

end Decoder

namespace Field

variable {σ τ : Type} {field : Field σ} {fields : List (Field σ)}
  {inner : String → Writing → Writing → Prop}

def Tolerates (field : Field σ) (grown : Writing → Writing → Prop) : Prop :=
  ∀ levels w w' state state', grown w w' →
    field.on levels w state = some state' → field.on levels w' state = some state'

theorem Tolerates.within {grown : Writing → Writing → Prop} (settled : field.Settled)
    (h : field.Tolerates grown) (get : τ → σ) (set : τ → σ → τ) :
    (field.within get set).Tolerates grown := by
  intro levels w w' state state' inside read
  rw [((settled levels w (get state)).within get set).on] at read
  rw [((settled levels w' (get state)).within get set).on]
  obtain ⟨part, found, rfl⟩ := Option.map_eq_some_iff.mp read
  rw [h levels w w' _ _ inside found]
  rfl

/-- The induction is on how the object was widened: what was put in is not looked at. -/
theorem gather_widened {names : List String} {members members' : List (Label × Writing)}
    (tolerant : ∀ field ∈ fields, field.Tolerates (inner field.name))
    (known : ∀ field ∈ fields, field.name ∈ names) (h : Widened names inner members members')
    {levels : Nat} {state state' : σ} (gathered : gather fields levels members state = some state') :
    gather fields levels members' state = some state' := by
  induction h generalizing state with
  | nil => exact gathered
  | @keep label label' w w' members members' same inside others ih =>
      have name : label'.name? = label.name? := congrArg Content.text? same
      rw [gather] at gathered ⊢
      rw [name]
      cases named : label.name? with
      | none =>
          rw [named] at gathered
          cases gathered
      | some name =>
          simp only [named, bind, Option.bind_some] at gathered ⊢
          cases found : fields.find? (·.name == name) with
          | none =>
              rw [found] at gathered
              exact ih gathered
          | some field =>
              simp only [found] at gathered ⊢
              split at gathered
              · cases gathered
              · next unset =>
                  obtain ⟨next, read, rest⟩ := Option.bind_eq_some_iff.mp gathered
                  have matched := List.find?_some found
                  have inside := inside name named
                  rw [← beq_iff_eq.mp matched] at inside
                  have there := List.mem_of_find?_eq_some found
                  have read' := tolerant field there _ _ _ _ _ inside read
                  rw [if_neg unset, read', Option.bind_some]
                  exact ih rest
  | @insert label name w members members' named unknown others ih =>
      have none : fields.find? (·.name == name) = none := by
        rw [List.find?_eq_none]
        intro field there same
        exact unknown (beq_iff_eq.mp same ▸ known field there)
      simp only [gather, named, bind, Option.bind_some, none]
      exact ih gathered

/-- The induction is on the places that were filled. -/
theorem place_replaced {items items' : List (Separator × Writing)}
    (tolerant : ∀ field ∈ fields, field.Tolerates (inner field.name))
    (h : Replaced inner (fields.map (·.name)) items items') {levels : Nat} {state state' : σ}
    (placed : place levels fields items state = some state') :
    place levels fields items' state = some state' := by
  induction fields generalizing items items' state with
  | nil =>
      cases h
      exact placed
  | cons field fields ih =>
      obtain ⟨here, others⟩ := List.forall_mem_cons.mp tolerant
      cases h with
      | nil => exact placed
      | cons inside rest =>
          simp only [place, bind] at placed ⊢
          obtain ⟨next, read, later⟩ := Option.bind_eq_some_iff.mp placed
          rw [here _ _ _ _ _ inside read, Option.bind_some]
          exact ih others rest later

end Field

namespace Record

variable {r : Record α} {s : Record β} {inner : String → Writing → Writing → Prop}

structure Tolerates (r : Record α) (inner : String → Writing → Writing → Prop) : Prop where
  settled : r.Settled
  fields : ∀ field ∈ r.fields, field.Tolerates (inner field.name)

namespace Tolerates

variable {d : Decoder α} {name : String}

theorem field (settled : d.Settled) (h : d.Tolerates (inner name)) (absent : Except Mismatch α) :
    (Record.field name d absent).Tolerates inner := by
  refine ⟨.field settled name absent, fun field there levels w w' state state' inside read => ?_⟩
  rw [(field_yields (settled levels w) state field there).on] at read
  rw [(field_yields (settled levels w') state field there).on]
  obtain rfl := List.mem_singleton.mp there
  obtain ⟨a, found, rfl⟩ := Option.map_eq_some_iff.mp read
  rw [h levels w w' a inside found]
  rfl

theorem required (settled : d.Settled) (h : d.Tolerates (inner name)) :
    (Record.required name d).Tolerates inner :=
  field settled h _

theorem defaulted (settled : d.Settled) (h : d.Tolerates (inner name)) (value : α) :
    (Record.defaulted name d value).Tolerates inner :=
  field settled h _

theorem and (h : r.Tolerates inner) (h' : s.Tolerates inner) : (r.and s).Tolerates inner where
  settled := h.settled.and h'.settled
  fields := List.forall_mem_append.mpr
    ⟨List.forall_mem_map.mpr fun field there =>
        (h.fields field there).within (h.settled field there) _ _,
      List.forall_mem_map.mpr fun field there =>
        (h'.fields field there).within (h'.settled field there) _ _⟩

theorem map (h : r.Tolerates inner) (f : α → β) : (r.map f).Tolerates inner :=
  ⟨h.settled.map f, h.fields⟩

end Tolerates

theorem onObject_widened {members members' : List (Label × Writing)} {levels : Nat} {a : α}
    (tolerant : r.Tolerates inner) (h : Widened r.names inner members members')
    (read : r.onObject levels members = some a) : r.onObject levels members' = some a := by
  obtain ⟨state, gathered, made⟩ := Option.bind_eq_some_iff.mp read
  have known : ∀ field ∈ r.fields, field.name ∈ r.names :=
    fun field there => List.mem_map_of_mem there
  rw [onObject, Field.gather_widened tolerant.fields known h gathered]
  exact made

theorem onList_replaced {items items' : List (Separator × Writing)} {levels : Nat} {a : α}
    (tolerant : r.Tolerates inner) (h : Replaced inner r.names items items')
    (read : r.onList levels items = some a) : r.onList levels items' = some a := by
  obtain ⟨state, placed, made⟩ := Option.bind_eq_some_iff.mp read
  rw [onList, Field.place_replaced tolerant.fields h placed]
  exact made

theorem Tolerates.decoder (h : r.Tolerates inner) :
    r.decoder.Tolerates (Grown r.names inner) := by
  intro levels w w' a grown read
  rw [(decoder_yields h.settled levels w).on] at read
  rw [(decoder_yields h.settled levels w').on]
  cases levels with
  | zero =>
      cases grown with
      | same => exact read
      | object => cases read
      | list => cases read
  | succ levels =>
      cases grown with
      | same => exact read
      | object widened => exact onObject_widened h widened read
      | list replaced => exact onList_replaced h replaced read

theorem Tolerates.objectDecoder (h : r.Tolerates inner) :
    r.objectDecoder.Tolerates (Grown r.names inner) := by
  intro levels w w' a grown read
  rw [(objectDecoder_yields h.settled levels w).on] at read
  rw [(objectDecoder_yields h.settled levels w').on]
  cases levels with
  | zero =>
      cases grown with
      | same => exact read
      | object => cases read
      | list => cases read
  | succ levels =>
      cases grown with
      | same => exact read
      | object widened => exact onObject_widened h widened read
      | list => cases read

end Record

/-! ### Variants -/

namespace Variant

/-- Nothing is the content before something is the method. -/
def MethodFirst : List (Label × Writing) → Prop
  | [] => True
  | (label, _) :: members =>
    label.name? = some Part.method.name ∨
      label.name? ≠ some Part.params.name ∧ MethodFirst members

def partNames : List String := [Part.method.name, Part.params.name]

theorem ofName?_eq_some {name : String} {part : Part} (h : Part.ofName? name = some part) :
    name = part.name := by
  rw [Part.ofName?] at h
  split at h
  · next same =>
      cases h
      exact same
  · split at h
    · next same =>
        cases h
        exact same
    · cases h

theorem ofName?_eq_none {name : String} (h : name ∉ partNames) : Part.ofName? name = none := by
  cases found : Part.ofName? name with
  | none => rfl
  | some part =>
      refine absurd ?_ h
      rw [ofName?_eq_some found]
      cases part
      · exact List.mem_cons_self
      · exact List.mem_cons_of_mem _ List.mem_cons_self

section
variable {inner : String → Writing → Writing → Prop} {members members' : List (Label × Writing)}

theorem nextOf_none_widened (h : Widened partNames inner members members')
    (read : nextOf members = some none) : nextOf members' = some none := by
  induction h with
  | nil => exact read
  | @keep label label' w w' members members' same inside others ih =>
      have name : label'.name? = label.name? := congrArg Content.text? same
      obtain ⟨name', named, rest⟩ := Option.bind_eq_some_iff.mp read
      simp only [nextOf, name, named, bind, Option.bind_some]
      cases found : Part.ofName? name' with
      | none =>
          rw [found] at rest
          exact ih rest
      | some part =>
          rw [found] at rest
          cases rest
  | @insert label name w members members' named unknown others ih =>
      simp only [nextOf, named, bind, Option.bind_some, ofName?_eq_none unknown]
      exact ih read

/-- The next of the two members is the same in the wider object, and what is behind it is wider
still. -/
theorem nextOf_some_widened (h : Widened partNames inner members members') {part : Part}
    {label : Label} {w : Writing} {later : List (Label × Writing)}
    (read : nextOf members = some (some (part, label, w, later))) :
    ∃ label' w' later', nextOf members' = some (some (part, label', w', later')) ∧
      inner part.name w w' ∧ Widened partNames inner later later' := by
  induction h with
  | nil => cases read
  | @keep label' label'' w' w'' members members' same inside others ih =>
      have name : label''.name? = label'.name? := congrArg Content.text? same
      obtain ⟨name', named, rest⟩ := Option.bind_eq_some_iff.mp read
      simp only [nextOf, name, named, bind, Option.bind_some]
      cases found : Part.ofName? name' with
      | none =>
          rw [found] at rest
          exact ih rest
      | some part =>
          rw [found] at rest
          cases rest
          exact ⟨label'', w'', members', rfl, ofName?_eq_some found ▸ inside name' named, others⟩
  | @insert label name w members members' named unknown others ih =>
      simp only [nextOf, named, bind, Option.bind_some, ofName?_eq_none unknown]
      exact ih read

theorem method_of_nextOf (first : MethodFirst members) {part : Part} {label : Label} {w : Writing}
    {later : List (Label × Writing)} (h : nextOf members = some (some (part, label, w, later))) :
    part = .method ∧
      members.find? (·.1.name? == some Part.method.name) = some (label, w) := by
  induction members with
  | nil => cases h
  | cons member members ih =>
      obtain ⟨label', w'⟩ := member
      rw [nextOf] at h
      cases named : label'.name? with
      | none =>
          rw [named] at h
          cases h
      | some name =>
          simp only [named, bind, Option.bind_some] at h
          rw [MethodFirst, named] at first
          cases found : Part.ofName? name with
          | none =>
              rw [found] at h
              have other : name ≠ Part.method.name := by
                rintro rfl
                cases found
              rcases first with same | ⟨-, first⟩
              · exact absurd (Option.some.inj same) other
              · obtain ⟨isMethod, there⟩ := ih first h
                refine ⟨isMethod, ?_⟩
                rw [List.find?_cons_of_neg (by simpa [named] using other), there]
          | some part' =>
              rw [found] at h
              cases h
              obtain rfl := ofName?_eq_some found
              cases part with
              | method => exact ⟨rfl, List.find?_cons_of_pos (by simp [named])⟩
              | params =>
                  rcases first with same | ⟨differ, -⟩
                  · exact absurd (Option.some.inj same) (by decide)
                  · exact absurd rfl differ

end

/-- The method that is told by an object or by a list of two. -/
def methodOf? : Writing → Option String
  | .object members _ =>
    (members.find? (·.1.name? == some Part.method.name)).bind (·.2.tag? nestingLimit)
  | .list ((_, w) :: _) _ => w.tag? nestingLimit
  | _ => none

/-- A variant before and after it was widened: if it was, its method is in front of its content, and
the content is widened as the method says. -/
inductive GrownVariant (content : Option String → Writing → Writing → Prop) :
    Writing → Writing → Prop where
  | same (w : Writing) : GrownVariant content w w
  | object {members members' : List (Label × Writing)} {closing closing' : Gap}
      (first : MethodFirst members)
      (h : Widened partNames
        (Within Part.params.name (content (methodOf? (.object members closing)))) members members') :
      GrownVariant content (.object members closing) (.object members' closing')
  | list {separator separator' : Separator} {m p p' : Writing} {closing : Gap}
      (h : content (m.tag? nestingLimit) p p') :
      GrownVariant content (.list [(separator, m), (separator', p)] closing)
        (.list [(separator, m), (separator', p')] closing)

section
variable {variants : List (Variant α)} {content : Option String → Writing → Writing → Prop}

theorem ended_widened {inner : String → Writing → Writing → Prop}
    {members members' : List (Label × Writing)} (h : Widened partNames inner members members')
    {value a : α} (read : ended value members = some a) : ended value members' = some a := by
  obtain ⟨next, there, rest⟩ := Option.bind_eq_some_iff.mp read
  cases next with
  | none =>
      rw [ended, nextOf_none_widened h there]
      exact rest
  | some next => cases rest

theorem onMethod_widened {later later' : List (Label × Writing)} {levels : Nat} {w : Writing} {a : α}
    {grown : Writing → Writing → Prop}
    (h : Widened partNames (Within Part.params.name grown) later later')
    (tolerant : ∀ variant, (names variants).on levels w = some variant →
      variant.params.Tolerates grown)
    (read : onMethod variants levels w later = some a) :
    onMethod variants levels w later' = some a := by
  obtain ⟨variant, named, rest⟩ := Option.bind_eq_some_iff.mp read
  obtain ⟨next, there, rest⟩ := Option.bind_eq_some_iff.mp rest
  match next, there, rest with
  | none, there, rest =>
      simp only [onMethod, bind, named, nextOf_none_widened h there, Option.bind_some]
      exact rest
  | some (.params, label, p, behind), there, rest =>
      obtain ⟨label', p', behind', there', inside, wider⟩ := nextOf_some_widened h there
      obtain ⟨value, content, rest⟩ := Option.bind_eq_some_iff.mp rest
      have content' := (tolerant variant named).within _ _ _ _ _ _ inside content
      simp only [onMethod, bind, named, there', content', Option.bind_some]
      exact ended_widened wider rest

/-- The method is found as it was, so that the content is read as before. -/
theorem onObject_widened {members members' : List (Label × Writing)} {levels : Nat} {a : α}
    {grown : Writing → Writing → Prop} (first : MethodFirst members)
    (h : Widened partNames (Within Part.params.name grown) members members')
    (tolerant : ∀ variant ∈ variants,
      (members.find? (·.1.name? == some Part.method.name)).bind (·.2.tag? nestingLimit) =
        some variant.method → variant.params.Tolerates grown)
    (read : onObject variants levels members = some a) :
    onObject variants levels members' = some a := by
  obtain ⟨next, there, rest⟩ := Option.bind_eq_some_iff.mp read
  match next, there, rest with
  | none, _, rest => cases rest
  | some (part, label, w, later), there, rest =>
  obtain ⟨rfl, found⟩ := method_of_nextOf first there
  obtain ⟨label', w', later', there', rfl | ⟨other, -⟩, wider⟩ :=
    nextOf_some_widened h there
  · simp only [onObject, bind, there', Option.bind_some]
    refine onMethod_widened wider (fun variant named => ?_) rest
    obtain ⟨mem, tagged⟩ := names_eq_some named
    refine tolerant variant mem ?_
    rw [found, Option.bind_some]
    exact Writing.tag?_of_tag? tagged _
  · exact absurd other (by decide)

/-- A variant still gives what it gave. -/
theorem tolerates_grown (settled : ∀ variant ∈ variants, variant.params.Settled)
    (tolerant : ∀ variant ∈ variants, variant.params.Tolerates (content (some variant.method))) :
    (decoder variants).Tolerates (GrownVariant content) := by
  intro levels w w' a grown read
  rw [(decoder_yields settled levels w).on] at read
  rw [(decoder_yields settled levels w').on]
  cases levels with
  | zero =>
      cases grown with
      | same => exact read
      | object => cases read
      | list => cases read
  | succ levels =>
      cases grown with
      | same => exact read
      | @object members members' closing closing' first widened =>
          refine onObject_widened first widened (fun variant mem told => ?_) read
          have told : methodOf? (.object members closing) = some variant.method := told
          rw [told]
          exact tolerant variant mem
      | @list separator separator' m p p' closing inside =>
          obtain ⟨variant, named, rest⟩ := Option.bind_eq_some_iff.mp read
          obtain ⟨mem, told⟩ := plainNames_eq_some named
          rw [Writing.tag?_of_taken told] at inside
          have content := tolerant variant mem _ _ _ _ inside rest
          simp only [Decoder.bracketed, onList, bind, named, Option.bind_some]
          exact content

end

end Variant

end EventClient.Json
