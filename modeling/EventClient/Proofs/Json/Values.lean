import EventClient.Json.Basic
import EventClient.Proofs.Text.Blank

/-!
JSON values as trees: what holds of a value if it holds of everything inside it, how deep its
brackets nest, and that putting it into canonical form twice changes nothing more.
-/
namespace EventClient

/-- An integer that one of the two kinds of 64 bits has. -/
def JsonNumber.IsExact : JsonNumber → Prop
  | .integer n => -9223372036854775808 ≤ n ∧ n ≤ 18446744073709551615
  | .real _ => False

namespace Json

@[elab_as_elim, induction_eliminator]
theorem induct {motive : Json → Prop} (null : motive .null) (bool : ∀ b, motive (.bool b))
    (number : ∀ n, motive (.number n)) (string : ∀ text, motive (.string text))
    (list : ∀ items, (∀ item ∈ items, motive item) → motive (.list items))
    (object : ∀ members, (∀ member ∈ members, motive member.2) → motive (.object members))
    (v : Json) : motive v :=
  @Json.rec motive (fun items => ∀ item ∈ items, motive item)
    (fun members => ∀ member ∈ members, motive member.2) (fun member => motive member.2)
    null bool number string list object
    nofun (fun _ _ first rest => List.forall_mem_cons.mpr ⟨first, rest⟩)
    nofun (fun _ _ first rest => List.forall_mem_cons.mpr ⟨first, rest⟩)
    (fun _ _ value => value) v

/-! ### Depth and numbers -/

mutual

/-- How many brackets stand around the innermost value, a bracket with nothing inside included. -/
def depth : Json → Nat
  | .list items => itemsDepth items + 1
  | .object members => membersDepth members + 1
  | _ => 0

def itemsDepth : List Json → Nat
  | [] => 0
  | item :: rest => max item.depth (itemsDepth rest)

def membersDepth : List (String × Json) → Nat
  | [] => 0
  | (_, value) :: rest => max value.depth (membersDepth rest)

end

mutual

/-- The numbers that occur in a value. -/
def numbers : Json → List JsonNumber
  | .number n => [n]
  | .list items => itemsNumbers items
  | .object members => membersNumbers members
  | _ => []

def itemsNumbers : List Json → List JsonNumber
  | [] => []
  | item :: rest => item.numbers ++ itemsNumbers rest

def membersNumbers : List (String × Json) → List JsonNumber
  | [] => []
  | (_, value) :: rest => value.numbers ++ membersNumbers rest

end

theorem itemsDepth_le {items : List Json} {levels : Nat} :
    itemsDepth items ≤ levels ↔ ∀ item ∈ items, item.depth ≤ levels := by
  induction items with
  | nil => simp [itemsDepth]
  | cons item rest ih => rw [itemsDepth, Nat.max_le, ih, List.forall_mem_cons]

theorem itemsDepth_map {α : Type} {write : α → Json} {levels : Nat}
    (flat : ∀ a, (write a).depth ≤ levels) (values : List α) :
    itemsDepth (values.map write) ≤ levels := by
  rw [itemsDepth_le, List.forall_mem_map]
  exact fun a _ => flat a

theorem itemsDepth_strings (texts : List String) : itemsDepth (texts.map .string) = 0 :=
  Nat.le_zero.mp (itemsDepth_map (fun _ => Nat.le_refl 0) texts)

theorem membersDepth_le {members : List (String × Json)} {levels : Nat} :
    membersDepth members ≤ levels ↔ ∀ member ∈ members, member.2.depth ≤ levels := by
  induction members with
  | nil => simp [membersDepth]
  | cons member rest ih => rw [membersDepth, Nat.max_le, ih, List.forall_mem_cons]

theorem itemsNumbers_eq (items : List Json) : itemsNumbers items = items.flatMap numbers := by
  induction items with
  | nil => rfl
  | cons item rest ih => rw [itemsNumbers, ih, List.flatMap_cons]

theorem membersNumbers_eq (members : List (String × Json)) :
    membersNumbers members = members.flatMap (·.2.numbers) := by
  induction members with
  | nil => rfl
  | cons member rest ih => rw [membersNumbers, ih, List.flatMap_cons]

/-- All numbers in a value are integers of 64 bits. -/
def IsExact (v : Json) : Prop := ∀ n ∈ v.numbers, n.IsExact

/-! ### Canonical form -/

theorem canonicalItems_eq (items : List Json) : canonicalItems items = items.map canonical := by
  induction items with
  | nil => rfl
  | cons item rest ih => rw [canonicalItems, ih, List.map_cons]

theorem canonicalMembers_eq (members : List (String × Json)) :
    canonicalMembers members = members.map (Prod.map id canonical) := by
  induction members with
  | nil => rfl
  | cons member rest ih => rw [canonicalMembers, ih, List.map_cons]; rfl

theorem map_insertMember (f : Json → Json) (name : String) (value : Json)
    (members : List (String × Json)) :
    (insertMember name value members).map (Prod.map id f) =
      insertMember name (f value) (members.map (Prod.map id f)) := by
  induction members with
  | nil => rfl
  | cons member rest ih =>
      obtain ⟨other, held⟩ := member
      simp only [insertMember, List.map_cons, Prod.map_apply, id_eq]
      split
      · rfl
      · split
        · rfl
        · rw [List.map_cons, ih]
          rfl

theorem map_orderMembers (f : Json → Json) (members : List (String × Json)) :
    (orderMembers members).map (Prod.map id f) =
      orderMembers (members.map (Prod.map id f)) := by
  have general (ordered : List (String × Json)) :
      (members.foldl (fun ordered m => insertMember m.1 m.2 ordered) ordered).map
          (Prod.map id f) =
        (members.map (Prod.map id f)).foldl (fun ordered m => insertMember m.1 m.2 ordered)
          (ordered.map (Prod.map id f)) := by
    induction members generalizing ordered with
    | nil => rfl
    | cons member rest ih => simp only [List.foldl_cons, List.map_cons, ih, map_insertMember]; rfl
  exact general []

/-- Members in strictly increasing order of their names. -/
def Ordered (members : List (String × Json)) : Prop :=
  members.Pairwise fun m m' => Text.bytes m.1 < Text.bytes m'.1

theorem mem_insertMember {name : String} {value : Json} {members : List (String × Json)}
    {m : String × Json} (h : m ∈ insertMember name value members) :
    m = (name, value) ∨ m ∈ members := by
  induction members with
  | nil => exact .inl (List.mem_singleton.mp h)
  | cons member rest ih =>
      simp only [insertMember] at h
      split at h
      · exact (List.mem_cons.mp h).imp_right (List.mem_cons_of_mem _)
      · split at h
        · exact List.mem_cons.mp h
        · rcases List.mem_cons.mp h with same | later
          · exact .inr (same ▸ List.mem_cons_self)
          · exact (ih later).imp_right (List.mem_cons_of_mem _)

theorem ordered_insertMember (name : String) (value : Json) {members : List (String × Json)}
    (h : Ordered members) : Ordered (insertMember name value members) := by
  induction members with
  | nil => exact List.pairwise_singleton _ _
  | cons member rest ih =>
      obtain ⟨other, held⟩ := member
      obtain ⟨before, rest⟩ := List.pairwise_cons.mp h
      simp only [insertMember]
      split
      · next same =>
          subst same
          exact List.pairwise_cons.mpr ⟨before, rest⟩
      · next differ =>
          split
          · next precedes =>
              have less := of_decide_eq_true precedes
              refine List.pairwise_cons.mpr ⟨?_, h⟩
              intro m later
              rcases List.mem_cons.mp later with same | later
              · rwa [same]
              · exact List.lt_trans less (before m later)
          · next follows =>
              have more := Text.lt_of_not_precedes differ (eq_false_of_ne_true follows)
              refine List.pairwise_cons.mpr ⟨?_, ih rest⟩
              intro m later
              rcases mem_insertMember later with same | later
              · rwa [same]
              · exact before m later

theorem ordered_orderMembers (members : List (String × Json)) : Ordered (orderMembers members) := by
  have general (ordered : List (String × Json)) (h : Ordered ordered) :
      Ordered (members.foldl (fun ordered m => insertMember m.1 m.2 ordered) ordered) := by
    induction members generalizing ordered with
    | nil => exact h
    | cons member rest ih => exact ih _ (ordered_insertMember _ _ h)
  exact general [] List.Pairwise.nil

theorem insertMember_last {name : String} {members : List (String × Json)} (value : Json)
    (last : ∀ m ∈ members, Text.bytes m.1 < Text.bytes name) :
    insertMember name value members = members ++ [(name, value)] := by
  induction members with
  | nil => rfl
  | cons member rest ih =>
      obtain ⟨less, rest⟩ := List.forall_mem_cons.mp last
      have differ : name ≠ member.1 := by
        rintro rfl
        exact List.lt_irrefl _ less
      have follows : Text.precedes name member.1 = false :=
        decide_eq_false (List.lt_asymm less)
      rw [insertMember, if_neg differ, follows, ih rest]
      rfl

/-- Members that are in order are put in order by appending one after another. -/
theorem foldl_insertMember {ordered members : List (String × Json)}
    (h : Ordered (ordered ++ members)) :
    members.foldl (fun ordered m => insertMember m.1 m.2 ordered) ordered =
      ordered ++ members := by
  induction members generalizing ordered with
  | nil => exact (List.append_nil _).symm
  | cons member rest ih =>
      have last := (List.pairwise_append.mp h).2.2
      have inserted := insertMember_last member.2 fun m before =>
        last m before member List.mem_cons_self
      rw [List.append_cons] at h ⊢
      rw [List.foldl_cons, inserted]
      exact ih h

theorem orderMembers_ordered {members : List (String × Json)} (h : Ordered members) :
    orderMembers members = members :=
  foldl_insertMember h

/-- The induction is on the value: what is inside is in canonical form, and stays so in its order.
-/
theorem canonical_canonical (v : Json) : v.canonical.canonical = v.canonical := by
  induction v with
  | null | bool | number | string => rfl
  | list items ih =>
      simp only [canonical, canonicalItems_eq, List.map_map]
      exact congrArg Json.list (List.map_congr_left ih)
  | object members ih =>
      have inside : (members.map (Prod.map id canonical)).map (Prod.map id canonical) =
          members.map (Prod.map id canonical) := by
        rw [List.map_map]
        exact List.map_congr_left fun m there => Prod.ext rfl (ih m there)
      simp only [canonical, canonicalMembers_eq, map_orderMembers, inside]
      rw [orderMembers_ordered (ordered_orderMembers _)]

end Json

end EventClient
