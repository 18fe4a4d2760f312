import EventClient.Subscriptions
import EventClient.Proofs.Text.Blank

/-!
Sets of names. However a set was put together, its names stand in strictly ascending byte order, so
it is determined by the names that are in it, and it passes its check exactly if none of them is
blank.
-/
namespace EventClient.Subscriptions

/-- Every name comes before all that follow it. -/
def Ascending (names : List String) : Prop :=
  names.Pairwise fun name later => Text.bytes name < Text.bytes later

/-- The form in which names are told to the framework. -/
structure IsCanonical (names : List String) : Prop where
  ascending : Ascending names
  named : ∀ name ∈ names, Text.trim name ≠ ""

/-- Names in ascending order are determined by which ones they are. -/
theorem Ascending.ext {names names' : List String} (h : Ascending names) (h' : Ascending names')
    (same : ∀ name, name ∈ names ↔ name ∈ names') : names = names' := by
  have distinct {names : List String} (h : Ascending names) : names.Nodup :=
    h.imp fun {name later} less (same : name = later) => List.lt_irrefl _ (same ▸ less)
  have perm := (List.perm_ext_iff_of_nodup (distinct h) (distinct h')).mpr same
  exact perm.eq_of_pairwise (fun _ _ _ _ less more => (List.lt_asymm less more).elim) h h'

theorem mem_insertName {name other : String} {names : List String} :
    other ∈ insertName name names ↔ other = name ∨ other ∈ names := by
  induction names with
  | nil => simp [insertName]
  | cons first rest ih =>
      simp only [insertName]
      split
      · next same => simp [same]
      · split
        · rw [List.mem_cons]
        · rw [List.mem_cons, ih, List.mem_cons, or_left_comm]

theorem ascending_insertName (name : String) {names : List String} (h : Ascending names) :
    Ascending (insertName name names) := by
  induction names with
  | nil => exact List.pairwise_singleton _ _
  | cons first rest ih =>
      obtain ⟨before, later⟩ := List.pairwise_cons.mp h
      simp only [insertName]
      split
      · exact h
      · next differ =>
          split
          · next precedes =>
              have less := of_decide_eq_true precedes
              exact List.pairwise_cons.mpr ⟨List.forall_mem_cons.mpr
                ⟨less, fun other there => List.lt_trans less (before other there)⟩, h⟩
          · next follows =>
              have more := Text.lt_of_not_precedes differ (eq_false_of_ne_true follows)
              refine List.pairwise_cons.mpr ⟨fun other there => ?_, ih later⟩
              rcases mem_insertName.mp there with rfl | there
              · exact more
              · exact before other there

/-! ### Putting sets together -/

theorem ascending_empty : Ascending empty.names := .nil

theorem ascending_insert {s : Subscriptions} (h : Ascending s.names) (name : String) :
    Ascending (s.insert name).names :=
  ascending_insertName name h

theorem ascending_erase {s : Subscriptions} (h : Ascending s.names) (name : String) :
    Ascending (s.erase name).names :=
  h.filter _

theorem ascending_insertAll {s : Subscriptions} (h : Ascending s.names) (names : List String) :
    Ascending (names.foldl insert s).names := by
  induction names generalizing s with
  | nil => exact h
  | cons name names ih => exact ih (ascending_insert h name)

theorem ascending_eraseAll {s : Subscriptions} (h : Ascending s.names) (names : List String) :
    Ascending (names.foldl erase s).names := by
  induction names generalizing s with
  | nil => exact h
  | cons name names ih => exact ih (ascending_erase h name)

theorem mem_insertAll {name : String} {s : Subscriptions} {names : List String} :
    name ∈ (names.foldl insert s).names ↔ name ∈ names ∨ name ∈ s.names := by
  induction names generalizing s with
  | nil => simp
  | cons first names ih =>
      rw [List.foldl_cons, ih, insert, mem_insertName, List.mem_cons, or_assoc, or_left_comm]

theorem ascending_ofNames (names : List String) : Ascending (ofNames names).names :=
  ascending_insertAll ascending_empty names

theorem mem_ofNames {name : String} {names : List String} :
    name ∈ (ofNames names).names ↔ name ∈ names := by
  simp [ofNames, mem_insertAll, empty]

/-- The order of names and their repetitions do not matter. -/
theorem ofNames_congr {names names' : List String} (same : ∀ name, name ∈ names ↔ name ∈ names') :
    ofNames names = ofNames names' := by
  have equal := (ascending_ofNames names).ext (ascending_ofNames names') fun name => by
    rw [mem_ofNames, mem_ofNames, same]
  exact congrArg Subscriptions.mk equal

/-! ### Checking them -/

theorem check_ok_iff {s : Subscriptions} :
    s.check = .ok () ↔ ∀ name ∈ s.names, Text.trim name ≠ "" := by
  have blank : s.names.any Text.isBlankText = true ↔ ∃ name ∈ s.names, Text.trim name = "" := by
    simp only [List.any_eq_true, Text.trim_eq_empty_iff]
  simp only [check]
  split
  · next some_blank =>
      obtain ⟨name, there, empty⟩ := blank.mp some_blank
      exact ⟨nofun, fun named => absurd empty (named name there)⟩
  · next none_blank =>
      exact ⟨fun _ name there empty => none_blank (blank.mpr ⟨name, there, empty⟩), fun _ => rfl⟩

theorem ofNames?_blank {names : List String} (blank : ∃ name ∈ names, Text.trim name = "") :
    ofNames? names = .error .blankSubscription := by
  obtain ⟨name, there, empty⟩ := blank
  have found : (ofNames names).names.any Text.isBlankText = true :=
    List.any_eq_true.mpr ⟨name, mem_ofNames.mpr there, Text.trim_eq_empty_iff.mp empty⟩
  simp only [ofNames?, check, found, if_true]
  rfl

theorem ofNames?_named {names : List String} (named : ∀ name ∈ names, Text.trim name ≠ "") :
    ofNames? names = .ok (ofNames names) := by
  have checked : (ofNames names).check = .ok () :=
    check_ok_iff.mpr fun name there => named name (mem_ofNames.mp there)
  simp only [ofNames?, checked]
  rfl

/-- What is made of names are exactly these, none of them blank. -/
theorem ofNames?_ok {names : List String} {s : Subscriptions} (h : ofNames? names = .ok s) :
    s = ofNames names ∧ IsCanonical s.names := by
  by_cases blank : ∃ name ∈ names, Text.trim name = ""
  · rw [ofNames?_blank blank] at h
    cases h
  · have named : ∀ name ∈ names, Text.trim name ≠ "" :=
      fun name there empty => blank ⟨name, there, empty⟩
    rw [ofNames?_named named] at h
    cases h
    exact ⟨rfl, ascending_ofNames names, fun name there => named name (mem_ofNames.mp there)⟩

end EventClient.Subscriptions
