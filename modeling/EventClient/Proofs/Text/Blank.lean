import Mathlib.Data.List.DropRight
import EventClient.Text.Blank
import EventClient.Text.Bytes

/-!
Texts without their blank ends, and the byte order of names. Nothing is left of a text exactly if all
of it is blank, and what is left has no blank ends any more.
-/
namespace EventClient.Text

theorem trimChars_eq (cs : List Char) :
    trimChars cs = (cs.dropWhile isBlank).rdropWhile isBlank :=
  rfl

/-- Characters that do not start with a blank one still do not when blank ones behind them go. -/
theorem dropWhile_rdropWhile {cs : List Char} (start : cs.dropWhile isBlank = cs) :
    (cs.rdropWhile isBlank).dropWhile isBlank = cs.rdropWhile isBlank := by
  obtain ⟨behind, whole⟩ := List.rdropWhile_prefix isBlank (l := cs)
  cases front : cs.rdropWhile isBlank with
  | nil => rfl
  | cons c front' =>
      rw [front, List.cons_append] at whole
      rw [← whole, List.dropWhile_eq_self_iff] at start
      have visible : ¬ isBlank c = true := start (Nat.succ_pos _)
      exact List.dropWhile_cons_of_neg visible

theorem trimChars_trimChars (cs : List Char) : trimChars (trimChars cs) = trimChars cs := by
  have start : (cs.dropWhile isBlank).dropWhile isBlank = cs.dropWhile isBlank :=
    List.dropWhile_idempotent ..
  rw [trimChars_eq, trimChars_eq, dropWhile_rdropWhile start, List.rdropWhile_idempotent]

theorem trim_trim (text : String) : trim (trim text) = trim text := by
  rw [trim, trim, String.toList_ofList, trimChars_trimChars]

/-- Behind the blank front of characters nothing blank goes unless all of them are blank. -/
theorem trimChars_eq_nil_iff {cs : List Char} :
    trimChars cs = [] ↔ ∀ c ∈ cs, isBlank c = true := by
  rw [trimChars_eq, List.rdropWhile_eq_nil_iff]
  constructor
  · intro blank
    cases rest : cs.dropWhile isBlank with
    | nil => exact List.dropWhile_eq_nil_iff.mp rest
    | cons c rest' =>
        have visible := List.head?_dropWhile_not isBlank cs
        rw [rest] at visible blank
        have head : isBlank c = true := blank c List.mem_cons_self
        simp [head] at visible
  · exact fun blank c there => blank c ((List.dropWhile_sublist isBlank).subset there)

theorem trim_eq_empty_iff {text : String} : trim text = "" ↔ isBlankText text = true := by
  rw [trim, isBlankText, List.all_eq_true, ← trimChars_eq_nil_iff, ← String.toList_inj,
    String.toList_ofList]
  rfl

/-- Of two names, one comes first. -/
theorem lt_of_not_precedes {name other : String} (differ : name ≠ other)
    (follows : precedes name other = false) : bytes other < bytes name := by
  have least := List.not_lt.mp (of_decide_eq_false follows)
  refine Decidable.byContradiction fun none => ?_
  exact differ (bytes_injective (List.le_antisymm (List.not_lt.mp none) least))

end EventClient.Text
