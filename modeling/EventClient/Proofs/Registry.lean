import EventClient.Registry

/-!
A registry as a map from ids to entries. Each operation is described by what it does to the entry
of every id, so that nothing later depends on how the entries are kept.
-/
namespace EventClient

namespace CorrelationId

theorem toNat_nth {count : Nat} (h : count < UInt64.size) : (nth count).value.toNat = count :=
  UInt64.toNat_ofNat_of_lt h

theorem nth_toNat (id : CorrelationId) : nth id.value.toNat = id := by
  simp [nth]

theorem eq_nth_iff {id : CorrelationId} {count : Nat} (h : count < UInt64.size) :
    id = nth count ↔ id.value.toNat = count := by
  constructor
  · intro heq
    rw [heq, toNat_nth h]
  · intro hvalue
    rw [← hvalue, nth_toNat]

end CorrelationId

namespace Pending

variable {κ : Type}

/-- Where an entry is put does not matter for a search, as long as its id was free. -/
theorem find?_insert (entry : Pending κ) (entries : List (Pending κ)) (id : CorrelationId)
    (free : ∀ e ∈ entries, e.id ≠ entry.id) :
    (entry.insert entries).find? (·.id == id) =
      if entry.id = id then some entry else entries.find? (·.id == id) := by
  induction entries with
  | nil => by_cases h : entry.id = id <;> simp [insert, h]
  | cons first rest ih =>
      have firstFree : first.id ≠ entry.id := free first List.mem_cons_self
      have restFree : ∀ e ∈ rest, e.id ≠ entry.id :=
        fun e he => free e (List.mem_cons_of_mem _ he)
      simp only [insert]
      split
      · by_cases h : entry.id = id <;> simp [List.find?_cons, h]
      · by_cases h : first.id = id
        · have hne : entry.id ≠ id := fun he => firstFree (h.trans he.symm)
          simp [h, hne]
        · simp [h, ih restFree]

/-- Erasing what was put under a free id gives back the entries. -/
theorem filter_insert (entry : Pending κ) (entries : List (Pending κ))
    (free : ∀ e ∈ entries, e.id ≠ entry.id) :
    (entry.insert entries).filter (·.id != entry.id) = entries := by
  have kept (entries : List (Pending κ)) (free : ∀ e ∈ entries, e.id ≠ entry.id) :
      entries.filter (·.id != entry.id) = entries :=
    List.filter_eq_self.mpr fun e he => bne_iff_ne.mpr (free e he)
  induction entries with
  | nil => simp [insert]
  | cons first rest ih =>
      obtain ⟨firstFree, restFree⟩ := List.forall_mem_cons.mp free
      simp only [insert]
      split
      · rw [List.filter_cons_of_neg (by simp), kept _ free]
      · rw [List.filter_cons_of_pos (by simpa using firstFree), ih restFree]

/-- Entries in strictly ascending order of their ids. -/
def Ascending (entries : List (Pending κ)) : Prop :=
  entries.Pairwise fun e e' => e.id.value < e'.id.value

theorem perm_insert (entry : Pending κ) (entries : List (Pending κ)) :
    (entry.insert entries).Perm (entry :: entries) := by
  induction entries with
  | nil => exact List.Perm.refl _
  | cons first rest ih =>
      simp only [insert]
      split
      · exact List.Perm.refl _
      · exact (ih.cons first).trans (List.Perm.swap ..)

theorem mem_insert {entry e : Pending κ} {entries : List (Pending κ)} :
    e ∈ entry.insert entries ↔ e = entry ∨ e ∈ entries := by
  rw [(perm_insert entry entries).mem_iff, List.mem_cons]

theorem ascending_insert {entry : Pending κ} {entries : List (Pending κ)}
    (ascending : Ascending entries) (free : ∀ e ∈ entries, e.id ≠ entry.id) :
    Ascending (entry.insert entries) := by
  induction entries with
  | nil => exact List.pairwise_singleton _ _
  | cons first rest ih =>
      obtain ⟨least, restAscending⟩ := List.pairwise_cons.mp ascending
      simp only [insert]
      split
      · next less =>
          refine List.pairwise_cons.mpr ⟨?_, ascending⟩
          intro e he
          rcases List.mem_cons.mp he with rfl | he
          · exact less
          · exact UInt64.lt_trans less (least e he)
      · next notLess =>
          have firstFree : first.id ≠ entry.id := free first List.mem_cons_self
          have greater : first.id.value < entry.id.value := by
            refine UInt64.lt_of_le_of_ne (UInt64.not_lt.mp notLess) fun same => firstFree ?_
            exact congrArg CorrelationId.mk same
          have restFree : ∀ e ∈ rest, e.id ≠ entry.id :=
            fun e he => free e (List.mem_cons_of_mem _ he)
          refine List.pairwise_cons.mpr ⟨?_, ih restAscending restFree⟩
          intro e he
          rcases mem_insert.mp he with rfl | he
          · exact greater
          · exact least e he

end Pending

namespace Registry

variable {κ : Type} {r : Registry κ} {id : CorrelationId}

theorem isOutstanding_eq (r : Registry κ) (id : CorrelationId) :
    r.isOutstanding id = (r.entry? id).isSome := by
  rw [Bool.eq_iff_iff, isOutstanding, entry?, List.any_eq_true, List.find?_isSome]

theorem id_of_entry? {entry : Pending κ} (h : r.entry? id = some entry) : entry.id = id := by
  have found := List.find?_some h
  simpa using found

@[simp] theorem entry?_empty (kind : RequestKind) (id : CorrelationId) :
    Registry.entry? (empty kind : Registry κ) id = none := rfl

@[simp] theorem entry?_issue (r : Registry κ) (id : CorrelationId) :
    Registry.entry? r.issue.2 id = r.entry? id := rfl

@[simp] theorem entry?_clear (r : Registry κ) (id : CorrelationId) :
    Registry.entry? r.clear.2 id = none := rfl

theorem entry?_erase (r : Registry κ) (erased id : CorrelationId) :
    Registry.entry? (r.erase erased) id = if id = erased then none else r.entry? id := by
  rw [ entry?, erase, List.find?_filter]
  split
  · next h =>
      rw [List.find?_eq_none]
      intro e _
      simp [h]
  · next h =>
      rw [ entry?]
      congr 1
      funext e
      by_cases he : e.id = id
      · simp [he, h]
      · simp [he]

/-- An entry is refused exactly if its id is taken, and is stored under it otherwise. -/
theorem hold_eq (r : Registry κ) (entry : Pending κ) :
    r.hold entry =
      if (r.entry? entry.id).isSome then .error (.alreadyRegistered r.kind entry.id)
      else .ok { r with pending := entry.insert r.pending } := by
  rw [hold, isOutstanding_eq]

theorem hold_ok_of_free {entry : Pending κ} (free : r.entry? entry.id = none) :
    r.hold entry = .ok { r with pending := entry.insert r.pending } := by
  rw [hold_eq, free]
  rfl

/-- An id without an entry is no entry's. -/
theorem away_of_free (free : r.entry? id = none) : ∀ e ∈ r.pending, e.id ≠ id := by
  intro e he heq
  have gone := List.find?_eq_none.mp free e he
  simp [heq] at gone

/-- What storing an entry leaves: the counter and the kind as they were, the entry under its id,
and every other id as it was. -/
theorem hold_ok {entry : Pending κ} {held : Registry κ} (h : r.hold entry = .ok held) :
    r.entry? entry.id = none ∧ held.kind = r.kind ∧ held.issued = r.issued ∧
      ∀ id, held.entry? id = if entry.id = id then some entry else r.entry? id := by
  rw [hold_eq] at h
  split at h
  · cases h
  · next taken =>
      cases h
      have free : r.entry? entry.id = none := by simpa using taken
      exact ⟨free, rfl, rfl, fun id => Pending.find?_insert entry r.pending id (away_of_free free)⟩

/-- Withdrawing what was just stored leaves every id as it was. -/
theorem entry?_withdraw_hold {entry : Pending κ} {held : Registry κ}
    (h : r.hold entry = .ok held) (id : CorrelationId) :
    Registry.entry? (held.withdraw entry.id).2 id = r.entry? id := by
  obtain ⟨free, _, _, stored⟩ := hold_ok h
  rw [withdraw, entry?_erase]
  split
  · next heq => rw [heq, free]
  · next hne => rw [stored, if_neg (Ne.symm hne)]

theorem pending_withdraw_hold {entry : Pending κ} {held : Registry κ}
    (h : r.hold entry = .ok held) : (held.withdraw entry.id).2.pending = r.pending := by
  have free := (hold_ok h).1
  rw [hold_ok_of_free free] at h
  cases h
  exact Pending.filter_insert entry r.pending (away_of_free free)

/-- The ids that are listed are the ones that wait. -/
theorem mem_ids_iff : id ∈ r.ids ↔ r.isOutstanding id = true := by
  simp [ids, isOutstanding]

/-- What has no entry under any id has none at all. -/
theorem pending_eq_nil (h : ∀ id, r.entry? id = none) : r.pending = [] := by
  apply List.eq_nil_iff_forall_not_mem.mpr
  intro entry waits
  exact away_of_free (h entry.id) entry waits rfl

theorem ids_nodup (ascending : Pending.Ascending r.pending) : r.ids.Nodup := by
  refine List.pairwise_map.mpr (ascending.imp ?_)
  intro e e' less same
  rw [same] at less
  exact UInt64.lt_irrefl _ less

theorem ascending_hold {entry : Pending κ} {held : Registry κ} (h : r.hold entry = .ok held)
    (ascending : Pending.Ascending r.pending) : Pending.Ascending held.pending := by
  have free := (hold_ok h).1
  rw [hold_ok_of_free free] at h
  cases h
  exact Pending.ascending_insert ascending (away_of_free free)

theorem ascending_erase (ascending : Pending.Ascending r.pending) (id : CorrelationId) :
    Pending.Ascending (r.erase id).pending :=
  List.Pairwise.filter _ ascending

end Registry

end EventClient
