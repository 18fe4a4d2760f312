import EventClient.Proofs.Registry
import Mathlib.Data.Finmap
import Mathlib.Data.Finset.Sort

/-!
A registry against a finite map with a counter beside it. Both answer every sequence of operations
alike, so what a registry holds can be read off what its user asked and heard: the entries that were
taken and not removed since.
-/
namespace EventClient

namespace CorrelationId

/-- The order of ids is that of their numbers. -/
def AtMost (id id' : CorrelationId) : Prop := id.value ≤ id'.value

instance : DecidableRel AtMost := fun id id' => inferInstanceAs (Decidable (id.value ≤ id'.value))

instance : IsTrans CorrelationId AtMost := ⟨fun _ _ _ => UInt64.le_trans⟩

instance : Std.Antisymm AtMost :=
  ⟨fun _ _ least greatest => congrArg CorrelationId.mk (UInt64.le_antisymm least greatest)⟩

instance : Std.Total AtMost := ⟨fun id id' => UInt64.le_total id.value id'.value⟩

end CorrelationId

namespace Registry

variable {κ : Type}

/-- What is asked of a registry. Ids are the caller's, whether they were given out or not. -/
inductive Operation (κ : Type) where
  | issue
  | hold (entry : Pending κ)
  | settle (id : CorrelationId)
  | withdraw (id : CorrelationId)
  | clear

inductive Reply (κ : Type) where
  | issued (id : CorrelationId)
  | held
  | took (entry : Pending κ)
  | nothing
  | cleared (entries : List (Pending κ))
  | failed (error : ClientError)

namespace Operation

def isIssue : Operation κ → Bool
  | .issue => true
  | _ => false

/-- What is asked takes the entry of an id away, if there is one. -/
def Removes (id : CorrelationId) : Operation κ → Prop
  | .settle id' | .withdraw id' => id' = id
  | .clear => True
  | .issue | .hold _ => False

/-- What is asked has to do with an id. -/
def Concerns (id : CorrelationId) : Operation κ → Prop
  | .hold entry => entry.id = id
  | op => op.Removes id

end Operation

def Reply.issued? : Reply κ → Option CorrelationId
  | .issued id => some id
  | _ => none

/-- What was asked and answered, the first first. -/
abbrev Transcript (κ : Type) := List (Operation κ × Reply κ)

def perform (r : Registry κ) : Operation κ → Reply κ × Registry κ
  | .issue => (.issued r.issue.1, r.issue.2)
  | .hold entry =>
    match r.hold entry with
    | .ok held => (.held, held)
    | .error e => (.failed e, r)
  | .settle id =>
    match r.settle id with
    | .ok (entry, left) => (.took entry, left)
    | .error e => (.failed e, r)
  | .withdraw id =>
    match r.withdraw id with
    | (some entry, left) => (.took entry, left)
    | (none, left) => (.nothing, left)
  | .clear => (.cleared r.clear.1, r.clear.2)

def after (r : Registry κ) (ops : List (Operation κ)) : Registry κ :=
  ops.foldl (fun r op => (r.perform op).2) r

def transcript (r : Registry κ) : List (Operation κ) → Transcript κ
  | [] => []
  | op :: ops => (op, (r.perform op).1) :: (r.perform op).2.transcript ops

/-! ### The reference -/

/-- A finite map from ids to callbacks with their user data, and how many ids were given out. -/
structure Table (κ : Type) where
  kind : RequestKind
  issued : Nat
  held : Finmap fun _ : CorrelationId => κ × Option String

namespace Table

def empty (kind : RequestKind) : Table κ := ⟨kind, 0, ∅⟩

def entry? (m : Table κ) (id : CorrelationId) : Option (Pending κ) :=
  (m.held.lookup id).map fun (callback, userData) => { id, callback, userData }

def ids (m : Table κ) : List CorrelationId := m.held.keys.sort CorrelationId.AtMost

def erase (m : Table κ) (id : CorrelationId) : Table κ := { m with held := m.held.erase id }

def perform (m : Table κ) : Operation κ → Reply κ × Table κ
  | .issue => (.issued (.nth m.issued), { m with issued := m.issued + 1 })
  | .hold entry =>
    if entry.id ∈ m.held then (.failed (.alreadyRegistered m.kind entry.id), m)
    else (.held, { m with held := m.held.insert entry.id (entry.callback, entry.userData) })
  | .settle id =>
    match m.entry? id with
    | some entry => (.took entry, m.erase id)
    | none => (.failed (.unknownCorrelation m.kind id), m)
  | .withdraw id =>
    match m.entry? id with
    | some entry => (.took entry, m.erase id)
    | none => (.nothing, m)
  | .clear => (.cleared (m.ids.filterMap m.entry?), { m with held := ∅ })

def after (m : Table κ) (ops : List (Operation κ)) : Table κ :=
  ops.foldl (fun m op => (m.perform op).2) m

def transcript (m : Table κ) : List (Operation κ) → Transcript κ
  | [] => []
  | op :: ops => (op, (m.perform op).1) :: (m.perform op).2.transcript ops

end Table

/-- What a registry stands for, however its entries are kept. -/
def table (r : Registry κ) : Table κ :=
  ⟨r.kind, r.issued, (r.pending.map fun e => ⟨e.id, e.callback, e.userData⟩).toFinmap⟩

/-! ### One operation -/

theorem lookup_table (r : Registry κ) (id : CorrelationId) :
    r.table.held.lookup id = (r.entry? id).map fun e => (e.callback, e.userData) := by
  rw [table, Finmap.dlookup_list_toFinmap, Registry.entry?]
  induction r.pending with
  | nil => rfl
  | cons e entries ih =>
      by_cases here : e.id = id
      · subst here
        simp
      · rw [List.map_cons, List.dlookup_cons_ne _ _ (Ne.symm here), ih,
          List.find?_cons_of_neg (by simpa using here)]

theorem entry?_table (r : Registry κ) (id : CorrelationId) :
    Table.entry? r.table id = r.entry? id := by
  rw [Table.entry?, lookup_table]
  cases waits : r.entry? id with
  | none => rfl
  | some entry =>
      have own := id_of_entry? waits
      subst own
      rfl

theorem mem_table (r : Registry κ) (id : CorrelationId) :
    id ∈ r.table.held ↔ r.isOutstanding id = true := by
  rw [← Finmap.lookup_isSome, lookup_table, Option.isSome_map, isOutstanding_eq]

/-- In order, each entry is the one under its own id. -/
theorem entry?_of_mem {r : Registry κ} (ascending : Pending.Ascending r.pending)
    {entry : Pending κ} (waits : entry ∈ r.pending) : r.entry? entry.id = some entry := by
  rw [Registry.entry?]
  generalize r.pending = entries at ascending waits ⊢
  induction entries with
  | nil => cases waits
  | cons first rest ih =>
      obtain ⟨least, ascending⟩ := List.pairwise_cons.mp ascending
      rcases List.mem_cons.mp waits with rfl | later
      · exact List.find?_cons_of_pos (by simp)
      · have other : first.id ≠ entry.id := by
          intro same
          have less := least entry later
          rw [same] at less
          exact UInt64.lt_irrefl _ less
        rw [List.find?_cons_of_neg (by simpa using other)]
        exact ih ascending later

theorem entry?_eq_some_iff {r : Registry κ} (ascending : Pending.Ascending r.pending)
    {id : CorrelationId} {entry : Pending κ} :
    r.entry? id = some entry ↔ entry.id = id ∧ entry ∈ r.pending := by
  constructor
  · exact fun waits => ⟨Registry.id_of_entry? waits, List.mem_of_find?_eq_some waits⟩
  · rintro ⟨rfl, waits⟩
    exact entry?_of_mem ascending waits

theorem ids_table {r : Registry κ} (ascending : Pending.Ascending r.pending) :
    r.table.ids = r.ids := by
  have keys : r.table.held.keys = r.ids.toFinset := by
    ext id
    rw [Finmap.mem_keys, mem_table, List.mem_toFinset, mem_ids_iff]
  rw [Table.ids, keys]
  refine (List.toFinset_sort _ (ids_nodup ascending)).mpr ?_
  exact List.pairwise_map.mpr (ascending.imp UInt64.le_of_lt)

theorem listing_table {r : Registry κ} (ascending : Pending.Ascending r.pending) :
    r.table.ids.filterMap r.table.entry? = r.pending := by
  rw [ids_table ascending, ids, List.filterMap_map]
  refine (List.filterMap_congr ?_).trans List.filterMap_some
  intro entry waits
  rw [Function.comp_apply, entry?_table, entry?_of_mem ascending waits]

theorem table_eq_of_entry? {r : Registry κ} {m : Table κ} (kind : r.kind = m.kind)
    (issued : r.issued = m.issued)
    (entries : ∀ id, m.held.lookup id = (r.entry? id).map fun e => (e.callback, e.userData)) :
    r.table = m := by
  obtain ⟨mkind, missued, held⟩ := m
  cases kind
  cases issued
  have same : r.table.held = held :=
    Finmap.ext_lookup fun id => (lookup_table r id).trans (entries id).symm
  rw [← same]
  rfl

theorem table_erase (r : Registry κ) (id : CorrelationId) :
    Registry.table (r.erase id) = Table.erase r.table id := by
  refine table_eq_of_entry? rfl rfl fun id' => ?_
  rw [Registry.entry?_erase, Table.erase]
  split
  · next here => rw [here, Finmap.lookup_erase]; rfl
  · next other => rw [Finmap.lookup_erase_ne other, lookup_table]

/-- One operation gets the same answer from a registry and from its table, and leaves the same. -/
theorem perform_table {r : Registry κ} (ascending : Pending.Ascending r.pending)
    (op : Operation κ) :
    r.table.perform op = ((r.perform op).1, (r.perform op).2.table) := by
  cases op with
  | issue => rfl
  | hold entry =>
      simp only [perform, Table.perform, mem_table]
      cases taken : r.isOutstanding entry.id with
      | true => simp [hold, taken, table]
      | false =>
          have free : r.entry? entry.id = none := by simpa [isOutstanding_eq] using taken
          have held := hold_ok_of_free free
          obtain ⟨-, -, -, stored⟩ := hold_ok held
          simp only [held, Bool.false_eq_true, if_false, Prod.mk.injEq, true_and]
          refine (Registry.table_eq_of_entry? rfl rfl fun id => ?_).symm
          rw [stored]
          split
          · next here => rw [← here, Finmap.lookup_insert]; rfl
          · next other =>
              rw [Finmap.lookup_insert_of_ne _ (Ne.symm other), lookup_table]
  | settle id =>
      simp only [perform, Table.perform, settle, entry?_table]
      cases r.entry? id with
      | none => rfl
      | some entry => simp only [table_erase]
  | withdraw id =>
      simp only [perform, Table.perform, withdraw, entry?_table]
      cases waits : r.entry? id with
      | some entry => simp only [table_erase]
      | none =>
          have nothing : r.erase id = r := by
            rw [erase, List.filter_eq_self.mpr]
            exact fun e he => bne_iff_ne.mpr (away_of_free waits e he)
          simp only [nothing]
  | clear =>
      simp only [perform, Table.perform, listing_table ascending]
      rfl

theorem ascending_perform {r : Registry κ} (ascending : Pending.Ascending r.pending)
    (op : Operation κ) : Pending.Ascending (r.perform op).2.pending := by
  cases op with
  | issue => exact ascending
  | hold entry =>
      simp only [perform]
      cases held : r.hold entry with
      | error e => exact ascending
      | ok left => exact ascending_hold held ascending
  | settle id =>
      simp only [perform, settle]
      cases r.entry? id with
      | none => exact ascending
      | some entry => exact ascending_erase ascending id
  | withdraw id =>
      simp only [perform, withdraw]
      cases r.entry? id <;> exact ascending_erase ascending id
  | clear => exact List.Pairwise.nil

/-- An entry waits once it is taken, and as long as its id is not removed. -/
theorem mem_perform (r : Registry κ) (op : Operation κ) (entry : Pending κ) :
    entry ∈ (r.perform op).2.pending ↔
      (op, (r.perform op).1) = (.hold entry, .held) ∨
        entry ∈ r.pending ∧ ¬ op.Removes entry.id := by
  have erased (id : CorrelationId) :
      entry ∈ (r.erase id).pending ↔ entry ∈ r.pending ∧ ¬ id = entry.id := by
    rw [erase, List.mem_filter, bne_iff_ne, ne_comm]
  cases op with
  | issue => simp [perform, issue, Operation.Removes]
  | hold new =>
      simp only [perform, hold_eq, Operation.Removes, not_false_iff, and_true, Prod.mk.injEq,
        Operation.hold.injEq]
      cases (r.entry? new.id).isSome with
      | true => simp
      | false => simp [Pending.mem_insert, eq_comm]
  | settle id =>
      simp only [perform, settle, Operation.Removes, Prod.mk.injEq, reduceCtorEq, false_and,
        false_or]
      cases waits : r.entry? id with
      | some found => exact erased id
      | none =>
          refine (and_iff_left_of_imp ?_).symm
          rintro there rfl
          exact away_of_free waits entry there rfl
  | withdraw id =>
      simp only [perform, withdraw, Operation.Removes, Prod.mk.injEq, reduceCtorEq, false_and,
        false_or]
      cases r.entry? id <;> exact erased id
  | clear => simp [perform, clear, Operation.Removes]

theorem issued_perform (r : Registry κ) (op : Operation κ) :
    (r.perform op).2.issued = r.issued + if op.isIssue then 1 else 0 := by
  cases op with
  | issue | clear => rfl
  | hold entry =>
      simp only [perform]
      cases held : r.hold entry with
      | error e => rfl
      | ok left => exact (hold_ok held).2.2.1
  | settle id =>
      simp only [perform, settle]
      cases r.entry? id <;> rfl
  | withdraw id =>
      simp only [perform, withdraw]
      cases r.entry? id <;> rfl

theorem issued?_perform (r : Registry κ) (op : Operation κ) :
    (r.perform op).1.issued? = if op.isIssue then some r.nextId else none := by
  cases op with
  | issue | clear => rfl
  | hold entry =>
      simp only [perform]
      cases r.hold entry <;> rfl
  | settle id =>
      simp only [perform, settle]
      cases r.entry? id <;> rfl
  | withdraw id =>
      simp only [perform, withdraw]
      cases r.entry? id <;> rfl

/-! ### Sequences of operations -/

/-- An entry was taken, and its id was not removed since. -/
def Transcript.Keeps (heard : Transcript κ) (entry : Pending κ) : Prop :=
  ∃ before after, heard = before ++ (.hold entry, .held) :: after ∧
    ∀ step ∈ after, ¬ step.1.Removes entry.id

theorem Transcript.keeps_cons (step : Operation κ × Reply κ) (heard : Transcript κ)
    (entry : Pending κ) :
    Transcript.Keeps (step :: heard) entry ↔ heard.Keeps entry ∨
      step = (.hold entry, .held) ∧ ∀ step ∈ heard, ¬ step.1.Removes entry.id := by
  constructor
  · rintro ⟨before, after, split, kept⟩
    cases before with
    | nil =>
        obtain ⟨rfl, rfl⟩ := List.cons.inj split
        exact .inr ⟨rfl, kept⟩
    | cons first before =>
        obtain ⟨-, rfl⟩ := List.cons.inj split
        exact .inl ⟨before, after, rfl, kept⟩
  · rintro (⟨before, after, rfl, kept⟩ | ⟨rfl, kept⟩)
    · exact ⟨step :: before, after, rfl, kept⟩
    · exact ⟨[], heard, rfl, kept⟩

/-- The ids that were given out, the first first. -/
def Transcript.given (heard : Transcript κ) : List CorrelationId :=
  heard.filterMap fun step => step.2.issued?

theorem Transcript.given_cons (step : Operation κ × Reply κ) (heard : Transcript κ) :
    Transcript.given (step :: heard) = step.2.issued?.toList ++ heard.given := by
  cases answer : step.2.issued? <;> simp [given, answer]

theorem ascending_after {r : Registry κ} (ascending : Pending.Ascending r.pending)
    (ops : List (Operation κ)) : Pending.Ascending (r.after ops).pending := by
  induction ops generalizing r with
  | nil => exact ascending
  | cons op ops ih => exact ih (ascending_perform ascending op)

theorem after_table {r : Registry κ} (ascending : Pending.Ascending r.pending)
    (ops : List (Operation κ)) :
    r.transcript ops = r.table.transcript ops ∧ (r.after ops).table = r.table.after ops := by
  induction ops generalizing r with
  | nil => exact ⟨rfl, rfl⟩
  | cons op ops ih =>
      obtain ⟨heard, left⟩ := ih (ascending_perform ascending op)
      have step := perform_table ascending op
      constructor
      · rw [transcript, Table.transcript, step, heard]
      · rw [after, List.foldl_cons, ← after, left, Table.after, Table.after, List.foldl_cons, step]

/-- What waits after some operations was taken by one of them, or waited before, and was not
removed since. -/
theorem mem_after (r : Registry κ) (ops : List (Operation κ)) (entry : Pending κ) :
    entry ∈ (r.after ops).pending ↔ (r.transcript ops).Keeps entry ∨
      entry ∈ r.pending ∧ ∀ step ∈ r.transcript ops, ¬ step.1.Removes entry.id := by
  induction ops generalizing r with
  | nil =>
      refine ⟨fun waits => .inr ⟨waits, nofun⟩, ?_⟩
      rintro (⟨before, after, split, -⟩ | ⟨waits, -⟩)
      · cases before <;> cases split
      · exact waits
  | cons op ops ih =>
      rw [after, List.foldl_cons, ← after, ih, mem_perform, transcript, Transcript.keeps_cons,
        List.forall_mem_cons]
      tauto

/-- Ids are given out in counting order, whatever is asked in between. -/
theorem given_transcript (r : Registry κ) (ops : List (Operation κ)) :
    (r.transcript ops).given =
      (List.range' r.issued (ops.countP Operation.isIssue)).map CorrelationId.nth := by
  induction ops generalizing r with
  | nil => rfl
  | cons op ops ih =>
      rw [transcript, Transcript.given_cons, ih, issued_perform, issued?_perform]
      cases issues : op.isIssue with
      | false => rw [List.countP_cons_of_neg (by simp [issues])]; rfl
      | true => rw [List.countP_cons_of_pos issues, List.range'_succ]; rfl

/-! ### Registries from the start -/

/-- What a registry does next: whether an operation fails, what it leaves alone, and what listings
show. -/
structure Lawful (r : Registry κ) : Prop where
  refused : ∀ entry, (∃ e, (r.perform (.hold entry)).1 = .failed e) ↔ r.entry? entry.id ≠ none
  unknown : ∀ id, (∃ e, (r.perform (.settle id)).1 = .failed e) ↔ r.entry? id = none
  traceless : ∀ op e, (r.perform op).1 = .failed e → (r.perform op).2 = r
  others : ∀ op id, ¬ op.Concerns id → Registry.entry? (r.perform op).2 id = r.entry? id
  counter : ∀ op, (r.perform op).2.issued = r.issued + if op.isIssue then 1 else 0
  ascending : r.ids.Pairwise fun id id' => id.value < id'.value
  listed : ∀ id, id ∈ r.ids ↔ r.entry? id ≠ none
  cleared : ∃ entries, r.perform .clear = (.cleared entries, { r with pending := [] }) ∧
    entries.map (·.id) = r.ids ∧ ∀ entry ∈ entries, r.entry? entry.id = some entry

theorem others_perform (r : Registry κ) {op : Operation κ} {id : CorrelationId}
    (elsewhere : ¬ op.Concerns id) : Registry.entry? (r.perform op).2 id = r.entry? id := by
  have erased {id' : CorrelationId} (other : ¬ id' = id) :
      Registry.entry? (r.erase id') id = r.entry? id := by
    rw [Registry.entry?_erase, if_neg (Ne.symm other)]
  cases op with
  | issue => rfl
  | hold entry =>
      simp only [perform]
      cases held : r.hold entry with
      | error e => rfl
      | ok left => exact ((hold_ok held).2.2.2 id).trans (if_neg elsewhere)
  | settle id' =>
      simp only [perform, settle]
      cases r.entry? id' with
      | none => rfl
      | some entry => exact erased elsewhere
  | withdraw id' =>
      simp only [perform, withdraw]
      cases r.entry? id' <;> exact erased elsewhere
  | clear => exact absurd trivial elsewhere

theorem lawful_of_ascending {r : Registry κ} (ascending : Pending.Ascending r.pending) :
    r.Lawful where
  refused entry := by
    simp only [perform, hold_eq]
    cases r.entry? entry.id <;> simp
  unknown id := by
    simp only [perform, settle]
    cases r.entry? id <;> simp
  traceless op e fails := by
    cases op with
    | issue | clear => cases fails
    | hold entry =>
        simp only [perform] at fails ⊢
        cases held : r.hold entry with
        | error e => rfl
        | ok left => simp [held] at fails
    | settle id =>
        simp only [perform, settle] at fails ⊢
        cases waits : r.entry? id with
        | none => rfl
        | some entry => simp [waits] at fails
    | withdraw id =>
        simp only [perform, withdraw] at fails
        cases waits : r.entry? id <;> simp [waits] at fails
  others _ _ elsewhere := r.others_perform elsewhere
  counter := r.issued_perform
  ascending := List.pairwise_map.mpr ascending
  listed id := by rw [mem_ids_iff, isOutstanding_eq, Option.isSome_iff_ne_none]
  cleared := ⟨r.pending, rfl, rfl, fun _ waits => entry?_of_mem ascending waits⟩

/-- A registry from the start is a finite map with a counter. Over any sequence of operations, with
fewer than 2^64 ids given out, it answers as the map does and stands for it afterwards; what it
holds under an id is the entry that was taken with this id and not removed since; the ids given out
are 0, 1, 2, ...; and the next operation, whichever it is, is lawful. -/
theorem refines_table (kind : RequestKind) (ops : List (Operation κ))
    (few : ops.countP Operation.isIssue < UInt64.size) :
    let r := Registry.after (.empty kind) ops
    let heard := Registry.transcript (.empty kind) ops
    heard = Table.transcript (.empty kind) ops ∧ r.table = Table.after (.empty kind) ops ∧
      (∀ id entry, r.entry? id = some entry ↔ entry.id = id ∧ heard.Keeps entry) ∧
      heard.given.map (·.value.toNat) = List.range (ops.countP Operation.isIssue) ∧ r.Lawful := by
  intro r heard
  have empty : Pending.Ascending (Registry.empty kind : Registry κ).pending := List.Pairwise.nil
  have ascending : Pending.Ascending r.pending := ascending_after empty ops
  obtain ⟨answers, left⟩ := after_table empty ops
  refine ⟨answers, left, fun id entry => ?_, ?_, lawful_of_ascending ascending⟩
  · rw [Registry.entry?_eq_some_iff ascending, mem_after]
    simp [Registry.empty, heard]
  · have given : heard.given = (List.range' 0 _).map CorrelationId.nth := given_transcript _ ops
    rw [given, List.map_map, ← List.range_eq_range']
    refine (List.map_congr_left ?_).trans (List.map_id _)
    intro count below
    exact CorrelationId.toNat_nth (Nat.lt_trans (List.mem_range.mp below) few)

/-- An id that was never given out is taken, one is taken twice, and one again after it was
settled. -/
def reused : List (Operation Nat) :=
  [.issue, .hold ⟨⟨5⟩, 1, none⟩, .hold ⟨⟨0⟩, 2, none⟩, .hold ⟨⟨0⟩, 3, none⟩, .settle ⟨0⟩,
    .withdraw ⟨0⟩, .hold ⟨⟨0⟩, 4, some "u"⟩, .issue]

theorem reused_refines :
    reused.countP Operation.isIssue < UInt64.size ∧
      (Registry.after (.empty .send) reused).ids = [⟨0⟩, ⟨5⟩] ∧
      (Registry.transcript (.empty .send) reused).Keeps ⟨⟨0⟩, 4, some "u"⟩ ∧
      (Registry.transcript (.empty .send) reused).given.map (·.value.toNat) = [0, 1] := by
  have few : reused.countP Operation.isIssue < UInt64.size := by decide
  obtain ⟨-, -, waits, given, -⟩ := refines_table .send reused few
  exact ⟨few, by decide, ((waits ⟨0⟩ ⟨⟨0⟩, 4, some "u"⟩).mp rfl).2, given⟩

end Registry

end EventClient
