import EventClient.Proofs.Correlation.Steps

/-!
What becomes of the ids that a registry gives out. Each has exactly one of four fates at any time,
and only a completion that finds its entry runs the callback. The ledger is the invariant behind
this; it is kept by every step of a registry as long as ids are not given out twice.
-/
namespace EventClient.Client

variable {T κ : Type}

inductive Fate where
  | outstanding
  | completed
  | discarded
  | dropped
deriving DecidableEq, Repr

/-- What a fate says of the events so far and of the registry that they left. -/
def Fate.Holds (h : List (Event κ)) (c : ContextId) (kind : RequestKind) (id : CorrelationId)
    (r : Registry κ) : Fate → Prop
  /- The transport took the request, and its entry waits since. -/
  | .outstanding => ∃ entry before after,
      h = before ++ .requested c kind entry (.ok ()) :: after ∧
      (∀ e ∈ after, e.Spares c kind id) ∧
      r.entry? id = some entry ∧ runs h c kind id = []
  /- The first completion that was dispatched while the entry waited ran the callback, handed it its
  own fields and the user data of the request, and nothing ran it again. -/
  | .completed => ∃ entry before between n after,
      h = before ++ .requested c kind entry (.ok ()) :: (between ++
        .dispatched c n
          (.ok (some ⟨c, some id, entry.callback, entry.userData, 0, n.delivery⟩)) :: after) ∧
      entry.id = id ∧ n.Completes kind id ∧ (∀ e ∈ between, e.Spares c kind id) ∧
      r.entry? id = none ∧
      runs h c kind id = [⟨c, some id, entry.callback, entry.userData, 0, n.delivery⟩]
  /- The transport refused the request. -/
  | .discarded => ∃ entry error,
      .requested c kind entry (.error error) ∈ h ∧ entry.id = id ∧
      r.entry? id = none ∧ runs h c kind id = []
  /- The entry waited until its context was released. -/
  | .dropped => ∃ entry before between after,
      h = before ++ .requested c kind entry (.ok ()) :: (between ++ .released c :: after) ∧
      entry.id = id ∧ (∀ e ∈ between, e.Spares c kind id) ∧
      r.entry? id = none ∧ runs h c kind id = []

/-- Only what is outstanding has an entry. -/
theorem Fate.Holds.eq_outstanding {h : List (Event κ)} {c : ContextId} {kind : RequestKind}
    {id : CorrelationId} {r : Registry κ} {fate : Fate} (holds : fate.Holds h c kind id r)
    {entry : Pending κ} (waits : r.entry? id = some entry) : fate = .outstanding := by
  have absurd {P : Prop} (gone : r.entry? id = none) : P := by
    rw [waits] at gone
    cases gone
  cases fate with
  | outstanding => rfl
  | completed =>
      obtain ⟨_, _, _, _, _, _, _, _, _, gone, _⟩ := holds
      exact absurd gone
  | discarded =>
      obtain ⟨_, _, _, _, gone, _⟩ := holds
      exact absurd gone
  | dropped =>
      obtain ⟨_, _, _, _, _, _, _, gone, _⟩ := holds
      exact absurd gone

/-- The books of a registry agree with the events so far. -/
structure Ledger (h : List (Event κ)) (c : ContextId) (kind : RequestKind) (r : Registry κ) :
    Prop where
  kind_eq : r.kind = kind
  once : ∀ id, id.value.toNat < r.issued → (requests h c kind id).length = 1
  fate : ∀ id, id.value.toNat < r.issued → ∃ fate : Fate, fate.Holds h c kind id r
  unused : ∀ id, r.issued ≤ id.value.toNat →
    r.entry? id = none ∧ requests h c kind id = [] ∧ runs h c kind id = []

theorem ledger_empty (c : ContextId) (kind : RequestKind) :
    Ledger ([] : List (Event κ)) c kind (.empty kind) := by
  refine ⟨rfl, ?_, ?_, fun id _ => ⟨rfl, rfl, rfl⟩⟩
  · intro id below
    exact absurd below (Nat.not_lt_zero _)
  · intro id below
    exact absurd below (Nat.not_lt_zero _)

/-! ### Events that concern other ids -/

/-- A fate stays as it is under an event that neither runs the callback nor takes the entry. -/
theorem Fate.Holds.append {h : List (Event κ)} {c : ContextId} {kind : RequestKind}
    {id : CorrelationId} {r r' : Registry κ} {fate : Fate} (holds : fate.Holds h c kind id r)
    {e : Event κ} (same : r'.entry? id = r.entry? id) (quiet : runs [e] c kind id = [])
    (spares : ∀ entry, r.entry? id = some entry → e.Spares c kind id) :
    fate.Holds (h ++ [e]) c kind id r' := by
  have ran : runs (h ++ [e]) c kind id = runs h c kind id := by
    rw [runs_append, quiet, List.append_nil]
  cases fate with
  | outstanding =>
      obtain ⟨entry, before, after, rfl, spared, waits, none⟩ := holds
      refine ⟨entry, before, after ++ [e], by simp, ?_, same.trans waits, ran.trans none⟩
      intro e' he'
      rcases List.mem_append.mp he' with old | new
      · exact spared e' old
      · rw [List.mem_singleton.mp new]
        exact spares entry waits
  | completed =>
      obtain ⟨entry, before, between, n, after, rfl, hid, hn, spared, gone, one⟩ := holds
      exact ⟨entry, before, between, n, after ++ [e], by simp, hid, hn, spared, same.trans gone,
        ran.trans one⟩
  | discarded =>
      obtain ⟨entry, error, refused, hid, gone, none⟩ := holds
      exact ⟨entry, error, List.mem_append_left _ refused, hid, same.trans gone, ran.trans none⟩
  | dropped =>
      obtain ⟨entry, before, between, after, rfl, hid, spared, gone, none⟩ := holds
      exact ⟨entry, before, between, after ++ [e], by simp, hid, spared, same.trans gone,
        ran.trans none⟩

theorem runs_of_not_answers {e : Event κ} {c : ContextId} {kind : RequestKind}
    {id : CorrelationId} (h : ∀ i, e.invocation? = some i → ¬ i.Answers c kind id) :
    runs [e] c kind id = [] := by
  simp only [runs, invoked]
  cases hi : e.invocation? with
  | none => simp [hi]
  | some i => simp [hi, h i hi]

theorem requests_of_not {e : Event κ} {c : ContextId} {kind : RequestKind} {id : CorrelationId}
    (h : ¬ e.Requests c kind id) : requests [e] c kind id = [] := by
  simp [requests, h]

theorem Ledger.idle {h : List (Event κ)} {c : ContextId} {kind : RequestKind} {r : Registry κ}
    (ledger : Ledger h c kind r) {e : Event κ} (leaves : e.Leaves c kind r) :
    Ledger (h ++ [e]) c kind r := by
  obtain ⟨noRequest, noAnswer, spares⟩ := leaves
  have quiet (id : CorrelationId) : runs [e] c kind id = [] :=
    runs_of_not_answers fun i hi => noAnswer i id hi
  have unasked (id : CorrelationId) :
      requests (h ++ [e]) c kind id = requests h c kind id := by
    rw [requests_append, requests_of_not (noRequest id), List.append_nil]
  refine ⟨ledger.kind_eq, ?_, ?_, ?_⟩
  · intro id below
    rw [unasked]
    exact ledger.once id below
  · intro id below
    obtain ⟨fate, holds⟩ := ledger.fate id below
    exact ⟨fate, holds.append rfl (quiet id) (spares id)⟩
  · intro id above
    obtain ⟨gone, none, unran⟩ := ledger.unused id above
    exact ⟨gone, (unasked id).trans none, by rw [runs_append, unran, quiet, List.append_nil]⟩

/-! ### Requests -/

theorem runs_requested (c c' : ContextId) (kind kind' : RequestKind) (id : CorrelationId)
    (entry : Pending κ) (answer : Except ClientError Unit) :
    runs [.requested c' kind' entry answer] c kind id = [] :=
  runs_of_not_answers fun i hi => by cases hi

theorem spares_requested (c c' : ContextId) (kind kind' : RequestKind) (id : CorrelationId)
    (entry : Pending κ) (answer : Except ClientError Unit) :
    (Event.requested c' kind' entry answer).Spares c kind id :=
  ⟨fun completes => completes, fun c'' released => by cases released⟩

/-- A request takes the next id, whose fate its answer decides; all other ids keep theirs. -/
theorem Ledger.request {h : List (Event κ)} {c : ContextId} {kind : RequestKind}
    {r r' : Registry κ} (ledger : Ledger h c kind r) {entry : Pending κ}
    {answer : Except ClientError Unit} (next : entry.id = r.nextId)
    (small : r.issued < UInt64.size) (kind_eq : r'.kind = r.kind) (issued : r'.issued = r.issued + 1)
    (others : ∀ id, id ≠ entry.id → r'.entry? id = r.entry? id) (fate : Fate)
    (decided : r.entry? entry.id = none → runs h c kind entry.id = [] →
      fate.Holds (h ++ [.requested c kind entry answer]) c kind entry.id r') :
    Ledger (h ++ [.requested c kind entry answer]) c kind r' := by
  have value : entry.id.value.toNat = r.issued := by
    rw [next]
    exact CorrelationId.toNat_nth small
  have new_of_eq {id : CorrelationId} (heq : id.value.toNat = r.issued) : id = entry.id := by
    rw [next]
    exact (CorrelationId.eq_nth_iff small).mpr heq
  have asked (id : CorrelationId) (hne : id ≠ entry.id) :
      requests (h ++ [.requested c kind entry answer]) c kind id = requests h c kind id := by
    rw [requests_append, requests_of_not, List.append_nil]
    rintro ⟨_, _, heq⟩
    exact hne heq.symm
  have ne_of_lt {id : CorrelationId} (below : id.value.toNat < r.issued) : id ≠ entry.id := by
    rintro rfl
    omega
  obtain ⟨free, unasked, unran⟩ := ledger.unused entry.id (Nat.le_of_eq value.symm)
  refine ⟨kind_eq.trans ledger.kind_eq, ?_, ?_, ?_⟩
  · intro id below
    by_cases old : id.value.toNat < r.issued
    · rw [asked id (ne_of_lt old)]
      exact ledger.once id old
    · obtain rfl := new_of_eq (by omega : id.value.toNat = r.issued)
      rw [requests_append, unasked]
      simp [requests, Event.Requests]
  · intro id below
    by_cases old : id.value.toNat < r.issued
    · obtain ⟨fate, holds⟩ := ledger.fate id old
      exact ⟨fate, holds.append (others id (ne_of_lt old)) (runs_requested ..)
        fun _ _ => spares_requested c c kind kind id entry answer⟩
    · obtain rfl := new_of_eq (by omega : id.value.toNat = r.issued)
      exact ⟨fate, decided free unran⟩
  · intro id above
    have hne : id ≠ entry.id := by
      rintro rfl
      omega
    obtain ⟨gone, none, still⟩ := ledger.unused id (by omega)
    refine ⟨(others id hne).trans gone, (asked id hne).trans none, ?_⟩
    rw [runs_append, still, runs_requested]
    rfl

theorem Ledger.accepted {h : List (Event κ)} {c : ContextId} {kind : RequestKind}
    {r held : Registry κ} (ledger : Ledger h c kind r) {entry : Pending κ}
    (next : entry.id = r.nextId) (small : r.issued < UInt64.size)
    (hold : r.issue.2.hold entry = .ok held) :
    Ledger (h ++ [.requested c kind entry (.ok ())]) c kind held := by
  obtain ⟨_, kind_eq, issued, stored⟩ := Registry.hold_ok hold
  refine ledger.request next small kind_eq issued ?_ .outstanding ?_
  · intro id hne
    rw [stored, if_neg (Ne.symm hne)]
    rfl
  · intro _ unran
    refine ⟨entry, h, [], rfl, ?_, by rw [stored, if_pos rfl], ?_⟩
    · intro e he
      cases he
    · rw [runs_append, unran, runs_requested]
      rfl

theorem Ledger.refused {h : List (Event κ)} {c : ContextId} {kind : RequestKind}
    {r held : Registry κ} (ledger : Ledger h c kind r) {entry : Pending κ} (error : ClientError)
    (next : entry.id = r.nextId) (small : r.issued < UInt64.size)
    (hold : r.issue.2.hold entry = .ok held) :
    Ledger (h ++ [.requested c kind entry (.error error)]) c kind (held.withdraw entry.id).2 := by
  obtain ⟨_, kind_eq, issued, _⟩ := Registry.hold_ok hold
  refine ledger.request next small kind_eq issued ?_ .discarded ?_
  · intro id _
    exact Registry.entry?_withdraw_hold hold id
  · intro free unran
    refine ⟨entry, error, by simp, rfl, ?_, ?_⟩
    · exact (Registry.entry?_withdraw_hold hold entry.id).trans free
    · rw [runs_append, unran, runs_requested]
      rfl

/-! ### Completions and releases -/

/-- A completion that finds the entry of its id ends the waiting of this id alone. -/
theorem Ledger.settled {h : List (Event κ)} {c : ContextId} {kind : RequestKind} {r : Registry κ}
    (ledger : Ledger h c kind r) {n : Notification} {id : CorrelationId} {entry : Pending κ}
    (waits : r.entry? id = some entry) (completes : n.Completes kind id) :
    Ledger (h ++ [.dispatched c n
      (.ok (some ⟨c, some id, entry.callback, entry.userData, 0, n.delivery⟩))]) c kind
      (r.erase id) := by
  have erased (id' : CorrelationId) (hne : id' ≠ id) :
      Registry.entry? (r.erase id) id' = r.entry? id' := by
    rw [Registry.entry?_erase, if_neg hne]
  have unasked (id' : CorrelationId) : requests [.dispatched c n
      (.ok (some ⟨c, some id, entry.callback, entry.userData, 0, n.delivery⟩))] c kind id' = [] :=
    requests_of_not fun asked => asked
  have quiet (id' : CorrelationId) (hne : id' ≠ id) :
      runs [.dispatched c n (.ok (some ⟨c, some id, entry.callback, entry.userData, 0, n.delivery⟩))]
        c kind id' = [] := by
    apply runs_of_not_answers
    rintro i hi ⟨_, same, _⟩
    cases hi
    cases same
    exact hne rfl
  refine ⟨ledger.kind_eq, ?_, ?_, ?_⟩
  · intro id' below
    rw [requests_append, unasked, List.append_nil]
    exact ledger.once id' below
  · intro id' below
    obtain ⟨fate, holds⟩ := ledger.fate id' below
    by_cases same : id' = id
    · subst same
      obtain rfl := holds.eq_outstanding waits
      obtain ⟨entry', before, after, rfl, spared, waits', none⟩ := holds
      rw [waits] at waits'
      cases waits'
      refine ⟨.completed, entry, before, after, n, [], by simp, Registry.id_of_entry? waits,
        completes, spared, ?_, ?_⟩
      · rw [Registry.entry?_erase, if_pos rfl]
      · rw [runs_append, none]
        simp [runs, invoked, Event.invocation?, Invocation.Answers,
          Notification.kind?_delivery completes]
    · refine ⟨fate, holds.append (erased id' same) (quiet id' same) ?_⟩
      intro _ _
      refine ⟨?_, fun c' released => by cases released⟩
      rintro ⟨_, other⟩
      exact same (Notification.completes_unique other completes)
  · intro id' above
    obtain ⟨gone, none, still⟩ := ledger.unused id' above
    have hne : id' ≠ id := by
      rintro rfl
      rw [waits] at gone
      cases gone
    refine ⟨(erased id' hne).trans gone, ?_, ?_⟩
    · rw [requests_append, none, unasked]
      rfl
    · rw [runs_append, still, quiet id' hne]
      rfl

/-- A release drops what waits, and nothing else has a new fate. -/
theorem Ledger.cleared {h : List (Event κ)} {c : ContextId} {kind : RequestKind} {r : Registry κ}
    (ledger : Ledger h c kind r) : Ledger (h ++ [.released c]) c kind r.clear.2 := by
  have unasked (id : CorrelationId) : requests [(.released c : Event κ)] c kind id = [] :=
    requests_of_not fun asked => asked
  have quiet (id : CorrelationId) : runs [(.released c : Event κ)] c kind id = [] :=
    runs_of_not_answers fun i hi => by cases hi
  refine ⟨ledger.kind_eq, ?_, ?_, ?_⟩
  · intro id below
    rw [requests_append, unasked, List.append_nil]
    exact ledger.once id below
  · intro id below
    obtain ⟨fate, holds⟩ := ledger.fate id below
    cases waits : r.entry? id with
    | none =>
        refine ⟨fate, holds.append (by rw [waits]; rfl) (quiet id) ?_⟩
        intro entry other
        rw [waits] at other
        cases other
    | some entry =>
        obtain rfl := holds.eq_outstanding waits
        obtain ⟨entry', before, after, rfl, spared, waits', none⟩ := holds
        refine ⟨.dropped, entry', before, after, [], by simp, Registry.id_of_entry? waits',
          spared, rfl, ?_⟩
        rw [runs_append, none, quiet]
        rfl
  · intro id above
    obtain ⟨_, none, still⟩ := ledger.unused id above
    refine ⟨rfl, ?_, ?_⟩
    · rw [requests_append, none, unasked]
      rfl
    · rw [runs_append, still, quiet]
      rfl

/-! ### Entries that nothing happens to -/

/-- An entry goes on waiting, and its callback does not run, through an event that is neither its
completion nor the release of its context. -/
theorem RegistryStep.waits {c : ContextId} {kind : RequestKind} {r r' : Registry κ}
    {event? : Option (Event κ)} (step : RegistryStep c kind r event? r') {id : CorrelationId}
    {entry : Pending κ} (waits : r.entry? id = some entry)
    (spared : ∀ e ∈ event?.toList, e.Spares c kind id) :
    r'.entry? id = some entry ∧ runs event?.toList c kind id = [] := by
  cases step with
  | idle leaves =>
      refine ⟨waits, ?_⟩
      cases event? with
      | none => rfl
      | some e => exact runs_of_not_answers fun i hi => (leaves e rfl).2.1 i id hi
  | accepted _ hold =>
      obtain ⟨free, _, _, stored⟩ := Registry.hold_ok hold
      refine ⟨?_, runs_requested ..⟩
      rw [stored, if_neg, Registry.entry?_issue, waits]
      rintro rfl
      cases waits.symm.trans free
  | refused _ hold =>
      refine ⟨?_, runs_requested ..⟩
      rw [Registry.entry?_withdraw_hold hold, Registry.entry?_issue, waits]
  | clashed => exact ⟨waits, runs_requested ..⟩
  | @settled n id' _ _ completes =>
      have other : id ≠ id' := by
        rintro rfl
        exact (spared _ (List.mem_singleton.mpr rfl)).1 ⟨rfl, completes⟩
      refine ⟨by rw [Registry.entry?_erase, if_neg other, waits], ?_⟩
      apply runs_of_not_answers
      rintro i hi ⟨_, same, _⟩
      cases hi
      cases same
      exact other rfl
  | cleared => exact ((spared _ (List.mem_singleton.mpr rfl)).2 c rfl rfl).elim

theorem waits_after [Transport T] {s : Client T κ} (drained : s.Drained) {c : ContextId}
    {kind : RequestKind} {id : CorrelationId} {entry : Pending κ}
    (waits : Registry.entry? (s.registry c kind) id = some entry) {moves : List (Move T κ)}
    (spared : ∀ e ∈ s.events moves, e.Spares c kind id) :
    Registry.entry? ((s.after moves).registry c kind) id = some entry ∧
      runs (s.events moves) c kind id = [] := by
  induction moves generalizing s with
  | nil => exact ⟨waits, rfl⟩
  | cons move moves ih =>
      rw [events_cons] at spared ⊢
      obtain ⟨first, rest⟩ := List.forall_mem_append.mp spared
      obtain ⟨still, quiet⟩ := (registryStep drained move c kind).waits waits first
      obtain ⟨last, none⟩ := ih (drained_apply drained move) still rest
      exact ⟨last, by rw [runs_append, quiet, none, List.append_nil]⟩

end EventClient.Client
