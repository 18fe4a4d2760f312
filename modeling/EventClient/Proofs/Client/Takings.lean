import EventClient.Proofs.Client.Leases

/-!
What is taken from a channel. A taking leases the channel, dispatches what it takes one by one until
a dispatch fails, and gives the channel back. So what was delivered to a channel is what its takings
consumed, one taking after another, and behind it what still waits.
-/
namespace EventClient.Client

variable {T κ : Type}

/-- How far a taking has come. -/
inductive Stage where
  | looking
  /-- It took a notification and did not dispatch it yet. -/
  | holding (n : Notification)
  | failed (n : Notification) (e : ClientError)

/-- What one taker does with a channel, from the lease on until it is given back. -/
structure Taking where
  /-- What it dispatched without an error, in order. -/
  dispatched : List Notification := []
  stage : Stage := .looking

/-- The notifications on which a taking has used up its channel. -/
def Taking.consumed (taking : Taking) : List Notification :=
  taking.dispatched ++
    match taking.stage with
    | .looking => []
    | .holding n | .failed n _ => [n]

/-- The takings from one channel. -/
structure Takings where
  ended : List Taking := []
  current : Option Taking := none

namespace Takings

def consumed (w : Takings) : List Notification :=
  (w.ended ++ w.current.toList).flatMap Taking.consumed

/-- Nothing is between its taking and its dispatch. -/
def Free (w : Takings) : Prop :=
  ∀ taking, w.current = some taking → ∀ n, taking.stage ≠ .holding n

end Takings

def Move.takesFrom (c : ContextId) : Move T κ → Bool
  | .program (.lease c') | .program (.giveBack c') | .program (.takeNext c') => c' == c
  | _ => false

/-- What may come between the taking of a notification and its dispatch: others act, not the
program. -/
def Move.isForeign : Move T κ → Bool
  | .deliver .. | .transport _ => true
  | .program _ => false

/-- What a move is to the takings from a channel; nothing else is allowed. -/
inductive Sees [Transport T] (c : ContextId) (s : Client T κ) (w : Takings) :
    Move T κ → Takings → Prop where
  | aside {move : Move T κ} (elsewhere : move.takesFrom c = false)
      (free : move.isForeign = true ∨ w.Free) : Sees c s w move w
  | refused {e : ClientError} (free : w.Free) (answer : (s.lease c).1 = .error e) :
      Sees c s w (.program (.lease c)) w
  | begins (idle : w.current = none) (answer : (s.lease c).1 = .ok ()) :
      Sees c s w (.program (.lease c)) { w with current := some {} }
  | takes {taking : Taking} {n : Notification} {s' : Client T κ} (current : w.current = some taking)
      (looks : taking.stage = .looking) (found : s.nextNotification? c = some (n, s')) :
      Sees c s w (.program (.takeNext c))
        { w with current := some { taking with stage := .holding n } }
  | dispatches {taking : Taking} {n : Notification} {i : Option (Invocation κ)}
      (current : w.current = some taking) (holds : taking.stage = .holding n)
      (routed : (s.route c n).1 = .ok i) :
      Sees c s w (.program (.route c n))
        { w with current := some { dispatched := taking.dispatched ++ [n] } }
  | fails {taking : Taking} {n : Notification} {e : ClientError}
      (current : w.current = some taking) (holds : taking.stage = .holding n)
      (routed : (s.route c n).1 = .error e) :
      Sees c s w (.program (.route c n))
        { w with current := some { taking with stage := .failed n e } }
  | ends {taking : Taking} (current : w.current = some taking) (free : w.Free) :
      Sees c s w (.program (.giveBack c)) { ended := w.ended ++ [taking], current := none }

/-- What some moves come to for the takings from a channel. -/
inductive Watches [Transport T] (c : ContextId) :
    Client T κ → Takings → List (Move T κ) → Takings → Prop where
  | nil (s : Client T κ) (w : Takings) : Watches c s w [] w
  | cons {s : Client T κ} {w w' w'' : Takings} {move : Move T κ} {moves : List (Move T κ)}
      (sees : Sees c s w move w') (rest : Watches c (move.apply s) w' moves w'') :
      Watches c s w (move :: moves) w''

/-! ### Deliveries and takings in a run -/

/-- The notification that a move puts on a channel. -/
def Move.delivered? (s : Client T κ) (c : ContextId) : Move T κ → Option Notification
  | .deliver c' n =>
    match s.deliver c' n with
    | (.ok (), _) => if c' = c then some n else none
    | (.error _, _) => none
  | _ => none

/-- The notification that a move takes off a channel. -/
def Move.taken? (s : Client T κ) (c : ContextId) : Move T κ → Option Notification
  | .program (.takeNext c') => if c' = c then (s.nextNotification? c').map (·.1) else none
  | _ => none

section
variable [Transport T]

def delivered (s : Client T κ) (moves : List (Move T κ)) (c : ContextId) : List Notification :=
  (s.history moves).filterMap fun (found, move) => move.delivered? found c

def taken (s : Client T κ) (moves : List (Move T κ)) (c : ContextId) : List Notification :=
  (s.history moves).filterMap fun (found, move) => move.taken? found c

theorem delivered_cons (s : Client T κ) (move : Move T κ) (moves : List (Move T κ))
    (c : ContextId) :
    s.delivered (move :: moves) c =
      (move.delivered? s c).toList ++ (move.apply s).delivered moves c := by
  cases h : move.delivered? s c <;> simp [delivered, history, h]

theorem taken_cons (s : Client T κ) (move : Move T κ) (moves : List (Move T κ))
    (c : ContextId) :
    s.taken (move :: moves) c = (move.taken? s c).toList ++ (move.apply s).taken moves c := by
  cases h : move.taken? s c <;> simp [taken, history, h]

theorem taken_append (s : Client T κ) (first second : List (Move T κ)) (c : ContextId) :
    s.taken (first ++ second) c = s.taken first c ++ (s.after first).taken second c := by
  rw [taken, history_append, List.filterMap_append]
  rfl

/-- A move takes from the front of a channel and delivers to its end. -/
theorem queue_apply (s : Client T κ) (move : Move T κ) (c : ContextId) :
    s.queue c ++ (move.delivered? s c).toList =
      (move.taken? s c).toList ++ (move.apply s).queue c := by
  cases move with
  | transport change => exact List.append_nil _
  | deliver c' n =>
      have queue := queue_deliver s c' n c
      simp only [Move.delivered?, Move.taken?, Move.apply, deliver] at queue ⊢
      cases held : s.isHeld c' with
      | false => simp
      | true =>
          simp only [held, if_true, and_true] at queue ⊢
          by_cases here : c = c'
          · subst here
            simp [queue]
          · simp [queue, here, Ne.symm here]
  | program act =>
      have queue := queue_act s act c
      cases act with
      | takeNext c' =>
          simp only [Move.delivered?, Move.taken?, Move.apply, queue, Option.toList_none,
            List.append_nil]
          by_cases here : c = c'
          · subst here
            rcases nextNotification?_eq s c with ⟨none, empty⟩ | ⟨n, s', found, rest, _⟩
            · simp [none, empty]
            · simp [found, rest]
          · simp [here, Ne.symm here]
      | _ =>
          simp only [Move.delivered?, Move.taken?, Move.apply, queue, Option.toList_none,
            List.append_nil, List.nil_append]

/-- In every run, what waited and what was delivered is what was taken and what still waits. -/
theorem queue_after (s : Client T κ) (moves : List (Move T κ)) (c : ContextId) :
    s.queue c ++ s.delivered moves c = s.taken moves c ++ (s.after moves).queue c := by
  induction moves generalizing s with
  | nil => exact List.append_nil _
  | cons move moves ih =>
      rw [delivered_cons, taken_cons, after_cons, ← List.append_assoc, queue_apply,
        List.append_assoc, ih, List.append_assoc]

/-! ### Takings as they are seen -/

theorem consumed_of_sees {c : ContextId} {s : Client T κ} {w w' : Takings} {move : Move T κ}
    (h : Sees c s w move w') : w'.consumed = w.consumed ++ (move.taken? s c).toList := by
  cases h with
  | aside elsewhere free =>
      have none : move.taken? s c = none := by
        simp only [Move.taken?]
        split
        · exact if_neg fun here => by simp [Move.takesFrom, here] at elsewhere
        · rfl
      rw [none]
      exact (List.append_nil _).symm
  | refused => exact (List.append_nil _).symm
  | begins idle => simp [Takings.consumed, Move.taken?, idle, Taking.consumed]
  | takes current looks found =>
      simp [Takings.consumed, Move.taken?, current, Taking.consumed, looks, found]
  | dispatches current holds | fails current holds =>
      simp [Takings.consumed, Move.taken?, current, Taking.consumed, holds]
  | ends current => simp [Takings.consumed, Move.taken?, current]

namespace Watches

variable {c : ContextId} {s : Client T κ} {w w' w'' : Takings}

theorem consumed_eq {moves : List (Move T κ)} (h : Watches c s w moves w') :
    w'.consumed = w.consumed ++ s.taken moves c := by
  induction h with
  | nil => exact (List.append_nil _).symm
  | cons sees _ ih => rw [ih, consumed_of_sees sees, taken_cons, List.append_assoc]

theorem append {first second : List (Move T κ)} (h : Watches c s w first w')
    (h' : Watches c (s.after first) w' second w'') : Watches c s w (first ++ second) w'' := by
  induction h with
  | nil => exact h'
  | cons sees _ ih => exact .cons sees (ih h')

theorem of_append {first second : List (Move T κ)} (h : Watches c s w (first ++ second) w'') :
    ∃ w', Watches c s w first w' := by
  induction first generalizing s w with
  | nil => exact ⟨w, .nil s w⟩
  | cons move first ih =>
      cases h with
      | cons sees rest =>
          obtain ⟨w', watches⟩ := ih rest
          exact ⟨w', .cons sees watches⟩

end Watches

/-! ### What operations may do to a channel -/

/-- Whether an operation that is under way has a channel's lease, and if so, whether it goes on
taking. -/
inductive Hold where
  | none
  | looking
  | ended
deriving DecidableEq

/-- What is held of a channel by an operation on a context. -/
def Hold.at (hold : Hold) (c c' : ContextId) : Hold := if c' = c then hold else .none

/-- The lease is with an operation that is under way, and not with a kept loop. -/
def InUse (s : Client T κ) (c : ContextId) : Prop := s.isLeased c = true ∧ s.kept c = 0

/-- How an operation finds a channel and its takings: leased while there is a taking, to a kept loop
if there is one, and else to the operation itself where it holds the lease. -/
structure Fits (c : ContextId) (hold : Hold) (s : Client T κ) (w : Takings) : Prop where
  leased : s.isLeased c = w.current.isSome
  free : w.Free
  looks : hold = .looking ∨ 0 < s.kept c →
    ∀ taking, w.current = some taking → taking.stage = .looking
  own : hold ≠ .none → s.InUse c
  single : s.kept c ≤ 1
  kept : 0 < s.kept c → s.isLeased c = true

omit [Transport T] in
/-- While an operation has the lease there is no kept loop, so only its own taking counts. -/
theorem Fits.of_inUse {c : ContextId} {hold : Hold} {s : Client T κ} {w : Takings}
    (used : s.InUse c) (taking : w.current.isSome = true) (free : w.Free)
    (looks : hold = .looking → ∀ taking, w.current = some taking → taking.stage = .looking) :
    Fits c hold s w where
  leased := used.1.trans taking.symm
  free := free
  looks := by
    rintro (looking | kept)
    · exact looks looking
    · exact absurd used.2 (Nat.ne_of_gt kept)
  own _ := used
  single := Nat.le_trans (Nat.le_of_eq used.2) (Nat.zero_le 1)
  kept _ := used.1

/-- Somebody else uses the channel. -/
def Other (c : ContextId) (hold : Hold) (s : Client T κ) : Prop := hold = .none ∧ s.InUse c

omit [Transport T] in
theorem not_other {c : ContextId} {hold : Hold} (held : hold ≠ .none) (s : Client T κ) :
    ¬ Other c hold s :=
  fun other => held other.1

omit [Transport T] in
theorem not_other_looking (c : ContextId) (s : Client T κ) : ¬ Other c .looking s :=
  fun other => nomatch other.1

omit [Transport T] in
theorem not_other_ended (c : ContextId) (s : Client T κ) : ¬ Other c .ended s :=
  fun other => nomatch other.1

/-- The moves are allowed, leave the channel as it may be left, and spare somebody else's taking. -/
def Passes (c : ContextId) (hold hold' : Hold) (s : Client T κ) (moves : List (Move T κ)) :
    Prop :=
  ∀ w, Fits c hold s w → ∃ w', Watches c s w moves w' ∧ Fits c hold' (s.after moves) w' ∧
    (Other c hold s ↔ Other c hold' (s.after moves)) ∧
    (Other c hold s → w'.current = w.current)

/-- Where an operation has the lease, no taking of somebody else has to be spared. -/
theorem passes_of_held {c : ContextId} {hold hold' : Hold} {s : Client T κ}
    {moves : List (Move T κ)} (held : hold ≠ .none) (alone : ¬ Other c hold' (s.after moves))
    (leaves : ∀ w, Fits c hold s w →
      ∃ w', Watches c s w moves w' ∧ Fits c hold' (s.after moves) w') :
    Passes c hold hold' s moves := by
  intro w fits
  obtain ⟨w', watches, fits'⟩ := leaves w fits
  exact ⟨w', watches, fits', iff_of_false (not_other held _) alone,
    fun other => absurd other (not_other held _)⟩

/-- A loop that is being polled stays so. -/
def Stays (s s' : Client T κ) : Prop :=
  ∀ (i : Nat) (c : ContextId), s.loops[i]? = some (StartedLoop.polled c) →
    s'.loops[i]? = some (StartedLoop.polled c)

theorem Passes.trans {c : ContextId} {hold hold' hold'' : Hold} {s : Client T κ}
    {first second : List (Move T κ)} (h : Passes c hold hold' s first)
    (h' : Passes c hold' hold'' (s.after first) second) :
    Passes c hold hold'' s (first ++ second) := by
  intro w fits
  obtain ⟨w₁, watches₁, fits₁, other₁, same₁⟩ := h w fits
  obtain ⟨w₂, watches₂, fits₂, other₂, same₂⟩ := h' w₁ fits₁
  rw [after_append]
  refine ⟨w₂, watches₁.append watches₂, fits₂, other₁.trans other₂, ?_⟩
  intro other
  exact (same₂ (other₁.mp other)).trans (same₁ other)

theorem Passes.refl (c : ContextId) (hold : Hold) (s : Client T κ) : Passes c hold hold s [] :=
  fun w fits => ⟨w, .nil s w, fits, Iff.rfl, fun _ => rfl⟩

/-- Where an operation has the lease, others leave its taking alone. -/
theorem Passes.lift {c : ContextId} {s : Client T κ} {moves : List (Move T κ)}
    (h : Passes c .none .none s moves) (hold : Hold) : Passes c hold hold s moves := by
  by_cases none : hold = .none
  · rwa [none]
  refine passes_of_held none (not_other none _) fun w fits => ?_
  have free : Fits c .none s w :=
    { fits with
      looks := fun kept => fits.looks (.inr (kept.resolve_left nofun))
      own := (absurd rfl ·) }
  obtain ⟨w', watches, fits', other, same⟩ := h w free
  have elsewhere : Other c .none s := ⟨rfl, fits.own none⟩
  have inUse : (s.after moves).InUse c := (other.mp elsewhere).2
  refine ⟨w', watches, .of_inUse inUse (fits'.leased.symm.trans inUse.1) fits'.free ?_⟩
  intro looking taking current
  rw [same elsewhere] at current
  exact fits.looks (.inl looking) taking current

/-- An operation that could go on need not. -/
theorem Passes.ended {c : ContextId} {hold : Hold} {s : Client T κ} {moves : List (Move T κ)}
    (h : Passes c hold .looking s moves) : Passes c hold .ended s moves := by
  intro w fits
  obtain ⟨w', watches, fits', other, same⟩ := h w fits
  have fits : Fits c .ended (s.after moves) w' :=
    { fits' with
      looks := fun kept => fits'.looks (.inr (kept.resolve_left nofun))
      own := fun _ => fits'.own nofun }
  refine ⟨w', watches, fits, ?_, same⟩
  rw [other]
  exact iff_of_false (not_other_looking _ _) (not_other_ended _ _)

/-- A move that leaves the lease and the loops alone. -/
theorem passes_aside {c : ContextId} {s : Client T κ} {move : Move T κ}
    (elsewhere : move.takesFrom c = false) (leased : (move.apply s).isLeased c = s.isLeased c)
    (kept : (move.apply s).kept c = s.kept c) (hold : Hold) : Passes c hold hold s [move] := by
  intro w fits
  have inUse : (move.apply s).InUse c ↔ s.InUse c := by rw [InUse, InUse, leased, kept]
  refine ⟨w, .cons (.aside elsewhere (.inr fits.free)) (.nil _ _), ?_, ?_, fun _ => rfl⟩
  · constructor
    case leased => exact leased.trans fits.leased
    case free => exact fits.free
    case looks =>
      rw [after_cons, after_nil, kept]
      exact fits.looks
    case own => exact fun held => inUse.mpr (fits.own held)
    case single => exact kept ▸ fits.single
    case kept =>
      rw [after_cons, after_nil, kept, leased]
      exact fits.kept
  · exact and_congr_right fun _ => inUse.symm

theorem passes_keepBooks {s books : Client T κ} {c : ContextId} (kept : books.kept c = s.kept c)
    (hold : Hold) : Passes c hold hold s [.program (.keepBooks books)] := by
  have same : (Move.apply s (.program (.keepBooks books))).kept c = s.kept c := kept
  exact passes_aside rfl rfl same hold

theorem passes_plain (s : Client T κ) {move : Move T κ} (plain : move.isPlain = true)
    (c : ContextId) (hold : Hold) : Passes c hold hold s [move] := by
  refine passes_aside ?_ (isLeased_plain s plain c) (kept_of_loops_eq (loops_plain s plain) c) hold
  cases move with
  | deliver | transport => rfl
  | program act =>
      cases act with
      | lease | giveBack | takeNext | route | keepBooks => cases plain
      | _ => rfl

/-! ### Leasing, serving and giving back -/

theorem passes_lease_error {s s' : Client T κ} {c : ContextId} {e : ClientError}
    (h : s.lease c = (.error e, s')) (c' : ContextId) :
    Passes c' .none .none s [.program (.lease c)] := by
  have same : Move.apply s (.program (.lease c)) = s := by
    rw [Move.apply, Act.apply, h]
    exact lease_error h
  by_cases here : c' = c
  · subst here
    intro w fits
    refine ⟨w, .cons (.refused fits.free (by rw [h])) (.nil _ _), ?_, ?_, fun _ => rfl⟩
    · rwa [after_cons, after_nil, same]
    · rw [after_cons, after_nil, same]
  · refine passes_aside ?_ (by rw [same]) (by rw [same]) .none
    exact beq_eq_false_iff_ne.mpr (Ne.symm here)

/-- A channel that can be leased is not used by anybody. -/
theorem passes_lease_ok {s s' : Client T κ} {c : ContextId} (h : s.lease c = (.ok (), s'))
    (c' : ContextId) : Passes c' .none (Hold.looking.at c c') s [.program (.lease c)] := by
  obtain ⟨idle, loops, leased⟩ := lease_ok h
  have apply : Move.apply s (.program (.lease c)) = s' := by rw [Move.apply, Act.apply, h]
  have kept (c' : ContextId) : s'.kept c' = s.kept c' := kept_of_loops_eq loops c'
  by_cases here : c' = c
  · subst here
    simp only [Hold.at, if_true]
    intro w fits
    have none : w.current = .none := by
      have unleased := fits.leased
      rw [idle] at unleased
      exact Option.not_isSome_iff_eq_none.mp (by simp [← unleased])
    have unkept : s.kept c' = 0 := by
      apply Nat.eq_zero_of_not_pos
      intro some
      have leased := fits.kept some
      rw [idle] at leased
      cases leased
    rw [after_cons, apply, after_nil]
    have used : s'.InUse c' := ⟨by rw [leased, if_pos rfl], (kept c').trans unkept⟩
    refine ⟨_, .cons (.begins none (by rw [h])) (.nil _ _), .of_inUse used rfl ?_ ?_, ?_, ?_⟩
    · intro taking current n holds
      cases current
      cases holds
    · intro _ taking current
      cases current
      rfl
    · refine iff_of_false (fun other => ?_) (not_other_looking _ _)
      rw [Other, InUse, idle] at other
      cases other.2.1
    · intro other
      rw [Other, InUse, idle] at other
      cases other.2.1
  · have elsewhere : (Move.program (.lease c) : Move T κ).takesFrom c' = false :=
      beq_eq_false_iff_ne.mpr (Ne.symm here)
    rw [Hold.at, if_neg here]
    refine passes_aside elsewhere ?_ ?_ .none
    · rw [apply, leased, if_neg here]
    · rw [apply, kept]

theorem passes_giveBack (s : Client T κ) (c : ContextId) {hold : Hold} (held : hold ≠ .none)
    (c' : ContextId) : Passes c' (hold.at c c') .none s [.program (.giveBack c)] := by
  have leased := isLeased_giveBack s c
  have loops : (s.giveBack c).loops = s.loops := loops_updateSlot ..
  have kept (c' : ContextId) : (s.giveBack c).kept c' = s.kept c' := kept_of_loops_eq loops c'
  by_cases here : c' = c
  · subst here
    simp only [Hold.at, if_true]
    have given : (s.giveBack c').isLeased c' = false := by rw [leased, if_pos rfl]
    have unused : ¬ Other c' .none (s.giveBack c') := by
      rintro ⟨-, still, -⟩
      rw [given] at still
      cases still
    refine passes_of_held held unused fun w fits => ?_
    obtain ⟨taken, unkept⟩ := fits.own held
    obtain ⟨taking, current⟩ := Option.isSome_iff_exists.mp (fits.leased.symm.trans taken)
    rw [after_cons, after_nil]
    refine ⟨_, .cons (.ends current fits.free) (.nil _ _), ?_⟩
    rw [Move.apply, Act.apply]
    constructor
    case leased => exact given
    case free =>
      intro taking none
      cases none
    case looks =>
      intro _ taking none
      cases none
    case own => exact fun h => absurd rfl h
    case single =>
      rw [kept]
      exact fits.single
    case kept =>
      rw [kept, unkept]
      exact fun h => absurd h (Nat.lt_irrefl 0)
  · have elsewhere : (Move.program (.giveBack c) : Move T κ).takesFrom c' = false :=
      beq_eq_false_iff_ne.mpr (Ne.symm here)
    rw [Hold.at, if_neg here]
    refine passes_aside elsewhere ?_ (kept c') .none
    rw [Move.apply, Act.apply, leased, if_neg here]

theorem passes_takeNext_elsewhere {s s₁ : Client T κ} {c c' : ContextId} {n : Notification}
    (found : s.nextNotification? c = some (n, s₁)) (elsewhere : c' ≠ c) (hold : Hold) :
    Passes c' hold hold s [.program (.takeNext c)] := by
  have takes : (Move.program (.takeNext c) : Move T κ).takesFrom c' = false :=
    beq_eq_false_iff_ne.mpr (Ne.symm elsewhere)
  obtain ⟨loops, leased⟩ := taking_eq found
  refine passes_aside takes ?_ ?_ hold
  · rw [apply_takeNext found, leased]
  · rw [apply_takeNext found, kept_of_loops_eq loops]

/-- A dispatch that its taker did not take from the channel. -/
theorem passes_route (s : Client T κ) (c : ContextId) (n : Notification) (c' : ContextId)
    (hold : Hold) : Passes c' hold hold s [.program (.route c n)] := by
  have leased : (Move.apply s (.program (.route c n))).isLeased c' = s.isLeased c' :=
    isLeased_route s c n c'
  exact passes_aside rfl leased (kept_of_loops_eq (loops_route s c n) c') hold

/-- What a taking becomes with the dispatch of the notification that it took. -/
def Taking.routed (taking : Taking) (n : Notification) :
    Except ClientError (Option (Invocation κ)) → Taking
  | .ok _ => { dispatched := taking.dispatched ++ [n] }
  | .error e => { taking with stage := .failed n e }

def Hold.routed : Except ClientError (Option (Invocation κ)) → Hold
  | .ok _ => .looking
  | .error _ => .ended

theorem passes_serve {s s₁ : Client T κ} {c : ContextId} {n : Notification}
    (found : s.nextNotification? c = some (n, s₁)) (c' : ContextId) :
    Passes c' (Hold.looking.at c c') ((Hold.routed (s₁.route c n).1).at c c') s
      [.program (.takeNext c), .program (.route c n)] := by
  by_cases here : c' = c
  · subst here
    simp only [Hold.at, if_true]
    have still : Hold.routed (s₁.route c' n).1 ≠ .none := by
      cases (s₁.route c' n).1 <;> exact nofun
    refine passes_of_held (by simp) (not_other still _) fun w fits => ?_
    obtain ⟨leased, unkept⟩ := fits.own (by simp)
    obtain ⟨taking, current⟩ := Option.isSome_iff_exists.mp (fits.leased.symm.trans leased)
    have looks := fits.looks (.inl rfl) taking current
    obtain ⟨loops, leases⟩ := taking_eq found
    have takes := apply_takeNext found
    have after : s.after [.program (.takeNext c'), .program (.route c' n)] =
        (s₁.route c' n).2 := by
      rw [after_cons, takes]
      rfl
    have used : (s₁.route c' n).2.InUse c' := by
      constructor
      · rw [isLeased_route, leases, leased]
      · rw [kept_of_loops_eq (loops_route ..), kept_of_loops_eq loops, unkept]
    refine ⟨{ w with current := some (taking.routed n (s₁.route c' n).1) }, ?_, ?_⟩
    · refine .cons (.takes current looks found) ?_
      rw [takes]
      refine .cons ?_ (.nil _ _)
      let held : Taking := { taking with stage := .holding n }
      cases routed : (s₁.route c' n).1 with
      | ok i => exact @Sees.dispatches _ _ _ _ _ _ held _ _ rfl rfl routed
      | error e => exact @Sees.fails _ _ _ _ _ _ held _ _ rfl rfl routed
    · rw [after]
      refine .of_inUse used rfl ?_ ?_
      · intro taking' htaking n' holds
        cases htaking
        cases routed : (s₁.route c' n).1 <;> rw [routed] at holds <;> cases holds
      · intro looking taking' htaking
        cases htaking
        cases routed : (s₁.route c' n).1 with
        | ok i => rfl
        | error e =>
            rw [routed] at looking
            cases looking
  · have takes := passes_takeNext_elsewhere found here .none
    have routes := passes_route (s.after [.program (.takeNext c)]) c n c' .none
    simpa only [Hold.at, here, if_false, List.cons_append, List.nil_append] using
      takes.trans routes

/-! ### Kept loops -/

/-- A loop that has to wait is kept; its taking goes on with it. -/
theorem passes_keep {s books : Client T κ} {c : ContextId}
    (more : ∀ c', books.kept c' = s.kept c' + if c' = c then 1 else 0) (c' : ContextId) :
    Passes c' (Hold.looking.at c c') .none s [.program (.keepBooks books)] := by
  have kept : (Move.apply s (.program (.keepBooks books))).kept c' =
      s.kept c' + if c' = c then 1 else 0 := more c'
  by_cases here : c' = c
  · subst here
    rw [if_pos rfl] at kept
    simp only [Hold.at, if_true]
    have waits : ¬ Other c' .none (s.after [.program (.keepBooks books)]) := by
      rintro ⟨-, -, none⟩
      rw [after_cons, after_nil, kept] at none
      exact absurd none (Nat.succ_ne_zero _)
    refine passes_of_held (by simp) waits fun w fits => ?_
    obtain ⟨leased, unkept⟩ := fits.own (by simp)
    rw [after_cons, after_nil]
    refine ⟨w, .cons (.aside rfl (.inr fits.free)) (.nil _ _), ?_⟩
    constructor
    case leased => exact fits.leased
    case free => exact fits.free
    case looks => exact fun _ => fits.looks (.inl rfl)
    case own => exact (absurd rfl ·)
    case single => simp only [kept, unkept, Nat.le_refl]
    case kept => exact fun _ => leased
  · rw [if_neg here, Nat.add_zero] at kept
    rw [Hold.at, if_neg here]
    exact passes_aside rfl rfl kept .none

/-- Who polls or abandons a kept loop has its lease. -/
theorem passes_resume {s books : Client T κ} {c : ContextId}
    (less : ∀ c', books.kept c' + (if c' = c then 1 else 0) = s.kept c') (c' : ContextId) :
    Passes c' .none (Hold.looking.at c c') s [.program (.keepBooks books)] := by
  have kept : (Move.apply s (.program (.keepBooks books))).kept c' +
      (if c' = c then 1 else 0) = s.kept c' := less c'
  by_cases here : c' = c
  · subst here
    rw [if_pos rfl] at kept
    simp only [Hold.at, if_true]
    intro w fits
    have some : 0 < s.kept c' := kept ▸ Nat.succ_pos _
    have leased := fits.kept some
    have none : (Move.apply s (.program (.keepBooks books))).kept c' = 0 := by
      have single := fits.single
      omega
    have unused : ¬ s.InUse c' := fun used => Nat.ne_of_gt some used.2
    rw [after_cons, after_nil]
    have used : (Move.apply s (.program (.keepBooks books))).InUse c' := ⟨leased, none⟩
    refine ⟨w, .cons (.aside rfl (.inr fits.free)) (.nil _ _),
      .of_inUse used (fits.leased.symm.trans leased) fits.free fun _ => fits.looks (.inr some),
      ?_, ?_⟩
    · exact iff_of_false (fun other => unused other.2) (not_other_looking _ _)
    · exact fun other => absurd other.2 unused
  · rw [if_neg here, Nat.add_zero] at kept
    rw [Hold.at, if_neg here]
    exact passes_aside rfl rfl kept .none

end

end EventClient.Client
