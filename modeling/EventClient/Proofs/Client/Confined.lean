import EventClient.Proofs.Client.Active
import EventClient.Proofs.Client.Besides
import EventClient.Proofs.Client.Plans
import EventClient.Proofs.Correlation.Steps

/-!
What a program can do through the handles of a released context. Its requests are refused and leave
the client as it was, and everything else shows in the context itself and in what was noted. Seen
with the context blanked out, an act through one of its handles does nothing, and no other act can
tell, so a run does to the rest of the client what it does without these acts.
-/
namespace EventClient

namespace Context

variable {T κ : Type}

theorem route_released_registry {context : Context κ} (released : context.released = true)
    (c : ContextId) (n : Notification) (kind : RequestKind) :
    (context.route c n).2.registry kind = context.registry kind := by
  cases n with
  | sendCompleted | applicationsListed => simp only [route, complete, settle_released released]
  | event =>
      simp only [route]
      cases context.eventHandler <;> cases kind <;> rfl
  | subscriptionStatus =>
      simp only [route]
      cases context.statusHandler <;> cases kind <;> rfl

/-- Whatever is done to a released context, its entries and counters stay as they are. -/
theorem registry_afterAct_released [Transport T] {context : Context κ}
    (released : context.released = true) (t : T) {current : Option ContextId} {c : ContextId}
    (let_go : current ≠ some c) (act : Client.Act T κ) (kind : RequestKind) :
    (context.afterAct t current c act).registry kind = context.registry kind := by
  have change := change_afterAct context t current c act
  generalize context.afterAct t current c act = new at change ⊢
  cases change with
  | same => rfl
  | request active => rw [released] at active; cases active
  | subscriptions | eventHandler | statusHandler => cases kind <;> rfl
  | route n => exact route_released_registry released c n kind
  | shutDown _ here => exact (let_go here).elim

end Context

namespace Client

variable {T κ : Type} [Transport T]

omit [Transport T] in
theorem isReleased_iff {s : Client T κ} {c : ContextId} :
    s.isReleased c = true ↔ ∃ context, s.context? c = some context ∧ context.released = true := by
  rw [isReleased, Option.any_eq_true, context?]
  constructor
  · rintro ⟨slot, hslot, released⟩
    exact ⟨slot.context, by rw [hslot]; rfl, released⟩
  · rintro ⟨context, here, released⟩
    obtain ⟨slot, hslot, rfl⟩ := Option.map_eq_some_iff.mp here
    exact ⟨slot, hslot, released⟩

/-- A released context of a client that has only its current one active. -/
structure Gone (s : Client T κ) (c : ContextId) : Prop where
  sole : s.Sole
  released : s.isReleased c = true

omit [Transport T] in
theorem Gone.not_current {s : Client T κ} {c : ContextId} (gone : s.Gone c) :
    s.current ≠ some c := by
  intro current
  obtain ⟨context, here, released⟩ := isReleased_iff.mp gone.released
  have active := (gone.sole.active c context here).mpr current
  rw [released] at active
  cases active

theorem Gone.refuses {s : Client T κ} {c : ContextId} (gone : s.Gone c) : s.Refuses c := by
  obtain ⟨context, here, released⟩ := isReleased_iff.mp gone.released
  exact refuses_released here released

/-! ### Released for good -/

theorem gone_apply {s : Client T κ} {c : ContextId} (gone : s.Gone c) (move : Move T κ) :
    (move.apply s).Gone c ∧ ∀ kind, (move.apply s).registry c kind = s.registry c kind := by
  obtain ⟨context, here, released⟩ := isReleased_iff.mp gone.released
  have changed := (context?_apply s move c).resolve_right fun opened => by
    rw [here] at opened
    cases opened.2.1
  rw [here, Option.map_some] at changed
  cases move with
  | deliver | transport =>
      refine ⟨⟨sole_apply gone.sole _, isReleased_iff.mpr ⟨context, changed, released⟩⟩, ?_⟩
      intro kind
      rw [registry_of_context changed, registry_of_context here]
  | program act =>
      have stays : act = .release → s.current ≠ some c := fun _ => gone.not_current
      refine ⟨⟨sole_apply gone.sole _, isReleased_iff.mpr ⟨_, changed, ?_⟩⟩, ?_⟩
      · rw [Context.released_afterAct context s.transport stays, released]
      · intro kind
        rw [registry_of_context changed, registry_of_context here]
        exact Context.registry_afterAct_released released s.transport gone.not_current act kind

/-- A released context stays released, with the entries and the counters that it has. -/
theorem gone_after {s : Client T κ} {c : ContextId} (gone : s.Gone c) (moves : List (Move T κ)) :
    (s.after moves).Gone c ∧ ∀ kind, (s.after moves).registry c kind = s.registry c kind := by
  induction moves generalizing s with
  | nil => exact ⟨gone, fun _ => rfl⟩
  | cons move moves ih =>
      obtain ⟨still, same⟩ := gone_apply gone move
      obtain ⟨last, same'⟩ := ih still
      exact ⟨last, fun kind => (same' kind).trans (same kind)⟩

theorem Gone.reached {s s' : Client T κ} {c : ContextId} (gone : s.Gone c)
    {moves : List (Move T κ)} (h : s.after moves = s') : s'.Gone c := by
  rw [← h]
  exact (gone_after gone moves).1

/-! ### Operations through a handle of a released context -/

theorem agreesBeyond_act {s : Client T κ} {c : ContextId} (gone : s.Gone c) (act : Act T κ)
    (through : act.through? = some c) : AgreesBeyond c s (act.apply s) :=
  agreesBeyond_of_besides (besides_act gone.refuses through)
    ((gone_apply gone (.program act)).1.released.trans gone.released.symm)

/-- What an operation through a handle of a context comes to: steps that show in this context only,
and what a handler does that the context has for broadcasts when it is handed one. -/
inductive Through (react : Reaction T κ) (c : ContextId) : Client T κ → Client T κ → Prop where
  | done (s : Client T κ) : Through react c s s
  | own {s s' s'' : Client T κ} (same : AgreesBeyond c s s') (rest : Through react c s' s'') :
      Through react c s s''
  | handler {s s' s'' : Client T κ} {n : Notification} {i : Invocation κ}
      (routed : s.route c n = (.ok (some i), s')) (broadcast : i.answers = none)
      (same : AgreesBeyond c s s') (rest : Through react c (react i s') s'') :
      Through react c s s''

namespace Through

variable {react : Reaction T κ} {c : ContextId}

omit [Transport T] in
theorem of_agrees {s s' : Client T κ} (same : AgreesBeyond c s s') : Through react c s s' :=
  .own same (.done s')

omit [Transport T] in
theorem trans {s s' s'' : Client T κ} (h : Through react c s s') (h' : Through react c s' s'') :
    Through react c s s'' := by
  induction h with
  | done => exact h'
  | own same _ ih => exact .own same (ih h')
  | handler routed broadcast same _ ih => exact .handler routed broadcast same (ih h')

omit [Transport T] in
/-- Where the handlers leave the rest of the client alone, so does the operation. -/
theorem agrees {s s' : Client T κ} (h : Through react c s s')
    (contained : ∀ i s, i.context = c → AgreesBeyond c s (react i s)) : AgreesBeyond c s s' := by
  induction h with
  | done => exact .refl ..
  | own same _ ih => exact same.trans ih
  | handler routed _ same _ ih =>
      have here := route_invocation_context (congrArg Prod.fst routed)
      exact same.trans ((contained _ _ here).trans ih)

end Through

section
variable (callbacks : Callbacks T κ) {c : ContextId} {s : Client T κ}

theorem through_dispatch (gone : s.Gone c) (n : Notification) :
    Through callbacks.reaction c s (s.dispatch callbacks.reaction c n).2 := by
  have routed : AgreesBeyond c s (s.route c n).2 :=
    agreesBeyond_act gone (.route c n) rfl
  simp only [dispatch]
  split
  · next h =>
      rw [h] at routed
      exact .of_agrees routed
  · next h =>
      rw [h] at routed
      exact .of_agrees routed
  · next i s' h =>
      rw [h] at routed
      obtain ⟨context, here, released⟩ := isReleased_iff.mp gone.released
      obtain ⟨slot, hslot, rfl⟩ := Option.map_eq_some_iff.mp here
      have outcome := (route_eq hslot n).1.trans (Context.route_handler c (.inl released))
      rw [h] at outcome
      obtain ⟨handler, _, rfl⟩ := Option.map_eq_some_iff.mp (Except.ok.inj outcome).symm
      exact .handler h rfl routed (.done _)

theorem gone_dispatch (gone : s.Gone c) (n : Notification) :
    (s.dispatch callbacks.reaction c n).2.Gone c :=
  gone.reached (after_dispatchMoves ..)

/-- A notification is taken and then dispatched. -/
theorem through_next (gone : s.Gone c) {n : Notification} {s₁ : Client T κ}
    (found : s.nextNotification? c = some (n, s₁)) :
    s₁.Gone c ∧ Through callbacks.reaction c s (s₁.dispatch callbacks.reaction c n).2 := by
  have taken := apply_takeNext found
  have gone₁ : s₁.Gone c := by
    rw [← taken]
    exact (gone_apply gone _).1
  have same : AgreesBeyond c s s₁ := by
    rw [← taken]
    exact agreesBeyond_act gone (.takeNext c) rfl
  exact ⟨gone₁, .own same (through_dispatch callbacks gone₁ n)⟩

omit [Transport T] in
theorem agreesBeyond_note (c : ContextId) (s : Client T κ) (entries : List Entry) :
    AgreesBeyond c s (s.note entries) :=
  ⟨rfl, rfl, rfl, rfl, fun _ _ => rfl, rfl⟩

/-- The induction is on the number of notifications that may still be taken; between two of them a
handler may have done anything, but the context is still released. -/
theorem through_poll (gone : s.Gone c) (limit : Nat) :
    Through callbacks.reaction c s (poll callbacks.reaction c limit s).2 := by
  induction limit generalizing s with
  | zero => exact .done s
  | succ limit ih =>
      simp only [poll]
      split
      · exact .done s
      · cases found : s.nextNotification? c with
        | none =>
            dsimp only
            split
            · exact .done s
            · split
              · exact .done s
              · exact .of_agrees (agreesBeyond_note ..)
        | some taken =>
            obtain ⟨n, s₁⟩ := taken
            obtain ⟨gone₁, served⟩ := through_next callbacks gone found
            have gone₂ := gone_dispatch callbacks gone₁ n
            dsimp only
            cases h : s₁.dispatch callbacks.reaction c n with
            | mk result s₂ =>
            rw [h] at served gone₂
            cases result with
            | ok _ => exact served.trans (ih gone₂)
            | error e => exact served.trans (.of_agrees (agreesBeyond_note ..))

theorem gone_poll (gone : s.Gone c) (limit : Nat) :
    (poll callbacks.reaction c limit s).2.Gone c :=
  gone.reached (after_pollMoves ..)

theorem agreesBeyond_giveBack (gone : s.Gone c) : AgreesBeyond c s (s.giveBack c) :=
  agreesBeyond_act gone (.giveBack c) rfl

theorem through_pollLoop (gone : s.Gone c) (limit : Nat) :
    Through callbacks.reaction c s (s.pollLoop callbacks.reaction limit c).2 := by
  have polled := through_poll callbacks gone limit
  have gone' := gone_poll callbacks gone limit
  have ended (s' : Client T κ) (gone' : s'.Gone c) : AgreesBeyond c s' (s'.endLoop c) :=
    (agreesBeyond_giveBack gone').trans (agreesBeyond_note ..)
  simp only [pollLoop]
  cases h : poll callbacks.reaction c limit s with
  | mk outcome s' =>
  rw [h] at polled gone'
  cases outcome with
  | pending => exact polled
  | finished | failed | unfinished => exact polled.trans (.of_agrees (ended s' gone'))

theorem gone_pollLoop (gone : s.Gone c) (limit : Nat) :
    (s.pollLoop callbacks.reaction limit c).2.Gone c :=
  gone.reached (after_pollLoopMoves ..)

theorem through_drain (gone : s.Gone c) (limit count : Nat) :
    Through callbacks.reaction c s (drain callbacks.reaction c limit count s).2 := by
  induction limit generalizing s count with
  | zero => exact .done s
  | succ limit ih =>
      simp only [drain]
      cases found : s.nextNotification? c with
      | none => exact .done s
      | some taken =>
          obtain ⟨n, s₁⟩ := taken
          obtain ⟨gone₁, served⟩ := through_next callbacks gone found
          have gone₂ := gone_dispatch callbacks gone₁ n
          dsimp only
          cases h : s₁.dispatch callbacks.reaction c n with
          | mk result s₂ =>
          rw [h] at served gone₂
          cases result with
          | ok _ => exact served.trans (ih gone₂ (count + 1))
          | error e => exact served

/-- Taking the channel shows in the context only, which is still released. -/
theorem agreesBeyond_lease (gone : s.Gone c) :
    AgreesBeyond c s (s.lease c).2 ∧ (s.lease c).2.Gone c :=
  ⟨agreesBeyond_act gone (.lease c) rfl, (gone_apply gone (.program (.lease c))).1⟩

theorem through_dispatchPending (gone : s.Gone c) (limit : Nat) :
    Through callbacks.reaction c s (s.dispatchPending callbacks.reaction limit c).2 := by
  obtain ⟨leased, gone₁⟩ := agreesBeyond_lease gone
  simp only [dispatchPending]
  cases h : s.lease c with
  | mk result s₁ =>
  rw [h] at leased gone₁
  cases result with
  | error e => exact .of_agrees leased
  | ok _ =>
      have drained := through_drain callbacks gone₁ limit 0
      have gone₂ : (drain callbacks.reaction c limit 0 s₁).2.Gone c :=
        gone₁.reached (after_drainMoves ..)
      exact .own leased (drained.trans (.of_agrees (agreesBeyond_giveBack gone₂)))

theorem gone_startLoop (gone : s.Gone c) : (s.startLoop c).2.Gone c :=
  gone.reached (after_startMoves ..)

theorem agreesBeyond_startLoop (gone : s.Gone c) : AgreesBeyond c s (s.startLoop c).2 := by
  obtain ⟨leased, gone₁⟩ := agreesBeyond_lease gone
  simp only [startLoop]
  cases h : s.lease c with
  | mk result s₁ =>
  rw [h] at leased gone₁
  cases result with
  | error e => exact leased
  | ok _ =>
      have forgotten : AgreesBeyond c s₁ (Act.apply s₁ (.forgetStop c)) :=
        agreesBeyond_act gone₁ (.forgetStop c) rfl
      exact (leased.trans forgotten).trans (agreesBeyond_note ..)

theorem through_runOnce (gone : s.Gone c) (limit : Nat) :
    Through callbacks.reaction c s (s.runOnce callbacks.reaction limit c).2 := by
  have started := agreesBeyond_startLoop gone
  have gone₁ := gone_startLoop gone
  simp only [runOnce]
  cases h : s.startLoop c with
  | mk result s₁ =>
  rw [h] at started gone₁
  cases result with
  | error e => exact .of_agrees started
  | ok _ =>
      have polled := through_pollLoop callbacks gone₁ limit
      have gone₂ := gone_pollLoop callbacks gone₁ limit
      dsimp only
      cases h : s₁.pollLoop callbacks.reaction limit c with
      | mk outcome s₂ =>
      rw [h] at polled gone₂
      cases outcome with
      | pending => exact .own started (polled.trans (.of_agrees (agreesBeyond_giveBack gone₂)))
      | finished | failed | unfinished => exact .own started polled

omit [Transport T] in
/-- Which loops are kept is no context's affair. -/
theorem agreesBeyond_loops (c : ContextId) (s : Client T κ) (loops : List StartedLoop) :
    AgreesBeyond c s { s with loops } :=
  ⟨rfl, rfl, rfl, rfl, fun _ _ => rfl, rfl⟩

theorem through_startKept (gone : s.Gone c) (limit : Nat) :
    Through callbacks.reaction c s (s.startKept callbacks.reaction limit c).2 := by
  have started := agreesBeyond_startLoop gone
  have gone₁ := gone_startLoop gone
  simp only [startKept]
  cases h : s.startLoop c with
  | mk result s₁ =>
  rw [h] at started gone₁
  cases result with
  | error e => exact .of_agrees started
  | ok _ =>
      have polled := through_pollLoop callbacks gone₁ limit
      dsimp only
      cases h : s₁.pollLoop callbacks.reaction limit c with
      | mk outcome s₂ =>
      rw [h] at polled
      cases outcome with
      | pending => exact .own started (polled.trans (.of_agrees (agreesBeyond_loops ..)))
      | finished | failed | unfinished => exact .own started polled

theorem through_pollKept (gone : s.Gone c) {loop : Nat}
    (kept : s.loops[loop]? = some (.waiting c)) (limit : Nat) :
    Through callbacks.reaction c s (s.pollKept callbacks.reaction limit loop).2 := by
  have gone₁ : (s.setLoop loop (.polled c)).Gone c :=
    (gone_apply gone (.program (.keepBooks (s.setLoop loop (.polled c))))).1
  have polled := through_pollLoop callbacks gone₁ limit
  have marked : AgreesBeyond c s (s.setLoop loop (.polled c)) := agreesBeyond_loops ..
  simp only [pollKept, kept]
  simp only [setLoop] at polled marked
  cases h : pollLoop callbacks.reaction limit
    { s with loops := s.loops.set loop (.polled c) } c with
  | mk outcome s₁ =>
  rw [h] at polled
  cases outcome <;> exact .own marked (polled.trans (.of_agrees (agreesBeyond_loops ..)))

theorem agreesBeyond_cancelKept (gone : s.Gone c) {loop : Nat}
    (kept : s.loops[loop]? = some (.waiting c)) : AgreesBeyond c s (s.cancelKept loop).2 := by
  have gone₁ : (s.setLoop loop .gone).Gone c :=
    (gone_apply gone (.program (.keepBooks (s.setLoop loop .gone)))).1
  have marked : AgreesBeyond c s (s.setLoop loop .gone) := agreesBeyond_loops ..
  simp only [cancelKept, kept]
  exact marked.trans (agreesBeyond_giveBack gone₁)

end

/-- What is done through a handle of a context or by a loop that was started with one. Cloning and
dropping handles is bookkeeping, which neither makes nor ends a lifecycle. -/
def Operation.IsThrough (s : Client T κ) (c : ContextId) : Operation T κ → Prop
  | .plain move _ => move.through? = some c
  | .keepBooks books => books.owned = s.owned
  | .dispatch c' _ | .dispatchPending c' _ | .runOnce c' _ | .startKept c' _ => c' = c
  | .pollKept loop _ | .cancelKept loop =>
    (s.loops[loop]?).bind StartedLoop.context? = some c

/-- No operation through a handle of a released context reaches beyond it, but for what the
context's own handlers of broadcasts do. -/
theorem through_operation (callbacks : Callbacks T κ) {s : Client T κ} {c : ContextId}
    (gone : s.Gone c) {operation : Operation T κ} (through : operation.IsThrough s c) :
    Through callbacks.reaction c s (operation.apply callbacks.reaction s) := by
  cases operation with
  | plain move isPlain =>
      cases move with
      | program act => exact .of_agrees (agreesBeyond_act gone act through)
      | deliver | transport => cases through
  | keepBooks books => exact .of_agrees ⟨rfl, through, rfl, rfl, fun _ _ => rfl, rfl⟩
  | dispatch c' n => cases through; exact through_dispatch callbacks gone n
  | dispatchPending c' limit => cases through; exact through_dispatchPending callbacks gone limit
  | runOnce c' limit => cases through; exact through_runOnce callbacks gone limit
  | startKept c' limit => cases through; exact through_startKept callbacks gone limit
  | pollKept loop limit =>
      obtain ⟨started, kept, here⟩ := Option.bind_eq_some_iff.mp through
      cases started with
      | waiting c' => cases here; exact through_pollKept callbacks gone kept limit
      | polled c' =>
          simp only [Operation.apply, pollKept, kept]
          exact .done s
      | gone => cases here
  | cancelKept loop =>
      obtain ⟨started, kept, here⟩ := Option.bind_eq_some_iff.mp through
      cases started with
      | waiting c' => cases here; exact .of_agrees (agreesBeyond_cancelKept gone kept)
      | polled c' =>
          simp only [Operation.apply, cancelKept, kept]
          exact .done s
      | gone => cases here

/-! ### Runs with and without what is done through the handles -/

/-- A run without the acts through handles of a context. -/
def without (c : ContextId) (moves : List (Move T κ)) : List (Move T κ) :=
  moves.filter fun move => move.through? ≠ some c

/-- The induction is on the run; the two clients are the same but for the context all along. -/
theorem besides_without {s s' : Client T κ} {c : ContextId} (gone : s.Gone c)
    (same : s'.besides c = s.besides c) (moves : List (Move T κ)) :
    (s'.after (without c moves)).besides c = (s.after moves).besides c := by
  induction moves generalizing s s' with
  | nil => exact same
  | cons move moves ih =>
      have gone' := (gone_apply gone move).1
      by_cases through : move.through? = some c
      · have left_out : without c (move :: moves) = without c moves := by
          simp [without, through]
        rw [left_out]
        apply ih gone'
        cases move with
        | program act => exact same.trans (besides_act gone.refuses through).symm
        | deliver | transport => cases through
      · have kept : without c (move :: moves) = move :: without c moves := by
          simp [without, through]
        rw [kept]
        apply ih gone'
        have bound : c < s.slots.length := by
          obtain ⟨context, here, _⟩ := isReleased_iff.mp gone.released
          obtain ⟨slot, hslot, _⟩ := Option.map_eq_some_iff.mp here
          exact lt_of_slot? hslot
        have bound' : c < s'.slots.length := by
          have length := congrArg (·.slots.length) same
          simp only [besides, List.length_set] at length
          rwa [length]
        have other' : s'.current ≠ some c := by
          have current : s'.current = s.current := (congrArg (·.current) same :)
          rw [current]
          exact gone.not_current
        calc (move.apply s').besides c
            = (move.apply (s'.besides c)).besides c :=
              (besides_move_comm bound' other' through).symm
          _ = (move.apply (s.besides c)).besides c := by rw [same]
          _ = (move.apply s).besides c := besides_move_comm bound gone.not_current through

theorem agreesBeyond_without {s : Client T κ} {c : ContextId} (gone : s.Gone c)
    (moves : List (Move T κ)) : AgreesBeyond c (s.after (without c moves)) (s.after moves) :=
  agreesBeyond_of_besides (besides_without gone rfl moves).symm
    ((gone_after gone moves).1.released.trans
      (gone_after gone (without c moves)).1.released.symm)

end Client

end EventClient
