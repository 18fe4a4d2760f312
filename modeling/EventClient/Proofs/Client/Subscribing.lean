import EventClient.Proofs.Client.Contexts
import EventClient.Transport.Loopback

/-!
The subscribed names of a context against the names that were pushed to the transport. A set of
names becomes the context's own before the transport is asked, so what the context has are the
names of the last push, whether it was taken or not. They are what the framework was told as long as
no new set was refused since.
-/
namespace EventClient

namespace Context

variable {T κ : Type}

@[simp] theorem withRegistry_subscriptions (context : Context κ) (kind : RequestKind)
    (r : Registry κ) : (context.withRegistry kind r).subscriptions = context.subscriptions := by
  cases kind <;> rfl

theorem request_subscriptions [Transport T] (context : Context κ) (t : T) (kind : RequestKind)
    (callback : κ) (userData : Option String) (call : CorrelationId → Call)
    (issued : CorrelationId → Entry) :
    (context.request t kind callback userData call issued).context.subscriptions =
      context.subscriptions := by
  obtain ⟨r, hr⟩ := request_context context t kind callback userData call issued
  rw [hr, withRegistry_subscriptions]

theorem route_subscriptions (context : Context κ) (c : ContextId) (n : Notification) :
    (context.route c n).2.subscriptions = context.subscriptions := by
  have completion (kind : RequestKind) (id : CorrelationId) (delivery : Delivery) :
      (context.complete c kind id delivery).2.subscriptions = context.subscriptions := by
    simp only [complete, settle]
    split
    · rfl
    · rfl
    · next h =>
        split at h
        · cases h
        · split at h
          · cases h
          · cases h
            exact withRegistry_subscriptions ..
  cases n with
  | sendCompleted | applicationsListed => exact completion ..
  | event =>
      simp only [route]
      cases context.eventHandler <;> rfl
  | subscriptionStatus =>
      simp only [route]
      cases context.statusHandler <;> rfl

/-- Subscribing fails without a trace, unless the names passed every check and the transport refuses
them. -/
theorem subscribe_error [Transport T] {context : Context κ} {t : T} {names : List String}
    {e : ClientError} (h : (context.subscribe t names).result = .error e) :
    (context.subscribe t names).context = context ∨
      ∃ subscriptions, Subscriptions.ofNames? names = .ok subscriptions ∧
        (Transport.perform t (.subscribe subscriptions.names)).2 = .error e ∧
        (context.subscribe t names).context = { context with subscriptions } := by
  simp only [subscribe] at h ⊢
  cases active : context.checkActive with
  | error e' => exact .inl rfl
  | ok _ =>
      cases named : Subscriptions.ofNames? names with
      | error e' => exact .inl rfl
      | ok subscriptions =>
          simp only [active, named, pushSubscriptions] at h ⊢
          refine .inr ⟨subscriptions, rfl, ?_, issue_context ..⟩
          simp only [issue] at h
          split at h
          · cases h
          · next refused =>
              rw [refused]
              exact h

end Context

namespace Client

variable {T κ : Type}

/-- A push of subscribed names to the transport. -/
structure Push where
  names : List String
  /-- They take the place of the names that the context has. -/
  replaces : Bool
  answer : Except ClientError Unit

def Push.isTaken (p : Push) : Bool := p.answer.toBool

/-- The names of the last push. -/
def lastPushed (pushes : List Push) : List String := (pushes.getLast?.map (·.names)).getD []

/-- What the framework was told: the names of the last push that the transport took. -/
def told (pushes : List Push) : List String := lastPushed (pushes.filter Push.isTaken)

/-- The pushes that were refused since the last one that was taken, the latest first. -/
def refusedSince (pushes : List Push) : List Push := pushes.reverse.takeWhile fun p => !p.isTaken

/-- The names of a context are edited in place. -/
def Move.edits (c : ContextId) : Move T κ → Bool
  | .program (.editSubscriptions c' ..) => c' == c
  | _ => false

variable [Transport T]

/-- The push that a move makes for a context: an active one has its names checked first. -/
def Move.push? (s : Client T κ) (c : ContextId) : Move T κ → Option Push
  | .program (.subscribe c' names) =>
    if c = c' then
      (s.context? c).bind fun context =>
        match context.checkActive, Subscriptions.ofNames? names with
        | .error _, _ | .ok (), .error _ => none
        | .ok (), .ok subscriptions =>
          some ⟨subscriptions.names, true,
            (Transport.perform s.transport (.subscribe subscriptions.names)).2⟩
    else none
  | .program (.renewSubscriptions c') =>
    if c = c' then
      (s.context? c).bind fun context =>
        match context.checkActive, context.subscriptions.check with
        | .error _, _ | .ok (), .error _ => none
        | .ok (), .ok () =>
          some ⟨context.subscriptions.names, false,
            (Transport.perform s.transport (.subscribe context.subscriptions.names)).2⟩
    else none
  | _ => none

def pushes (s : Client T κ) (c : ContextId) (moves : List (Move T κ)) : List Push :=
  (s.history moves).filterMap fun (found, move) => move.push? found c

theorem pushes_cons (s : Client T κ) (c : ContextId) (move : Move T κ) (moves : List (Move T κ)) :
    s.pushes c (move :: moves) = (move.push? s c).toList ++ (move.apply s).pushes c moves := by
  cases h : move.push? s c <;> simp [pushes, history, h]

/-- An absent context pushes nothing. -/
theorem push?_absent {s : Client T κ} {c : ContextId} (absent : s.context? c = none)
    (move : Move T κ) : move.push? s c = none := by
  simp only [Move.push?, absent]
  split <;> simp

/-- What is left of a context's names that are not edited in place: those of the push, if there is
one, and the names that it had otherwise. -/
def Leaves (context : Context κ) (push? : Option Push) (context' : Context κ) : Prop :=
  match push? with
  | none => context'.subscriptions = context.subscriptions
  | some push => context'.subscriptions.names = push.names ∧
      (push.replaces = false → context'.subscriptions = context.subscriptions)

theorem leaves_subscribe {s : Client T κ} {c : ContextId} {context : Context κ}
    (here : s.context? c = some context) (names : List String) :
    Leaves context (Move.push? s c (.program (.subscribe c names)))
      (context.subscribe s.transport names).context := by
  simp only [Move.push?, if_pos, here, Option.bind_some, Context.subscribe]
  cases context.checkActive with
  | error e => exact rfl
  | ok _ =>
      cases Subscriptions.ofNames? names with
      | error e => exact rfl
      | ok subscriptions =>
          have left : ({ context with subscriptions }.pushSubscriptions s.transport).context =
              { context with subscriptions } := Context.issue_context ..
          exact ⟨congrArg (·.subscriptions.names) left, fun h => by cases h⟩

theorem leaves_renewSubscriptions {s : Client T κ} {c : ContextId} {context : Context κ}
    (here : s.context? c = some context) :
    Leaves context (Move.push? s c (.program (.renewSubscriptions c))) context := by
  simp only [Move.push?, if_pos, here, Option.bind_some]
  cases context.checkActive with
  | error e => exact rfl
  | ok _ =>
      cases context.subscriptions.check with
      | error e => exact rfl
      | ok _ => exact ⟨rfl, fun _ => rfl⟩

/-- What a move leaves of the names of a context. -/
theorem leaves_apply {s : Client T κ} {c : ContextId} {context : Context κ}
    (here : s.context? c = some context) {move : Move T κ} (kept : move.edits c = false) :
    ∃ context', (move.apply s).context? c = some context' ∧
      Leaves context (move.push? s c) context' := by
  have changed := (context?_apply s move c).resolve_right fun opened => by
    rw [here] at opened
    cases opened.2.1
  rw [here, Option.map_some] at changed
  refine ⟨_, changed, ?_⟩
  cases move with
  | deliver | transport => exact rfl
  | program act =>
      -- An act on another context leaves this one as it is, and makes no push for it.
      cases act with
      | subscribe c' names =>
          by_cases heq : c = c'
          · subst heq
            simp only [Context.afterAct, if_pos]
            exact leaves_subscribe here names
          · simp [Context.afterAct, Move.push?, heq, Leaves]
      | renewSubscriptions c' =>
          by_cases heq : c = c'
          · subst heq
            exact leaves_renewSubscriptions here
          · simp [Context.afterAct, Move.push?, heq, Leaves]
      | editSubscriptions c' =>
          have other : ¬ c = c' := fun heq => by simp [Move.edits, heq] at kept
          exact congrArg _ (if_neg other)
      | send c' event payload target callback userData =>
          simp only [Context.afterAct, Move.push?, Leaves, Context.send]
          split
          · split
            · rfl
            · exact Context.request_subscriptions ..
          · rfl
      | list c' scope callback userData =>
          simp only [Context.afterAct, Move.push?, Leaves, Context.list]
          split
          · split
            · rfl
            · exact Context.request_subscriptions ..
          · rfl
      | route c' n =>
          simp only [Context.afterAct, Move.push?, Leaves]
          split
          · exact Context.route_subscriptions ..
          · rfl
      | setEventHandler | setStatusHandler | release =>
          simp only [Context.afterAct, Move.push?, Leaves]
          split <;> rfl
      | acquire | enableTracing | bridgeSignals | lease | giveBack | requestStop | forgetStop
      | takeNext | keepBooks => exact rfl

/-- The names of a context against its pushes so far. -/
structure Subscribed (past : List Push) (context : Context κ) : Prop where
  pushed : context.subscriptions.names = lastPushed past
  told : (∀ p ∈ refusedSince past, p.replaces = false) → context.subscriptions.names = told past

omit [Transport T] in
theorem Subscribed.leaves {past : List Push} {context context' : Context κ}
    (h : Subscribed past context) {push? : Option Push} (left : Leaves context push? context') :
    Subscribed (past ++ push?.toList) context' := by
  cases push? with
  | none =>
      have same : context'.subscriptions = context.subscriptions := left
      rw [Option.toList_none, List.append_nil]
      exact ⟨by rw [same]; exact h.pushed, by rw [same]; exact h.told⟩
  | some push =>
      obtain ⟨names, renewed⟩ := left
      constructor
      case pushed =>
        simp [lastPushed, names]
      case told =>
        intro renewals
        by_cases taken : push.isTaken = true
        · simp [Client.told, lastPushed, taken, names]
        · -- What is refused here renews the names that the framework was told.
          have refused : refusedSince (past ++ [push]) = push :: refusedSince past := by
            simp [refusedSince, taken]
          rw [Option.toList_some, refused] at renewals
          obtain ⟨renews, before⟩ := List.forall_mem_cons.mp renewals
          rw [renewed renews, h.told before]
          simp [Client.told, taken]

/-- An absent context made no push, and one that is there has the names of its pushes. -/
def Follows (s : Client T κ) (c : ContextId) (past : List Push) : Prop :=
  match s.context? c with
  | none => past = []
  | some context => Subscribed past context

theorem follows_apply {s : Client T κ} {c : ContextId} {past : List Push}
    (h : s.Follows c past) {move : Move T κ} (kept : move.edits c = false) :
    (move.apply s).Follows c (past ++ (move.push? s c).toList) := by
  cases here : s.context? c with
  | some context =>
      obtain ⟨context', here', left⟩ := leaves_apply here kept
      simp only [Follows, here] at h
      simp only [Follows, here']
      exact h.leaves left
  | none =>
      simp only [Follows, here] at h
      rw [push?_absent here, h, Option.toList_none, List.append_nil]
      rcases context?_apply s move c with changed | ⟨_, _, opened⟩
      · rw [here, Option.map_none] at changed
        simp only [Follows, changed]
      · simp only [Follows, opened]
        exact ⟨rfl, fun _ => rfl⟩

theorem follows_after {s : Client T κ} {c : ContextId} {past : List Push}
    (h : s.Follows c past) {moves : List (Move T κ)}
    (kept : ∀ move ∈ moves, move.edits c = false) :
    (s.after moves).Follows c (past ++ s.pushes c moves) := by
  induction moves generalizing s past with
  | nil =>
      rw [show s.pushes c [] = [] from rfl, List.append_nil]
      exact h
  | cons move moves ih =>
      obtain ⟨first, rest⟩ := List.forall_mem_cons.mp kept
      rw [pushes_cons, ← List.append_assoc]
      exact ih (follows_apply h first) rest

/-- After every run in which the names of a context are not edited in place, they are those of its
last push, taken or refused, and what the framework was told as long as no new set was refused
since. An update that fails leaves them alone, unless it is a new set that the transport refuses. -/
theorem names_are_last_pushed (t : T) (moves : List (Move T κ)) (c : ContextId)
    (kept : ∀ move ∈ moves, move.edits c = false) (context : Context κ)
    (here : ((start t).after moves).context? c = some context) :
    let s := (start t).after moves
    let past := (start t).pushes c moves
    context.subscriptions.names = lastPushed past ∧
    ((∀ p ∈ refusedSince past, p.replaces = false) → context.subscriptions.names = told past) ∧
    (∀ names e, (s.subscribe c names).1 = .error e →
      (s.subscribe c names).2.context? c = some context ∨
        ∃ subscriptions, Subscriptions.ofNames? names = .ok subscriptions ∧
          (Transport.perform s.transport (.subscribe subscriptions.names)).2 = .error e ∧
          (s.subscribe c names).2.context? c = some { context with subscriptions }) ∧
    (s.renewSubscriptions c).2.context? c = some context := by
  intro s past
  have unopened : (start t : Client T κ).Follows c [] := by
    simp [Follows, context?, slot?, start]
  have follows := follows_after unopened kept
  simp only [List.nil_append, Follows, here] at follows
  refine ⟨follows.pushed, follows.told, ?_, ?_⟩
  · intro names e refused
    have left : (s.subscribe c names).2.context? c =
        some (context.subscribe s.transport names).context := by
      simp only [subscribe, context?_onContext, s, here, Option.map_some, if_pos]
    rw [left, Option.some_inj]
    have failed : (context.subscribe s.transport names).result = .error e :=
      (onContext_result here _).symm.trans refused
    rcases Context.subscribe_error failed with same | ⟨subscriptions, named, answer, new⟩
    · exact .inl same
    · exact .inr ⟨subscriptions, named, answer, congrArg some new⟩
  · simp only [renewSubscriptions, context?_onContext, s, here, Option.map_some, if_pos,
      Context.renewSubscriptions_context]

/-- A set is pushed, and a renewal of it is refused. -/
def refusedRenewal : List (Move Loopback Nat) :=
  [.program .acquire, .program (.subscribe 0 ["a"]),
    .transport fun t => { t with refusal := some "down" }, .program (.renewSubscriptions 0)]

theorem refusedRenewal_told :
    (∀ move ∈ refusedRenewal, move.edits 0 = false) ∧
    ∃ context, ((start {}).after refusedRenewal).context? 0 = some context ∧
      context.subscriptions.names = told ((start {}).pushes 0 refusedRenewal) := by
  have kept : ∀ move ∈ refusedRenewal, move.edits 0 = false := by
    simp [refusedRenewal, Move.edits]
  obtain ⟨_, agrees, _⟩ := names_are_last_pushed ({} : Loopback) refusedRenewal 0 kept _ rfl
  exact ⟨kept, _, rfl, agrees (by decide)⟩

/-- The first set is refused. -/
def refusedSubscription : List (Move Loopback Nat) :=
  [.program .acquire, .transport fun t => { t with refusal := some "down" },
    .program (.subscribe 0 ["a"])]

/-- The framework was told nothing, and the refused name is subscribed. -/
theorem refusedSubscription_kept :
    (∀ move ∈ refusedSubscription, move.edits 0 = false) ∧
    told ((start {}).pushes 0 refusedSubscription) = [] ∧
    (((start {}).after refusedSubscription).context? 0).map (·.subscriptions.names) =
      some ["a"] :=
  ⟨by simp [refusedSubscription, Move.edits], by decide, by decide⟩

end Client

end EventClient
