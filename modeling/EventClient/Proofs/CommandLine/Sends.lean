import EventClient.Proofs.CommandLine.Bundles
import EventClient.Proofs.Client.Stops
import EventClient.Transport.Loopback

/-!
The send command, whose two parties act on one client: one issues the planned sends, bundle after
bundle, and the other dispatches what comes in and runs the callbacks. Whatever their order, every
completion is shown once, and the callback that shows the last one asks the loop to stop.
-/
namespace EventClient.CommandLine

open Client

variable {T : Type}

/-! ### The callbacks of commands -/

/-- What a command's callback does, as moves. -/
def taskMoves : Callbacks T Task := fun i s =>
  let s := { s with traces := s.traces ++ [{ invocation := i }] }
  .program (.keepBooks s) ::
    match i.callback with
    | .reportSend c _ total => if shownSends s = total then [.program (.requestStop c)] else []
    | .showApplications c => [.program (.requestStop c)]
    | .showEvent | .noteStatus => []

/-- The callback of a send asks its loop to stop if it shows the last of them. -/
theorem taskMoves_report (plan : SendPlan) (c : ContextId) (done : Completion)
    (s : Client T Task) :
    taskMoves (plan.report c done) s =
      .program (.keepBooks
          { s with traces := s.traces ++ [{ invocation := plan.report c done }] }) ::
        if shownSends s + 1 = plan.total then [.program (.requestStop c)] else [] := by
  have counted : shownSends { s with
      traces := s.traces ++ [{ invocation := plan.report c done }] } = shownSends s + 1 := by
    rw [shownSends, List.countP_append]
    rfl
  rw [taskMoves, counted]
  rfl

theorem shownSends_eq (s : Client T Task) :
    shownSends s = s.traced.countP fun i => isReport i.callback := by
  rw [traced, List.countP_map]
  rfl

theorem linesSince_zero (s : Client T Task) : linesSince 0 s = s.traced.flatMap lines := by
  rw [traced, List.flatMap_map]
  rfl

/-- A callback is traced, and it asks no more than that one loop stops. -/
theorem react_eq (i : Invocation Task) (s : Client T Task) :
    react i s = { s with traces := s.traces ++ [{ invocation := i }] } ∨
      ∃ c, react i s = requestStop { s with traces := s.traces ++ [{ invocation := i }] } c := by
  simp only [react]
  cases i.callback with
  | reportSend c event total =>
      dsimp only
      split
      · exact .inr ⟨c, rfl⟩
      · exact .inl rfl
  | showApplications c => exact .inr ⟨c, rfl⟩
  | showEvent | noteStatus => exact .inl rfl

theorem traced_react (i : Invocation Task) (s : Client T Task) :
    (react i s).traced = s.traced ++ [i] := by
  have shown : (react i s).traces = s.traces ++ [{ invocation := i }] := by
    rcases react_eq i s with same | ⟨c, asked⟩
    · rw [same]
    · rw [asked, requestStop, traces_updateSlot]
  rw [traced, shown, List.map_append]
  rfl

theorem shownSends_report (plan : SendPlan) (c : ContextId) (done : Completion)
    (s : Client T Task) : shownSends (react (plan.report c done) s) = shownSends s + 1 := by
  rw [shownSends_eq, traced_react, List.countP_append, ← shownSends_eq]
  rfl

theorem context?_react (i : Invocation Task) (s : Client T Task) (c : ContextId) :
    (react i s).context? c = s.context? c := by
  rcases react_eq i s with same | ⟨c', asked⟩
  · rw [same]
    rfl
  · rw [asked]
    exact context?_updateSlot _ c' (fun slot => { slot with stopRequested := true })
      (fun _ => rfl) c

variable [Transport T]

theorem after_taskMoves (i : Invocation Task) (s : Client T Task) :
    s.after (taskMoves i s) = react i s := by
  simp only [taskMoves, react, after_cons]
  cases i.callback with
  | reportSend c event total =>
      dsimp only
      split <;> rfl
  | showEvent | noteStatus | showApplications => rfl

/-! ### What shows of a run -/

/-- A send with its answer. -/
def sending? (s : Client T Task) :
    Move T Task → Option (String × Except ClientError CorrelationId)
  | .program (.send c event payload target callback userData) =>
    some (event, (s.send c event payload target callback userData).1)
  | _ => none

def sendings (s : Client T Task) (moves : List (Move T Task)) :
    List (String × Except ClientError CorrelationId) :=
  (s.history moves).filterMap fun (found, move) => sending? found move

theorem sendings_append (s : Client T Task) (first second : List (Move T Task)) :
    sendings s (first ++ second) = sendings s first ++ sendings (s.after first) second := by
  rw [sendings, history_append, List.filterMap_append]
  rfl

/-- How often the loop of a context is asked to stop. -/
def stops (s : Client T Task) (moves : List (Move T Task)) (c : ContextId) : Nat :=
  (s.history moves).countP fun (found, move) => move.stops found c

theorem stops_append (s : Client T Task) (first second : List (Move T Task)) (c : ContextId) :
    stops s (first ++ second) c = stops s first c + stops (s.after first) second c := by
  rw [stops, history_append, List.countP_append]
  rfl

theorem stops_taskMoves (plan : SendPlan) (c : ContextId) (done : Completion)
    (s : Client T Task) :
    stops s (taskMoves (plan.report c done) s) c =
      if shownSends s + 1 = plan.total then 1 else 0 := by
  rw [taskMoves_report, stops, history, List.countP_cons]
  split
  · simp [history, Move.stops]
  · rfl

theorem invoked_single (s : Client T Task) (move : Move T Task) :
    invoked (s.events [move]) = ((move.event? s).bind Event.invocation?).toList := by
  cases leads : move.event? s with
  | none => simp [events, history, leads, invoked]
  | some e =>
      cases i : e.invocation? <;> simp [events, history, leads, invoked, i]

/-! ### The two parties -/

/-- How far a send command has come. -/
structure Sending (T : Type) where
  client : Client T Task
  /-- The bundles that were begun. -/
  bundles : Nat := 0
  /-- What is left of the last of them. -/
  rest : List String := []
  /-- The completions that were dispatched and whose callbacks did not run yet. -/
  called : List (Invocation Task) := []

omit [Transport T] in
/-- How many sends were issued. -/
def Sending.issued (plan : SendPlan) (now : Sending T) : Nat :=
  plan.events.length * now.bundles - now.rest.length

/-- What neither party decides, or is no more than the bookkeeping of a loop: notifications arrive,
the transport changes, and a loop has the channel and takes from it. -/
def IsAround (s : Client T Task) : Move T Task → Prop
  | .deliver .. | .transport _ => True
  | .program (.lease _) | .program (.giveBack _) | .program (.forgetStop _)
  | .program (.takeNext _) => True
  | .program (.keepBooks books) => books.traces = s.traces
  | .program _ => False

/-- One step of a send command, with the moves that it is made of. A send is issued only where all
before it were, and any callback may run that was called and did not yet. -/
inductive Step (plan : SendPlan) (c : ContextId) (now : Sending T) :
    List (Move T Task) → Sending T → Prop
  | bundle (idle : now.rest = []) (more : now.bundles < plan.count) :
      Step plan c now [] { now with bundles := now.bundles + 1, rest := plan.events }
  | issue {event : String} {rest : List String} {id : CorrelationId}
      (next : now.rest = event :: rest)
      (answer : (now.client.send c event plan.payload plan.target
        (.reportSend c event plan.total) none).1 = .ok id) :
      Step plan c now
        [.program (.send c event plan.payload plan.target (.reportSend c event plan.total) none)]
        { now with
          client := (now.client.send c event plan.payload plan.target
            (.reportSend c event plan.total) none).2
          rest }
  | route (n : Notification) :
      Step plan c now [.program (.route c n)]
        { now with
          client := (now.client.route c n).2
          called := now.called ++
            (Event.dispatched c n (now.client.route c n).1).invocation?.toList }
  | callback {before after : List (Invocation Task)} {i : Invocation Task}
      (called : now.called = before ++ i :: after) :
      Step plan c now (taskMoves i now.client)
        { now with client := react i now.client, called := before ++ after }
  | around {move : Move T Task} (around : IsAround now.client move) :
      Step plan c now [move] { now with client := move.apply now.client }

/-- Steps of a send command, in any order. -/
inductive Goes (plan : SendPlan) (c : ContextId) (begun : Sending T) :
    List (Move T Task) → Sending T → Prop
  | nil : Goes plan c begun [] begun
  | step {moves moves' : List (Move T Task)} {now next : Sending T}
      (goes : Goes plan c begun moves now) (step : Step plan c now moves' next) :
      Goes plan c begun (moves ++ moves') next

/-! ### The books of a command -/

/-- How a send command stands after some moves, by the completions that were shown, the ones whose
callbacks are under way, and the sends that still wait. -/
structure Tally (plan : SendPlan) (c : ContextId) (s : Client T Task) (moves : List (Move T Task))
    (now : Sending T) (shown under : List Completion) (waiting : List Nat) : Prop where
  client : now.client = s.after moves
  bundles : now.bundles ≤ plan.count
  rest : now.rest <:+ plan.events
  begun : now.bundles = 0 → now.rest = []
  context : ∃ context, now.client.context? c = some context ∧
    Holds plan c context (now.issued plan) waiting
  /-- Every send that was issued was answered or waits, and none is two of these. -/
  each : ((shown ++ under).map (·.1) ++ waiting).Perm (List.range (now.issued plan))
  traced : now.client.traced = shown.map (plan.report c)
  called : now.called = under.map (plan.report c)
  invoked : (invoked (s.events moves)).Perm ((shown ++ under).map (plan.report c))
  sendings : sendings s moves =
    (List.range (now.issued plan)).map fun k => (plan.event k, .ok (.nth k))
  stops : stops s moves c = if shown.length = plan.total then 1 else 0

/-- Nothing of it concerns the sends. -/
theorem around_apply {s : Client T Task} {move : Move T Task} (around : IsAround s move)
    (c : ContextId) :
    (move.apply s).context? c = s.context? c ∧ (move.apply s).traced = s.traced ∧
      sending? s move = none ∧ move.event? s = none ∧ move.stops s c = false := by
  have context : (move.apply s).context? c = s.context? c := by
    rcases context?_apply s move c with same | ⟨rfl, -⟩
    · rw [same]
      cases move with
      | deliver | transport => exact Option.map_id'
      | program act =>
          cases act with
          | lease | giveBack | forgetStop | takeNext | keepBooks => exact Option.map_id'
          | _ => cases around
    · cases around
  have traces : (move.apply s).traces = s.traces := by
    cases move with
    | deliver c' n => exact traces_deliver s c' n
    | transport => rfl
    | program act =>
        cases act with
        | lease c' => exact traces_lease s c'
        | giveBack | forgetStop => exact traces_updateSlot ..
        | takeNext c' =>
            simp only [Move.apply, Act.apply, nextNotification?]
            cases s.slot? c' with
            | none => rfl
            | some slot =>
                dsimp only
                cases slot.queue <;> rfl
        | keepBooks => exact around
        | _ => cases around
  refine ⟨context, congrArg (List.map Trace.invocation) traces, ?_⟩
  cases move with
  | deliver | transport => exact ⟨rfl, rfl, rfl⟩
  | program act =>
      cases act with
      | lease | giveBack | forgetStop | takeNext | keepBooks => exact ⟨rfl, rfl, rfl⟩
      | _ => cases around

namespace Tally

variable {plan : SendPlan} {c : ContextId} {s : Client T Task} {moves : List (Move T Task)}
  {now : Sending T} {shown under : List Completion} {waiting : List Nat}

theorem count (tally : Tally plan c s moves now shown under waiting) :
    shown.length + under.length + waiting.length = now.issued plan := by
  have lengths := tally.each.length_eq
  rwa [List.length_append, List.length_map, List.length_append, List.length_range] at lengths

theorem issued_le (tally : Tally plan c s moves now shown under waiting) :
    now.issued plan ≤ plan.total := by
  have bundles := Nat.mul_le_mul_left plan.events.length tally.bundles
  rw [Sending.issued, SendPlan.total]
  omega

theorem shownSends (tally : Tally plan c s moves now shown under waiting) :
    CommandLine.shownSends now.client = shown.length := by
  rw [shownSends_eq, tally.traced, List.countP_map]
  exact List.countP_eq_length.mpr fun _ _ => rfl

/-- Once as many completions were shown as sends were planned, nothing is left to be done. -/
theorem complete (tally : Tally plan c s moves now shown under waiting)
    (planned : 0 < plan.total) (all : shown.length = plan.total) :
    now.issued plan = plan.total ∧ now.bundles = plan.count ∧ now.rest = [] ∧ under = [] ∧
      waiting = [] := by
  have count := tally.count
  have most := tally.issued_le
  have issued : now.issued plan = plan.total := by omega
  have bundles := Nat.mul_le_mul_left plan.events.length tally.bundles
  have whole := issued
  rw [Sending.issued, SendPlan.total] at whole
  rw [SendPlan.total] at planned
  have rest : now.rest = [] := List.length_eq_zero_iff.mp (by omega)
  rw [rest, List.length_nil, Nat.sub_zero] at whole
  exact ⟨issued, Nat.eq_of_mul_eq_mul_left (Nat.pos_of_mul_pos_right planned) whole, rest,
    List.length_eq_zero_iff.mp (by omega), List.length_eq_zero_iff.mp (by omega)⟩

/-- Every completion was shown on one line. -/
theorem lines (tally : Tally plan c s moves now shown under waiting) :
    linesSince 0 now.client = shown.map fun done => sendLine (plan.event done.1) done.2 := by
  rw [linesSince_zero, tally.traced, List.flatMap_map, List.map_eq_flatMap]
  simp only [lines_report]

/-! ### One step -/

theorem begin (fresh : s.context? c = some {}) (untraced : s.traces = [])
    (planned : 0 < plan.total) : Tally plan c s [] { client := s } [] [] [] where
  client := rfl
  bundles := Nat.zero_le _
  rest := List.nil_suffix
  begun _ := rfl
  context := ⟨{}, fresh, holds_fresh plan c⟩
  each := .refl _
  traced := by
    rw [Client.traced, untraced]
    rfl
  called := rfl
  invoked := .refl _
  sendings := rfl
  stops := (if_neg (Nat.ne_of_lt planned)).symm

theorem bundle (tally : Tally plan c s moves now shown under waiting) (idle : now.rest = [])
    (more : now.bundles < plan.count) :
    Tally plan c s moves { now with bundles := now.bundles + 1, rest := plan.events } shown under
      waiting := by
  have issued : Sending.issued plan { now with bundles := now.bundles + 1, rest := plan.events } =
      now.issued plan := by
    rw [Sending.issued, Sending.issued, idle, Nat.mul_succ, Nat.add_sub_cancel]
    rfl
  exact { tally with
    bundles := more
    rest := List.suffix_refl _
    begun := nofun
    context := by rw [issued]; exact tally.context
    each := by rw [issued]; exact tally.each
    sendings := by rw [issued]; exact tally.sendings }

/-- What the steps of other parties leave: only the client is another. -/
theorem around (tally : Tally plan c s moves now shown under waiting) {move : Move T Task}
    (around : IsAround now.client move) :
    Tally plan c s (moves ++ [move]) { now with client := move.apply now.client } shown under
      waiting := by
  obtain ⟨context, traced, unsent, eventless, unstopped⟩ := around_apply around c
  have after := tally.client
  exact { tally with
    client := by
      rw [after_append, ← after]
      rfl
    context := by
      rw [context]
      exact tally.context
    traced := traced.trans tally.traced
    invoked := by
      have nothing : (s.after moves).events [move] = [] := by
        rw [events_cons, ← after, eventless]
        rfl
      rw [events_append, nothing, List.append_nil]
      exact tally.invoked
    sendings := by
      have nothing : CommandLine.sendings (s.after moves) [move] = [] := by
        simp [CommandLine.sendings, history, ← after, unsent]
      rw [sendings_append, nothing, List.append_nil]
      exact tally.sendings
    stops := by
      have nothing : CommandLine.stops (s.after moves) [move] c = 0 := by
        simp [CommandLine.stops, history, ← after, unstopped]
      rw [stops_append, nothing, Nat.add_zero]
      exact tally.stops }

theorem issue (tally : Tally plan c s moves now shown under waiting) {event : String}
    {rest : List String} {id : CorrelationId} (next : now.rest = event :: rest)
    (answer : (now.client.send c event plan.payload plan.target
      (.reportSend c event plan.total) none).1 = .ok id) :
    Tally plan c s
      (moves ++ [.program (.send c event plan.payload plan.target
        (.reportSend c event plan.total) none)])
      { now with
        client := (now.client.send c event plan.payload plan.target
          (.reportSend c event plan.total) none).2
        rest } shown under (now.issued plan :: waiting) := by
  have after := tally.client
  have left : event :: rest <:+ plan.events := next ▸ tally.rest
  obtain ⟨bundles, begun⟩ : ∃ bundles, now.bundles = bundles + 1 :=
    Nat.exists_eq_succ_of_ne_zero fun none => by
      have nothing := tally.begun none
      rw [next] at nothing
      cases nothing
  -- The event is the one that is due.
  have due : plan.event (now.issued plan) = event := by
    rw [Sending.issued, begun, next]
    exact SendPlan.event_of_rest left bundles
  have counted : Sending.issued plan { now with
      client := (now.client.send c event plan.payload plan.target
        (.reportSend c event plan.total) none).2
      rest } = now.issued plan + 1 := by
    have bound := left.length_le
    simp only [Sending.issued, next, begun, List.length_cons, Nat.mul_succ] at bound ⊢
    omega
  obtain ⟨context, here, holds⟩ := tally.context
  have result : (context.send now.client.transport event plan.payload plan.target
      (.reportSend c event plan.total) none).result = .ok id := by
    rw [← answer, Client.send, onContext_result here]
  obtain ⟨nth, holds⟩ : id = .nth (now.issued plan) ∧ Holds plan c
      (context.send now.client.transport event plan.payload plan.target
        (.reportSend c event plan.total) none).context (now.issued plan + 1)
      (now.issued plan :: waiting) := by
    rw [← due] at result ⊢
    exact holds.send result
  exact { tally with
    client := by
      rw [after_append, ← after]
      rfl
    rest := (List.suffix_cons event rest).trans left
    begun := fun none => absurd (begun.symm.trans none) (Nat.succ_ne_zero _)
    context := by
      refine ⟨_, ?_, by rw [counted]; exact holds⟩
      refine (context?_onContext ..).trans ?_
      rw [here, Option.map_some, if_pos rfl]
    each := by
      rw [counted, List.range_succ]
      exact List.perm_middle.trans ((tally.each.cons _).trans (List.perm_append_singleton ..).symm)
    traced := (congrArg (List.map Trace.invocation) (traces_onContext ..)).trans tally.traced
    invoked := by
      have nothing : Client.invoked ((s.after moves).events [.program (.send c event plan.payload
          plan.target (.reportSend c event plan.total) none)]) = [] := by
        rw [invoked_single, ← after, Move.event?, here, Option.bind_some]
        cases context.checkSend event plan.payload plan.target <;> rfl
      rw [events_append, invoked_append, nothing, List.append_nil]
      exact tally.invoked
    sendings := by
      rw [counted, List.range_succ, List.map_append, sendings_append, tally.sendings, ← after]
      simp only [CommandLine.sendings, history, List.filterMap_cons, sending?, answer]
      rw [nth, ← due]
      rfl
    stops := by
      rw [stops_append, tally.stops]
      rfl }

/-- A dispatch answers a send that waits, or it changes nothing for the sends. -/
theorem route (tally : Tally plan c s moves now shown under waiting) (n : Notification) :
    ∃ under' waiting', Tally plan c s (moves ++ [.program (.route c n)])
      { now with
        client := (now.client.route c n).2
        called := now.called ++
          (Event.dispatched c n (now.client.route c n).1).invocation?.toList }
      shown under' waiting' := by
  have after := tally.client
  obtain ⟨context, here, holds⟩ := tally.context
  have outcome : (now.client.route c n).1 = (context.route c n).1 := by
    rw [route_outcome, here]
  have left : (now.client.route c n).2.context? c = some (context.route c n).2 := by
    rw [context?_route, here, Option.map_some, if_pos rfl]
  have leads : Client.invoked ((s.after moves).events [.program (.route c n)]) =
      (Event.dispatched c n (now.client.route c n).1).invocation?.toList := by
    rw [invoked_single, ← after]
    rfl
  have answered (under' : List Completion) (waiting' : List Nat)
      (holds : Holds plan c (context.route c n).2 (now.issued plan) waiting')
      (each : ((shown ++ under').map (·.1) ++ waiting').Perm (List.range (now.issued plan)))
      (reports : under'.map (plan.report c) = under.map (plan.report c) ++
        (Event.dispatched c n (now.client.route c n).1).invocation?.toList) :
      Tally plan c s (moves ++ [.program (.route c n)])
        { now with
          client := (now.client.route c n).2
          called := now.called ++
            (Event.dispatched c n (now.client.route c n).1).invocation?.toList }
        shown under' waiting' :=
    { tally with
      client := by
        rw [after_append, ← after]
        rfl
      context := ⟨_, left, holds⟩
      each := each
      traced := (congrArg (List.map Trace.invocation) (traces_route ..)).trans tally.traced
      called := by rw [reports, tally.called]
      invoked := by
        rw [events_append, invoked_append, leads, List.map_append, reports, ← List.append_assoc,
          ← List.map_append]
        exact tally.invoked.append_right _
      sendings := by
        rw [sendings_append, tally.sendings]
        exact List.append_nil _
      stops := by
        rw [stops_append, tally.stops]
        rfl }
  rcases holds.route n with ⟨k, mem, result, rfl, reports, holds⟩ | ⟨nothing, same⟩
  · refine ⟨under ++ [(k, result)], waiting.erase k, answered _ _ holds ?_ ?_⟩
    · rw [← List.append_assoc, List.map_append, List.append_assoc]
      exact ((List.perm_cons_erase mem).symm.append_left _).trans tally.each
    · rw [outcome, reports, List.map_append]
      rfl
  · refine ⟨under, waiting, answered _ _ (by rwa [same]) tally.each ?_⟩
    have none : (Event.dispatched c n (now.client.route c n).1).invocation? = none := by
      rw [outcome]
      cases leads : (context.route c n).1 with
      | error e => rfl
      | ok i =>
          cases i with
          | none => rfl
          | some i => exact absurd leads (nothing i)
    rw [none]
    exact (List.append_nil _).symm

/-- A callback shows its completion. If it is the last, the loop is asked to stop. -/
theorem callback (tally : Tally plan c s moves now shown under waiting)
    {before after : List (Invocation Task)} {i : Invocation Task}
    (called : now.called = before ++ i :: after) :
    ∃ done under', Tally plan c s (moves ++ taskMoves i now.client)
      { now with client := react i now.client, called := before ++ after }
      (shown ++ [done]) under' waiting := by
  have found := tally.client
  obtain ⟨first, rest, rfl, reports, reports'⟩ :=
    List.map_eq_append_iff.mp (tally.called.symm.trans called)
  obtain ⟨done, last, rfl, rfl, reports''⟩ := List.map_eq_cons_iff.mp reports'
  have moved : (shown ++ [done] ++ (first ++ last)).Perm (shown ++ (first ++ done :: last)) := by
    have middle : (first ++ done :: last).Perm (done :: (first ++ last)) := List.perm_middle
    rw [List.append_assoc]
    exact middle.symm.append_left shown
  refine ⟨done, first ++ last, { tally with
    client := ?client
    context := ?context
    each := ((moved.map _).append_right _).trans tally.each
    traced := ?traced
    called := ?called
    invoked := ?invoked
    sendings := ?sendings
    stops := ?stops }⟩
  case client => rw [after_append, ← found, after_taskMoves]
  case context =>
    rw [context?_react]
    exact tally.context
  case traced =>
    rw [traced_react, tally.traced, List.map_append]
    rfl
  case called => rw [List.map_append, reports, reports'']
  case invoked =>
    have nothing : Client.invoked ((s.after moves).events
        (taskMoves (plan.report c done) now.client)) = [] := by
      rw [taskMoves_report]
      split <;> rfl
    rw [events_append, invoked_append, nothing, List.append_nil]
    exact tally.invoked.trans (moved.map _).symm
  case sendings =>
    have nothing : CommandLine.sendings (s.after moves)
        (taskMoves (plan.report c done) now.client) = [] := by
      rw [taskMoves_report]
      split <;> rfl
    rw [sendings_append, tally.sendings, nothing, List.append_nil]
    rfl
  case stops =>
    have count := tally.count
    have most := tally.issued_le
    rw [List.length_append, List.length_cons] at count
    have early : shown.length ≠ plan.total := by omega
    rw [stops_append, tally.stops, if_neg early, Nat.zero_add, ← found, stops_taskMoves,
      tally.shownSends, List.length_append, List.length_singleton]

theorem step (tally : Tally plan c s moves now shown under waiting)
    {moves' : List (Move T Task)} {next : Sending T} (step : Step plan c now moves' next) :
    ∃ shown' under' waiting', shown <+: shown' ∧
      Tally plan c s (moves ++ moves') next shown' under' waiting' := by
  cases step with
  | bundle idle more =>
      rw [List.append_nil]
      exact ⟨_, _, _, List.prefix_refl _, tally.bundle idle more⟩
  | issue next answer => exact ⟨_, _, _, List.prefix_refl _, tally.issue next answer⟩
  | route n =>
      obtain ⟨under', waiting', tally'⟩ := tally.route n
      exact ⟨_, _, _, List.prefix_refl _, tally'⟩
  | callback called =>
      obtain ⟨done, under', tally'⟩ := tally.callback called
      exact ⟨_, _, _, List.prefix_append _ _, tally'⟩
  | around around => exact ⟨_, _, _, List.prefix_refl _, tally.around around⟩

end Tally

/-! ### Whole runs -/

theorem tally_of_goes {plan : SendPlan} {c : ContextId} {s : Client T Task}
    {moves : List (Move T Task)} {now : Sending T} (fresh : s.context? c = some {})
    (untraced : s.traces = []) (planned : 0 < plan.total)
    (goes : Goes plan c { client := s } moves now) :
    ∃ shown under waiting, Tally plan c s moves now shown under waiting := by
  induction goes with
  | nil => exact ⟨_, _, _, .begin fresh untraced planned⟩
  | step goes step ih =>
      obtain ⟨shown, under, waiting, tally⟩ := ih
      obtain ⟨shown', under', waiting', -, tally'⟩ := tally.step step
      exact ⟨_, _, _, tally'⟩

/-- However the sends of a plan, the dispatches and the callbacks are interleaved: the sends that
were issued are the first ones of the plan, each for the event that is due and with the next id;
each was answered once, and then its own event was shown on one line with its own result or its
callback is about to do so, or it waits, and then its completion will call its callback; and the
loop was asked to stop once if as many completions were shown as sends are planned, and then there
is nothing left to issue, to answer or to show, and else never. So the request is made in the very
step that shows the last completion. -/
theorem stop_follows_last_completion {plan : SendPlan} (planned : plan.events ≠ [])
    (positive : 0 < plan.count) {s : Client T Task} {c : ContextId}
    (fresh : s.context? c = some {}) (untraced : s.traces = []) {moves : List (Move T Task)}
    {now : Sending T} (goes : Goes plan c { client := s } moves now) :
    let issued := now.issued plan
    let count := shownSends now.client
    (∀ k, plan.events[k % plan.events.length]? = some (plan.event k)) ∧
    sendings s moves = (List.range issued).map (fun k => (plan.event k, .ok (.nth k))) ∧
    (plan.total ≤ UInt64.size → ∀ k < issued, (CorrelationId.nth k).value.toNat = k) ∧
    (∃ (shown under : List Completion) (waiting : List Nat),
      ((shown ++ under).map (·.1) ++ waiting).Perm (List.range issued) ∧
      (invoked (s.events moves)).Perm ((shown ++ under).map (plan.report c)) ∧
      linesSince 0 now.client = shown.map (fun done => sendLine (plan.event done.1) done.2) ∧
      now.called = under.map (plan.report c) ∧
      (∀ k ∈ waiting, ∀ result, (now.client.route c (.sendCompleted (.nth k) result)).1 =
        .ok (some (plan.report c (k, result)))) ∧
      count = shown.length ∧
      (0 < stops s moves c → issued = plan.total ∧ now.bundles = plan.count ∧ now.rest = [] ∧
        under = [] ∧ waiting = [])) ∧
    count ≤ issued ∧ issued ≤ plan.total ∧
    stops s moves c = (if count = plan.total then 1 else 0) ∧
    ∀ moves' next, Step plan c now moves' next → stops now.client moves' c =
      if count < plan.total ∧ shownSends next.client = plan.total then 1 else 0 := by
  intro issued count
  have total : 0 < plan.total := Nat.mul_pos (List.length_pos_iff.mpr planned) positive
  obtain ⟨shown, under, waiting, tally⟩ := tally_of_goes fresh untraced total goes
  obtain ⟨context, here, holds⟩ := tally.context
  have counted : count = shown.length := tally.shownSends
  have most := tally.issued_le
  have parts := tally.count
  refine ⟨SendPlan.event_eq planned, tally.sendings, fun small k below => ?ids,
    ⟨shown, under, waiting, tally.each, tally.invoked, tally.lines, tally.called,
      fun k mem result => ?waits, counted, fun stopped => ?complete⟩,
    by omega, most, by rw [counted]; exact tally.stops, fun moves' next step => ?last⟩
  case ids => exact CorrelationId.toNat_nth (by omega)
  case waits =>
    rw [route_outcome, here]
    exact holds.route_waiting mem result
  case complete =>
    refine tally.complete total (Decidable.byContradiction fun more => ?_)
    rw [tally.stops, if_neg more] at stopped
    exact Nat.lt_irrefl 0 stopped
  case last =>
    obtain ⟨shown', under', waiting', more, tally'⟩ := tally.step step
    have longer := more.length_le
    have parts' := tally'.count
    have most' := tally'.issued_le
    have requests := tally'.stops
    rw [stops_append, tally.stops, ← tally.client] at requests
    rw [tally'.shownSends, counted]
    split at requests <;> split at requests <;> split <;> omega

/-- Two bundles of one send. -/
def twoPings : SendPlan :=
  { events := ["ping"], payload := "{}", target := { appId := some "a" }, count := 2
    intervalMs := 0 }

/-- The second send is issued while the callback of the first is under way, and the second callback
runs before the first. -/
theorem twoPings_stop_once :
    let s : Client Loopback Task := (Client.start {}).acquire.2
    twoPings.events ≠ [] ∧ 0 < twoPings.count ∧ s.context? 0 = some {} ∧ s.traces = [] ∧
      ∃ moves now, Goes twoPings 0 { client := s } moves now ∧ shownSends now.client = 2 ∧
        stops s moves 0 = 1 := by
  intro s
  have planned : twoPings.events ≠ [] := List.cons_ne_nil _ _
  have positive : 0 < twoPings.count := by decide
  have fresh : s.context? 0 = some {} := rfl
  have untraced : s.traces = [] := rfl
  have first : Goes twoPings 0 { client := s } _ _ :=
    ((Goes.nil.step (.bundle rfl (by decide))).step (.issue rfl rfl)).step
      (.route (.sendCompleted ⟨0⟩ ⟨7, 0, ""⟩))
  have second := ((first.step (.bundle rfl (by decide))).step (.issue rfl rfl)).step
      (.route (.sendCompleted ⟨1⟩ ⟨0, 3, "gone"⟩))
  have swapped := second.step (.callback
    (show _ = [twoPings.report 0 (0, ⟨7, 0, ""⟩)] ++
      twoPings.report 0 (1, ⟨0, 3, "gone"⟩) :: [] from rfl))
  have goes := swapped.step (.callback
    (show _ = [] ++ twoPings.report 0 (0, ⟨7, 0, ""⟩) :: [] from rfl))
  have stopped := (stop_follows_last_completion planned positive fresh untraced goes).2.2.2.2.2.2.1
  refine ⟨planned, positive, fresh, untraced, _, _, goes, ?both, stopped.trans (if_pos ?both)⟩
  case both =>
    rw [shownSends_report, shownSends_report]
    rfl

end EventClient.CommandLine
