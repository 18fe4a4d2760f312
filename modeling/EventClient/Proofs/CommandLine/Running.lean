import EventClient.Proofs.CommandLine.Sends
import EventClient.Proofs.Client.Polling

/-!
The send command as it is run: it issues its first bundle and starts its loop, and then polls of the
loop, later bundles and what comes in alternate. Each of these is steps of the two parties, so the
books of the command hold of it, and the loop finishes exactly with the last completion.
-/
namespace EventClient.CommandLine

open Client

variable {T : Type} [Transport T] {plan : SendPlan} {c : ContextId}

theorem Goes.trans {begun now next : Sending T} {moves moves' : List (Move T Task)}
    (goes : Goes plan c begun moves now) (goes' : Goes plan c now moves' next) :
    Goes plan c begun (moves ++ moves') next := by
  induction goes' with
  | nil => rwa [List.append_nil]
  | step goes' step ih =>
      rw [← List.append_assoc]
      exact ih.step step

/-- Some steps lead from one state of a send command to another, and none of them gives the channel
back or makes a stop request forgotten. -/
def Leads (plan : SendPlan) (c : ContextId) (begun now : Sending T) : Prop :=
  ∃ moves, Goes plan c begun moves now ∧ .program (.giveBack c) ∉ moves ∧
    .program (.forgetStop c) ∉ moves

namespace Leads

variable {begun now : Sending T}

theorem refl (now : Sending T) : Leads plan c now now := ⟨[], .nil, by simp, by simp⟩

theorem step (leads : Leads plan c begun now) {moves : List (Move T Task)} {next : Sending T}
    (step : Step plan c now moves next) (held : .program (.giveBack c) ∉ moves)
    (remembered : .program (.forgetStop c) ∉ moves) : Leads plan c begun next := by
  obtain ⟨earlier, goes, held', remembered'⟩ := leads
  refine ⟨_, goes.step step, ?_, ?_⟩
  · exact fun gives => (List.mem_append.mp gives).elim held' held
  · exact fun forgets => (List.mem_append.mp forgets).elim remembered' remembered

theorem around (leads : Leads plan c begun now) (move : Move T Task)
    (around : IsAround now.client move) (held : move ≠ .program (.giveBack c))
    (remembered : move ≠ .program (.forgetStop c)) :
    Leads plan c begun { now with client := move.apply now.client } :=
  leads.step (.around around) (fun gives => held (List.mem_singleton.mp gives).symm)
    fun forgets => remembered (List.mem_singleton.mp forgets).symm

theorem noted (leads : Leads plan c begun now) (entries : List Entry) :
    Leads plan c begun { now with client := now.client.note entries } :=
  leads.around (now.client.noted entries) rfl (by simp [Client.noted]) (by simp [Client.noted])

/-- The callback of the only completion that was dispatched runs. -/
theorem callback (leads : Leads plan c begun now) {i : Invocation Task}
    (called : now.called = [i]) :
    Leads plan c begun { now with client := react i now.client, called := [] } := by
  have step : Step plan c now (taskMoves i now.client)
      { now with client := react i now.client, called := [] ++ [] } := .callback called
  refine leads.step step ?_ ?_
  all_goals
    rw [taskMoves]
    cases i.callback <;> simp

/-- The sends that are left of a bundle, one after another. -/
theorem sendEvents (leads : Leads plan c begun now)
    (accepted : (sendEvents c plan now.rest now.client).1 = .ok ()) :
    Leads plan c begun
      { now with client := (CommandLine.sendEvents c plan now.rest now.client).2, rest := [] } := by
  obtain ⟨client, bundles, rest, called⟩ := now
  induction rest generalizing client with
  | nil => exact leads
  | cons event rest ih =>
      simp only [CommandLine.sendEvents] at accepted ⊢
      cases sent : client.send c event plan.payload plan.target
        (.reportSend c event plan.total) none with
      | mk answer client' =>
      rw [sent] at accepted
      cases answer with
      | error e => cases accepted
      | ok id =>
          have issued := leads.step (.issue rfl (congrArg Prod.fst sent)) (by simp) (by simp)
          rw [sent] at issued
          exact ih client' issued accepted

theorem sendBundle (leads : Leads plan c begun now) (idle : now.rest = [])
    (more : now.bundles < plan.count) (accepted : (sendBundle c plan now.client).1 = .ok ()) :
    Leads plan c begun
      { now with
        client := (CommandLine.sendBundle c plan now.client).2
        bundles := now.bundles + 1 } := by
  obtain ⟨client, bundles, rest, called⟩ := now
  cases idle
  exact (leads.step (.bundle rfl more) (by simp) (by simp)).sendEvents accepted

/-- The oldest notification is taken off the channel. -/
theorem taken (leads : Leads plan c begun now) {n : Notification} {client : Client T Task}
    (found : now.client.nextNotification? c = some (n, client)) :
    Leads plan c begun { now with client } := by
  rw [← (queue_of_found found).2]
  exact leads.around (.program (.takeNext c)) trivial (by simp) (by simp)

/-- A dispatch runs the callback that it leads to at once. -/
theorem dispatch {client : Client T Task} {bundles : Nat}
    (leads : Leads plan c begun { client, bundles }) (n : Notification) :
    Leads plan c begun { client := (client.dispatch react c n).2, bundles } := by
  have routed := leads.step (.route n) (by simp) (by simp)
  simp only [Client.dispatch] at routed ⊢
  cases route : client.route c n with
  | mk answer client' =>
  rw [route] at routed
  cases answer with
  | error e => exact routed
  | ok invocation =>
      cases invocation with
      | none => exact routed
      | some i => exact routed.callback rfl

end Leads

theorem traces_sendEvents (plan : SendPlan) (c : ContextId) (events : List String)
    (s : Client T Task) : (sendEvents c plan events s).2.traces = s.traces := by
  induction events generalizing s with
  | nil => rfl
  | cons event events ih =>
      have sent : (s.send c event plan.payload plan.target
        (.reportSend c event plan.total) none).2.traces = s.traces := traces_onContext ..
      simp only [sendEvents]
      split
      · next h =>
          rw [h] at sent
          exact (ih _).trans sent
      · next h => rwa [h] at sent

/-! ### Its loop -/

/-- The loop of a send command, where it was started and nothing was shown yet. -/
structure Started (plan : SendPlan) (c : ContextId) (s : Client T Task) (begun : Sending T) :
    Prop where
  fresh : s.context? c = some {}
  untraced : s.traces = []
  planned : 0 < plan.total
  goes : ∃ moves, Goes plan c { client := s } moves begun
  leased : begun.client.isLeased c = true
  unasked : begun.client.isStopRequested c = false
  unshown : begun.client.traces = []

theorem stopped_iff (s : Client T Task) (moves : List (Move T Task)) (c : ContextId) :
    s.stopped moves c = true ↔ 0 < stops s moves c := by
  rw [stopped, stops, List.any_eq_true, List.countP_pos_iff]

omit [Transport T] in
theorem queued_eq (s : Client T Task) (c : ContextId) : s.queued c = (s.queue c).length := by
  rw [queued, queue]
  cases s.slot? c <;> rfl

omit [Transport T] in
theorem queue_react (i : Invocation Task) (s : Client T Task) (c : ContextId) :
    (react i s).queue c = s.queue c := by
  rcases react_eq i s with same | ⟨c', asked⟩
  · rw [same]
    rfl
  · rw [asked]
    exact queue_of_update (slot?_updateSlot ..) fun _ => rfl

omit [Transport T] in
theorem queue_dispatch (s : Client T Task) (n : Notification) (c : ContextId) :
    (s.dispatch react c n).2.queue c = s.queue c := by
  rw [dispatch_leaves]
  split
  · rw [queue_react, queue_route]
  · exact queue_route s c n c
  · exact queue_route s c n c

omit [Transport T] in
/-- A dispatch that fails leaves the stop requests as they were. -/
theorem isStopRequested_failed {s taken left : Client T Task} {n : Notification} {e : ClientError}
    (found : s.nextNotification? c = some (n, taken))
    (fails : taken.dispatch react c n = (.error e, left)) :
    left.isStopRequested c = s.isStopRequested c := by
  have taking := isStopRequested_of_update (slot?_takeNext s c c) fun _ => rfl
  have routing := isStopRequested_route taken c n c
  simp only [found, Option.map_some, Option.getD_some] at taking
  simp only [dispatch] at fails
  cases route : taken.route c n with
  | mk answer routed =>
  rw [route] at fails routing
  cases answer with
  | error e' =>
      cases fails
      exact routing.trans taking
  | ok invocation => cases invocation <;> cases fails

namespace Started

variable {s : Client T Task} {begun now : Sending T}

/-- It is started behind the first bundle, of which nothing was shown yet. -/
theorem of_startLoop (fresh : s.context? c = some {}) (untraced : s.traces = [])
    (planned : 0 < plan.total) (leads : Leads plan c { client := s } now)
    (unshown : now.client.traces = []) {client : Client T Task}
    (starts : now.client.startLoop c = (.ok (), client)) :
    Started plan c s { now with client } := by
  obtain ⟨leased, unasked⟩ := startLoop_begins starts
  obtain ⟨moves, goes, -⟩ := leads
  have granted := goes.step (.around (show IsAround now.client (.program (.lease c)) from trivial))
  have leasing := traces_lease now.client c
  simp only [Client.startLoop] at starts
  cases lease : now.client.lease c with
  | mk answer s₁ =>
  rw [Move.apply, Act.apply, lease] at granted
  rw [lease] at starts leasing
  cases answer with
  | error e => cases starts
  | ok _ =>
      cases starts
      have forgot := granted.step (.around (show IsAround s₁ (.program (.forgetStop c)) from trivial))
      have noted := forgot.step (.around
        (show IsAround (Act.apply s₁ (.forgetStop c))
          ((Act.apply s₁ (.forgetStop c)).noted [.loopStarted]) from rfl))
      exact {
        fresh, untraced, planned, leased, unasked
        goes := ⟨_, noted⟩
        unshown := (traces_updateSlot ..).trans (leasing.trans unshown) }

theorem tally (started : Started plan c s begun) (leads : Leads plan c begun now) :
    ∃ moves shown under waiting, Tally plan c s moves now shown under waiting := by
  obtain ⟨before, goes⟩ := started.goes
  obtain ⟨moves, goes', -⟩ := leads
  exact ⟨_, tally_of_goes started.fresh started.untraced started.planned (goes.trans goes')⟩

/-- The loop knows of a stop request exactly once all planned sends were shown. -/
theorem asked (started : Started plan c s begun) (leads : Leads plan c begun now) :
    now.client.isStopRequested c = true ↔ shownSends now.client = plan.total := by
  obtain ⟨before, goes⟩ := started.goes
  obtain ⟨moves, goes', held, remembered⟩ := leads
  obtain ⟨_, _, _, first⟩ := tally_of_goes started.fresh started.untraced started.planned goes
  obtain ⟨shown, _, _, whole⟩ :=
    tally_of_goes started.fresh started.untraced started.planned (goes.trans goes')
  have none : shownSends begun.client = 0 := by
    rw [shownSends, started.unshown]
    rfl
  have early : stops s before c = 0 := by
    rw [first.stops, ← first.shownSends, none, if_neg (Nat.ne_of_lt started.planned)]
  have requests := whole.stops
  rw [stops_append, early, Nat.zero_add, ← first.client] at requests
  have since : now.client = begun.client.after moves := by
    rw [whole.client, after_append, ← first.client]
  rw [whole.shownSends, since, isStopRequested_after started.leased held remembered,
    started.unasked, Bool.false_or, stopped_iff, requests]
  split <;> simp [*]

/-- The context of the command is not released. -/
theorem unreleased (started : Started plan c s begun) (leads : Leads plan c begun now) :
    now.client.isReleased c = false := by
  obtain ⟨_, _, _, _, tally⟩ := started.tally leads
  obtain ⟨context, here, holds⟩ := tally.context
  obtain ⟨slot, there, rfl⟩ := Option.map_eq_some_iff.mp here
  rw [isReleased, there]
  exact holds.active

/-- A poll that may take all that waits finishes exactly with the last completion. The induction is
on how much it may take. -/
theorem poll (started : Started plan c s begun) {client : Client T Task} {bundles : Nat}
    (leads : Leads plan c begun { client, bundles }) {limit : Nat}
    (enough : (client.queue c).length < limit) :
    Leads plan c begun { client := (Client.poll react c limit client).2, bundles } ∧
      (Client.poll react c limit client).1 ≠ .unfinished ∧
      ((Client.poll react c limit client).1 = .finished ↔
        shownSends (Client.poll react c limit client).2 = plan.total) := by
  induction limit generalizing client with
  | zero => exact absurd enough (Nat.not_lt_zero _)
  | succ limit ih =>
      have asked := started.asked leads
      simp only [Client.poll]
      cases stop : client.isStopRequested c with
      | true =>
          rw [if_pos rfl]
          exact ⟨leads, by simp, iff_of_true rfl (asked.mp stop)⟩
      | false =>
          have more : shownSends client ≠ plan.total :=
            fun all => Bool.false_ne_true (stop.symm.trans (asked.mpr all))
          rw [if_neg Bool.false_ne_true]
          cases found : client.nextNotification? c with
          | none =>
              cases isOpen : client.isOpen c with
              | true => exact ⟨leads, by simp, iff_of_false (by simp) more⟩
              | false =>
                  simp only [started.unreleased leads]
                  exact ⟨leads.noted _, by simp, iff_of_false (by simp) more⟩
          | some next =>
              obtain ⟨n, client₁⟩ := next
              have served := (leads.taken found).dispatch n
              have shorter := queue_dispatch client₁ n c
              dsimp only
              cases dispatched : client₁.dispatch react c n with
              | mk answer client₂ =>
              rw [dispatched] at served shorter
              cases answer with
              | ok _ =>
                  refine ih served ?_
                  rw [shorter]
                  rw [(queue_of_found found).1] at enough
                  exact Nat.lt_of_succ_lt_succ enough
              | error e =>
                  have asked' := started.asked (served.noted [.loopFailed e])
                  have going := (isStopRequested_failed found dispatched).trans stop
                  exact ⟨served.noted _, by simp, iff_of_false (by simp) fun all =>
                    Bool.false_ne_true (going.symm.trans (asked'.mpr all))⟩

/-- A loop that is over has given its channel back. -/
theorem pollLoop (started : Started plan c s begun) {client : Client T Task} {bundles : Nat}
    (leads : Leads plan c begun { client, bundles }) {limit : Nat}
    (enough : (client.queue c).length < limit) :
    ∃ moves, Goes plan c { client := s } moves
        { client := (client.pollLoop react limit c).2, bundles } ∧
      (client.pollLoop react limit c).1 ≠ .unfinished ∧
      ((client.pollLoop react limit c).1 = .pending →
        Leads plan c begun { client := (client.pollLoop react limit c).2, bundles }) ∧
      ((client.pollLoop react limit c).1 = .finished ↔
        shownSends (client.pollLoop react limit c).2 = plan.total) := by
  obtain ⟨polled, ended, last⟩ := started.poll leads enough
  obtain ⟨before, goes⟩ := started.goes
  have ⟨moves, goes', _⟩ := polled
  have reached := goes.trans goes'
  cases poll : Client.poll react c limit client with
  | mk outcome left =>
  rw [poll] at ended last reached polled
  rw [pollLoop_of_poll poll]
  by_cases waits : outcome = .pending
  · simp only [if_pos waits]
    exact ⟨_, reached, ended, fun _ => polled, last⟩
  · simp only [if_neg waits]
    have given := reached.step (.around (show IsAround left (.program (.giveBack c)) from trivial))
    have noted := given.step (.around
      (show IsAround (left.giveBack c) ((left.giveBack c).noted [.loopStopped]) from rfl))
    have same : (left.endLoop c).traces = left.traces := traces_updateSlot ..
    have shown : shownSends (left.endLoop c) = shownSends left := by
      rw [shownSends, same, shownSends]
    exact ⟨_, noted, ended, fun pending => absurd pending waits, by rwa [shown]⟩

end Started

/-! ### The command -/

/-- A send command that was started and goes on: all its sends were accepted so far. -/
inductive Runs (plan : SendPlan) (c : ContextId) (s : Client T Task) : Run T → Prop
  | start {run : Run T} (starts : startCommand c (.send plan) s = .running run) : Runs plan c s run
  | bundle {run : Run T} {pause : Nat} (runs : Runs plan c s run) (due : run.pause? = some pause)
      (accepted : (sendBundle c plan run.client).1 = .ok ()) : Runs plan c s run.issueBundle
  | poll {run run' : Run T} (runs : Runs plan c s run) (waits : run.poll = .running run') :
      Runs plan c s run'
  /-- Something comes in, or the transport changes. -/
  | foreign {run : Run T} {move : Move T Task} (runs : Runs plan c s run)
      (foreign : move.isForeign = true) :
      Runs plan c s { run with client := move.apply run.client }
  /-- What was noted was shown and is forgotten. -/
  | forget {run : Run T} (runs : Runs plan c s run) :
      Runs plan c s { run with client := { run.client with journal := [] } }

/-- What holds of it. -/
structure Underway (plan : SendPlan) (c : ContextId) (s : Client T Task) (run : Run T) : Prop where
  command : run.command = .send plan
  context : run.context = c
  unrefused : run.stopped = none
  leads : ∃ begun, Started plan c s begun ∧
    Leads plan c begun { client := run.client, bundles := run.bundles }

/-- The end of a run does not go on. -/
theorem finish_over (result : Except ClientError Unit) (s : Client T Task) (run : Run T) :
    finish result s ≠ .running run := by
  rw [finish]
  cases s.release with
  | mk answer s' => cases answer <;> simp

namespace Underway

variable {s : Client T Task} {run run' : Run T}

theorem start (fresh : s.context? c = some {}) (untraced : s.traces = [])
    (planned : 0 < plan.total) (starts : startCommand c (.send plan) s = .running run) :
    Underway plan c s run := by
  have busy : Command.isIdle (.send plan) = false := beq_false_of_ne (Nat.ne_of_gt planned)
  have more : 0 < plan.count := Nat.pos_of_mul_pos_left planned
  simp only [startCommand, busy, Bool.false_eq_true, if_false, issue] at starts
  cases sent : sendBundle c plan s with
  | mk answer client =>
  have begun : Leads plan c { client := s } { client := s } := .refl _
  have issued := begun.sendBundle rfl more
  have unshown := traces_sendEvents plan c plan.events s
  rw [sent] at starts issued
  rw [sendBundle] at sent
  rw [sent] at unshown
  cases answer with
  | error e => exact (finish_over _ _ _ starts).elim
  | ok _ =>
      dsimp only at starts
      cases started : client.startLoop c with
      | mk answer begun =>
      rw [started] at starts
      cases answer with
      | error e => exact (finish_over _ _ _ starts).elim
      | ok _ =>
          cases starts
          have started := Started.of_startLoop fresh untraced planned (issued rfl)
            (unshown.trans untraced) started
          exact ⟨rfl, rfl, rfl, _, started, .refl _⟩

theorem bundle (underway : Underway plan c s run) {pause : Nat}
    (due : run.pause? = some pause)
    (accepted : (sendBundle c plan run.client).1 = .ok ()) : Underway plan c s run.issueBundle := by
  obtain ⟨client, context, command, bundles, stopped⟩ := run
  obtain ⟨rfl, rfl, rfl, begun, started, leads⟩ := underway
  have more : bundles < plan.count := by
    simp only [Run.pause?] at due
    split at due
    · next more => exact more.1
    · cases due
  have issued := leads.sendBundle rfl more accepted
  simp only [Run.issueBundle]
  cases sent : sendBundle context plan client with
  | mk answer client' =>
  rw [sent] at accepted issued
  cases accepted
  exact ⟨rfl, rfl, rfl, begun, started, issued⟩

theorem poll (underway : Underway plan c s run) (waits : run.poll = .running run') :
    Underway plan c s run' := by
  obtain ⟨client, context, command, bundles, stopped⟩ := run
  obtain ⟨rfl, rfl, rfl, begun, started, leads⟩ := underway
  have enough : (client.queue context).length < client.queued context + 1 := by
    rw [queued_eq]
    exact Nat.lt_succ_self _
  obtain ⟨_, _, _, pending, -⟩ := started.pollLoop leads enough
  simp only [Run.poll] at waits
  cases polled : client.pollLoop react (client.queued context + 1) context with
  | mk outcome left =>
  rw [polled] at waits pending
  cases outcome with
  | pending =>
      cases waits
      exact ⟨rfl, rfl, rfl, begun, started, pending rfl⟩
  | finished | failed | unfinished => exact (finish_over _ _ _ waits).elim

theorem foreign (underway : Underway plan c s run) {move : Move T Task}
    (foreign : move.isForeign = true) :
    Underway plan c s { run with client := move.apply run.client } := by
  obtain ⟨begun, started, leads⟩ := underway.leads
  refine { underway with leads := ⟨begun, started, ?_⟩ }
  cases move with
  | deliver c' n => exact leads.around (.deliver c' n) trivial (by simp) (by simp)
  | transport change => exact leads.around (.transport change) trivial (by simp) (by simp)
  | program => cases foreign

theorem forget (underway : Underway plan c s run) :
    Underway plan c s { run with client := { run.client with journal := [] } } := by
  obtain ⟨begun, started, leads⟩ := underway.leads
  refine { underway with leads := ⟨begun, started, ?_⟩ }
  exact leads.around (.program (.keepBooks { run.client with journal := [] })) rfl (by simp)
    (by simp)

end Underway

theorem underway_of_runs {s : Client T Task} {run : Run T} (fresh : s.context? c = some {})
    (untraced : s.traces = []) (planned : 0 < plan.total) (runs : Runs plan c s run) :
    Underway plan c s run := by
  induction runs with
  | start starts => exact .start fresh untraced planned starts
  | bundle _ due accepted ih => exact ih.bundle due accepted
  | poll _ waits ih => exact ih.poll waits
  | foreign _ foreign ih => exact ih.foreign foreign
  | forget _ ih => exact ih.forget

theorem poll_finished {run : Run T} {left : Client T Task} (unrefused : run.stopped = none)
    (finishes : run.client.pollLoop react (run.client.queued run.context + 1) run.context =
      (.finished, left)) : run.poll = finish (.ok ()) left := by
  rw [Run.poll, finishes]
  simp only [Run.result, unrefused]

/-- While a send command goes on, a poll of its loop takes all that waits. What was printed is one
line for each of some planned sends, and the loop finishes exactly if these are all of them; then
the command succeeds, if its context can be released. -/
theorem loop_finishes_with_last_line {s : Client T Task} {run : Run T}
    (fresh : s.context? c = some {}) (untraced : s.traces = []) (planned : 0 < plan.total)
    (runs : Runs plan c s run) :
    let polled := run.client.pollLoop react (run.client.queued c + 1) c
    (∃ shown : List Completion,
      linesSince 0 polled.2 = shown.map (fun done => sendLine (plan.event done.1) done.2) ∧
      (shown.map (·.1)).Nodup ∧ (∀ done ∈ shown, done.1 < plan.total) ∧
      (polled.1 = .finished ↔ (shown.map (·.1)).Perm (List.range plan.total))) ∧
    polled.1 ≠ .unfinished ∧
    (polled.1 = .finished → run.poll = finish (.ok ()) polled.2) := by
  intro polled
  obtain ⟨command, context, unrefused, begun, started, leads⟩ :=
    underway_of_runs fresh untraced planned runs
  have enough : (run.client.queue c).length < run.client.queued c + 1 := by
    rw [queued_eq]
    exact Nat.lt_succ_self _
  obtain ⟨moves, goes, ended, -, last⟩ := started.pollLoop leads enough
  obtain ⟨shown, under, waiting, tally⟩ := tally_of_goes fresh untraced planned goes
  have part : (shown.map (·.1)).Sublist ((shown ++ under).map (·.1) ++ waiting) :=
    ((List.sublist_append_left shown under).map _).trans (List.sublist_append_left _ _)
  refine ⟨⟨shown, tally.lines, (tally.each.nodup_iff.mpr List.nodup_range).sublist part,
    fun done mem => ?planned, ?last⟩, ended, fun finishes => ?result⟩
  case planned =>
    have issued := tally.each.mem_iff.mp (part.subset (List.mem_map_of_mem mem))
    exact Nat.lt_of_lt_of_le (List.mem_range.mp issued) tally.issued_le
  case last =>
    rw [last, tally.shownSends]
    constructor
    · intro all
      obtain ⟨issued, -, -, rfl, rfl⟩ := tally.complete planned all
      have each := tally.each
      rwa [issued, List.append_nil, List.append_nil] at each
    · intro all
      have length := all.length_eq
      rwa [List.length_map, List.length_range] at length
  case result =>
    refine poll_finished unrefused ?_
    rw [context]
    exact Prod.ext finishes rfl

/-- The second bundle is issued before any completion is dispatched, and its completion arrives
first. -/
theorem twoPings_finishes :
    let s : Client Loopback Task := (Client.start {}).acquire.2
    s.context? 0 = some {} ∧ s.traces = [] ∧ 0 < twoPings.total ∧
      ∃ run, Runs twoPings 0 s run ∧
        (run.client.pollLoop react (run.client.queued 0 + 1) 0).1 = .finished := by
  intro s
  have started : Runs twoPings 0 s _ := .start rfl
  have issued := started.bundle rfl rfl
  have second := issued.foreign
    (show (Move.deliver 0 (.sendCompleted ⟨1⟩ ⟨0, 3, "gone"⟩)).isForeign = true from rfl)
  have first := second.foreign
    (show (Move.deliver 0 (.sendCompleted ⟨0⟩ ⟨7, 0, ""⟩)).isForeign = true from rfl)
  exact ⟨rfl, rfl, by decide, _, first, by decide⟩

end EventClient.CommandLine
