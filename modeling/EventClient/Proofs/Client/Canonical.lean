import EventClient.Proofs.Client.Calls
import EventClient.Proofs.Client.Subscribing
import EventClient.Proofs.Subscriptions

/-!
The lists of names that a transport is handed. Whatever a program does with the names of a context,
they stay a set in ascending order; only sets without a blank name are handed over, and what is
handed over is the whole set that the context has then.
-/
namespace EventClient

open Subscriptions (Ascending IsCanonical)

/-- A transport and everything that it was ever handed, refused calls included. -/
structure Recorder (T : Type) where
  carrier : T
  handed : List Call := []

instance Recorder.transport {T : Type} [Transport T] : Transport (Recorder T) where
  perform r call :=
    let (carrier, answer) := Transport.perform r.carrier call
    (⟨carrier, r.handed ++ [call]⟩, answer)
  holder r := Transport.holder r.carrier

namespace Context

variable {T κ : Type}

theorem ascending_edit {context : Context κ} (h : Ascending context.subscriptions.names)
    (clear : Bool) (erased inserted : List String) :
    Ascending (context.editSubscriptions clear erased inserted).subscriptions.names := by
  refine Subscriptions.ascending_insertAll (Subscriptions.ascending_eraseAll ?_ erased) inserted
  split
  · exact Subscriptions.ascending_empty
  · exact h

variable [Transport T]

/-- Subscribing to a set that passes its check hands it over, and the context has it then. -/
theorem subscribe_checked {context : Context κ} {names : List String}
    {subscriptions : Subscriptions} (active : context.released = false)
    (named : Subscriptions.ofNames? names = .ok subscriptions) (t : T) :
    (context.subscribe t names).context = { context with subscriptions } ∧
      (context.subscribe t names).transport =
        (Transport.perform t (.subscribe subscriptions.names)).1 := by
  have checked : context.checkActive = .ok () := by
    simp only [checkActive, active, Bool.false_eq_true, if_false]
  simp only [subscribe, checked, named, pushSubscriptions]
  exact ⟨issue_context .., issue_transport ..⟩

theorem ascending_subscribe {context : Context κ} (h : Ascending context.subscriptions.names)
    (t : T) (names : List String) :
    Ascending (context.subscribe t names).context.subscriptions.names := by
  simp only [subscribe]
  split
  · exact h
  · exact h
  · next subscriptions _ named =>
      obtain ⟨-, canonical⟩ := Subscriptions.ofNames?_ok named
      rw [pushSubscriptions, issue_context]
      exact canonical.ascending

/-- The names of a context stay in order whatever an act does to it. -/
theorem ascending_afterAct {context : Context κ} (h : Ascending context.subscriptions.names)
    (t : T) (current : Option ContextId) (c : ContextId) (act : Client.Act T κ) :
    Ascending (context.afterAct t current c act).subscriptions.names := by
  cases act with
  | subscribe c' names =>
      simp only [afterAct]
      split
      · exact ascending_subscribe h t names
      · exact h
  | editSubscriptions c' clear erased inserted =>
      simp only [afterAct]
      split
      · exact ascending_edit h clear erased inserted
      · exact h
  | send c' event payload target callback userData =>
      simp only [afterAct, send]
      repeat' split
      · exact h
      · rwa [request_subscriptions]
      · exact h
  | list c' scope callback userData =>
      simp only [afterAct, list]
      repeat' split
      · exact h
      · rwa [request_subscriptions]
      · exact h
  | route c' n =>
      simp only [afterAct]
      split
      · rwa [route_subscriptions]
      · exact h
  | setEventHandler | setStatusHandler | release =>
      simp only [afterAct]
      split <;> exact h
  | acquire | enableTracing | renewSubscriptions | bridgeSignals | lease | giveBack | requestStop
  | forgetStop | takeNext | keepBooks => exact h

end Context

namespace Client

variable {T κ : Type} [Transport T]

/-- Every context has its names in order. -/
def KeepsOrder (s : Client T κ) : Prop :=
  ∀ c context, s.context? c = some context → Ascending context.subscriptions.names

theorem keepsOrder_apply {s : Client T κ} (h : s.KeepsOrder) (move : Move T κ) :
    (move.apply s).KeepsOrder := by
  intro c context here
  rcases context?_apply s move c with changed | ⟨_, _, opened⟩
  · obtain ⟨old, there, rfl⟩ := Option.map_eq_some_iff.mp (changed.symm.trans here)
    cases move with
    | program act => exact Context.ascending_afterAct (h c old there) _ _ c act
    | deliver | transport => exact h c old there
  · cases opened.symm.trans here
    exact Subscriptions.ascending_empty

theorem keepsOrder_after (t : T) (moves : List (Move T κ)) :
    ((start t).after moves : Client T κ).KeepsOrder := by
  induction moves using List.reverseRecOn with
  | nil =>
      intro c context here
      cases here
  | append_singleton moves move ih =>
      rw [after_append]
      exact keepsOrder_apply ih move

/-- What an act hands over in the way of names are those that its context has then, in order and
none of them blank. -/
theorem subscribes_canonical {s : Client T κ} (h : s.KeepsOrder) {act : Act T κ}
    {events : List String} (asked : s.Asks act (.subscribe events)) :
    ∃ c context, act.subject? s = some c ∧ (act.apply s).context? c = some context ∧
      context.released = false ∧ context.subscriptions.names = events ∧ IsCanonical events := by
  cases asked with
  | @subscribes c context names subscriptions here checked named =>
      have active := Context.checkActive_ok checked
      obtain ⟨left, -⟩ := Context.subscribe_checked active named s.transport
      refine ⟨c, { context with subscriptions }, rfl, ?_, active, rfl,
        (Subscriptions.ofNames?_ok named).2⟩
      simp only [Act.apply, subscribe, context?_onContext, here, Option.map_some, if_pos, left]
  | @renews c context here checked named =>
      refine ⟨c, context, rfl, ?_, Context.checkActive_ok checked, rfl, h c context here,
        Subscriptions.check_ok_iff.mp named⟩
      simp only [Act.apply, renewSubscriptions, context?_onContext, here, Option.map_some, if_pos,
        Context.renewSubscriptions_context]

/-- An act hands over at most one call. -/
theorem handed_act (s : Client (Recorder T) κ) (act : Act (Recorder T) κ) :
    ∃ new, (act.apply s).transport.handed = s.transport.handed ++ new ∧
      ∀ call ∈ new, s.Asks act call := by
  rcases hands_act s act with same | ⟨call, asked, performed⟩
  · exact ⟨[], by rw [same, List.append_nil], nofun⟩
  · refine ⟨[call], by rw [performed]; rfl, fun other there => ?_⟩
    rwa [List.mem_singleton.mp there]

/-- Subscribing to names of which one is blank fails, and hands nothing over. -/
theorem subscribe_blank {s : Client T κ} {c : ContextId} {context : Context κ}
    (here : s.context? c = some context) (active : context.released = false)
    {names : List String} (blank : ∃ name ∈ names, Text.trim name = "") :
    (s.subscribe c names).1 = .error .blankSubscription ∧
      (s.subscribe c names).2.transport = s.transport := by
  obtain ⟨slot, there, rfl⟩ := Option.map_eq_some_iff.mp here
  have checked : slot.context.checkActive = .ok () := by
    simp only [Context.checkActive, active, Bool.false_eq_true, if_false]
  simp only [subscribe, onContext, there, Context.subscribe, checked,
    Subscriptions.ofNames?_blank blank]
  exact ⟨trivial, rfl⟩

/-- Subscribing to names none of which is blank makes them the context's own and hands them over. -/
theorem subscribe_named {s : Client T κ} {c : ContextId} {context : Context κ}
    (here : s.context? c = some context) (active : context.released = false)
    {names : List String} (named : ∀ name ∈ names, Text.trim name ≠ "") :
    let subscriptions := Subscriptions.ofNames names
    (s.subscribe c names).2.context? c = some { context with subscriptions } ∧
      (s.subscribe c names).2.transport =
        (Transport.perform s.transport (.subscribe subscriptions.names)).1 := by
  intro subscriptions
  obtain ⟨left, handed⟩ :=
    Context.subscribe_checked active (Subscriptions.ofNames?_named named) s.transport
  refine ⟨?_, ?_⟩
  · simp only [subscribe, context?_onContext, here, Option.map_some, if_pos, left]
    rfl
  · obtain ⟨slot, there, rfl⟩ := Option.map_eq_some_iff.mp here
    simp only [subscribe, onContext, there]
    exact handed

/-- After every run, whatever is done next: the names that the transport is handed are exactly those
that their context has then, in ascending order and none of them blank. An active context refuses
names for being blank, with nothing handed over, exactly if one of them is; otherwise exactly the
names that it is given become its own and are handed over. Their order and repetitions make no
difference. -/
theorem handed_names_canonical (t : T) (moves : List (Move (Recorder T) κ)) :
    let s : Client (Recorder T) κ := (start { carrier := t }).after moves
    (∀ act : Act (Recorder T) κ, ∃ new,
      (act.apply s).transport.handed = s.transport.handed ++ new ∧
      ∀ events, .subscribe events ∈ new → ∃ c context, act.subject? s = some c ∧
        (act.apply s).context? c = some context ∧ context.released = false ∧
        context.subscriptions.names = events ∧ IsCanonical events) ∧
    ∀ c context, s.context? c = some context → context.released = false → ∀ names,
      let outcome := s.subscribe c names
      ((∃ name ∈ names, Text.trim name = "") ↔
        ∃ e, outcome.1 = .error e ∧ e.isInvalidArgument = true ∧
          outcome.2.transport.handed = s.transport.handed) ∧
      ((∀ name ∈ names, Text.trim name ≠ "") → ∃ subscriptions,
        (∀ name, name ∈ subscriptions.names ↔ name ∈ names) ∧
        IsCanonical subscriptions.names ∧
        outcome.2.context? c = some { context with subscriptions } ∧
        outcome.2.transport.handed =
          s.transport.handed ++ [.subscribe subscriptions.names]) ∧
      ∀ names', (∀ name, name ∈ names ↔ name ∈ names') → s.subscribe c names' = outcome := by
  intro s
  have ordered : s.KeepsOrder := keepsOrder_after _ moves
  refine ⟨fun act => ?_, fun c context here active names => ?_⟩
  · obtain ⟨new, handed, asked⟩ := handed_act s act
    exact ⟨new, handed, fun events there => subscribes_canonical ordered (asked _ there)⟩
  · intro outcome
    have pushed (named : ∀ name ∈ names, Text.trim name ≠ "") :=
      subscribe_named here active named
    refine ⟨⟨fun blank => ?_, ?_⟩, fun named => ?_, fun names' same => ?_⟩
    · obtain ⟨failed, kept⟩ := subscribe_blank here active blank
      exact ⟨_, failed, rfl, congrArg Recorder.handed kept⟩
    · -- Without a blank name a call is handed over, whatever comes of it.
      rintro ⟨e, -, -, kept⟩
      by_contra none
      have named : ∀ name ∈ names, Text.trim name ≠ "" :=
        fun name there empty => none ⟨name, there, empty⟩
      rw [(pushed named).2] at kept
      exact absurd (congrArg List.length kept) (by simp [Transport.perform])
    · have checked := Subscriptions.ofNames?_ok (Subscriptions.ofNames?_named named)
      obtain ⟨left, handed⟩ := pushed named
      exact ⟨_, fun name => Subscriptions.mem_ofNames, checked.2, left,
        congrArg Recorder.handed handed⟩
    · simp only [outcome, subscribe, Context.subscribe, Subscriptions.ofNames?,
        Subscriptions.ofNames_congr same]

/-- A blank name is put into the set, which keeps it from being pushed, and taken out again. -/
def editedNames : List (Move (Recorder Loopback) Nat) :=
  [.program .acquire, .program (.editSubscriptions 0 false [] ["b", "\u3000", "a"]),
    .program (.renewSubscriptions 0), .program (.editSubscriptions 0 false ["\u3000"] [])]

theorem editedNames_canonical :
    let s := (start { carrier := {} }).after editedNames
    let renewed := Act.apply s (.renewSubscriptions 0)
    let repeated := s.subscribe 0 ["c", "b", "c"]
    s.transport.handed = [.openContext 0] ∧
    renewed.transport.handed = s.transport.handed ++ [.subscribe ["a", "b"]] ∧
    IsCanonical ["a", "b"] ∧
    (s.context? 0).map (·.released) = some false ∧
    (∃ e, (s.subscribe 0 ["c", "\x09"]).1 = .error e ∧ e.isInvalidArgument = true ∧
      (s.subscribe 0 ["c", "\x09"]).2.transport.handed = s.transport.handed) ∧
    repeated.2.transport.handed = s.transport.handed ++ [.subscribe ["b", "c"]] ∧
    s.subscribe 0 ["b", "c"] = repeated := by
  intro s renewed repeated
  have pushed : renewed.transport.handed = s.transport.handed ++ [.subscribe ["a", "b"]] := by
    decide
  have active : (s.context? 0).map (·.released) = some false := by decide
  obtain ⟨context, here, active'⟩ := Option.map_eq_some_iff.mp active
  obtain ⟨acts, subscribing⟩ := handed_names_canonical ({} : Loopback) editedNames
  have canonical : IsCanonical ["a", "b"] := by
    obtain ⟨new, handed, names⟩ := acts (.renewSubscriptions 0)
    have only : new = [.subscribe ["a", "b"]] :=
      List.append_cancel_left (handed.symm.trans pushed)
    obtain ⟨_, _, _, _, _, _, canonical⟩ := names ["a", "b"] (by simp [only])
    exact canonical
  have refused := (subscribing 0 context here active' ["c", "\x09"]).1.mp
    ⟨"\x09", by decide, by decide⟩
  have same := (subscribing 0 context here active' ["c", "b", "c"]).2.2 ["b", "c"] (by simp)
  exact ⟨by decide, pushed, canonical, active, refused, by decide, same⟩

end Client

end EventClient
