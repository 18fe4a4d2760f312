import EventClient.Proofs.Client.Confined
import EventClient.Transport.Loopback

/-!
Release is final and contained. What was outstanding is counted and dropped, the context is released
for good, and no handle of it that is still around reaches the contexts after it, which give out the
same ids again.
-/
namespace EventClient.Client

variable {T κ : Type} [Transport T]

/-- A context that nothing revives and whose handles reach nothing else. -/
structure Finished (s : Client T κ) (c : ContextId) : Prop where
  drained : ∀ kind, (s.registry c kind).pending = []
  final : ∀ later, (s.after later).isReleased c = true ∧
    ∀ kind, (s.after later).registry c kind = s.registry c kind
  refuses : s.Refuses c
  completions : ∀ n kind id, n.Completes kind id →
    ∀ react, s.dispatch react c n = (.ok (), s.note [.completionDropped kind id])
  operations : ∀ (callbacks : Callbacks T κ) (operation : Operation T κ),
    operation.IsThrough s c →
      Through callbacks.reaction c s (operation.apply callbacks.reaction s)
  unnoticed : ∀ later, AgreesBeyond c (s.after (without c later)) (s.after later)

theorem Gone.finished {s : Client T κ} {c : ContextId} (gone : s.Gone c) (drained : s.Drained) :
    s.Finished c where
  drained := by
    intro kind
    obtain ⟨context, here, released⟩ := isReleased_iff.mp gone.released
    rw [registry_of_context here]
    exact Registry.pending_eq_nil (drained c context here released kind)
  final := by
    intro later
    obtain ⟨still, same⟩ := gone_after gone later
    exact ⟨still.released, same⟩
  refuses := gone.refuses
  completions := by
    intro n kind id completes react
    obtain ⟨context, here, released⟩ := isReleased_iff.mp gone.released
    exact dispatch_completion_released here released completes react
  operations := fun callbacks operation through => through_operation callbacks gone through
  unnoticed := agreesBeyond_without gone

/-- The ids of a context that wait for a completion, each listed once. -/
structure Outstanding (s : Client T κ) (c : ContextId) (sends lists : List CorrelationId) :
    Prop where
  sendsOnce : sends.Nodup
  listsOnce : lists.Nodup
  exact : ∀ id, s.isOutstanding c id = (decide (id ∈ sends), decide (id ∈ lists))

theorem outstanding_ids (t : T) (moves : List (Move T κ)) {c : ContextId} {context : Context κ}
    (here : ((start t).after moves).context? c = some context) :
    ((start t).after moves).Outstanding c context.sends.ids context.lists.ids := by
  have once (kind : RequestKind) : (context.registry kind).ids.Nodup := by
    have ascending := ascending_after t moves c kind
    rw [registry_of_context here] at ascending
    exact Registry.ids_nodup ascending
  refine ⟨once .send, once .list, ?_⟩
  intro id
  obtain ⟨slot, hslot, rfl⟩ := Option.map_eq_some_iff.mp here
  simp only [isOutstanding, hslot, Registry.mem_ids_iff, Bool.decide_eq_true]

/-- What the release of the current context reports and leaves, whether or not the transport closes
its session: the callbacks that waited are counted and dropped, and the counters stay. -/
theorem release_leaves {s : Client T κ} {c : ContextId} {context : Context κ}
    (current : s.current = some c) (here : s.context? c = some context) :
    s.release.1 = (Transport.perform s.transport .closeContext).2.map
        (fun _ => some ⟨context.sends.ids.length, context.lists.ids.length⟩) ∧
      s.release.2.isReleased c = true ∧
      ∀ kind, s.release.2.registry c kind = { s.registry c kind with pending := [] } := by
  obtain ⟨slot, hslot, rfl⟩ := Option.map_eq_some_iff.mp here
  have left : s.release.2.context? c = some slot.context.shutDown.2.1 := by
    rw [context?, slot?_release, if_pos current, hslot]
    rfl
  refine ⟨?_, isReleased_iff.mpr ⟨_, left, rfl⟩, ?_⟩
  · rw [(release_current current hslot).1]
    simp only [Context.shutDown, Registry.clear, Registry.ids, List.length_map]
  · intro kind
    rw [registry_of_context left, registry_of_context here]
    cases kind <;> rfl

/-- For every run: releasing the current context reports exactly how many sends and lists waited,
unless the transport fails to close the session, and a context that was released is finished. -/
theorem release_is_final (t : T) (moves : List (Move T κ)) :
    let s : Client T κ := (start t).after moves
    (∀ c, s.current = some c → ∃ sends lists, s.Outstanding c sends lists ∧
      s.release.1 = (Transport.perform s.transport .closeContext).2.map
        (fun _ => some ⟨sends.length, lists.length⟩) ∧
      s.release.2.isReleased c = true ∧
      ∀ kind, s.release.2.registry c kind = { s.registry c kind with pending := [] }) ∧
    ∀ c, s.isReleased c = true → s.Finished c := by
  intro s
  have sole : s.Sole := sole_after (sole_start t) moves
  constructor
  · intro c current
    obtain ⟨context, here⟩ := sole.present c current
    exact ⟨context.sends.ids, context.lists.ids, outstanding_ids t moves here,
      release_leaves current here⟩
  · intro c released
    have gone : s.Gone c := ⟨sole, released⟩
    exact gone.finished (drained_after (drained_start t) moves)

/-- A query waits when its context is released; the next context gives out the same id. -/
def idGivenOutAgain : List (Move Loopback Nat) :=
  [.program .acquire, .program (.list 0 .running 7 none), .program .release, .program .acquire,
    .program (.list 1 .running 8 none)]

theorem idGivenOutAgain_unnoticed :
    let s := (start {}).after idGivenOutAgain
    s.current = some 1 ∧ s.isReleased 0 = true ∧ s.isOutstanding 1 ⟨0⟩ = (false, true) ∧
      (∃ sends lists, s.Outstanding 1 sends lists ∧
        s.release.1 = .ok (some ⟨sends.length, lists.length⟩)) ∧
      ∀ later, AgreesBeyond 0 (s.after (without 0 later)) (s.after later) := by
  intro s
  have current : s.current = some 1 := by decide
  have released : s.isReleased 0 = true := by decide
  obtain ⟨reports, finishes⟩ := release_is_final ({} : Loopback) idGivenOutAgain
  obtain ⟨sends, lists, outstanding, reported, _⟩ := reports 1 current
  exact ⟨current, released, by decide, ⟨sends, lists, outstanding, reported⟩,
    (finishes 0 released).unnoticed⟩

end EventClient.Client
