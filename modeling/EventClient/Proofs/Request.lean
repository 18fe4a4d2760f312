import EventClient.Request
import EventClient.Proofs.Notification
import EventClient.Proofs.TracePattern

/-!
Requests, as the daemon's decoder reads them. The data of an event stand inside two more objects,
those of the request and of its content, so they are read only as long as they leave the reader
these two levels; all other requests are read as they were written.
-/
namespace EventClient

open Json

/-! ### Events to send -/

namespace Request

/-- The content of a request to send an event. -/
def sendMembers (event : String) (data : Json) (id : CorrelationId) (target : Json) :
    List (String × Json) :=
  [("event", .string event), ("data", data), ("id", id.toJson), ("target", target)]

theorem encode_send {event : String} {data : Json} {id : CorrelationId} {target : ResolvedTarget}
    {payload : Bytes} (h : (Request.sendEvent event data id target).encode = .ok payload) :
    ∃ selectors, target.toJson = .ok selectors ∧
      payload = Json.encode (.object [("method", .string "send_event"),
        ("params", .object (sendMembers event data id selectors))]) := by
  simp only [encode, toJson, params, bind, Except.bind] at h
  cases made : target.toJson with
  | error e =>
      rw [made] at h
      cases h
  | ok selectors =>
      rw [made] at h
      cases h
      exact ⟨selectors, rfl, rfl⟩

theorem found_send : (Json.Variant.named variants).lookup "send_event" =
    some { method := "send_event", params := sendRecord.objectDecoder } := by
  rfl

theorem reads_send (event : String) {data : Json} (exact : data.IsExact) (id : CorrelationId)
    {target : ResolvedTarget} {selectors : Json} (told : target.toJson = .ok selectors) :
    sendRecord.Reads (sendMembers event data id selectors)
      (.sendEvent event data.canonical id target) := by
  have members := Record.Reads.required (ResolvedTarget.reads told).1 "target"
  have members := (Record.Reads.required id.reads "id").and members (by simp)
  have members := (Record.Reads.required (.json exact) "data").and members (by simp)
  have members := (Record.Reads.required (.string event) "event").and members (by simp)
  exact members.map _

/-- Everything but the data nests one level deep at most. -/
theorem overflows_send (event : String) {data : Json} (exact : data.IsExact) {levels : Nat}
    (deep : levels < data.depth) :
    sendRecord.Overflows levels [("event", .string event)] "data" data := by
  have event := Record.Reads.required (.string event) "event"
  have deeper : (Json.Record.required "data" .json).Overflows levels [] "data" data :=
    .field (.json exact deep) "data" (.error (.missing "data"))
  exact (Json.Record.Overflows.right event (deeper.left _) (by decide)).map _

/-- An event is read back from its request exactly if its data leave two levels. -/
theorem decode_send {event : String} {data : Json} (exact : data.IsExact) {id : CorrelationId}
    {target : ResolvedTarget} {payload : Bytes}
    (h : (Request.sendEvent event data id target).encode = .ok payload) :
    (data.depth + 2 ≤ nestingLimit →
      decoder.decode payload = .ok (.sendEvent event data.canonical id target)) ∧
    (nestingLimit < data.depth + 2 →
      ∃ unread, decoder.decode payload = .error ⟨.nestedTooDeep, unread⟩) := by
  obtain ⟨selectors, told, rfl⟩ := encode_send h
  have reads := reads_send event exact id told
  constructor
  · intro flat
    have targets := (ResolvedTarget.reads told).2
    refine (Json.Variant.reads found_send reads.objectDecoder).decode ?_
    simp only [depth, membersDepth, sendMembers, CorrelationId.toJson, Json.ofNat, targets,
      nestingLimit] at flat ⊢
    omega
  · intro deep
    have deeper : (Json.Record.objectDecoder sendRecord).Overflows 126
        (.object (sendMembers event data id selectors)) := by
      refine (overflows_send event exact ?_).objectDecoder (by simp [depth]) reads.exact
      rw [nestingLimit] at deep
      omega
    exact (Json.Variant.overflows found_send deeper).decode

/-! ### Every request -/

/-- What a request may hold to be told: data of integers that leave the reader two levels, paths
that are texts, and patterns that were parsed. -/
def IsTellable : Request → Prop
  | .sendEvent _ data _ target =>
      data.IsExact ∧ data.depth ≤ 125 ∧ ∀ path ∈ target.binary, path.IsText
  | .setDebug patterns => ∀ p ∈ patterns, ∃ written, TracePattern.parse written = .ok p
  | _ => True

/-- The request with the members of all objects in order. -/
def canonical : Request → Request
  | .sendEvent event data id target => .sendEvent event data.canonical id target
  | r => r

theorem reads_scope (scope : Scope) : Scope.decoder.Reads scope.toJson scope := by
  cases scope <;> exact .variantName rfl

theorem reads_of {r r' : Request} {record : Record Request} {members : List (String × Json)}
    (found : (Variant.named variants).lookup r.method =
      some { method := r.method, params := record.objectDecoder })
    (written : r.params = .ok (some (.object members))) (reads : record.Reads members r')
    (flat : membersDepth members ≤ 125) :
    ∃ v, r.toJson = .ok v ∧ decoder.Reads v r' ∧ v.depth ≤ nestingLimit := by
  refine ⟨_, ?_, Variant.reads_record found reads flat⟩
  simp only [toJson, written, bind, Except.bind]
  rfl

theorem reads {r : Request} (tellable : r.IsTellable) :
    ∃ v, r.toJson = .ok v ∧ decoder.Reads v r.canonical ∧ v.depth ≤ nestingLimit := by
  cases r with
  | createContext session | destroyContext session =>
      have members := Record.Reads.required (.uint64 session) "session"
      exact reads_of rfl rfl (members.map _) (Nat.zero_le _)
  | subscribe events =>
      have members := Record.Reads.required (.strings events) "events"
      refine reads_of rfl rfl (members.map _) ?_
      simp [membersDepth, depth, itemsDepth_strings]
  | sendEvent event data id target =>
      obtain ⟨exact, deep, path⟩ := tellable
      obtain ⟨selectors, told, -, flat⟩ := ResolvedTarget.carries path
      refine reads_of found_send ?_ (reads_send event exact id told) ?_
      · simp only [params, told, bind, Except.bind]
        rfl
      -- Besides the data only the target has brackets.
      · simp only [sendMembers, membersDepth, depth, CorrelationId.toJson, Json.ofNat]
        omega
  | listApplications id scope =>
      have members := Record.Reads.required (reads_scope scope) "scope"
      have members := (Record.Reads.required id.reads "id").and members (by simp)
      exact reads_of rfl rfl (members.map _) (Nat.zero_le _)
  | setDebug patterns =>
      have each : ∀ p ∈ patterns, TracePattern.decoder.Reads p.toJson p := by
        intro p there
        obtain ⟨written, parsed⟩ := tellable p there
        exact TracePattern.reads (TracePattern.parse_text parsed)
      have flat : itemsDepth (patterns.map TracePattern.toJson) ≤ 0 :=
        itemsDepth_map (fun _ => Nat.le_refl 0) patterns
      have members := Record.Reads.required (.listOf each) "patterns"
      refine reads_of rfl rfl (members.map _) ?_
      simp only [membersDepth, depth]
      omega
  | bridgeSignals => exact ⟨_, rfl, Variant.reads_alone rfl rfl, by decide⟩

/-- Every request of either kind is read back from its text. Objects come back with their members in
order, so a request whose data have them in order, as parsed data do, comes back as it was. -/
theorem decode_encode {r : Request} (tellable : r.IsTellable) :
    ∃ payload, r.encode = .ok payload ∧ decoder.decode payload = .ok r.canonical ∧
      (r.canonical = r → decoder.decode payload = .ok r) := by
  obtain ⟨v, written, reads, flat⟩ := reads tellable
  have decoded : decoder.decode v.encode = .ok r.canonical := reads.decode flat
  refine ⟨v.encode, ?_, decoded, fun same => same ▸ decoded⟩
  simp only [encode, written, bind, Except.bind]
  rfl

/-- An event with the outermost integers in its data. -/
def outermostEvent : Request :=
  .sendEvent "a\"b" (.object [
      ("high", .ofNat 18446744073709551615),
      ("low", .list [.ofInt (-9223372036854775808), .null, .string "\x00"])])
    ⟨18446744073709551615⟩ { binary := some (.ofText "/usr/bin/é"), process := some 4294967295 }

theorem outermostEvent_decodes :
    (∃ payload, outermostEvent.encode = .ok payload ∧
      decoder.decode payload = .ok outermostEvent) ∧
    ∃ payload, (setDebug [.all, .unit "core", .operation "a b"]).encode = .ok payload ∧
      decoder.decode payload = .ok (.setDebug [.all, .unit "core", .operation "a b"]) := by
  have event : outermostEvent.IsTellable := by
    refine ⟨?_, by decide, ?_⟩
    · intro n there
      simp only [numbers, itemsNumbers, membersNumbers, Json.ofNat, Json.ofInt, List.append_nil,
        List.nil_append, List.cons_append, List.mem_cons, List.not_mem_nil, or_false] at there
      rcases there with rfl | rfl <;> exact ⟨by decide, by decide⟩
    · rintro _ ⟨⟩
      exact ⟨_, rfl⟩
  have patterns : (setDebug [.all, .unit "core", .operation "a b"]).IsTellable := by
    intro p there
    simp only [List.mem_cons, List.not_mem_nil, or_false] at there
    obtain rfl | rfl | rfl := there
    · exact ⟨"*", rfl⟩
    · exact ⟨" @core\t", rfl⟩
    · exact ⟨"a b", rfl⟩
  obtain ⟨payload, encoded, _, decoded⟩ := decode_encode event
  obtain ⟨payload', encoded', _, decoded'⟩ := decode_encode patterns
  exact ⟨⟨payload, encoded, decoded rfl⟩, payload', encoded', decoded' rfl⟩

end Request

end EventClient
