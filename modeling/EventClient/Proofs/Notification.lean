import EventClient.Notification
import EventClient.Proofs.Target

/-!
Notifications and the applications they list, as they are written and read. All of them are read
back as they were, texts and numbers of any kind included; only a path can fail to be written, and
only if it is not a text.
-/
namespace EventClient

open Json

theorem CorrelationId.reads (id : CorrelationId) : CorrelationId.decoder.Reads id.toJson id :=
  (Decoder.Reads.uint64 id.value).map CorrelationId.mk

theorem Application.carries {a : Application} (path : a.desktop.IsText) :
    Carries Application.toJson Application.decoder 2 a := by
  obtain ⟨appId, description, desktop, userId, args⟩ := a
  obtain ⟨text, rfl⟩ := path
  have path : Path.decoder.Reads (.string text) (.ofText text) :=
    (Decoder.Reads.string text).map Path.ofText
  have members := Record.Reads.defaulted (.strings args) "args" []
  have members := (Record.Reads.required (.uint32 userId) "user_id").and members (by simp)
  have members := (Record.Reads.defaulted path "desktop" ⟨[]⟩).and members (by simp)
  have members :=
    (Record.Reads.defaulted (.string description) "description" "").and members (by simp)
  have members := (Record.Reads.required (.string appId) "app_id").and members (by simp)
  refine ⟨_, ?_, (members.map _).decoder, ?_⟩
  · simp only [toJson, Path.toJson_ofText, bind, Except.bind]
    rfl
  · simp [depth, membersDepth, itemsDepth_strings, Json.ofNat]

namespace Notification

/-- The paths that a notification tells. -/
def paths : Notification → List Path
  | .applicationsListed _ r => r.applications.map (·.desktop)
  | _ => []

theorem carries_of {n : Notification} {record : Record Notification}
    {members : List (String × Json)} {levels : Nat}
    (found : (Variant.named variants).lookup n.method =
      some { method := n.method, params := record.objectDecoder })
    (written : n.params = .ok (.object members)) (reads : record.Reads members n)
    (flat : membersDepth members ≤ levels) : Carries toJson decoder (levels + 2) n := by
  refine ⟨_, ?_, Variant.reads_record found reads flat⟩
  simp only [toJson, written, bind, Except.bind]
  rfl

theorem carries {n : Notification} (texts : ∀ path ∈ n.paths, path.IsText) :
    Carries toJson decoder 5 n := by
  cases n with
  | sendCompleted id r =>
      have members := Record.Reads.defaulted (.string r.message) "message" ""
      have members := (Record.Reads.required (.int32 r.status) "status").and members (by simp)
      have members := (Record.Reads.required (.int32 r.eventId) "event_id").and members (by simp)
      have members := (Record.Reads.required id.reads "id").and members (by simp)
      exact carries_of rfl rfl (members.map _) (Nat.zero_le _)
  | applicationsListed id r =>
      have each : ∀ a ∈ r.applications, Carries Application.toJson Application.decoder 2 a :=
        fun a there => Application.carries (texts _ (List.mem_map_of_mem there))
      obtain ⟨items, written, reads, flat⟩ := Carries.items each
      have members := Record.Reads.defaulted (.list reads) "applications" []
      have members :=
        (Record.Reads.defaulted (.string r.message) "message" "").and members (by simp)
      have members := (Record.Reads.required (.int32 r.status) "status").and members (by simp)
      have members :=
        (Record.Reads.required (.int32 r.requestId) "request_id").and members (by simp)
      have members := (Record.Reads.required id.reads "id").and members (by simp)
      refine carries_of rfl ?_ (members.map _) ?_
      · simp only [params, written, bind, Except.bind]
        rfl
      -- Only the applications have brackets, and these are inside those of their list.
      · simp [membersDepth, depth, CorrelationId.toJson, Json.ofNat, Json.ofInt]
        omega
  | event b =>
      have members := Record.Reads.defaulted (.string b.payload) "payload" noPayload
      have members := (Record.Reads.required (.string b.name) "name").and members (by simp)
      exact carries_of rfl rfl (members.map _) (Nat.zero_le _)
  | subscriptionStatus b =>
      have members := Record.Reads.defaulted (.string b.payload) "payload" noPayload
      have members :=
        (Record.Reads.defaulted (.string b.message) "message" "").and members (by simp)
      have members := (Record.Reads.required (.int32 b.status) "status").and members (by simp)
      have members := (Record.Reads.required (.int32 b.id) "id").and members (by simp)
      exact carries_of rfl rfl (members.map _) (Nat.zero_le _)

end Notification

theorem SessionNotification.carries {n : SessionNotification}
    (texts : ∀ path ∈ n.notification.paths, path.IsText) :
    Carries SessionNotification.toJson SessionNotification.decoder 6 n := by
  obtain ⟨v, written, reads, flat⟩ := Notification.carries texts
  have members := Record.Reads.required reads "notification"
  have members := (Record.Reads.required (.uint64 n.session) "session").and members (by simp)
  refine ⟨_, ?_, (members.map _).decoder, ?_⟩
  · simp only [toJson, written, bind, Except.bind]
    rfl
  · simp [depth, membersDepth, Json.ofNat]
    omega

/-- Whatever can be notified, listed or selected is read back from its text as it was. Paths are the
only part that need not have a text. -/
theorem wire_round_trips :
    (∀ n : SessionNotification, (∀ path ∈ n.notification.paths, path.IsText) →
      RoundTrips SessionNotification.toJson SessionNotification.decoder n) ∧
    (∀ a : Application, a.desktop.IsText →
      RoundTrips Application.toJson Application.decoder a) ∧
    (∀ t : Target, (∀ path ∈ t.binary, path.IsText) →
      RoundTrips Target.toJson Target.decoder t) ∧
    ∀ t : ResolvedTarget, (∀ path ∈ t.binary, path.IsText) →
      RoundTrips ResolvedTarget.toJson ResolvedTarget.decoder t :=
  ⟨fun _ texts => (SessionNotification.carries texts).roundTrips (by decide),
    fun _ path => (Application.carries path).roundTrips (by decide),
    fun _ path => (Target.carries path).roundTrips (by decide),
    fun _ path => (ResolvedTarget.carries path).roundTrips (by decide)⟩

/-- An application whose texts need every kind of escape. -/
def quotedApplication : Application where
  appId := "a\"b\\c"
  description := "\x00\n\x1f\x7f é\u20ac"
  desktop := .ofText "/usr/share/applications/é.desktop"
  userId := 4294967295
  args := ["", "\t"]

theorem quotedApplication_round_trips :
    (RoundTrips SessionNotification.toJson SessionNotification.decoder {
        session := 18446744073709551615
        notification := .applicationsListed ⟨18446744073709551615⟩ {
          requestId := -2147483648
          status := 2147483647
          message := "\""
          applications := [quotedApplication, { appId := "", userId := 0 }] } }) ∧
      RoundTrips Application.toJson Application.decoder quotedApplication ∧
      RoundTrips Target.toJson Target.decoder { binary := some quotedApplication.desktop } ∧
      RoundTrips ResolvedTarget.toJson ResolvedTarget.decoder {
        label := some "\\", user := some 0 } := by
  have path : quotedApplication.desktop.IsText := ⟨_, rfl⟩
  have empty : Path.IsText ⟨[]⟩ := ⟨"", rfl⟩
  obtain ⟨notifications, applications, targets, resolved⟩ := wire_round_trips
  refine ⟨notifications _ ?_, applications _ path, targets _ ?_, resolved _ nofun⟩
  · exact List.forall_mem_cons.mpr ⟨path, List.forall_mem_singleton.mpr empty⟩
  · rintro _ ⟨⟩
    exact path

end EventClient
