import EventClient.Proofs.Json.Decoded
import EventClient.Proofs.Json.Widening
import EventClient.Proofs.Notification.EitherOrder

/-!
Notifications of a framework that says more than anyone here knows. Members with unknown names may
be put into the outermost object, into the notification, into its content and into the applications
that it lists: as long as the method stays in front of the content, what is decoded stays the same.
-/
namespace EventClient

open Json

/-! ### Applications -/

namespace Application

/-- An application before and after members were put into it. -/
def Wider : Writing → Writing → Prop := Grown record.names fun _ w w' => w' = w

theorem tolerates_wider : decoder.Tolerates Wider := by
  have fields : ∀ field ∈ record.fields, field.Tolerates fun w w' => w' = w := by
    rintro field - levels w _ state state' rfl read
    exact read
  exact Record.Tolerates.decoder ⟨direct.settled, fields⟩

theorem readsValues : decoder.ReadsValues := by
  refine Record.ReadsValues.decoder (.map ?_ _)
  exact .and (.required .string) <|
    .and (.defaulted .string "") <|
    .and (.defaulted (Decoder.ReadsValues.string.map _) _) <|
    .and (.required ((Decoder.ReadsValues.integer _ _).map _)) <|
    .defaulted (.list .string) []

end Application

/-! ### Notifications -/

namespace Notification

/-- The names of all members that are looked at in the content, by the method. -/
def contentNames (method : Option String) : List String :=
  ((method.bind fun name => records.lookup name).map Record.names).getD []

def ContentWider (method : Option String) : Writing → Writing → Prop :=
  Grown (contentNames method) (Within "applications" (EachGrown Application.Wider))

def Wider : Writing → Writing → Prop := Variant.GrownVariant ContentWider

/-- Only the applications of a listing are looked into. -/
theorem tolerates_of_record : ∀ entry ∈ records,
    entry.2.Tolerates (Within "applications" (EachGrown Application.Wider)) := by
  have id := CorrelationId.direct.settled
  have number := Decoder.Direct.int32.settled
  have text := Decoder.Direct.string.settled
  have applications := Application.tolerates_wider.list Application.settled
  simp only [records, List.forall_mem_cons]
  refine ⟨.map ?send _, .map ?list _, .map ?event _, .map ?status _, List.forall_mem_nil _⟩
  case send =>
    exact .and (.required id (.other (by decide))) <|
      .and (.required number (.other (by decide))) <|
      .and (.required number (.other (by decide))) <|
      .defaulted text (.other (by decide)) ""
  case list =>
    exact .and (.required id (.other (by decide))) <|
      .and (.required number (.other (by decide))) <|
      .and (.required number (.other (by decide))) <|
      .and (.defaulted text (.other (by decide)) "") <|
      .defaulted Application.settled.list (applications.within _ _) []
  case event =>
    exact .and (.required text (.other (by decide))) <|
      .defaulted text (.other (by decide)) noPayload
  case status =>
    exact .and (.required number (.other (by decide))) <|
      .and (.required number (.other (by decide))) <|
      .and (.defaulted text (.other (by decide)) "") <|
      .defaulted text (.other (by decide)) noPayload

theorem contentNames_eq : ∀ entry ∈ records, contentNames (some entry.1) = entry.2.names := by
  simp only [records, List.forall_mem_cons]
  exact ⟨rfl, rfl, rfl, rfl, List.forall_mem_nil _⟩

theorem tolerates_wider : decoder.Tolerates Wider := by
  refine Variant.tolerates_grown variants_settled ?_
  rw [variants_eq, List.forall_mem_map]
  intro entry there
  rw [ContentWider, contentNames_eq entry there]
  exact (tolerates_of_record entry there).objectDecoder

theorem readsValues_of_record : ∀ entry ∈ records, entry.2.ReadsValues := by
  have id : CorrelationId.decoder.ReadsValues := ((Decoder.ReadsValues.integer _ _).map _).map _
  have number : Decoder.int32.ReadsValues := (Decoder.ReadsValues.integer _ _).map _
  have text := Decoder.ReadsValues.string
  simp only [records, List.forall_mem_cons]
  refine ⟨.map ?send _, .map ?list _, .map ?event _, .map ?status _, List.forall_mem_nil _⟩
  case send =>
    exact .and (.required id) <| .and (.required number) <| .and (.required number) <|
      .defaulted text ""
  case list =>
    exact .and (.required id) <| .and (.required number) <| .and (.required number) <|
      .and (.defaulted text "") <| .defaulted Application.readsValues.list []
  case event => exact .and (.required text) <| .defaulted text noPayload
  case status =>
    exact .and (.required number) <| .and (.required number) <| .and (.defaulted text "") <|
      .defaulted text noPayload

theorem readsValues : decoder.ReadsValues := by
  refine Variant.reads_decoder ?_
  rw [variants_eq, List.forall_mem_map]
  exact fun entry there => (readsValues_of_record entry there).objectDecoder

end Notification

/-! ### Notifications for sessions -/

namespace SessionNotification

def Wider : Writing → Writing → Prop :=
  Grown record.names (Within "notification" Notification.Wider)

theorem record_tolerates : record.Tolerates (Within "notification" Notification.Wider) :=
  .map (.and (.required Decoder.Direct.uint64.settled (.other (by decide)))
    (.required Notification.decoder_settled (Notification.tolerates_wider.within _ _))) _

theorem decoder_settled : decoder.Settled :=
  .of_yields fun levels w => ⟨_, Record.decoder_yields record_tolerates.settled levels w⟩

theorem tolerates_wider : decoder.Tolerates Wider := record_tolerates.decoder

theorem readsValues : decoder.ReadsValues :=
  Record.ReadsValues.decoder <| .map
    (.and (.required ((Decoder.ReadsValues.integer _ _).map _))
      (.required Notification.readsValues)) _

/-- Every text that is decoded is that of a document, and every document that is wider is decoded to
the same. -/
theorem decode_wider {text : Bytes} {n : SessionNotification}
    (decoded : decoder.decode text = .ok n) :
    (∃ document : Document, document.bytes = text) ∧
      ∀ document document' : Document, document.bytes = text → Wider document.body document'.body →
        decoder.decode document'.bytes = .ok n := by
  refine ⟨readsValues.exists_document decoded, fun document document' written wider => ?_⟩
  have read : decoder.on nestingLimit document.body = some n := by
    rw [← decoder_settled.decode, written, decoded]
    rfl
  have read' := tolerates_wider _ _ _ _ wider read
  rw [← decoder_settled.decode] at read'
  exact ok_of_some read'

/-- A listing of one application for the first session. -/
def listing : Document where
  front := .none
  body := .object [
    (.bare "session", .number (.digit 1)),
    (.bare "notification", (Notification.pair .method .params Notification.listingMethod
      Notification.listingParams).body)] .none
  back := .none

/-- Brackets that nest more deeply than those of a value that is read may. -/
def nested : Nat → Writing
  | 0 => .list [] .none
  | n + 1 => .list [(⟨.none, .none⟩, nested n)] .none

/-- The content from a framework that says more, with names in it that are known elsewhere. -/
def contentOfMore : Writing :=
  .object [
    (.bare "id", .number (.digit 7)),
    (.bare "request_id", .number (.digit 3)),
    (.bare "status", .number (.digit 0)),
    (.bare "applications", .list [(⟨.none, .none⟩, .object [
      (.bare "app_id", .string (.of (Text.bytes "a"))),
      (.bare "user_id", .number (.digit 1)),
      (.bare "id", .string (.of (Text.bytes "\"")))] .none)] .none),
    (.bare "method", .null)] .none

/-- The same listing with more around it too: a list that is nested very deeply, and a number that
is too large to be read. -/
def listingOfMore : Document where
  front := .none
  body := .object [
    (.bare "trace", nested 200),
    (.bare "session", .number (.digit 1)),
    (.bare "notification", .object [
      (Notification.partLabel .method .none .none, Notification.listingMethod.body),
      (.bare "session", .number (.natural 8 (List.replicate 400 9))),
      (Notification.partLabel .params .none .none, contentOfMore)] .none)] .none
  back := .none

theorem wider_listing : Wider listing.body listingOfMore.body := by
  have method : Variant.methodOf? (Notification.pair .method .params Notification.listingMethod
      Notification.listingParams).body = some "applications_listed" := by
    decide +kernel
  have content : Notification.ContentWider (some "applications_listed")
      Notification.listingParams.body contentOfMore := by
    refine .object (.unchanged _ (.unchanged _ (.unchanged _ (.inside (Label.name?_bare _) ?_ ?_))))
    case refine_1 =>
      refine .list (.cons ⟨rfl, .object (.keep rfl (fun _ _ => rfl) ?_)⟩ .nil)
      refine .keep rfl (fun _ _ => rfl) ?_
      exact .insert _ (Label.name?_bare _) (by decide) .nil
    case refine_2 => exact .insert _ (Label.name?_bare _) (by decide +kernel) .nil
  rw [← method] at content
  refine .object (.insert _ (Label.name?_bare _) (by decide) ?_)
  refine .unchanged _ (.inside (Label.name?_bare _) ?_ .nil)
  refine .object (.inl (Notification.partLabel_name ..)) (.unchanged _ ?_)
  refine .insert _ (Label.name?_bare _) (by decide) ?_
  exact .inside (Notification.partLabel_name ..) content .nil

theorem listing_of_more_decoded :
    decoder.decode listing.bytes = .ok
      ⟨1, .applicationsListed ⟨7⟩ ⟨3, 0, "", [{ appId := "a", userId := 1 }]⟩⟩ ∧
    Wider listing.body listingOfMore.body ∧
    decoder.decode listingOfMore.bytes = .ok
      ⟨1, .applicationsListed ⟨7⟩ ⟨3, 0, "", [{ appId := "a", userId := 1 }]⟩⟩ := by
  have decoded : decoder.decode listing.bytes = .ok
      ⟨1, .applicationsListed ⟨7⟩ ⟨3, 0, "", [{ appId := "a", userId := 1 }]⟩⟩ := by
    decide +kernel
  exact ⟨decoded, wider_listing, (decode_wider decoded).2 listing listingOfMore rfl wider_listing⟩

end SessionNotification

end EventClient
