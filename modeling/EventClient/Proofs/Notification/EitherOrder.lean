import EventClient.Proofs.Json.Kept
import EventClient.Proofs.Notification

/-!
The method of a notification and its content may be written in either order. Where the method comes
first, the content is read as what the method says; where the content comes first, it is kept as a
value and taken as what the method says later. Both come to the same, as long as the content has no
names that nobody knows.
-/
namespace EventClient

open Json

/-! ### What is read of the parts -/

theorem CorrelationId.direct : CorrelationId.decoder.Direct := Decoder.Direct.uint64.map _

theorem Application.direct : record.Direct := fun _ _ =>
  (Record.FaithfulAt.and (.required .string) <|
    .and (.defaulted .string "") <|
    .and (.defaulted (Decoder.Direct.string.map _) _) <|
    .and (.required .uint32) <|
    .defaulted (.list .string) []).map _

theorem Application.settled : decoder.Settled :=
  .of_yields fun levels w => ⟨_, Record.decoder_yields direct.settled levels w⟩

namespace Notification

theorem sendRecord_direct : sendRecord.Direct := fun _ _ =>
  (Record.FaithfulAt.and (.required CorrelationId.direct) <|
    .and (.required .int32) <|
    .and (.required .int32) <|
    .defaulted .string "").map _

theorem eventRecord_direct : eventRecord.Direct := fun _ _ =>
  (Record.FaithfulAt.and (.required .string) <| .defaulted .string noPayload).map _

theorem statusRecord_direct : statusRecord.Direct := fun _ _ =>
  (Record.FaithfulAt.and (.required .int32) <|
    .and (.required .int32) <|
    .and (.defaulted .string "") <|
    .defaulted .string noPayload).map _

/-- Only the applications of a listing are records themselves. -/
theorem listRecord_faithful {name : String} {w : Writing}
    (h : "applications" = name → Application.decoder.list.Faithful w) :
    listRecord.FaithfulAt name w :=
  (Record.FaithfulAt.and (.required CorrelationId.direct) <|
    .and (.required .int32) <|
    .and (.required .int32) <|
    .and (.defaulted .string "") <|
    .field Application.settled.list h _).map _

theorem listRecord_settled : listRecord.Settled :=
  (@listRecord_faithful "" .null nofun).settled

/-- The content of a notification, by its method. -/
def records : List (String × Record Notification) := [
  ("send_completed", sendRecord),
  ("applications_listed", listRecord),
  ("event", eventRecord),
  ("subscription_status", statusRecord)]

theorem variants_eq : variants =
    records.map fun entry => { method := entry.1, params := entry.2.objectDecoder } := rfl

theorem settled_of_record : ∀ entry ∈ records, entry.2.Settled := by
  simp only [records, List.forall_mem_cons]
  exact ⟨sendRecord_direct.settled, listRecord_settled, eventRecord_direct.settled,
    statusRecord_direct.settled, List.forall_mem_nil _⟩

theorem variants_settled : ∀ variant ∈ variants, variant.params.Settled := by
  rw [variants_eq, List.forall_mem_map]
  exact fun entry there => .of_yields fun levels w =>
    ⟨_, Record.objectDecoder_yields (settled_of_record entry there) levels w⟩

theorem decoder_settled : decoder.Settled :=
  .of_yields fun levels w => ⟨_, Variant.decoder_yields variants_settled levels w⟩

/-- Every object that is decoded into a record has names of the record only: the content itself, and
the applications that it lists. -/
structure OnlyKnown (record : Record Notification) (w : Writing) : Prop where
  content : w.HasOnly record.names
  applications : ∀ members closing, w = .object members closing → ∀ member ∈ members,
    member.1.name? = some "applications" → ∀ items closing, member.2 = .list items closing →
      ∀ item ∈ items, item.2.HasOnly Application.record.names

theorem faithful_of_onlyKnown {entry : String × Record Notification} (there : entry ∈ records)
    {w : Writing} (known : OnlyKnown entry.2 w) : entry.2.objectDecoder.Faithful w := by
  refine .object (settled_of_record entry there) known.content ?_
  intro members closing object member inside name written
  simp only [records, List.mem_cons, List.not_mem_nil, or_false] at there
  rcases there with rfl | rfl | rfl | rfl
  · exact sendRecord_direct name member.2
  · refine listRecord_faithful ?_
    rintro rfl
    have each := known.applications members closing object member inside written
    cases list : member.2 with
    | list items gap =>
        exact .list Application.settled
          (fun item there => .record Application.direct (each items gap list item there)) gap
    | _ => exact .list_other _ (by simp)
  · exact eventRecord_direct name member.2
  · exact statusRecord_direct name member.2

theorem params_faithful {levels : Nat} {m p : Writing}
    (known : ∀ method record, m.tag? levels = some method → (method, record) ∈ records →
      OnlyKnown record p) {variant : Variant Notification}
    (named : (Variant.names variants).on levels m = some variant) : variant.params.Faithful p := by
  obtain ⟨there, tagged⟩ := Variant.names_eq_some named
  rw [variants_eq] at there
  obtain ⟨entry, listed, rfl⟩ := List.mem_map.mp there
  exact faithful_of_onlyKnown listed (known entry.1 entry.2 tagged listed)

/-! ### Both orders -/

/-- The text of a notification, from the texts of its method and of its content. -/
def methodFirst (method params : Bytes) : Bytes :=
  Text.bytes "\x7b\"method\":" ++ method ++ Text.bytes ",\"params\":" ++ params ++
    Text.bytes "\x7d"

def paramsFirst (method params : Bytes) : Bytes :=
  Text.bytes "\x7b\"params\":" ++ params ++ Text.bytes ",\"method\":" ++ method ++
    Text.bytes "\x7d"

/-- The label of one of the two members. -/
def partLabel (part : Variant.Part) (before value : Gap) : Label where
  separator := ⟨before, .none⟩
  content := .of (Text.bytes part.name)
  colon := .none
  value := value

theorem partLabel_name (part : Variant.Part) (before value : Gap) :
    (partLabel part before value).name? = some part.name :=
  Content.text?_of part.name

/-- The names of both parts need no escapes. -/
theorem bytes_part (part : Variant.Part) :
    (Content.of (Text.bytes part.name)).bytes = Text.bytes part.name := by
  cases part <;> decide

/-- Two members in order. -/
def pair (first second : Variant.Part) (d d' : Document) : Document where
  front := .none
  body := .object [(partLabel first .none d.front, d.body),
    (partLabel second d.back d'.front, d'.body)] d'.back
  back := .none

theorem bytes_pair (first second : Variant.Part) (d d' : Document) :
    (pair first second d d').bytes =
      Text.bytes "\x7b\"" ++ Text.bytes first.name ++ Text.bytes "\":" ++ d.bytes ++
        Text.bytes ",\"" ++ Text.bytes second.name ++ Text.bytes "\":" ++ d'.bytes ++
        Text.bytes "\x7d" := by
  have opening : Text.bytes "\x7b\"" = [ascii '\x7b', ascii '"'] := by decide
  have named : Text.bytes "\":" = [ascii '"', ascii ':'] := by decide
  have next : Text.bytes ",\"" = [ascii ',', ascii '"'] := by decide
  have closing : Text.bytes "\x7d" = [ascii '\x7d'] := by decide
  simp only [pair, Document.bytes, Writing.bytes, Writing.membersBytes, Label.bytes,
    Separator.bytes, partLabel, Gap.none, bytes_part, opening, named, next, closing,
    if_true, Bool.false_eq_true, if_false, List.append_assoc, List.cons_append, List.nil_append,
    List.append_nil]

theorem bytes_methodFirst (method params : Document) :
    (pair .method .params method params).bytes = methodFirst method.bytes params.bytes := by
  have opening : Text.bytes "\x7b\"method\":" =
      Text.bytes "\x7b\"" ++ Text.bytes "method" ++ Text.bytes "\":" := by decide
  have next : Text.bytes ",\"params\":" =
      Text.bytes ",\"" ++ Text.bytes "params" ++ Text.bytes "\":" := by decide
  rw [bytes_pair, methodFirst, opening, next]
  simp only [List.append_assoc, Variant.Part.name]

theorem bytes_paramsFirst (method params : Document) :
    (pair .params .method params method).bytes = paramsFirst method.bytes params.bytes := by
  have opening : Text.bytes "\x7b\"params\":" =
      Text.bytes "\x7b\"" ++ Text.bytes "params" ++ Text.bytes "\":" := by decide
  have next : Text.bytes ",\"method\":" =
      Text.bytes ",\"" ++ Text.bytes "method" ++ Text.bytes "\":" := by decide
  rw [bytes_pair, paramsFirst, opening, next]
  simp only [List.append_assoc, Variant.Part.name]

theorem on_eq_bracketed (levels : Nat) (w : Writing) :
    decoder.on levels w =
      Decoder.bracketed (Variant.onObject variants) (Variant.onList variants) levels w :=
  (Variant.decoder_yields variants_settled levels w).on

/-- The induction over all that may stand in the two values is behind `params_faithful`: what is
left is that the method picks the same reader for the content. -/
theorem decode_either_order (method params : Document)
    (known : ∀ name record, method.body.tag? nestingLimit = some name → (name, record) ∈ records →
      OnlyKnown record params.body) :
    (decoder.decode (methodFirst method.bytes params.bytes)).toOption =
      (decoder.decode (paramsFirst method.bytes params.bytes)).toOption := by
  rw [← bytes_methodFirst, ← bytes_paramsFirst, decoder_settled.decode, decoder_settled.decode,
    on_eq_bracketed, on_eq_bracketed]
  refine Variant.onObject_either_order (partLabel_name ..) (partLabel_name ..)
    fun variant named => ?_
  exact params_faithful
    (fun name record tagged there => known name record (Writing.tag?_of_tag? tagged _) there) named

/-- The method of a listing, with a letter spelled by its code. -/
def listingMethod : Document where
  front := .none
  body := .string (.unit (ascii '0') (ascii '0') (ascii '6') (ascii '1') 97 (by decide) ::
    Content.of (Text.bytes "pplications_listed"))
  back := .none

/-- One application that has no more than it must have. -/
def listingApplications : Writing :=
  .list [(⟨.none, .none⟩, .object [
    (.bare "app_id", .string (.of (Text.bytes "a"))),
    (.bare "user_id", .number (.digit 1))] .none)] .none

def listingParams : Document where
  front := .none
  body := .object [
    (.bare "id", .number (.digit 7)),
    (.bare "request_id", .number (.digit 3)),
    (.bare "status", .number (.digit 0)),
    (.bare "applications", listingApplications)] .none
  back := .none

theorem listing_in_either_order :
    (∀ name record, listingMethod.body.tag? nestingLimit = some name → (name, record) ∈ records →
      OnlyKnown record listingParams.body) ∧
    (decoder.decode (methodFirst listingMethod.bytes listingParams.bytes)).toOption =
      (decoder.decode (paramsFirst listingMethod.bytes listingParams.bytes)).toOption ∧
    (decoder.decode (methodFirst listingMethod.bytes listingParams.bytes)).toOption =
      some (.applicationsListed ⟨7⟩ ⟨3, 0, "", [{ appId := "a", userId := 1 }]⟩) := by
  have known : ∀ name record, listingMethod.body.tag? nestingLimit = some name →
      (name, record) ∈ records → OnlyKnown record listingParams.body := by
    intro name record tagged there
    have listing : listingMethod.body.tag? nestingLimit = some "applications_listed" := by
      decide +kernel
    obtain rfl := Option.some.inj (listing.symm.trans tagged)
    obtain rfl : record = listRecord := by simpa [records] using there
    have applications : ∀ items closing, (listingApplications : Writing) = .list items closing →
        ∀ item ∈ items, item.2.HasOnly Application.record.names := by
      rintro _ _ ⟨⟩
      rw [List.forall_mem_singleton]
      decide +kernel
    refine ⟨by decide +kernel, ?_⟩
    rintro _ _ ⟨⟩
    simp only [List.forall_mem_cons]
    exact ⟨nofun, nofun, nofun, fun _ => applications, nofun⟩
  exact ⟨known, decode_either_order listingMethod listingParams known, by decide +kernel⟩

end Notification

end EventClient
