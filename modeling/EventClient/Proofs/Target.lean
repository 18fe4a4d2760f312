import EventClient.Target
import EventClient.Proofs.Json.Decoders

/-!
Targets as they are written and read. The selectors that are set become the members of one object;
a target for the user and one for the daemon differ in the name of one of them and in how they tell
the user, so both are the same object of five optional members.
-/
namespace EventClient

open Json

theorem Text.bytes_of_ofBytes? {encoded : Bytes} {text : String}
    (h : Text.ofBytes? encoded = some text) : Text.bytes text = encoded := by
  simp only [Text.ofBytes?, String.fromUTF8?] at h
  split at h
  · cases h
    rfl
  · cases h

namespace Json

/-! ### Members without brackets -/

/-- What is written of a value is read back, is there, and has no brackets. -/
structure Plain {α : Type} (d : Decoder α) (v : Json) (a : α) : Prop where
  reads : d.Reads v a
  there : v ≠ .null
  flat : v.depth = 0

theorem Plain.string (text : String) : Plain Decoder.string (.string text) text :=
  ⟨.string text, nofun, rfl⟩

theorem Plain.uint32 (n : UInt32) : Plain Decoder.uint32 (.ofNat n.toNat) n :=
  ⟨.uint32 n, nofun, rfl⟩

theorem Plain.of_string (text : String) (v : Json)
    (h : (.ok (.string text) : Except ClientError Json) = .ok v) :
    Plain Decoder.string v text := by
  cases h
  exact .string text

theorem Plain.of_uint32 (n : UInt32) (v : Json)
    (h : (.ok (.ofNat n.toNat) : Except ClientError Json) = .ok v) :
    Plain Decoder.uint32 v n := by
  cases h
  exact .uint32 n

/-- A member that is only written when it is set is read as it was, set or not. -/
theorem Record.Reads.member {α : Type} {d : Decoder α} {name : String}
    {write : α → Except ClientError Json} (plain : ∀ a v, write a = .ok v → Plain d v a)
    {value : Option α} {members : List (String × Json)}
    (h : Json.member name write value = .ok members) :
    (Record.optional name d).Reads members value ∧ membersDepth members = 0 := by
  cases value with
  | none =>
      cases h
      exact ⟨.absent name _ none, rfl⟩
  | some a =>
      simp only [Json.member, bind, Except.bind] at h
      split at h
      · cases h
      · next v written =>
          cases h
          obtain ⟨reads, there, flat⟩ := plain a v written
          exact ⟨.field (reads.optional there) name _, by simp [membersDepth, flat]⟩

theorem member_ok {α : Type} (name : String) (write : α → Except ClientError Json)
    {value : Option α} (writes : ∀ a ∈ value, ∃ v, write a = .ok v) :
    ∃ members, Json.member name write value = .ok members := by
  cases value with
  | none => exact ⟨[], rfl⟩
  | some a =>
      obtain ⟨v, written⟩ := writes a rfl
      exact ⟨[(name, v)], by simp only [Json.member, written, bind, Except.bind]; rfl⟩

theorem membersDepth_append (members later : List (String × Json)) :
    membersDepth (members ++ later) = max (membersDepth members) (membersDepth later) := by
  induction members with
  | nil => simp [membersDepth]
  | cons m members ih => simp only [List.cons_append, membersDepth, ih, Nat.max_assoc]

end Json

/-! ### Paths -/

/-- The bytes of the path are those of a text. -/
def Path.IsText (path : Path) : Prop := ∃ text, path = .ofText text

theorem Path.toJson_ofText (text : String) : (Path.ofText text).toJson = .ok (.string text) := by
  simp only [Path.toJson, Path.ofText, Text.ofBytes?_bytes]

theorem Path.plain {path : Path} {v : Json} (h : path.toJson = .ok v) :
    Plain Path.decoder v path := by
  simp only [Path.toJson] at h
  split at h
  · next text read =>
      cases h
      have made := (Decoder.Reads.string text).map Path.ofText
      rw [Path.ofText, Text.bytes_of_ofBytes? read] at made
      exact ⟨made, nofun, rfl⟩
  · cases h

/-! ### Selectors -/

/-- The label, the application, the binary, the user and the process. -/
abbrev Selectors (υ : Type) :=
  Option String × Option String × Option Path × Option υ × Option UInt32

namespace Selectors

variable {υ : Type}

def toJson (key : String) (user : υ → Except ClientError Json) :
    Selectors υ → Except ClientError Json
  | (label, appId, binary, name, process) => do
    let label ← Json.member "label" (fun text => .ok (.string text)) label
    let appId ← Json.member key (fun text => .ok (.string text)) appId
    let binary ← Json.member "binary" Path.toJson binary
    let user ← Json.member "user" user name
    let process ← Json.member "process" (fun n => .ok (Json.ofNat n.toNat)) process
    return .object (label ++ appId ++ binary ++ user ++ process)

def record (key : String) (user : Decoder υ) : Record (Selectors υ) :=
  (Json.Record.optional "label" .string).and <|
  (Json.Record.optional key .string).and <|
  (Json.Record.optional "binary" Path.decoder).and <|
  (Json.Record.optional "user" user).and <|
  Json.Record.optional "process" .uint32

variable {key : String} {write : υ → Except ClientError Json} {d : Decoder υ} {s : Selectors υ}

/-- The selector that only a text can tell. -/
def binary (s : Selectors υ) : Option Path := s.2.2.1

theorem reads (differ : key ∉ ["label", "binary", "user", "process"])
    (plain : ∀ a v, write a = .ok v → Plain d v a) {v : Json} (h : s.toJson key write = .ok v) :
    ∃ members, v = .object members ∧ (record key d).Reads members s ∧
      membersDepth members = 0 := by
  obtain ⟨label, appId, binary, user, process⟩ := s
  simp only [toJson, bind, Except.bind] at h
  split at h
  · cases h
  split at h
  · cases h
  split at h
  · cases h
  split at h
  · cases h
  split at h
  · cases h
  next label hlabel _ appId hAppId _ binary hbinary _ user huser _ process hprocess =>
  cases h
  obtain ⟨label, flat₁⟩ := Json.Record.Reads.member Plain.of_string hlabel
  obtain ⟨appId, flat₂⟩ := Json.Record.Reads.member Plain.of_string hAppId
  obtain ⟨binary, flat₃⟩ := Json.Record.Reads.member (fun _ _ => Path.plain) hbinary
  obtain ⟨user, flat₄⟩ := Json.Record.Reads.member plain huser
  obtain ⟨process, flat₅⟩ := Json.Record.Reads.member Plain.of_uint32 hprocess
  -- Members combine as long as their names differ, from the last one on.
  simp only [List.mem_cons, List.not_mem_nil, or_false, not_or] at differ
  obtain ⟨label', binary', user', process'⟩ := differ
  have last := user.and process (by simp)
  have last := binary.and last (by simp)
  have last := appId.and last (by simp [Ne.symm binary', Ne.symm user', Ne.symm process'])
  have whole := label.and last (by simp [label'])
  simp only [← List.append_assoc] at whole
  refine ⟨_, rfl, whole, ?_⟩
  simp [membersDepth_append, flat₁, flat₂, flat₃, flat₄, flat₅]

theorem toJson_ok (key : String) (writes : ∀ a, ∃ v, write a = .ok v)
    (path : ∀ path ∈ s.binary, path.IsText) : ∃ v, s.toJson key write = .ok v := by
  obtain ⟨label, appId, binary, user, process⟩ := s
  have text (name : String) (value : Option String) :=
    member_ok name (fun text => .ok (.string text)) fun _ (_ : _ ∈ value) => ⟨_, rfl⟩
  have binary : ∃ members, Json.member "binary" Path.toJson binary = .ok members :=
    member_ok "binary" Path.toJson fun p there => by
      obtain ⟨text, rfl⟩ := path p there
      exact ⟨_, Path.toJson_ofText text⟩
  obtain ⟨_, label⟩ := text "label" label
  obtain ⟨_, appId⟩ := text key appId
  obtain ⟨_, binary⟩ := binary
  obtain ⟨_, user⟩ := member_ok "user" write fun a (_ : a ∈ user) => writes a
  obtain ⟨_, process⟩ := member_ok "process" (fun n : UInt32 => .ok (Json.ofNat n.toNat))
    fun n (_ : n ∈ process) => ⟨_, rfl⟩
  simp only [toJson, label, appId, binary, user, process, bind, Except.bind]
  exact ⟨_, rfl⟩

end Selectors

def Target.selectors (t : Target) : Selectors String :=
  (t.label, t.appId, t.binary, t.user, t.process)

def ResolvedTarget.selectors (t : ResolvedTarget) : Selectors UInt32 :=
  (t.label, t.appId, t.binary, t.user, t.process)

theorem Target.toJson_eq (t : Target) :
    t.toJson = t.selectors.toJson "app_id" fun text => .ok (.string text) :=
  rfl

theorem ResolvedTarget.toJson_eq (t : ResolvedTarget) :
    t.toJson = t.selectors.toJson "appid" fun n => .ok (.ofNat n.toNat) :=
  rfl

theorem Target.carries {t : Target} (path : ∀ path ∈ t.binary, path.IsText) :
    Carries Target.toJson Target.decoder 1 t := by
  have path : ∀ path ∈ t.selectors.binary, path.IsText := path
  obtain ⟨v, written⟩ := Selectors.toJson_ok "app_id" (fun text => ⟨.string text, rfl⟩) path
  obtain ⟨members, rfl, reads, flat⟩ := Selectors.reads (by decide) Plain.of_string written
  exact ⟨_, t.toJson_eq.trans written, (reads.map _).decoder, Nat.succ_le_succ (Nat.le_of_eq flat)⟩

theorem ResolvedTarget.reads {t : ResolvedTarget} {v : Json} (h : t.toJson = .ok v) :
    ResolvedTarget.decoder.Reads v t ∧ v.depth = 1 := by
  rw [t.toJson_eq] at h
  obtain ⟨members, rfl, reads, flat⟩ := Selectors.reads (by decide) Plain.of_uint32 h
  exact ⟨(reads.map _).decoder, by rw [depth, flat]⟩

theorem ResolvedTarget.carries {t : ResolvedTarget} (path : ∀ path ∈ t.binary, path.IsText) :
    Carries ResolvedTarget.toJson ResolvedTarget.decoder 1 t := by
  have path : ∀ path ∈ t.selectors.binary, path.IsText := path
  obtain ⟨v, written⟩ := Selectors.toJson_ok "appid" (fun n => ⟨.ofNat n.toNat, rfl⟩) path
  rw [← t.toJson_eq] at written
  obtain ⟨reads, flat⟩ := ResolvedTarget.reads written
  exact ⟨v, written, reads, Nat.le_of_eq flat⟩

end EventClient
