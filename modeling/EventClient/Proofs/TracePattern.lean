import EventClient.TracePattern
import EventClient.Proofs.Json.Decoders
import EventClient.Proofs.Text.Blank

/-!
Tracing patterns are shown the way they are written: the text of a pattern is what was parsed
without its blank ends, and parsing it again gives the same pattern. So a pattern is what is left of
a text, and lists of patterns come back from the texts that they are sent as.
-/
namespace EventClient.TracePattern

/-- Something is left to name once the blank ends and the mark of a unit are gone. -/
def IsPattern (written : String) : Prop := Text.trim written ≠ "" ∧ Text.trim written ≠ "@"

theorem text_ofTrimmed {written : String} {p : TracePattern} (h : ofTrimmed written = .ok p) :
    p.text = written := by
  simp only [ofTrimmed] at h
  split at h
  · cases h
  split at h
  · next star =>
      cases h
      exact star.symm
  split at h
  · cases h
  · next name _ unit =>
      cases h
      rw [text, ← String.toList_inj, unit]
      simp
  · cases h
    rfl

theorem text_parse {written : String} {p : TracePattern} (h : parse written = .ok p) :
    p.text = Text.trim written :=
  text_ofTrimmed h

/-- The text of a pattern is one way to write it. -/
theorem parse_text {written : String} {p : TracePattern} (h : parse written = .ok p) :
    parse p.text = .ok p := by
  rw [text_parse h, parse, Text.trim_trim]
  exact h

/-- What a text without blank ends is refused for. -/
theorem ofTrimmed_error {written : String} {e : ClientError} (h : ofTrimmed written = .error e) :
    (written = "" ∧ e = .emptyPattern) ∨ (written = "@" ∧ e = .namelessUnit) := by
  simp only [ofTrimmed] at h
  split at h
  · next empty => exact .inl ⟨empty, (Except.error.inj h).symm⟩
  split at h
  · cases h
  split at h
  · next at_sign =>
      refine .inr ⟨?_, (Except.error.inj h).symm⟩
      rw [← String.toList_inj, at_sign]
      rfl
  · cases h
  · cases h

theorem parse_error {written : String} {e : ClientError} (h : parse written = .error e) :
    ¬ IsPattern written ∧ e.isInvalidArgument = true := by
  rcases ofTrimmed_error h with ⟨empty, rfl⟩ | ⟨nameless, rfl⟩
  · exact ⟨fun is => is.1 empty, rfl⟩
  · exact ⟨fun is => is.2 nameless, rfl⟩

theorem isPattern_of_parse {written : String} {p : TracePattern} (h : parse written = .ok p) :
    IsPattern written := by
  constructor <;> intro nothing <;> rw [parse, nothing] at h <;> cases h

theorem isPattern_iff {written : String} : IsPattern written ↔ ∃ p, parse written = .ok p := by
  constructor
  · intro is
    cases h : parse written with
    | ok p => exact ⟨p, rfl⟩
    | error e => exact absurd is (parse_error h).1
  · rintro ⟨p, h⟩
    exact isPattern_of_parse h

theorem not_isPattern_iff {written : String} :
    ¬ IsPattern written ↔ ∃ e, parse written = .error e ∧ e.isInvalidArgument = true := by
  constructor
  · intro none
    cases h : parse written with
    | ok p => exact absurd (isPattern_of_parse h) none
    | error e => exact ⟨e, rfl, (parse_error h).2⟩
  · rintro ⟨e, h, _⟩
    exact (parse_error h).1

/-- Texts stand for one pattern if they differ in their blank ends alone. -/
theorem parse_inj {written written' : String} {p p' : TracePattern} (h : parse written = .ok p)
    (h' : parse written' = .ok p') : p = p' ↔ Text.trim written = Text.trim written' := by
  constructor
  · rintro rfl
    rw [← text_parse h, ← text_parse h']
  · intro same
    rw [parse, same] at h
    exact Except.ok.inj (h.symm.trans h')

theorem reads {p : TracePattern} (h : parse p.text = .ok p) : decoder.Reads p.toJson p :=
  (Json.Decoder.Reads.string p.text).refine (by simp only [h])

/-! ### Lists of patterns -/

theorem parseAll_ok_iff {written : List String} {patterns : List TracePattern} :
    parseAll written = .ok patterns ↔
      List.Forall₂ (fun text p => parse text = .ok p) written patterns :=
  Json.mapM_ok_iff

theorem parseAll_error {written : List String} {e : ClientError} (h : parseAll written = .error e) :
    e.isInvalidArgument = true ∧ ∃ text ∈ written, ¬ IsPattern text := by
  obtain ⟨text, there, failed⟩ := Json.mapM_error h
  obtain ⟨none, invalid⟩ := parse_error failed
  exact ⟨invalid, text, there, none⟩

theorem isPattern_of_parseAll {written : List String} {patterns : List TracePattern}
    (h : parseAll written = .ok patterns) : ∀ text ∈ written, IsPattern text := by
  rw [parseAll_ok_iff] at h
  induction h with
  | nil => exact nofun
  | cons first _ ih => exact List.forall_mem_cons.mpr ⟨isPattern_of_parse first, ih⟩

/-- The patterns of a list show what was written, without the blank ends. -/
theorem texts_parseAll {written : List String} {patterns : List TracePattern}
    (h : parseAll written = .ok patterns) : patterns.map text = written.map Text.trim := by
  rw [parseAll_ok_iff] at h
  induction h with
  | nil => rfl
  | cons first _ ih => rw [List.map_cons, List.map_cons, text_parse first, ih]

theorem parse_text_of_parseAll {written : List String} {patterns : List TracePattern}
    (h : parseAll written = .ok patterns) : ∀ p ∈ patterns, parse p.text = .ok p := by
  rw [parseAll_ok_iff] at h
  induction h with
  | nil => exact nofun
  | cons first _ ih => exact List.forall_mem_cons.mpr ⟨parse_text first, ih⟩

/-- The patterns of an accepted list are read back from their texts. -/
theorem decode_patterns {written : List String} {patterns : List TracePattern}
    (h : parseAll written = .ok patterns) :
    decoder.list.decode (Json.list (patterns.map toJson)).encode = .ok patterns := by
  have each : ∀ p ∈ patterns, decoder.Reads p.toJson p :=
    fun p there => reads (parse_text_of_parseAll h p there)
  refine (Json.Decoder.Reads.listOf each).decode ?_
  have flat : Json.itemsDepth (patterns.map toJson) ≤ 0 :=
    Json.itemsDepth_map (fun _ => Nat.le_refl 0) patterns
  exact Nat.le_trans (Nat.add_le_add_right flat 1) (by decide)

end EventClient.TracePattern
