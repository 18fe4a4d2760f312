import EventClient.Client.Lifecycle
import EventClient.Proofs.TracePattern
import EventClient.Transport.Loopback

/-!
Enabling the framework's tracing. The patterns of a call are those that their texts stand for, and
they travel as these texts; a list with an entry that is no pattern fails as a whole, with nothing
handed to the transport.
-/
namespace EventClient.Client

open TracePattern

variable {T κ : Type} [Transport T]

/-- A list in which an entry is no pattern changes nothing, the transport included. -/
theorem enableTracing_refused {written : List String} {e : ClientError}
    (h : parseAll written = .error e) (s : Client T κ) :
    s.enableTracing written = (.error e, s) := by
  rw [enableTracing, h]

/-- Otherwise the transport is handed the patterns, and its answer is the client's. -/
theorem enableTracing_parsed {written : List String} {patterns : List TracePattern}
    (h : parseAll written = .ok patterns) (s : Client T κ) :
    (s.enableTracing written).1 = (Transport.perform s.transport (.setTracing patterns)).2 ∧
      (s.enableTracing written).2.transport =
        (Transport.perform s.transport (.setTracing patterns)).1 := by
  rw [enableTracing, h]
  dsimp only
  split <;> next answer => rw [answer]; exact ⟨rfl, rfl⟩

/-- A text is read as a pattern exactly if something is left of it, and the pattern shows what is
left. So patterns are read back from their texts, one by one and as a list on the wire, and tracing
is enabled by the patterns of a list or, if an entry is none, not at all. -/
theorem patterns_read_back (s : Client T κ) (list : List String) :
    (∀ written, (¬ IsPattern written ↔
        ∃ e, parse written = .error e ∧ e.isInvalidArgument = true) ∧
      (IsPattern written ↔ ∃ p, parse written = .ok p) ∧
      ∀ p, parse written = .ok p → p.text = Text.trim written ∧ parse p.text = .ok p ∧
        ∀ written' p', parse written' = .ok p' →
          (p = p' ↔ Text.trim written = Text.trim written')) ∧
    (∀ patterns, parseAll list = .ok patterns →
      patterns.map text = list.map Text.trim ∧
      decoder.list.decode (Json.list (patterns.map toJson)).encode = .ok patterns ∧
      (s.enableTracing list).1 = (Transport.perform s.transport (.setTracing patterns)).2 ∧
      (s.enableTracing list).2.transport =
        (Transport.perform s.transport (.setTracing patterns)).1) ∧
    ((∃ written ∈ list, ¬ IsPattern written) ↔
      ∃ e, parseAll list = .error e ∧ e.isInvalidArgument = true ∧
        s.enableTracing list = (.error e, s)) := by
  refine ⟨?_, ?_, ?_⟩
  · intro written
    refine ⟨not_isPattern_iff, isPattern_iff, fun p h => ?_⟩
    exact ⟨text_parse h, parse_text h, fun written' p' h' => parse_inj h h'⟩
  · intro patterns h
    exact ⟨texts_parseAll h, decode_patterns h, enableTracing_parsed h s⟩
  · constructor
    · rintro ⟨written, there, none⟩
      cases h : parseAll list with
      | ok patterns => exact absurd (isPattern_of_parseAll h written there) none
      | error e => exact ⟨e, rfl, (parseAll_error h).1, enableTracing_refused h s⟩
    · rintro ⟨e, h, -, -⟩
      exact (parseAll_error h).2

/-- Names that start like another kind of pattern, or between blank ends of any kind. -/
def oddlyNamed : List String := ["\u2003@ *\x85", "@@", "**", "\u3000*\x0b"]

theorem oddlyNamed_read_back :
    let patterns : List TracePattern := [.unit " *", .unit "@", .operation "**", .all]
    let s : Client Loopback Nat := { transport := {} }
    parse "\u2003@ *\x85" = .ok (.unit " *") ∧ parse "@ *" = .ok (.unit " *") ∧
      parseAll oddlyNamed = .ok patterns ∧
      decoder.list.decode (Json.list (patterns.map toJson)).encode = .ok patterns ∧
      (s.enableTracing oddlyNamed).2.transport.calls = [.setTracing patterns] ∧
      ∃ e, s.enableTracing (oddlyNamed ++ ["\xa0@\x09"]) = (.error e, s) := by
  intro patterns s
  have first : parse "\u2003@ *\x85" = .ok (.unit " *") := by decide
  have all : parseAll oddlyNamed = .ok patterns := by decide
  have nameless : ¬ IsPattern "\xa0@\x09" := fun is => is.2 (by decide)
  obtain ⟨single, listed, -⟩ := patterns_read_back s oddlyNamed
  obtain ⟨-, back, -⟩ := (single _).2.2 _ first
  obtain ⟨-, read, -, handed⟩ := listed patterns all
  obtain ⟨e, -, -, refused⟩ := (patterns_read_back s (oddlyNamed ++ ["\xa0@\x09"])).2.2.mp
    ⟨_, List.mem_append_right _ List.mem_cons_self, nameless⟩
  exact ⟨first, back, all, read, congrArg Loopback.calls handed, e, refused⟩

end EventClient.Client
