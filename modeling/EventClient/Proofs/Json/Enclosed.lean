import Mathlib.Data.List.DropRight
import EventClient.Proofs.Json.Accepted

/-!
Values that are read, or passed over, were written, with everything inside their brackets. What a
reader goes through step by step is put together from behind: the last step leaves what is behind
the value, and each step before it has put a part in front.
-/
namespace EventClient.Json

/-! ### Gaps and values -/

theorem exists_gap (text : Bytes) : ∃ gap : Gap, text = gap.bytes ++ skipSpace text :=
  ⟨⟨text.takeWhile isSpace, List.all_takeWhile⟩, List.takeWhile_append_dropWhile.symm⟩

def Gap.append (gap gap' : Gap) : Gap :=
  ⟨gap.bytes ++ gap'.bytes, by rw [List.all_append, gap.blank, gap'.blank]; rfl⟩

/-- A value stands in front of `rest`, perhaps behind spaces. -/
def EndsValue (text rest : Bytes) : Prop :=
  ∃ (gap : Gap) (w : Writing), text = gap.bytes ++ (w.bytes ++ rest)

/-- The items of a list and its closing bracket stand in front of `rest`. -/
def EndsList (first : Bool) (text rest : Bytes) : Prop :=
  ∃ items closing, text = Writing.listTail first items closing rest

def EndsObject (first : Bool) (text rest : Bytes) : Prop :=
  ∃ members closing, text = Writing.objectTail first members closing rest

theorem readWord_ok {word text rest : Bytes} (h : readWord word text = .ok rest) :
    text = word ++ rest := by
  induction word generalizing text with
  | nil =>
      rw [readWord] at h
      cases h
      rfl
  | cons letter word ih =>
      cases text with
      | nil => cases h
      | cons b text =>
          rw [readWord] at h
          split at h
          · next same => rw [same, ih h, List.cons_append]
          · cases h

namespace EndsValue

variable {text text' rest : Bytes}

theorem of_writing {w : Writing} (h : skipSpace text = w.bytes ++ rest) : EndsValue text rest := by
  obtain ⟨gap, written⟩ := exists_gap text
  exact ⟨gap, w, written.trans (congrArg _ h)⟩

theorem string (h : skipSpace text = ascii '"' :: text') (inside : EndsText text' rest) :
    EndsValue text rest := by
  obtain ⟨content, rfl⟩ := inside
  exact of_writing (h.trans (Writing.string_append content rest).symm)

theorem list (h : skipSpace text = ascii '[' :: text') (inside : EndsList true text' rest) :
    EndsValue text rest := by
  obtain ⟨items, closing, rfl⟩ := inside
  exact of_writing (h.trans (Writing.list_append items closing rest).symm)

theorem object (h : skipSpace text = ascii '\x7b' :: text') (inside : EndsObject true text' rest) :
    EndsValue text rest := by
  obtain ⟨members, closing, rfl⟩ := inside
  exact of_writing (h.trans (Writing.object_append members closing rest).symm)

theorem null (h : skipSpace text = ascii 'n' :: text')
    (word : readWord (Text.bytes "ull") text' = .ok rest) : EndsValue text rest :=
  of_writing (w := .null) (h.trans (congrArg (ascii 'n' :: ·) (readWord_ok word)))

theorem bool (value : Bool) {letter : UInt8} {word : Bytes} (h : skipSpace text = letter :: text')
    (spelled : Text.bytes (if value then "true" else "false") = letter :: word)
    (read : readWord word text' = .ok rest) : EndsValue text rest := by
  refine of_writing (w := .bool value) ?_
  rw [h, readWord_ok read, Writing.bytes, spelled, List.cons_append]

theorem number {n : Numeral} (h : skipSpace text = n.bytes ++ rest) : EndsValue text rest :=
  of_writing (w := .number n) h

theorem of_readScalar {first : UInt8} {value : Json} (h : skipSpace text = first :: text')
    (read : readScalar first text' = .ok (value, rest)) : EndsValue text rest := by
  rw [readScalar] at read
  split at read
  · next letter =>
      subst letter
      obtain ⟨_, word, same⟩ := bind_ok read
      cases same
      exact null h word
  split at read
  · next letter =>
      subst letter
      obtain ⟨_, word, same⟩ := bind_ok read
      cases same
      exact bool true h rfl word
  split at read
  · next letter =>
      subst letter
      obtain ⟨_, word, same⟩ := bind_ok read
      cases same
      exact bool false h rfl word
  split at read
  · obtain ⟨⟨value, rest'⟩, digits, same⟩ := bind_ok read
    cases same
    obtain ⟨n, written⟩ := readNumber_ok digits
    exact number (h.trans written)
  split at read
  · next quote =>
      subst quote
      obtain ⟨⟨value, rest'⟩, inside, same⟩ := bind_ok read
      cases same
      exact .string h (.of_readText inside)
  · cases read

theorem of_skipScalar {first : UInt8} (h : skipSpace text = first :: text')
    (skip : skipScalar first text' = .ok rest) : EndsValue text rest := by
  rw [skipScalar] at skip
  split at skip
  · next letter =>
      subst letter
      exact null h skip
  split at skip
  · next letter =>
      subst letter
      exact bool true h rfl skip
  split at skip
  · next letter =>
      subst letter
      exact bool false h rfl skip
  split at skip
  · next minus =>
      subst minus
      obtain ⟨n, negative, rfl⟩ := skipMagnitude_ok skip true
      refine number (n := n) (h.trans ?_)
      rw [Numeral.bytes, if_pos negative, List.cons_append]
  split at skip
  · obtain ⟨n, negative, written⟩ := skipMagnitude_ok skip false
    refine number (n := n) (h.trans (written.trans ?_))
    rw [Numeral.bytes, negative]
    rfl
  split at skip
  · next quote =>
      subst quote
      exact .string h (.of_skipText skip)
  · cases skip

end EndsValue

/-! ### Lists and objects -/

/-- From behind the comma, or the bracket, up to the value of a member. -/
def EndsKey (text rest : Bytes) : Prop :=
  ∃ (gap : Gap) (content : Content) (colon : Gap), text = gap.bytes ++ ascii '"' ::
    (content.bytes ++ ascii '"' :: (colon.bytes ++ ascii ':' :: rest))

theorem EndsKey.of_text {text text' behind rest : Bytes} (h : skipSpace text = ascii '"' :: text')
    (inside : EndsText text' behind) (sep : colon behind = .ok rest) : EndsKey text rest := by
  obtain ⟨gap, written⟩ := exists_gap text
  obtain ⟨content, rfl⟩ := inside
  obtain ⟨gap', written'⟩ := exists_gap behind
  rw [colon] at sep
  split at sep
  · cases sep
  · next b rest' visible =>
      split at sep
      · next isColon =>
          cases sep
          rw [visible, isColon] at written'
          exact ⟨gap, content, gap', by rw [written, h, ← written']⟩
      · cases sep

theorem EndsKey.of_skipKey {text rest : Bytes} (h : skipKey text = .ok rest) :
    EndsKey text rest := by
  rw [skipKey] at h
  split at h
  · cases h
  · next b text' visible =>
      split at h
      · next quote =>
          subst quote
          obtain ⟨behind, skip, sep⟩ := bind_ok h
          exact .of_text visible (.of_skipText skip) sep
      · cases h

/-- What is in front of an item, or of a member's value, in front of `rest`. -/
def EndsSeparator (first : Bool) (text rest : Bytes) : Prop :=
  ∃ separator : Separator, text = separator.bytes first ++ rest

def EndsLabel (first : Bool) (text rest : Bytes) : Prop :=
  ∃ label : Label, text = label.bytes first ++ rest

section
variable {first : Bool} {text text' text'' rest : Bytes}

theorem EndsSeparator.start (text : Bytes) : EndsSeparator true text (skipSpace text) := by
  obtain ⟨gap, written⟩ := exists_gap text
  exact ⟨⟨.none, gap⟩, written⟩

theorem EndsSeparator.comma (h : skipSpace text = ascii ',' :: text') (gap : Gap)
    (behind : text' = gap.bytes ++ rest) : EndsSeparator false text rest := by
  obtain ⟨before, written⟩ := exists_gap text
  refine ⟨⟨before, gap⟩, ?_⟩
  rw [written, h, behind, Separator.bytes, if_neg (by decide), List.append_assoc, List.cons_append]

theorem EndsLabel.start (h : EndsKey text rest) : EndsLabel true text rest := by
  obtain ⟨gap, content, colon, rfl⟩ := h
  refine ⟨⟨⟨.none, gap⟩, content, colon, .none⟩, ?_⟩
  simp only [Label.bytes, Separator.bytes, Gap.none, if_true, List.append_assoc, List.cons_append,
    List.nil_append]

theorem EndsLabel.comma (h : skipSpace text = ascii ',' :: text') (key : EndsKey text' rest) :
    EndsLabel false text rest := by
  obtain ⟨before, written⟩ := exists_gap text
  obtain ⟨gap, content, colon, rfl⟩ := key
  refine ⟨⟨⟨before, gap⟩, content, colon, .none⟩, ?_⟩
  rw [written, h]
  simp only [Label.bytes, Separator.bytes, Gap.none, Bool.false_eq_true, if_false,
    List.append_assoc, List.cons_append, List.nil_append]

/-- Spaces in front of a value are also what stands behind the comma. -/
theorem EndsList.cons (before : EndsSeparator first text text') (value : EndsValue text' text'')
    (others : EndsList false text'' rest) : EndsList first text rest := by
  obtain ⟨separator, rfl⟩ := before
  obtain ⟨gap, w, rfl⟩ := value
  obtain ⟨items, closing, rfl⟩ := others
  refine ⟨(⟨separator.before, separator.behind.append gap⟩, w) :: items, closing, ?_⟩
  rw [Writing.listTail_cons]
  cases first <;> simp only [Separator.bytes, Gap.append, Bool.false_eq_true, if_true, if_false,
    List.append_assoc, List.cons_append]

theorem EndsObject.cons (before : EndsLabel first text text') (value : EndsValue text' text'')
    (others : EndsObject false text'' rest) : EndsObject first text rest := by
  obtain ⟨label, rfl⟩ := before
  obtain ⟨gap, w, rfl⟩ := value
  obtain ⟨members, closing, rfl⟩ := others
  refine ⟨(⟨label.separator, label.content, label.colon, label.value.append gap⟩, w) :: members,
    closing, ?_⟩
  rw [Writing.objectTail_cons]
  simp only [Label.bytes, Gap.append, List.append_assoc, List.cons_append]

theorem EndsList.closed (h : skipSpace text = ascii ']' :: rest) : EndsList first text rest := by
  obtain ⟨gap, written⟩ := exists_gap text
  exact ⟨[], gap, written.trans (congrArg _ h)⟩

theorem EndsObject.closed (h : skipSpace text = ascii '\x7d' :: rest) :
    EndsObject first text rest := by
  obtain ⟨gap, written⟩ := exists_gap text
  exact ⟨[], gap, written.trans (congrArg _ h)⟩

/-! ### Readers, step by step -/

theorem skipSpace_skipSpace (text : Bytes) : skipSpace (skipSpace text) = skipSpace text :=
  List.dropWhile_idempotent ..

/-- Either the closing bracket is next, or an item behind what separates it. -/
theorem nextItem_ok {more : Bool} (h : nextItem first text = .ok (more, text')) :
    (more = false ∧ text' = skipSpace text) ∨ (more = true ∧ EndsSeparator first text text') := by
  rw [nextItem] at h
  split at h
  · cases h
  · next b rest visible =>
      split at h
      · cases h
        exact .inl ⟨rfl, visible.symm⟩
      split at h
      · next isFirst =>
          cases h
          refine .inr ⟨rfl, ?_⟩
          rw [isFirst, ← visible]
          exact .start text
      · next isFirst =>
          rw [eq_false_of_ne_true isFirst]
          split at h
          · next isComma =>
              subst isComma
              obtain ⟨gap, written⟩ := exists_gap rest
              split at h
              · cases h
              · next c rest' visible' =>
                  split at h
                  · cases h
                  · cases h
                    exact .inr ⟨rfl, .comma visible gap (written.trans (congrArg _ visible'))⟩
          · cases h

theorem EndsSeparator.of_nextItem (h : nextItem first text = .ok (true, text')) :
    EndsSeparator first text text' := by
  obtain ⟨none, -⟩ | ⟨-, separator⟩ := nextItem_ok h
  · cases none
  · exact separator

theorem EndsList.of_endList (h : endList text = .ok rest) : EndsList first text rest := by
  rw [endList] at h
  split at h
  · cases h
  · next b text' visible =>
      split at h
      · next isClosing =>
          cases h
          rw [isClosing] at visible
          exact .closed visible
      · split at h
        · split at h
          · cases h
          · split at h <;> cases h
        · cases h

theorem EndsList.of_nextItem (h : nextItem first text = .ok (false, text'))
    (closes : endList text' = .ok rest) : EndsList first text rest := by
  obtain ⟨-, rfl⟩ | ⟨more, -⟩ := nextItem_ok h
  · rw [endList, skipSpace_skipSpace] at closes
    exact .of_endList closes
  · cases more

/-- Either the closing bracket is next, or the name of a member behind what separates it. -/
theorem nextKey_ok {name? : Option String} (h : nextKey first text = .ok (name?, text')) :
    (name? = none ∧ text' = skipSpace text) ∨
      (name?.isSome ∧ ∀ behind, colon text' = .ok behind → EndsLabel first text behind) := by
  simp only [nextKey] at h
  split at h
  · cases h
  · next b rest visible =>
      split at h
      · cases h
        exact .inl ⟨rfl, visible.symm⟩
      split at h
      · next isFirst =>
          rw [isFirst]
          split at h
          · next quote =>
              subst quote
              split at h
              · next read =>
                  cases h
                  exact .inr ⟨rfl, fun _ sep => .start (.of_text visible (.of_readText read) sep)⟩
              · cases h
          · cases h
      · next isFirst =>
          rw [eq_false_of_ne_true isFirst]
          split at h
          · next isComma =>
              subst isComma
              split at h
              · cases h
              · next c rest' visible' =>
                  split at h
                  · next quote =>
                      subst quote
                      split at h
                      · next read =>
                          cases h
                          exact .inr ⟨rfl, fun _ sep =>
                            .comma visible (.of_text visible' (.of_readText read) sep)⟩
                      · cases h
                  · split at h <;> cases h
          · cases h

theorem EndsLabel.of_nextKey {name : String} (h : nextKey first text = .ok (some name, text'))
    (sep : colon text' = .ok text'') : EndsLabel first text text'' := by
  obtain ⟨none, -⟩ | ⟨-, label⟩ := nextKey_ok h
  · cases none
  · exact label text'' sep

theorem EndsObject.of_endObject (h : endObject text = .ok rest) : EndsObject first text rest := by
  rw [endObject] at h
  split at h
  · cases h
  · next b text' visible =>
      split at h
      · next isClosing =>
          cases h
          rw [isClosing] at visible
          exact .closed visible
      · split at h <;> cases h

theorem EndsObject.of_nextKey (h : nextKey first text = .ok (none, text'))
    (closes : endObject text' = .ok rest) : EndsObject first text rest := by
  obtain ⟨-, rfl⟩ | ⟨some, -⟩ := nextKey_ok h
  · rw [endObject, skipSpace_skipSpace] at closes
    exact .of_endObject closes
  · cases some

end

/-! ### Values that are read -/

/-- Whatever is read was a value. -/
def ReadsValues {α : Type} (read : Bytes → Except Fault (α × Bytes)) : Prop :=
  ∀ text a rest, read text = .ok (a, rest) → EndsValue text rest

section
variable {α : Type} {read : Bytes → Except Fault (α × Bytes)} {text text' rest : Bytes}

theorem EndsList.of_readItems (reads : ReadsValues read) {steps : Nat} {before values : List α}
    (h : readItems read steps before text = .ok (values, text'))
    (closes : endList text' = .ok rest) :
    EndsList before.isEmpty text rest := by
  induction steps generalizing before text with
  | zero => cases h
  | succ steps ih =>
      rw [readItems] at h
      obtain ⟨⟨more, text₁⟩, next, h⟩ := bind_ok h
      cases more with
      | false =>
          cases h
          exact .of_nextItem next closes
      | true =>
          obtain ⟨⟨a, text₂⟩, item, h⟩ := bind_ok h
          exact .cons (.of_nextItem next) (reads _ _ _ item) (ih h)

theorem EndsObject.of_readMembers (reads : ReadsValues read) {steps : Nat}
    {before values : List (String × α)}
    (h : readMembers read steps before text = .ok (values, text'))
    (closes : endObject text' = .ok rest) : EndsObject before.isEmpty text rest := by
  induction steps generalizing before text with
  | zero => cases h
  | succ steps ih =>
      rw [readMembers] at h
      obtain ⟨⟨name?, text₁⟩, key, h⟩ := bind_ok h
      cases name? with
      | none =>
          cases h
          exact .of_nextKey key closes
      | some name =>
          obtain ⟨text₂, sep, h⟩ := bind_ok h
          obtain ⟨⟨a, text₃⟩, value, h⟩ := bind_ok h
          exact .cons (.of_nextKey key sep) (reads _ _ _ value) (ih h)

end

theorem reads_readWith {steps : Nat} {inner : Option (Bytes → Except Fault (Json × Bytes))}
    (reads : ∀ read ∈ inner, ReadsValues read) : ReadsValues (readWith steps inner) := by
  intro text value rest h
  rw [readWith] at h
  split at h
  · cases h
  · next b text' visible =>
      split at h
      · next isList =>
          subst isList
          split at h
          · cases h
          · next item =>
              obtain ⟨⟨items, text₁⟩, inside, h⟩ := bind_ok h
              obtain ⟨rest', closes, same⟩ := bind_ok h
              cases same
              exact .list visible (.of_readItems (reads item rfl) inside closes)
      split at h
      · next isObject =>
          subst isObject
          split at h
          · cases h
          · next item =>
              obtain ⟨⟨members, text₁⟩, inside, h⟩ := bind_ok h
              obtain ⟨rest', closes, same⟩ := bind_ok h
              cases same
              exact .object visible (.of_readMembers (reads item rfl) inside closes)
      · exact .of_readScalar visible h

theorem reads_readValue (steps levels : Nat) : ReadsValues (readValue steps levels) := by
  induction levels with
  | zero => exact reads_readWith nofun
  | succ levels ih =>
      refine reads_readWith ?_
      rintro _ ⟨⟩
      exact ih

/-! ### Values that are passed over -/

def Bracket.Ends : Bracket → Bool → Bytes → Bytes → Prop
  | .list => EndsList
  | .object => EndsObject

/-- Everything that is open is closed in front of `rest`. -/
def EndsOpen : List Bracket → Bytes → Bytes → Prop
  | [], text, rest => text = rest
  | bracket :: outer, text, rest =>
    ∃ behind, bracket.Ends false text behind ∧ EndsOpen outer behind rest

/-- What has to stand in front of `rest` where passing over a value stands. -/
def Passing.Ends : Passing → List Bracket → Bytes → Bytes → Prop
  | .value, outer, text, rest => ∃ behind, EndsValue text behind ∧ EndsOpen outer behind rest
  | .opened, [], text, rest => text = rest
  | .opened, bracket :: outer, text, rest =>
    ∃ behind, bracket.Ends true text behind ∧ EndsOpen outer behind rest
  | .ended, outer, text, rest => EndsOpen outer text rest

namespace Bracket.Ends

variable {bracket : Bracket} {first : Bool} {b : UInt8} {text text' behind behind' rest : Bytes}

theorem closed (h : skipSpace text = bracket.closing :: rest) : bracket.Ends first text rest := by
  cases bracket with
  | list => exact EndsList.closed h
  | object => exact EndsObject.closed h

theorem start (h : skipSpace text = b :: text')
    (label : bracket.skipLabel (b :: text') = .ok behind)
    (value : EndsValue behind behind') (others : bracket.Ends false behind' rest) :
    bracket.Ends true text rest := by
  cases bracket with
  | list =>
      cases label
      rw [← h] at value
      exact EndsList.cons (.start text) value others
  | object =>
      have label : skipKey (b :: text') = .ok behind := label
      rw [← h, skipKey, skipSpace_skipSpace, ← skipKey] at label
      exact EndsObject.cons (.start (.of_skipKey label)) value others

theorem comma (h : skipSpace text = ascii ',' :: text')
    (label : bracket.skipLabel text' = .ok behind)
    (value : EndsValue behind behind') (others : bracket.Ends false behind' rest) :
    bracket.Ends false text rest := by
  cases bracket with
  | list =>
      cases label
      exact EndsList.cons (.comma h .none rfl) value others
  | object => exact EndsObject.cons (.comma h (.of_skipKey label)) value others

end Bracket.Ends

/-- The induction is on the steps: the brackets that are open when one is taken close behind what
the others passed over. -/
theorem skipOpen_ok {steps : Nat} {passing : Passing} {outer : List Bracket} {text rest : Bytes}
    (h : skipOpen steps passing outer text = .ok rest) : passing.Ends outer text rest := by
  induction steps generalizing passing outer text with
  | zero => cases h
  | succ steps ih =>
      cases passing with
      | value =>
          rw [skipOpen] at h
          split at h
          · cases h
          · next b text' visible =>
              split at h
              · next isList =>
                  subst isList
                  obtain ⟨behind, inside, outside⟩ := ih h
                  exact ⟨behind, .list visible inside, outside⟩
              split at h
              · next isObject =>
                  subst isObject
                  obtain ⟨behind, inside, outside⟩ := ih h
                  exact ⟨behind, .object visible inside, outside⟩
              · obtain ⟨behind, scalar, h⟩ := bind_ok h
                exact ⟨behind, .of_skipScalar visible scalar, ih h⟩
      | opened =>
          cases outer with
          | nil =>
              cases h
              rfl
          | cons bracket outer =>
              rw [skipOpen] at h
              split at h
              · cases h
              · next b text' visible =>
                  split at h
                  · next closing =>
                      subst closing
                      exact ⟨text', .closed visible, ih h⟩
                  · obtain ⟨behind, label, h⟩ := bind_ok h
                    obtain ⟨behind', value, behind'', others, outside⟩ := ih h
                    exact ⟨behind'', .start visible label value others, outside⟩
      | ended =>
          cases outer with
          | nil =>
              cases h
              rfl
          | cons bracket outer =>
              rw [skipOpen] at h
              split at h
              · cases h
              · next b text' visible =>
                  split at h
                  · next closing =>
                      subst closing
                      exact ⟨text', .closed visible, ih h⟩
                  split at h
                  · next comma =>
                      subst comma
                      obtain ⟨behind, label, h⟩ := bind_ok h
                      obtain ⟨behind', value, behind'', others, outside⟩ := ih h
                      exact ⟨behind'', .comma visible label value others, outside⟩
                  · cases h

theorem skipValue_ok {steps : Nat} {text rest : Bytes} (h : skipValue steps text = .ok rest) :
    EndsValue text rest := by
  obtain ⟨_, value, rfl⟩ := skipOpen_ok h
  exact value

end EventClient.Json
