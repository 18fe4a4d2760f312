import EventClient.Proofs.Json.Scalars

/-!
JSON texts as they may be written: with any spaces, with any escapes, with numbers of any length and
brackets of any depth. A writing keeps all of that, so that its bytes are determined, and says
nothing about what the text is read as: not every text between quotes is a text, and not every
number has a value.
-/
namespace EventClient.Json

/-- Spaces between the parts of a text, perhaps none. -/
structure Gap where
  bytes : Bytes
  blank : bytes.all isSpace = true

def Gap.none : Gap := ⟨[], rfl⟩

/-! ### Texts and numbers -/

/-- One character of a text: as it is, by the letter of its escape, or by its code. -/
inductive Piece where
  | plain (b : UInt8) (quote : b ≠ ascii '"') (backslash : b ≠ ascii '\\') (visible : ¬ b < 0x20)
  | short (letter escaped : UInt8) (known : shortEscape? letter = some escaped)
  | unit (a b c d : UInt8) (value : Nat) (hex : hexUnit? a b c d = some value)

def Piece.bytes : Piece → Bytes
  | .plain b _ _ _ => [b]
  | .short letter _ _ => [ascii '\\', letter]
  | .unit a b c d _ _ => [ascii '\\', ascii 'u', a, b, c, d]

/-- A byte as it is, or by an escape if it needs one. -/
def Piece.of (b : UInt8) : Piece :=
  if quote : b = ascii '"' then .short (ascii '"') b (congrArg some quote.symm)
  else if backslash : b = ascii '\\' then .short (ascii '\\') b (congrArg some backslash.symm)
  else if control : b < 0x20 then
    .unit (ascii '0') (ascii '0') (hexDigit (b.toNat / 16)) (hexDigit (b.toNat % 16)) b.toNat
      (hexUnit?_control b.toNat (UInt8.lt_iff_toNat_lt.mp control))
  else .plain b quote backslash control

/-- What stands between the quotes of a text. -/
abbrev Content := List Piece

namespace Content

def bytes (content : Content) : Bytes := content.flatMap Piece.bytes

/-- The bytes that are spelled. Codes above the basic plane are spelled by two units, a leading and a
trailing one, neither of which may stand alone. -/
def spelled? : Content → Option Bytes
  | [] => some []
  | .plain b _ _ _ :: content => (spelled? content).map (b :: ·)
  | .short _ escaped _ :: content => (spelled? content).map (escaped :: ·)
  | .unit _ _ _ _ leading _ :: content =>
    if isTrailing leading then none
    else if isLeading leading then
      match content with
      | .unit _ _ _ _ trailing _ :: content =>
        if isTrailing trailing then
          (spelled? content).map (Text.encodeChar (Char.ofNat (paired leading trailing)) ++ ·)
        else none
      | _ => none
    else (spelled? content).map (Text.encodeChar (Char.ofNat leading) ++ ·)

def text? (content : Content) : Option String := (spelled? content).bind Text.ofBytes?

end Content

namespace Content

/-- Bytes as they are, with escapes where they need them. -/
def of (text : Bytes) : Content := text.map .of

theorem bytes_cons (piece : Piece) (content : Content) :
    bytes (piece :: content) = piece.bytes ++ bytes content :=
  List.flatMap_cons

theorem spelled?_of (text : Bytes) : spelled? (of text) = some text := by
  induction text with
  | nil => rfl
  | cons b text ih =>
      rw [of, List.map_cons, ← of, Piece.of]
      split
      · exact congrArg (Option.map (b :: ·)) ih
      split
      · exact congrArg (Option.map (b :: ·)) ih
      split
      · next control =>
          have small : b.toNat < 32 := UInt8.lt_iff_toNat_lt.mp control
          have trailing : isTrailing b.toNat = false := decide_eq_false (by omega)
          have leading : isLeading b.toNat = false := decide_eq_false (by omega)
          rw [spelled?.eq_def]
          simp [trailing, leading, ih, encodeChar_control b.toNat small]
      · exact congrArg (Option.map (b :: ·)) ih

theorem text?_of (text : String) : text? (of (Text.bytes text)) = some text := by
  rw [text?, spelled?_of, Option.bind_some, Text.ofBytes?_bytes]

end Content

/-- Digits, at least one. -/
structure Digits where
  first : UInt8
  others : Bytes
  leading : isDigit first = true
  following : others.all isDigit = true

def Digits.bytes (digits : Digits) : Bytes := digits.first :: digits.others

/-- A digit and others, each the last one of a number. -/
def Digits.of (first : Nat) (others : List Nat) : Digits where
  first := (48 + first % 10).toUInt8
  others := others.map fun d => (48 + d % 10).toUInt8
  leading := digit_isDigit _ (Nat.mod_lt _ (by decide))
  following := by
    rw [List.all_map, List.all_eq_true]
    exact fun d _ => digit_isDigit _ (Nat.mod_lt _ (by decide))

structure Exponent where
  mark : UInt8
  sign : Option UInt8
  digits : Digits
  marked : isExponentMark mark = true
  signed : ∀ b ∈ sign, b = ascii '+' ∨ b = ascii '-'

def Exponent.bytes (exponent : Exponent) : Bytes :=
  exponent.mark :: exponent.sign.toList ++ exponent.digits.bytes

def exponentBytes : Option Exponent → Bytes
  | none => []
  | some exponent => exponent.bytes

def fractionBytes : Option Digits → Bytes
  | none => []
  | some digits => ascii '.' :: digits.bytes

/-- A number; a zero in front of the point stands there alone. -/
structure Numeral where
  negative : Bool
  whole : Digits
  fraction : Option Digits
  exponent : Option Exponent
  plain : whole.first = ascii '0' → whole.others = []

namespace Numeral

/-- What stands behind the digits in front of the point. -/
def tail (n : Numeral) : Bytes := fractionBytes n.fraction ++ exponentBytes n.exponent

def magnitude (n : Numeral) : Bytes := n.whole.bytes ++ n.tail

def bytes (n : Numeral) : Bytes := if n.negative then ascii '-' :: n.magnitude else n.magnitude

def digit (d : Nat) : Numeral where
  negative := false
  whole := .of d []
  fraction := none
  exponent := none
  plain := fun _ => rfl

/-- A digit that is not zero, and others behind it. -/
def natural (first : Nat) (others : List Nat) : Numeral where
  negative := false
  whole := .of (first % 9 + 1) others
  fraction := none
  exponent := none
  plain := fun zero => absurd (digit_zero _ (Nat.mod_lt _ (by decide)) zero) (by omega)

end Numeral

/-! ### Values -/

/-- The gaps in front of a value and of the comma before it; the first value has no comma. -/
structure Separator where
  before : Gap
  behind : Gap

def Separator.bytes (separator : Separator) (first : Bool) : Bytes :=
  if first then separator.behind.bytes
  else separator.before.bytes ++ ascii ',' :: separator.behind.bytes

/-- What stands in front of the value of a member. -/
structure Label where
  separator : Separator
  content : Content
  colon : Gap
  value : Gap

namespace Label

/-- The name as it is read, if it can be. -/
def name? (label : Label) : Option String := label.content.text?

def bytes (label : Label) (first : Bool) : Bytes :=
  label.separator.bytes first ++ ascii '"' :: label.content.bytes ++ ascii '"' ::
    label.colon.bytes ++ ascii ':' :: label.value.bytes

/-- A name without spaces around it. -/
def bare (name : String) : Label := ⟨⟨.none, .none⟩, .of (Text.bytes name), .none, .none⟩

theorem name?_bare (name : String) : (bare name).name? = some name := Content.text?_of name

end Label

inductive Writing where
  | null
  | bool (value : Bool)
  | number (numeral : Numeral)
  | string (content : Content)
  | list (items : List (Separator × Writing)) (closing : Gap)
  | object (members : List (Label × Writing)) (closing : Gap)

namespace Writing

@[elab_as_elim, induction_eliminator]
theorem induct {motive : Writing → Prop} (null : motive .null) (bool : ∀ b, motive (.bool b))
    (number : ∀ n, motive (.number n)) (string : ∀ content, motive (.string content))
    (list : ∀ items closing, (∀ item ∈ items, motive item.2) → motive (.list items closing))
    (object : ∀ members closing, (∀ member ∈ members, motive member.2) →
      motive (.object members closing)) (w : Writing) : motive w :=
  @Writing.rec motive (fun items => ∀ item ∈ items, motive item.2)
    (fun members => ∀ member ∈ members, motive member.2) (fun item => motive item.2)
    (fun member => motive member.2) null bool number string
    (fun items closing inside => list items closing inside)
    (fun members closing inside => object members closing inside)
    nofun (fun _ _ first rest => List.forall_mem_cons.mpr ⟨first, rest⟩)
    nofun (fun _ _ first rest => List.forall_mem_cons.mpr ⟨first, rest⟩)
    (fun _ _ value => value) (fun _ _ value => value) w

mutual

def bytes : Writing → Bytes
  | .null => Text.bytes "null"
  | .bool value => Text.bytes (if value then "true" else "false")
  | .number n => n.bytes
  | .string content => ascii '"' :: content.bytes ++ [ascii '"']
  | .list items closing => ascii '[' :: itemsBytes true items ++ closing.bytes ++ [ascii ']']
  | .object members closing =>
    ascii '\x7b' :: membersBytes true members ++ closing.bytes ++ [ascii '\x7d']

def itemsBytes : Bool → List (Separator × Writing) → Bytes
  | _, [] => []
  | first, (separator, w) :: items => separator.bytes first ++ w.bytes ++ itemsBytes false items

def membersBytes : Bool → List (Label × Writing) → Bytes
  | _, [] => []
  | first, (label, w) :: members => label.bytes first ++ w.bytes ++ membersBytes false members

end

/-- What stands behind an item: the others and the end of the list, in front of `rest`. -/
def listTail (first : Bool) (items : List (Separator × Writing)) (closing : Gap) (rest : Bytes) :
    Bytes :=
  itemsBytes first items ++ (closing.bytes ++ ascii ']' :: rest)

def objectTail (first : Bool) (members : List (Label × Writing)) (closing : Gap)
    (rest : Bytes) : Bytes :=
  membersBytes first members ++ (closing.bytes ++ ascii '\x7d' :: rest)

end Writing

/-- A whole text: one value, and spaces around it. -/
structure Document where
  front : Gap
  body : Writing
  back : Gap

def Document.bytes (document : Document) : Bytes :=
  document.front.bytes ++ document.body.bytes ++ document.back.bytes

/-! ### Gaps -/

theorem skipSpace_gap (gap : Gap) (text : Bytes) :
    skipSpace (gap.bytes ++ text) = skipSpace text := by
  obtain ⟨bytes, blank⟩ := gap
  induction bytes with
  | nil => rfl
  | cons b bytes ih =>
      rw [List.all_cons, Bool.and_eq_true] at blank
      have rest := ih blank.2
      simp only [skipSpace, List.cons_append, List.dropWhile_cons, blank.1, if_true] at rest ⊢
      exact rest

/-- Spaces and the byte behind them, which is none, are what is left when that byte is found. -/
theorem skipSpace_gap_cons (gap : Gap) {b : UInt8} (visible : isSpace b = false) (rest : Bytes) :
    skipSpace (gap.bytes ++ b :: rest) = b :: rest := by
  rw [skipSpace_gap, skipSpace_cons visible]

theorem ends_of_isSpace : ∀ b, isSpace b = true →
    isDigit b = false ∧ b ≠ ascii '.' ∧ isExponentMark b = false := by
  intro b space
  simp only [isSpace, Bool.or_eq_true, beq_iff_eq] at space
  rcases space with ((rfl | rfl) | rfl) | rfl <;> decide

theorem ends_cons {b : UInt8} (digit : isDigit b = false) (point : b ≠ ascii '.')
    (mark : isExponentMark b = false) (rest : Bytes) : Ends (b :: rest) := by
  intro _ there
  cases there
  exact ⟨digit, point, mark⟩

/-- Behind a number there may be spaces. -/
theorem ends_gap (gap : Gap) {rest : Bytes} (ends : Ends rest) : Ends (gap.bytes ++ rest) := by
  obtain ⟨bytes, blank⟩ := gap
  cases bytes with
  | nil => exact ends
  | cons b bytes =>
      rw [List.all_cons, Bool.and_eq_true] at blank
      obtain ⟨digit, point, mark⟩ := ends_of_isSpace b blank.1
      exact ends_cons digit point mark _

/-- A number starts with its sign or its first digit. -/
theorem Numeral.starts (n : Numeral) (rest : Bytes) :
    ∃ first text, n.bytes ++ rest = first :: text ∧ IsNumeral first := by
  cases sign : n.negative with
  | false =>
      refine ⟨n.whole.first, n.whole.others ++ n.tail ++ rest, ?_, .inr n.whole.leading⟩
      simp only [bytes, sign, magnitude, Digits.bytes, List.cons_append]
      rfl
  | true =>
      refine ⟨ascii '-', n.magnitude ++ rest, ?_, .inl rfl⟩
      simp only [bytes, sign, if_true, List.cons_append]

namespace Writing

theorem ends_listTail (items : List (Separator × Writing)) (closing : Gap) (rest : Bytes) :
    Ends (listTail false items closing rest) := by
  cases items with
  | nil => exact ends_gap closing (ends_cons (by decide) (by decide) (by decide) rest)
  | cons item items =>
      simp only [listTail, itemsBytes, Separator.bytes, Bool.false_eq_true, if_false,
        List.append_assoc]
      exact ends_gap _ (ends_cons (by decide) (by decide) (by decide) _)

theorem ends_objectTail (members : List (Label × Writing)) (closing : Gap) (rest : Bytes) :
    Ends (objectTail false members closing rest) := by
  cases members with
  | nil => exact ends_gap closing (ends_cons (by decide) (by decide) (by decide) rest)
  | cons member members =>
      simp only [objectTail, membersBytes, Label.bytes, Separator.bytes, Bool.false_eq_true,
        if_false, List.append_assoc]
      exact ends_gap _ (ends_cons (by decide) (by decide) (by decide) _)

/-! ### Texts of brackets, step by step -/

section
variable (content : Content) (items : List (Separator × Writing)) (members : List (Label × Writing))
  (separator : Separator) (label : Label) (w : Writing) (closing : Gap) (first : Bool)
  (rest : Bytes)

theorem string_append :
    (string content).bytes ++ rest = ascii '"' :: (content.bytes ++ ascii '"' :: rest) := by
  simp only [bytes, List.cons_append, List.append_assoc, List.nil_append]

theorem list_append :
    (list items closing).bytes ++ rest = ascii '[' :: listTail true items closing rest := by
  simp only [bytes, listTail, List.cons_append, List.append_assoc, List.nil_append]

theorem object_append :
    (object members closing).bytes ++ rest =
      ascii '\x7b' :: objectTail true members closing rest := by
  simp only [bytes, objectTail, List.cons_append, List.append_assoc, List.nil_append]

theorem listTail_cons :
    listTail first ((separator, w) :: items) closing rest =
      separator.bytes first ++ (w.bytes ++ listTail false items closing rest) := by
  simp only [listTail, itemsBytes, List.append_assoc]

theorem objectTail_cons :
    objectTail first ((label, w) :: members) closing rest =
      label.bytes first ++ (w.bytes ++ objectTail false members closing rest) := by
  simp only [objectTail, membersBytes, List.append_assoc]

end

/-! ### First bytes and lengths -/

/-- A value starts with a byte that is neither a space nor one that separates or closes. -/
theorem starts (w : Writing) (rest : Bytes) :
    ∃ first text, w.bytes ++ rest = first :: text ∧ isSpace first = false ∧
      first ≠ ascii ']' ∧ first ≠ ascii ',' := by
  cases w with
  | null => exact ⟨_, _, rfl, by decide, by decide, by decide⟩
  | bool value => cases value <;> exact ⟨_, _, rfl, by decide, by decide, by decide⟩
  | number n =>
      obtain ⟨first, text, written, numeral⟩ := n.starts rest
      exact ⟨first, text, written, numeral.not_isSpace, numeral.ne (by decide) (by decide),
        numeral.ne (by decide) (by decide)⟩
  | string content =>
      exact ⟨_, _, string_append content rest, by decide, by decide, by decide⟩
  | list items closing =>
      exact ⟨_, _, list_append items closing rest, by decide, by decide, by decide⟩
  | object members closing =>
      exact ⟨_, _, object_append members closing rest, by decide, by decide, by decide⟩

section
variable {w : Writing} {first : UInt8} {text rest : Bytes}

theorem of_quote (h : w.bytes ++ rest = ascii '"' :: text) :
    ∃ content, w = .string content ∧ text = Content.bytes content ++ ascii '"' :: rest := by
  cases w with
  | null => cases h
  | bool value => cases value <;> cases h
  | number n =>
      obtain ⟨first, text, written, numeral⟩ := n.starts rest
      exact absurd (List.cons.inj (written.symm.trans h)).1 (numeral.ne (by decide) (by decide))
  | string content =>
      rw [string_append] at h
      exact ⟨content, rfl, (List.cons.inj h).2.symm⟩
  | list items closing => cases h
  | object members closing => cases h

theorem of_openList (h : w.bytes ++ rest = ascii '[' :: text) :
    ∃ items closing, w = .list items closing ∧ text = listTail true items closing rest := by
  cases w with
  | null => cases h
  | bool value => cases value <;> cases h
  | number n =>
      obtain ⟨first, text, written, numeral⟩ := n.starts rest
      exact absurd (List.cons.inj (written.symm.trans h)).1 (numeral.ne (by decide) (by decide))
  | string content => cases h
  | list items closing =>
      rw [list_append] at h
      exact ⟨items, closing, rfl, (List.cons.inj h).2.symm⟩
  | object members closing => cases h

theorem of_openObject (h : w.bytes ++ rest = ascii '\x7b' :: text) :
    ∃ members closing, w = .object members closing ∧
      text = objectTail true members closing rest := by
  cases w with
  | null => cases h
  | bool value => cases value <;> cases h
  | number n =>
      obtain ⟨first, text, written, numeral⟩ := n.starts rest
      exact absurd (List.cons.inj (written.symm.trans h)).1 (numeral.ne (by decide) (by decide))
  | string content => cases h
  | list items closing => cases h
  | object members closing =>
      rw [object_append] at h
      exact ⟨members, closing, rfl, (List.cons.inj h).2.symm⟩

theorem of_numeral (h : w.bytes ++ rest = first :: text) (numeral : IsNumeral first) :
    ∃ n, w = .number n := by
  have other {b : UInt8} {text : Bytes} (written : w.bytes ++ rest = b :: text)
      (minus : b ≠ ascii '-') (digit : isDigit b = false) : False :=
    numeral.ne minus digit (List.cons.inj (h.symm.trans written)).1
  cases w with
  | null => exact (other rfl (by decide) (by decide)).elim
  | bool value => cases value <;> exact (other rfl (by decide) (by decide)).elim
  | number n => exact ⟨n, rfl⟩
  | string content => exact (other rfl (by decide) (by decide)).elim
  | list items closing => exact (other rfl (by decide) (by decide)).elim
  | object members closing => exact (other rfl (by decide) (by decide)).elim

end

/-- A value without brackets starts with none. -/
theorem scalar_starts {w : Writing} (list : ∀ items closing, w ≠ .list items closing)
    (object : ∀ members closing, w ≠ .object members closing) (rest : Bytes) :
    ∃ first text, w.bytes ++ rest = first :: text ∧ isSpace first = false ∧
      first ≠ ascii '[' ∧ first ≠ ascii '\x7b' := by
  obtain ⟨first, text, written, visible, -⟩ := w.starts rest
  refine ⟨first, text, written, visible, ?_, ?_⟩
  · rintro rfl
    obtain ⟨items, closing, same, -⟩ := of_openList written
    exact list items closing same
  · rintro rfl
    obtain ⟨members, closing, same, -⟩ := of_openObject written
    exact object members closing same

theorem skipSpace_writing (w : Writing) (rest : Bytes) :
    skipSpace (w.bytes ++ rest) = w.bytes ++ rest := by
  obtain ⟨first, text, written, visible, -⟩ := w.starts rest
  rw [written, skipSpace_cons visible]

theorem skipSpace_behind (gap : Gap) (w : Writing) (rest : Bytes) :
    skipSpace (gap.bytes ++ (w.bytes ++ rest)) = w.bytes ++ rest := by
  rw [skipSpace_gap, skipSpace_writing]

theorem length_pos (w : Writing) : 0 < w.bytes.length := by
  obtain ⟨first, text, written, -⟩ := w.starts []
  rw [List.append_nil] at written
  rw [written]
  exact Nat.succ_pos _

theorem length_itemsBytes (first : Bool) (items : List (Separator × Writing)) :
    items.length ≤ (itemsBytes first items).length := by
  induction items generalizing first with
  | nil => exact Nat.le_refl _
  | cons item items ih =>
      have more := item.2.length_pos
      have others := ih false
      simp only [itemsBytes, List.length_append, List.length_cons]
      omega

theorem length_membersBytes (first : Bool) (members : List (Label × Writing)) :
    members.length ≤ (membersBytes first members).length := by
  induction members generalizing first with
  | nil => exact Nat.le_refl _
  | cons member members ih =>
      have more := member.2.length_pos
      have others := ih false
      simp only [membersBytes, List.length_append, List.length_cons]
      omega

theorem length_listTail (first : Bool) (items : List (Separator × Writing)) (closing : Gap)
    (rest : Bytes) : items.length < (listTail first items closing rest).length := by
  have items := length_itemsBytes first items
  simp only [listTail, List.length_append, List.length_cons]
  omega

theorem length_objectTail (first : Bool) (members : List (Label × Writing)) (closing : Gap)
    (rest : Bytes) : members.length < (objectTail first members closing rest).length := by
  have members := length_membersBytes first members
  simp only [objectTail, List.length_append, List.length_cons]
  omega

end Writing

end EventClient.Json
