import EventClient.Json.Skip

/-!
Decoders for particular types. Each one reads its type from the front of a text and also takes it
from a value that was read before anyone knew what it should be. Records name their fields and
accept them in any order, by position too; variants are told apart by `method`, their content
standing under `params`.
-/
namespace EventClient.Json

/-- How much a reader may go through: `steps` bounds its loops and exceeds the length of the text,
`levels` is the number of brackets that may still be opened. -/
structure Budget where
  steps : Nat
  levels : Nat

namespace Budget

def whole (text : Bytes) : Budget := ⟨text.length + 1, nestingLimit⟩

/-- The budget for what stands in a bracket, from behind that bracket. -/
def inside (budget : Budget) (rest : Bytes) : Except Fault Budget :=
  match budget.levels with
  | 0 => fail .nestedTooDeep rest
  | levels + 1 => .ok { budget with levels }

end Budget

structure Decoder (α : Type) where
  read : Budget → Bytes → Except Fault (α × Bytes)
  take : Json → Except Mismatch α

/-- A mismatch seen in a text, with the bytes behind it. -/
def inText {α : Type} (rest : Bytes) : Except Mismatch α → Except Fault (α × Bytes)
  | .ok value => .ok (value, rest)
  | .error what => fail (.mismatch what) rest

/-- The fault of a value of the wrong kind: texts, numbers and words are read before it is told. -/
def wrongKind {α : Type} (first : UInt8) (rest : Bytes) : Except Fault (α × Bytes) :=
  if first = ascii '[' ∨ first = ascii '\x7b' then fail (.mismatch .kind) rest
  else do
    let (_, rest) ← readScalar first rest
    fail (.mismatch .kind) rest

namespace Decoder

variable {α β : Type}

def decode (d : Decoder α) (text : Bytes) : Except Fault α := do
  let (value, rest) ← d.read (.whole text) text
  atEnd rest
  return value

/-- Read from the first byte that is no space. -/
def atValue (text : Bytes) (read : UInt8 → Bytes → Except Fault (α × Bytes)) :
    Except Fault (α × Bytes) :=
  match skipSpace text with
  | [] => fail .endInValue []
  | first :: rest => read first rest

def refine (d : Decoder α) (check : α → Except Mismatch β) : Decoder β where
  read budget text := do
    let (value, rest) ← d.read budget text
    inText rest (check value)
  take value := do check (← d.take value)

def map (d : Decoder α) (f : α → β) : Decoder β := d.refine fun value => .ok (f value)

def json : Decoder Json where
  read budget text := do
    let (value, rest) ← readValue budget.steps budget.levels text
    return (value.canonical, rest)
  take value := .ok value.canonical

def string : Decoder String where
  read _ text := atValue text fun first rest =>
    if first = ascii '"' then readText rest else wrongKind first rest
  take
    | .string value => .ok value
    | _ => .error .kind

def integerOf (low high : Int) : JsonNumber → Except Mismatch Int
  | .integer value => if low ≤ value ∧ value ≤ high then .ok value else .error .range
  | .real _ => .error .kind

def integer (low high : Int) : Decoder Int where
  read _ text := atValue text fun first rest =>
    if first = ascii '-' || isDigit first then do
      let (value, rest) ← readNumber (first :: rest)
      inText rest (integerOf low high value)
    else wrongKind first rest
  take
    | .number value => integerOf low high value
    | _ => .error .kind

def uint64 : Decoder UInt64 := (integer 0 18446744073709551615).map fun value => .ofNat value.toNat

def uint32 : Decoder UInt32 := (integer 0 4294967295).map fun value => .ofNat value.toNat

def int32 : Decoder Int32 := (integer (-2147483648) 2147483647).map Int32.ofInt

def optional (d : Decoder α) : Decoder (Option α) where
  read budget text :=
    let present (text : Bytes) : Except Fault (Option α × Bytes) := do
      let (value, rest) ← d.read budget text
      return (some value, rest)
    match skipSpace text with
    | [] => present []
    | first :: rest =>
      if first = ascii 'n' then do return (none, ← readWord (Text.bytes "ull") rest)
      else present (first :: rest)
  take
    | .null => .ok none
    | value => (d.take value).map some

def list (d : Decoder α) : Decoder (List α) where
  read budget text := atValue text fun first rest =>
    if first = ascii '[' then do
      let inner ← budget.inside rest
      let (items, rest) ← readItems (d.read inner) budget.steps [] rest
      return (items, ← endList rest)
    else wrongKind first rest
  take
    | .list items => items.mapM d.take
    | _ => .error .kind

/-- Null, where a variant has no content. -/
def nothing (value : α) : Decoder α where
  read budget text := atValue text fun first rest =>
    if first = ascii 'n' then do return (value, ← readWord (Text.bytes "ull") rest)
    else if first = ascii '[' ∨ first = ascii '\x7b' then do
      let _ ← budget.inside rest
      fail (.mismatch .kind) rest
    else wrongKind first rest
  take
    | .null => .ok value
    | _ => .error .kind

/-! ### Names of variants -/

def lookup (names : List (String × α)) (name : String) : Except Mismatch α :=
  match names.lookup name with
  | some value => .ok value
  | none => .error (.unknownVariant name)

/-- Null, where a variant was named as a member's name. -/
def readNull (text : Bytes) : Except Fault Bytes :=
  match skipSpace text with
  | [] => fail .endInValue []
  | first :: rest =>
    if first = ascii 'n' then readWord (Text.bytes "ull") rest
    else do
      let (_, rest) ← (wrongKind first rest : Except Fault (Unit × Bytes))
      return rest

/-- A member's name, where an object has to have one. -/
def memberName (text : Bytes) : Except Fault (String × Bytes) := do
  match ← nextKey true text with
  | (some name, text) => return (name, text)
  | (none, text) => fail .expectedValue text

def closeVariant (text : Bytes) : Except Fault Bytes :=
  match skipSpace text with
  | [] => fail .endInObject []
  | first :: rest =>
    if first = ascii '\x7d' then .ok rest else fail .expectedValue (first :: rest)

def plainName (names : List (String × α)) : Decoder α := string.refine (lookup names)

/-- One of several names, either as a text or as the only member of an object that holds null. -/
def variantName (names : List (String × α)) : Decoder α where
  read budget text := atValue text fun first rest =>
    if first = ascii '"' then do
      let (name, rest) ← readText rest
      inText rest (lookup names name)
    else if first = ascii '\x7b' then do
      let _ ← budget.inside rest
      let (name, rest) ← memberName rest
      let (value, rest) ← inText rest (lookup names name)
      return (value, ← closeVariant (← readNull (← colon rest)))
    else fail .expectedValue rest
  take
    | .string name => lookup names name
    | .object [(name, .null)] | .object [(name, .object [])] => lookup names name
    | _ => .error .kind

end Decoder

/-! ### Records -/

/-- A field of a record that is being put together in `σ`. -/
structure Field (σ : Type) where
  name : String
  isSet : σ → Bool
  read : Budget → Bytes → σ → Except Fault (σ × Bytes)
  take : Json → σ → Except Mismatch σ

namespace Field

variable {σ τ : Type}

/-- The field of a larger state. -/
def within (field : Field σ) (get : τ → σ) (set : τ → σ → τ) : Field τ where
  name := field.name
  isSet state := field.isSet (get state)
  read budget text state := do
    let (part, rest) ← field.read budget text (get state)
    return (set state part, rest)
  take value state := do return set state (← field.take value (get state))

/-- The fields of an object, from behind its bracket up to the closing one. Members with other
names are passed over. -/
def readMembers (fields : List (Field σ)) (budget : Budget) :
    Nat → Bool → σ → Bytes → Except Fault (σ × Bytes)
  | 0, _, _, text => fail .endInObject text
  | steps + 1, first, state, text => do
    match ← nextKey first text with
    | (none, text) => .ok (state, text)
    | (some name, text) =>
      match fields.find? (·.name == name) with
      | none =>
        let text ← skipValue budget.steps (← colon text)
        readMembers fields budget steps false state text
      | some field =>
        if field.isSet state then fail (.mismatch (.repeated name)) text
        else
          let (state, text) ← field.read budget (← colon text) state
          readMembers fields budget steps false state text

/-- The fields in order, from behind the bracket of a list. -/
def readPositional (budget : Budget) :
    List (Field σ) → Bool → σ → Bytes → Except Fault (σ × Bytes)
  | [], _, state, text => .ok (state, text)
  | field :: fields, first, state, text => do
    match ← nextItem first text with
    | (false, text) => .ok (state, text)
    | (true, text) =>
      let (state, text) ← field.read budget text state
      readPositional budget fields false state text

def takeMembers (fields : List (Field σ)) : List (String × Json) → σ → Except Mismatch σ
  | [], state => .ok state
  | (name, value) :: members, state =>
    match fields.find? (·.name == name) with
    | none => takeMembers fields members state
    | some field =>
      if field.isSet state then .error (.repeated name)
      else do takeMembers fields members (← field.take value state)

def takePositional : List (Field σ) → List Json → σ → Except Mismatch σ
  | _, [], state => .ok state
  | [], _ :: _, _ => .error .count
  | field :: fields, value :: values, state => do
    takePositional fields values (← field.take value state)

end Field

/-- A record: the state in which its fields are gathered, and how it is made from them. -/
structure Record (α : Type) where
  State : Type
  empty : State
  fields : List (Field State)
  finish : State → Except Mismatch α

namespace Record

variable {α β : Type}

/-- One field, with what stands in for it when it is not there. -/
def field (name : String) (d : Decoder α) (absent : Except Mismatch α) : Record α where
  State := Option α
  empty := none
  fields := [{
    name
    isSet := Option.isSome
    read := fun budget text _ => do
      let (value, rest) ← d.read budget text
      return (some value, rest)
    take := fun value _ => (d.take value).map some }]
  finish
    | some value => .ok value
    | none => absent

def required (name : String) (d : Decoder α) : Record α := field name d (.error (.missing name))

def defaulted (name : String) (d : Decoder α) (value : α) : Record α := field name d (.ok value)

def optional (name : String) (d : Decoder α) : Record (Option α) :=
  defaulted name d.optional none

/-- The fields of one record followed by those of another. -/
def and (r : Record α) (s : Record β) : Record (α × β) where
  State := r.State × s.State
  empty := (r.empty, s.empty)
  fields :=
    r.fields.map (·.within Prod.fst fun state part => (part, state.2)) ++
    s.fields.map (·.within Prod.snd fun state part => (state.1, part))
  finish state := do return (← r.finish state.1, ← s.finish state.2)

def map (r : Record α) (f : α → β) : Record β :=
  { r with finish := fun state => (r.finish state).map f }

/-- The record as an object, from behind its bracket. -/
def readObject (r : Record α) (budget : Budget) (text : Bytes) : Except Fault (α × Bytes) := do
  let (state, text) ← Field.readMembers r.fields budget budget.steps true r.empty text
  let (value, text) ← inText text (r.finish state)
  return (value, ← endObject text)

/-- The record as a list of its fields, from behind its bracket. -/
def readList (r : Record α) (budget : Budget) (text : Bytes) : Except Fault (α × Bytes) := do
  let (state, text) ← Field.readPositional budget r.fields true r.empty text
  let (value, text) ← inText text (r.finish state)
  return (value, ← endList text)

def takeObject (r : Record α) (members : List (String × Json)) : Except Mismatch α := do
  r.finish (← Field.takeMembers r.fields members r.empty)

/-- A record that may be written as an object or as a list. -/
def decoder (r : Record α) : Decoder α where
  read budget text := Decoder.atValue text fun first rest =>
    if first = ascii '\x7b' then do r.readObject (← budget.inside rest) rest
    else if first = ascii '[' then do r.readList (← budget.inside rest) rest
    else wrongKind first rest
  take
    | .object members => r.takeObject members
    | .list items => do r.finish (← Field.takePositional r.fields items r.empty)
    | _ => .error .kind

/-- A record that has to be written as an object. -/
def objectDecoder (r : Record α) : Decoder α where
  read budget text := Decoder.atValue text fun first rest =>
    if first = ascii '\x7b' then do r.readObject (← budget.inside rest) rest
    else if first = ascii '[' then do
      let _ ← budget.inside rest
      fail (.mismatch .kind) rest
    else wrongKind first rest
  take
    | .object members => r.takeObject members
    | _ => .error .kind

end Record

/-! ### Variants -/

/-- A variant: its method, its content, and the value that it has without any. -/
structure Variant (α : Type) where
  method : String
  params : Decoder α
  alone : Option α := none

namespace Variant

variable {α : Type}

inductive Part where
  | method
  | params
deriving DecidableEq, Repr

def Part.name : Part → String
  | .method => "method"
  | .params => "params"

def Part.ofName? (name : String) : Option Part :=
  if name = "method" then some .method else if name = "params" then some .params else none

/-- The next of the two members, from behind the bracket or the last value; other members are
passed over. -/
def nextPart (budget : Budget) : Nat → Bool → Bytes → Except Fault (Option Part × Bytes)
  | 0, _, text => fail .endInObject text
  | steps + 1, first, text => do
    match ← nextKey first text with
    | (none, text) => .ok (none, text)
    | (some name, text) =>
      match Part.ofName? name with
      | some part => .ok (some part, text)
      | none => nextPart budget steps false (← skipValue budget.steps (← colon text))

def endParts (budget : Budget) (value : α) (text : Bytes) : Except Fault (α × Bytes) := do
  match ← nextPart budget budget.steps false text with
  | (none, text) => return (value, ← endObject text)
  | (some part, text) => fail (.mismatch (.repeated part.name)) text

def named (variants : List (Variant α)) : List (String × Variant α) :=
  variants.map fun v => (v.method, v)

/-- The decoder for the method as a member of an object. -/
def names (variants : List (Variant α)) : Decoder (Variant α) :=
  Decoder.variantName (named variants)

/-- The decoder for the method as an item of a list, where it is a plain text. -/
def plainNames (variants : List (Variant α)) : Decoder (Variant α) :=
  Decoder.plainName (named variants)

/-- The value, `method` having come first. -/
def readAfterMethod (variants : List (Variant α)) (budget : Budget) (text : Bytes) :
    Except Fault (α × Bytes) := do
  let (variant, text) ← (names variants).read budget text
  match ← nextPart budget budget.steps false text with
  | (some .params, text) =>
    let (value, text) ← variant.params.read budget (← colon text)
    endParts budget value text
  | (some .method, text) => fail (.mismatch (.repeated Part.method.name)) text
  | (none, text) =>
    match variant.alone with
    | some value => return (value, ← endObject text)
    | none => fail (.mismatch (.missing Part.params.name)) text

/-- The value, `params` having come first: they are kept until the method is known. -/
def readAfterParams (variants : List (Variant α)) (budget : Budget) (text : Bytes) :
    Except Fault (α × Bytes) := do
  let (kept, text) ← readValue budget.steps budget.levels text
  match ← nextPart budget budget.steps false text with
  | (some .method, text) =>
    let (variant, text) ← (names variants).read budget (← colon text)
    let (value, text) ← inText text (variant.params.take kept)
    endParts budget value text
  | (some .params, text) => fail (.mismatch (.repeated Part.params.name)) text
  | (none, text) => fail (.mismatch (.missing Part.method.name)) text

def readObject (variants : List (Variant α)) (budget : Budget) (text : Bytes) :
    Except Fault (α × Bytes) := do
  match ← nextPart budget budget.steps true text with
  | (some .method, text) => readAfterMethod variants budget (← colon text)
  | (some .params, text) => readAfterParams variants budget (← colon text)
  | (none, text) => fail (.mismatch (.missing Part.method.name)) text

/-- The method and its content as the two items of a list, from behind its bracket. -/
def readList (variants : List (Variant α)) (budget : Budget) (text : Bytes) :
    Except Fault (α × Bytes) := do
  match ← nextItem true text with
  | (false, text) => fail (.mismatch .count) text
  | (true, text) =>
    let (variant, text) ← (plainNames variants).read budget text
    match ← nextItem false text with
    | (false, text) => fail (.mismatch .count) text
    | (true, text) =>
      let (value, text) ← variant.params.read budget text
      return (value, ← endList text)

def valuesOf (part : Part) (members : List (String × Json)) : List Json :=
  (members.filter fun member => member.1 == part.name).map Prod.snd

def takeObject (variants : List (Variant α)) (members : List (String × Json)) :
    Except Mismatch α :=
  match valuesOf .method members, valuesOf .params members with
  | [method], [params] => do (← (names variants).take method).params.take params
  | [method], [] => do
    match (← (names variants).take method).alone with
    | some value => .ok value
    | none => .error (.missing Part.params.name)
  | [], _ => .error (.missing Part.method.name)
  | [_], _ => .error (.repeated Part.params.name)
  | _, _ => .error (.repeated Part.method.name)

def decoder (variants : List (Variant α)) : Decoder α where
  read budget text := Decoder.atValue text fun first rest =>
    if first = ascii '\x7b' then do readObject variants (← budget.inside rest) rest
    else if first = ascii '[' then do readList variants (← budget.inside rest) rest
    else wrongKind first rest
  take
    | .object members => takeObject variants members
    | .list [method, params] => do (← (plainNames variants).take method).params.take params
    | .list _ => .error .count
    | _ => .error .kind

end Variant

end EventClient.Json
