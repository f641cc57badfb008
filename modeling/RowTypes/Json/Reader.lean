import RowTypes.Json.Skip

/-!
# Json — readers of values

Readers for the kinds of value a document may hold: texts, flags, values that may be null, lists,
objects whose keys are data, and records, whose keys are fixed.

A record is described by its `Shape`.  It may be written as an object, with its fields in any
order, or as a list of its fields in the shape's order, of which the last ones may be left out.
A field that is left out keeps the value it has in the blank record, unless it is required.
Unknown keys are skipped, or refused when the shape is closed.
-/

namespace RowTypes.Json

/-- The first byte of a value, looked at and not taken. -/
def valueStart : Reader UInt8 := do
  match ← skipBlank with
  | some b => pure b
  | none => .failNext .endInValue

/-- Refuses the value that starts with `b`.  A word, number or string has to be well formed to be
refused for its kind. -/
def refuse {α : Type} (wanted : Wanted) (b : UInt8) : Reader α := do
  if b = Byte.letterN then
    advance; word ['u', 'l', 'l']
    .failHere (.wrongType .null wanted)
  else if b = Byte.letterT then
    advance; word ['r', 'u', 'e']
    .failHere (.wrongType (.flag true) wanted)
  else if b = Byte.letterF then
    advance; word ['a', 'l', 's', 'e']
    .failHere (.wrongType (.flag false) wanted)
  else if b = Byte.minus || Byte.isDigit b then
    .failHere (.wrongType (.number (← number)) wanted)
  else if b = Byte.quote then .failHere (.wrongType (.text (← string)) wanted)
  else if b = Byte.openList then .failHere (.wrongType .list wanted)
  else if b = Byte.openObject then .failHere (.wrongType .object wanted)
  else .failNext .noValue

def text : Reader String := do
  let b ← valueStart
  if b = Byte.quote then string else refuse .text b

def flag : Reader Bool := do
  let b ← valueStart
  if b = Byte.letterT then
    advance; word ['r', 'u', 'e']
    return true
  else if b = Byte.letterF then
    advance; word ['a', 'l', 's', 'e']
    return false
  else refuse .flag b

def null : Reader Unit := do
  let b ← valueStart
  if b = Byte.letterN then
    advance; word ['u', 'l', 'l']
  else refuse .null b

def optional {α : Type} (r : Reader α) : Reader (Option α) := do
  if (← skipBlank) = some Byte.letterN then
    advance; word ['u', 'l', 'l']
    return none
  else return some (← r)

/-! ### Lists -/

/-- Whether another element follows; its comma is taken. -/
def moreElements (first : Bool) : Reader Bool := do
  match ← skipBlank with
  | none => .failNext .endInList
  | some b =>
      if b = Byte.closeList then return false
      else if first then return true
      else if b = Byte.comma then
        advance
        match ← skipBlank with
        | none => .failNext .endInValue
        | some b => if b = Byte.closeList then .failNext .trailingComma else return true
      else .failNext .noListEnd

/-- The elements up to the closing bracket.  Every round but the last takes a byte. -/
def elements {α : Type} (r : Reader α) : Nat → Bool → Reader (List α)
  | 0, _ => pure []
  | n + 1, first => do
      if ← moreElements first then
        let a ← r
        return a :: (← elements r n false)
      else return []

def list {α : Type} (r : Reader α) : Reader (List α) := do
  let b ← valueStart
  if b = Byte.openList then
    advance
    let as ← elements r ((← left) + 1) true
    advance
    return as
  else refuse .list b

/-! ### Objects -/

/-- Whether another key follows, at whose opening quote the input then stands; its comma is
taken. -/
def moreKeys (first : Bool) : Reader Bool := do
  match ← skipBlank with
  | none => .failNext .endInObject
  | some b =>
      if b = Byte.closeObject then return false
      else if first then
        if b = Byte.quote then return true else .failNext .keyNotText
      else if b = Byte.comma then
        advance
        match ← skipBlank with
        | none => .failNext .endInValue
        | some b =>
            if b = Byte.quote then return true
            else if b = Byte.closeObject then .failNext .trailingComma
            else .failNext .keyNotText
      else .failNext .noObjectEnd

/-- The entries up to the closing brace.  Every round but the last takes a byte. -/
def entries {α : Type} (r : Reader α) : Nat → Bool → Reader (List (String × α))
  | 0, _ => pure []
  | n + 1, first => do
      if ← moreKeys first then
        let k ← string
        colon
        let a ← r
        return (k, a) :: (← entries r n false)
      else return []

/-- The entries of an object in the order of the document, repeated keys included. -/
def object {α : Type} (r : Reader α) : Reader (List (String × α)) := do
  let b ← valueStart
  if b = Byte.openObject then
    advance
    let es ← entries r ((← left) + 1) true
    advance
    return es
  else refuse .object b

/-! ### Records -/

/-- A field of a record, with the reader of its value, which gives the change to the record. -/
structure Field (σ : Type) where
  name : String
  required : Bool
  read : Reader (σ → σ)

/-- A field that may be left out. -/
def Field.defaulted {σ α : Type} (name : String) (r : Reader α) (put : α → σ → σ) : Field σ :=
  ⟨name, false, do return put (← r)⟩

def Field.mandatory {σ α : Type} (name : String) (r : Reader α) (put : α → σ → σ) : Field σ :=
  ⟨name, true, do return put (← r)⟩

structure Shape (σ : Type) where
  title : String
  blank : σ
  fields : List (Field σ)
  /-- Unknown keys are refused. -/
  closed : Bool

def Shape.names {σ : Type} (shape : Shape σ) : List String := shape.fields.map (·.name)

/-- Refuses an object for what it says.  The place is behind its closing brace if that comes
next. -/
def rejectObject {α : Type} (cause : Cause) : Reader α := do
  if (← skipBlank) = some Byte.closeObject then advance
  .failHere cause

/-- Refuses a list for what it says.  The place is behind its closing bracket, or behind a comma,
if either comes next. -/
def rejectList {α : Type} (cause : Cause) : Reader α := do
  let b ← skipBlank
  if b = some Byte.closeList then advance
  else if b = some Byte.comma then
    advance
    let _ ← skipBlank
  .failHere cause

/-- The value of a known or unknown key, and the record it leads to. -/
def member {σ : Type} (shape : Shape σ) (seen : List String) (k : String) (s : σ) : Reader σ :=
  match shape.fields.find? (·.name = k) with
  | some f =>
      if k ∈ seen then rejectObject (.repeatedField k)
      else do
        colon
        return (← f.read) s
  | none =>
      if shape.closed then rejectObject (.unknownField k shape.names)
      else do
        colon
        skipValue
        return s

/-- The members up to the closing brace: the keys, latest first, and the record.  Every round but
the last takes a byte. -/
def members {σ : Type} (shape : Shape σ) :
    Nat → Bool → List String → σ → Reader (List String × σ)
  | 0, _, seen, s => pure (seen, s)
  | n + 1, first, seen, s => do
      if ← moreKeys first then
        let k ← string
        let s ← member shape seen k s
        members shape n false (k :: seen) s
      else return (seen, s)

/-- A record written as an object, whose opening brace was taken. -/
def recordObject {σ : Type} (shape : Shape σ) : Reader σ := do
  let (seen, s) ← members shape ((← left) + 1) true [] shape.blank
  match shape.fields.find? fun f => f.required && f.name ∉ seen with
  | some f => rejectObject (.missingField f.name)
  | none =>
      advance
      return s

/-- Behind the last field of a record written as a list. -/
def listEnd : Reader Unit := do
  match ← skipBlank with
  | none => .failNext .endInList
  | some b =>
      if b = Byte.closeList then advance
      else if b = Byte.comma then
        advance
        if (← skipBlank) = some Byte.closeList then .failNext .trailingComma
        else .failNext .trailingBytes
      else .failNext .trailingBytes

/-- The fields of a record from the `i`-th on, written as a list. -/
def fieldsInOrder {σ : Type} (shape : Shape σ) : List (Field σ) → Nat → σ → Reader σ
  | [], _, s => do
      listEnd
      return s
  | f :: fs, i, s => do
      if ← moreElements (i = 0) then
        fieldsInOrder shape fs (i + 1) ((← f.read) s)
      else
        match (f :: fs).findIdx? (·.required) with
        | some j => rejectList (.tooShort (i + j) shape.title shape.fields.length)
        | none =>
            advance
            return s

def record {σ : Type} (shape : Shape σ) : Reader σ := do
  let b ← valueStart
  if b = Byte.openObject then
    advance
    recordObject shape
  else if b = Byte.openList then
    advance
    fieldsInOrder shape shape.fields 0 shape.blank
  else refuse (.record shape.title) b

/-! ### Variants -/

/-- A word out of a list, as a string at whose opening quote the input stands. -/
def knownWord {α : Type} (known : List (String × α)) : Reader α := do
  let s ← string
  match known.lookup s with
  | some a => return a
  | none => .failHere (.unknownVariant s (known.map (·.1)))

/-- The opening quote of the only key of an object, looked at and not taken. -/
def onlyKey : Reader Unit := do
  match ← skipBlank with
  | none => .failNext .endInObject
  | some b =>
      if b = Byte.quote then pure ()
      else if b = Byte.closeObject then .failNext .noValue
      else .failNext .keyNotText

/-- A word out of a list, as a string or as an object that holds it as its only key, with null. -/
def variant {α : Type} (known : List (String × α)) : Reader α := do
  let b ← valueStart
  if b = Byte.quote then knownWord known
  else if b = Byte.openObject then
    advance
    onlyKey
    let a ← knownWord known
    colon
    null
    match ← skipBlank with
    | none => .failHere .endInObject
    | some b =>
        if b = Byte.closeObject then
          advance
          return a
        else .failHere .noValue
  else .failNext .noValue

/-! ### Documents -/

/-- Nothing but blanks follows a document's value. -/
def document {α : Type} (r : Reader α) : Reader α := do
  let a ← r
  if (← skipBlank).isSome then .failNext .trailingBytes
  return a

/-- Reads a whole document. -/
def read {α : Type} (r : Reader α) (source : Source) (bytes : List UInt8) : Except Complaint α :=
  match source with
  | .text => (document r).value TextInput bytes
  | .stream => (document r).value StreamInput bytes

/-- The bytes of a text. -/
def bytesOf (s : String) : List UInt8 := s.toUTF8.data.toList

end RowTypes.Json
