import RowTypes.Json.Failure

/-!
# Json — inputs

A document comes as a text or as a stream, and is read byte by byte from either (`Input`).

A text is known to be one, and at any time the bytes taken of it are, so the place of a failure is
found by looking back (`TextInput`).  A stream gives its bytes away one by one and counts lines and
columns as it does.  It has given away a byte that was looked at, so there such a byte counts as
taken.  It may hold any bytes, so those of every string are checked (`StreamInput`).
-/

namespace RowTypes.Json

/-- How the bytes of a document are handed over. -/
inductive Source where
  | text
  | stream
  deriving DecidableEq

def decode? (bytes : List UInt8) : Option String := String.fromUTF8? ⟨bytes.toArray⟩

/-- The length of the longest beginning of the bytes that is text. -/
def textLength (bytes : List UInt8) : Nat :=
  ((List.range (bytes.length + 1)).reverse.find? fun n => (decode? (bytes.take n)).isSome).getD 0

/-- What a document is read from. -/
class Input (ι : Type) where
  start : List UInt8 → ι
  /-- The bytes to come.  No reader sees them, but they say when its loops have to end. -/
  rest : ι → List UInt8
  /-- Looks at the next byte. -/
  peek : ι → Option UInt8 × ι
  /-- Takes the next byte, looked at or not. -/
  take : ι → Option UInt8 × ι
  /-- The place behind the bytes taken. -/
  here : ι → Place
  /-- The place of the byte that was looked at, or of the end. -/
  next : ι → Place
  /-- The text of bytes that stood in a string, whose closing quote was taken. -/
  text : List UInt8 → ι → Except Complaint String
  rest_start : ∀ bytes, rest (start bytes) = bytes
  peek_eq : ∀ c, (peek c).1 = (rest c).head? ∧ rest (peek c).2 = rest c
  take_eq : ∀ c, (take c).1 = (rest c).head? ∧ rest (take c).2 = (rest c).tail
  text_eq : ∀ bytes s c, decode? bytes = some s → text bytes c = .ok s

/-! ### Texts -/

structure TextInput where
  /-- Latest first. -/
  taken : List UInt8
  rest : List UInt8

namespace TextInput

def take (c : TextInput) : Option UInt8 × TextInput :=
  match c.rest with
  | [] => (none, c)
  | b :: rest => (some b, ⟨b :: c.taken, rest⟩)

theorem take_eq (c : TextInput) : c.take.1 = c.rest.head? ∧ c.take.2.rest = c.rest.tail := by
  cases h : c.rest <;> simp [take, h]

end TextInput

/-- The bytes of a string are not checked, since those of a text are text. -/
instance : Input TextInput where
  start bytes := ⟨[], bytes⟩
  rest := TextInput.rest
  peek c := (c.rest.head?, c)
  take := TextInput.take
  here c := .behind c.taken
  next c := .behind (c.rest.head?.toList ++ c.taken)
  text bytes _ := .ok ((decode? bytes).getD "")
  rest_start _ := rfl
  peek_eq _ := ⟨rfl, rfl⟩
  take_eq := TextInput.take_eq
  text_eq bytes s c h := by rw [h, Option.getD_some]

/-! ### Streams -/

structure StreamInput where
  /-- Behind the bytes that were given away. -/
  place : Place
  /-- The byte that was given away and not taken. -/
  ahead : Option UInt8
  /-- The bytes that were not given away. -/
  unread : List UInt8

namespace StreamInput

def peek (c : StreamInput) : Option UInt8 × StreamInput :=
  match c.ahead, c.unread with
  | some b, _ => (some b, c)
  | none, [] => (none, c)
  | none, b :: unread => (some b, ⟨c.place.after b, some b, unread⟩)

def take (c : StreamInput) : Option UInt8 × StreamInput :=
  match c.ahead, c.unread with
  | some b, _ => (some b, { c with ahead := none })
  | none, [] => (none, c)
  | none, b :: unread => (some b, ⟨c.place.after b, none, unread⟩)

def rest (c : StreamInput) : List UInt8 := c.ahead.toList ++ c.unread

/-- Bytes that are no text are reported behind the longest beginning that is. -/
def text (bytes : List UInt8) (c : StreamInput) : Except Complaint String :=
  match decode? bytes with
  | some s => .ok s
  | none =>
      .error ⟨.notText, c.place.line, c.place.column - (bytes.length - textLength bytes)⟩

theorem peek_eq (c : StreamInput) : c.peek.1 = c.rest.head? ∧ c.peek.2.rest = c.rest := by
  obtain ⟨place, ahead, unread⟩ := c
  cases ahead <;> cases unread <;> exact ⟨rfl, rfl⟩

theorem take_eq (c : StreamInput) : c.take.1 = c.rest.head? ∧ c.take.2.rest = c.rest.tail := by
  obtain ⟨place, ahead, unread⟩ := c
  cases ahead <;> cases unread <;> exact ⟨rfl, rfl⟩

end StreamInput

instance : Input StreamInput where
  start bytes := ⟨.start, none, bytes⟩
  rest := StreamInput.rest
  peek := StreamInput.peek
  take := StreamInput.take
  here := StreamInput.place
  next := StreamInput.place
  text := StreamInput.text
  rest_start _ := rfl
  peek_eq := StreamInput.peek_eq
  take_eq := StreamInput.take_eq
  text_eq bytes s c h := by rw [StreamInput.text, h]

end RowTypes.Json
