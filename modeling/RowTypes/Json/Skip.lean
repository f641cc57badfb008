import RowTypes.Json.Scan

/-!
# Json — skipped values

A value under an unknown key is checked for its form and then forgotten.  Less is asked of it than
of a value that is read: a number may have any size, a surrogate may stand alone, and bytes that
are no text may stand in a string.  Lists and objects nest to any depth; the open ones are kept
as `Frame`s, so that one loop reads them all.
-/

namespace RowTypes.Json

/-! ### Strings and numbers -/

/-- A string behind its opening quote.  A control character is refused as soon as it is looked at.
Every round but the last takes a byte. -/
def skipStringFrom : Nat → Escape → Reader Unit
  | 0, _ => .failHere .endInString
  | n + 1, state => do
      match ← peek with
      | none => .failHere .endInString
      | some b =>
          if state.isPlain && b = Byte.quote then advance
          else if state.isPlain && Byte.isControl b then .failHere .controlInString
          else
            advance
            match state.skip b with
            | .ok state => skipStringFrom n state
            | .error cause => .failHere cause

def skipString : Reader Unit := do
  skipStringFrom (← left) .plain

def skipExponent : Reader Unit := do
  advance
  let _ ← exponentSign
  match ← take with
  | some b => if Byte.isDigit b then do let _ ← digits else .failHere .badNumber
  | none => .failHere .badNumber

def skipExponentIf (mark : Option UInt8) : Reader Unit :=
  if mark.any Byte.isExponentMark then skipExponent else pure ()

def skipFraction : Reader Unit := do
  advance
  if (← digits).isEmpty then .failNext .badNumber
  skipExponentIf (← peek)

def skipNumber : Reader Unit := do
  let _ ← takeIf Byte.minus
  match ← take with
  | some b =>
      if b = Byte.zero then noDigit
      else if Byte.isDigit b then do let _ ← digits
      else .failHere .badNumber
  | none => .failHere .badNumber
  let mark ← peek
  if mark = some Byte.point then skipFraction else skipExponentIf mark

/-! ### Lists and objects -/

/-- A list or object that stands open. -/
inductive Frame where
  | list
  | object
  deriving DecidableEq

namespace Frame

def closer : Frame → UInt8
  | .list => Byte.closeList
  | .object => Byte.closeObject

/-- Why the end of the document is refused inside the frame. -/
def atEnd : Frame → Cause
  | .list => .endInList
  | .object => .endInObject

/-- Why any other byte is refused behind an entry. -/
def noEnd : Frame → Cause
  | .list => .noListEnd
  | .object => .noObjectEnd

end Frame

/-- The colon behind a key. -/
def colon : Reader Unit := do
  match ← skipBlank with
  | some b => if b = Byte.colon then advance else .failNext .noColon
  | none => .failNext .endInObject

/-- What stands before a value in the frame: nothing in a list, a key in an object. -/
def skipKey : Frame → Reader Unit
  | .list => pure ()
  | .object => do
      match ← skipBlank with
      | some b => if b = Byte.quote then advance else .failNext .keyNotText
      | none => .failNext .endInObject
      skipString
      colon

/-- Whether a value comes next or one has just ended. -/
inductive Stage where
  | value
  | behind

/-- An opening byte, with the closing one if that follows at once. -/
def skipOpened (f : Frame) : Reader (Option Frame) := do
  advance
  match ← skipBlank with
  | none => .failNext f.atEnd
  | some b => if b = f.closer then do advance; return none else do skipKey f; return some f

/-- The start of a value.  Gives the frame that it opens and leaves open. -/
def skipStart : Reader (Option Frame) := do
  match ← skipBlank with
  | none => .failNext .endInValue
  | some b =>
      if b = Byte.letterN then do advance; word ['u', 'l', 'l']; return none
      else if b = Byte.letterT then do advance; word ['r', 'u', 'e']; return none
      else if b = Byte.letterF then do advance; word ['a', 'l', 's', 'e']; return none
      else if b = Byte.minus || Byte.isDigit b then do skipNumber; return none
      else if b = Byte.quote then do advance; skipString; return none
      else if b = Byte.openList then skipOpened .list
      else if b = Byte.openObject then skipOpened .object
      else .failNext .noValue

/-- Behind an entry of the frame: a comma, after which another entry starts, or the end. -/
def skipBehind (f : Frame) : Reader Stage := do
  match ← skipBlank with
  | none => .failNext f.atEnd
  | some b =>
      if b = Byte.comma then do advance; skipKey f; return .value
      else if b = f.closer then do advance; return .behind
      else .failNext f.noEnd

/-- The rest of a value inside `frames`, innermost first.  Every round but the last takes a byte,
so one round more than there are bytes is enough. -/
def skipFrom : Nat → Stage → List Frame → Reader Unit
  | 0, _, _ => pure ()
  | n + 1, .value, frames => do
      let opened ← skipStart
      match opened with
      | some f => skipFrom n .value (f :: frames)
      | none => skipFrom n .behind frames
  | _ + 1, .behind, [] => pure ()
  | n + 1, .behind, f :: frames => do
      match ← skipBehind f with
      | .value => skipFrom n .value (f :: frames)
      | .behind => skipFrom n .behind frames

def skipValue : Reader Unit := do
  skipFrom ((← left) + 1) .value []

end RowTypes.Json
