import RowTypes.Json.Strings

/-!
# Json — readers, words and numbers

A reader asks its input for bytes and for strings and goes on with the answers, until it is done or
fails (`Reader`).  It does not know which input that is: `Reader.run` lets it read any.

The first readers are those of the parts of JSON that hold no other part.
-/

namespace RowTypes.Json

/-! ### Readers -/

/-- What to ask an input next, and how to go on with the answer. -/
inductive Reader (α : Type) where
  | done (a : α)
  /-- Fails behind the bytes taken. -/
  | failHere (cause : Cause)
  /-- Fails at the byte to come. -/
  | failNext (cause : Cause)
  /-- Looks at the next byte. -/
  | peek (goOn : Option UInt8 → Reader α)
  /-- Takes the next byte. -/
  | take (goOn : Option UInt8 → Reader α)
  /-- Takes a string, if one starts with the next byte. -/
  | quoted (goOn : Option String → Reader α)
  /-- Asks how many bytes are to come. -/
  | left (goOn : Nat → Reader α)

namespace Reader

variable {α β ι : Type}

def bind : Reader α → (α → Reader β) → Reader β
  | .done a, f => f a
  | .failHere cause, _ => .failHere cause
  | .failNext cause, _ => .failNext cause
  | .peek goOn, f => .peek fun next => (goOn next).bind f
  | .take goOn, f => .take fun next => (goOn next).bind f
  | .quoted goOn, f => .quoted fun s => (goOn s).bind f
  | .left goOn, f => .left fun n => (goOn n).bind f

instance : Monad Reader where
  pure := .done
  bind := bind

/-- Reads from an input. -/
def run [Input ι] : Reader α → ι → Except Complaint (α × ι)
  | .done a, c => .ok (a, c)
  | .failHere cause, c => .error ⟨.because cause, Input.here c⟩
  | .failNext cause, c => .error ⟨.because cause, Input.next (Input.peek c).2⟩
  | .peek goOn, c => (goOn (Input.peek c).1).run (Input.peek c).2
  | .take goOn, c => (goOn (Input.take c).1).run (Input.take c).2
  | .quoted goOn, c => do
      let (s, c) ← quoted? c
      (goOn s).run c
  | .left goOn, c => (goOn (Input.rest c).length).run c

/-- Reads a value from the start of a document. -/
def value (ι : Type) [Input ι] (r : Reader α) (bytes : List UInt8) : Except Complaint α :=
  (r.run (Input.start bytes : ι)).map (·.1)

end Reader

def peek : Reader (Option UInt8) := .peek .done

def take : Reader (Option UInt8) := .take .done

def left : Reader Nat := .left .done

def advance : Reader Unit := .take fun _ => .done ()

/-- A string, at whose opening quote the input stands. -/
def string : Reader String :=
  .quoted fun
    | some s => .done s
    | none => .failNext .noValue

/-- Takes bytes as long as they fulfil `p`, and looks at the one that does not. -/
def bytesWhile (p : UInt8 → Bool) : Nat → Reader (List UInt8)
  | 0 => return []
  | n + 1 => do
      match ← peek with
      | none => return []
      | some b =>
          if p b then
            advance
            return b :: (← bytesWhile p n)
          else return []

/-- Every round takes a byte, so as many rounds as there are bytes are enough. -/
def takeWhile (p : UInt8 → Bool) : Reader (List UInt8) := do
  bytesWhile p (← left)

/-- Skips blanks and looks at the byte behind them. -/
def skipBlank : Reader (Option UInt8) := do
  let _ ← takeWhile Byte.isBlank
  peek

/-- Takes the byte to come when it is `b`. -/
def takeIf (b : UInt8) : Reader Bool := do
  if (← peek) = some b then
    advance
    return true
  else return false

/-! ### Words -/

/-- The rest of a word whose first letter was taken. -/
def word : List Char → Reader Unit
  | [] => pure ()
  | w :: ws => do
      match ← take with
      | none => .failHere .endInValue
      | some b => if b = w.toUInt8 then word ws else .failHere .noWord

/-! ### Numbers -/

def digits : Reader (List Nat) := do
  return (← takeWhile Byte.isDigit).map Byte.digit

/-- Appends digits to `n` as long as it stays within `limit`; also the count of those left. -/
def gather (limit : Nat) : Nat → List Nat → Nat × Nat
  | n, [] => (n, 0)
  | n, d :: ds => if n * 10 + d ≤ limit then gather limit (n * 10 + d) ds else (n, ds.length + 1)

/-- Significands have 64 bits; digits that no longer fit count as zeros. -/
def significandLimit : Nat := 0xFFFFFFFFFFFFFFFF

def exponentLimit : Nat := 0x7FFFFFFF

def real (negative : Bool) (significand : Nat) (exponent : Int) : Reader Number :=
  match Double.ofDecimal? significand exponent with
  | some x => pure (.real negative x)
  | none => .failHere .numberTooLarge

/-- The first digit of an exponent, whose sign was taken. -/
def exponentDigit : Reader Nat := do
  match ← take with
  | none => .failHere .endInValue
  | some b => if Byte.isDigit b then pure (Byte.digit b) else .failHere .badNumber

/-- The sign of an exponent: whether it is a minus. -/
def exponentSign : Reader Bool := do
  if ← takeIf Byte.plus then return false
  takeIf Byte.minus

/-- Appends digits to an exponent.  The first digit that goes beyond the limit is taken, and ends
it. -/
def exponentDigits : Nat → Nat → Reader (Option Nat)
  | 0, e => return some e
  | n + 1, e => do
      match ← peek with
      | none => return some e
      | some b =>
          if Byte.isDigit b then
            advance
            if e * 10 + Byte.digit b ≤ exponentLimit then
              exponentDigits n (e * 10 + Byte.digit b)
            else return none
          else return some e

/-- An exponent beyond its limit makes every number but zero too large, or else zero. -/
def exponentBeyond (negative down : Bool) (significand : Nat) : Reader Number :=
  if significand ≠ 0 ∧ down = false then .failHere .numberTooLarge
  else do
    let _ ← digits
    return .real negative .zero

/-- A number from its exponent mark on. -/
def exponentPart (negative : Bool) (significand : Nat) (exponent : Int) : Reader Number := do
  advance
  let down ← exponentSign
  let first ← exponentDigit
  match ← exponentDigits (← left) first with
  | some e => real negative significand (if down then exponent - e else exponent + e)
  | none => exponentBeyond negative down significand

/-- A number from its point on. -/
def fractionPart (negative : Bool) (significand : Nat) (exponent : Int) : Reader Number := do
  advance
  let ds ← digits
  let (s, left) := gather significandLimit significand ds
  let exponent := exponent - (ds.length - left : Nat)
  match ← peek with
  | none => if ds.isEmpty then .failNext .endInValue else real negative s exponent
  | some b =>
      if ds.isEmpty then .failNext .badNumber
      else if Byte.isExponentMark b then exponentPart negative s exponent
      else real negative s exponent

/-- A whole number; one beyond 64 bits is a double, as is a negative zero. -/
def whole (negative : Bool) (significand : Nat) : Reader Number :=
  if negative = false then pure (.integer significand)
  else if 0 < significand ∧ significand ≤ 0x8000000000000000 then pure (.integer (-significand))
  else real true significand 0

/-- A number behind its whole digits, of which `dropped` did not fit the significand. -/
def numberTail (negative : Bool) (significand dropped : Nat) : Reader Number := do
  match ← peek with
  | none => if dropped = 0 then whole negative significand else real negative significand dropped
  | some b =>
      if b = Byte.point then fractionPart negative significand dropped
      else if Byte.isExponentMark b then exponentPart negative significand dropped
      else if dropped = 0 then whole negative significand
      else real negative significand dropped

/-- No digit follows a zero at the start of a number. -/
def noDigit : Reader Unit := do
  match ← peek with
  | some b => if Byte.isDigit b then .failNext .badNumber
  | none => pure ()

def number : Reader Number := do
  let negative ← takeIf Byte.minus
  match ← take with
  | none => .failHere .endInValue
  | some b =>
      if b = Byte.zero then
        noDigit
        numberTail negative 0 0
      else if Byte.isDigit b then
        let (s, left) := gather significandLimit (Byte.digit b) (← digits)
        numberTail negative s left
      else .failHere .badNumber

end RowTypes.Json
