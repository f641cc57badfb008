import RowTypes.Json.Input

/-!
# Json — strings

A string is read byte by byte.  `Escape` says how far an escape has come, so that what a byte
means depends on that and on the byte alone: `Escape.step` where the string is read, `Escape.skip`
where it is passed over.
-/

namespace RowTypes.Json

/-- How far an escape in a string has come; digits are listed latest first. -/
inductive Escape where
  /-- Outside of escapes. -/
  | plain
  /-- Behind a backslash. -/
  | opened
  /-- Behind `\u`, with fewer than four digits. -/
  | unit (digits : List UInt8)
  /-- Behind the first half of a pair. -/
  | half (unit : Nat)
  /-- Behind the first half and a backslash. -/
  | halfOpened (unit : Nat)
  /-- In the digits of the second half. -/
  | second (unit : Nat) (digits : List UInt8)

/-- The number that hexadecimal digits denote, latest digit first. -/
def hexNumber? : List UInt8 → Option Nat
  | [] => some 0
  | b :: bs => do
      let n ← hexNumber? bs
      let d ← Byte.hexDigit? b
      pure (n * 16 + d)

def isFirstHalf (n : Nat) : Bool := 0xD800 ≤ n && n < 0xDC00

def isSecondHalf (n : Nat) : Bool := 0xDC00 ≤ n && n < 0xE000

def pairValue (first second : Nat) : Nat :=
  (first - 0xD800) * 0x400 + (second - 0xDC00) + 0x10000

def utf8 (n : Nat) : List UInt8 := String.utf8EncodeChar (Char.ofNat n)

namespace Escape

def isPlain : Escape → Bool
  | .plain => true
  | _ => false

/-- What the unit of an escape adds to the string. -/
def ofUnit (n : Nat) : Except Cause (Escape × List UInt8) :=
  if isSecondHalf n then .error .loneSurrogate
  else if isFirstHalf n then .ok (.half n, [])
  else .ok (.plain, utf8 n)

def ofPair (first second : Nat) : Except Cause (Escape × List UInt8) :=
  if isSecondHalf second then .ok (.plain, utf8 (pairValue first second))
  else .error .loneSurrogate

/-- Takes a byte that does not close the string; with it come the bytes it adds to the value. -/
def step (state : Escape) (b : UInt8) : Except Cause (Escape × List UInt8) :=
  match state with
  | .plain =>
      if b = Byte.backslash then .ok (.opened, [])
      else if Byte.isControl b then .error .controlInString
      else .ok (.plain, [b])
  | .opened =>
      if b = Byte.letterU then .ok (.unit [], [])
      else match Byte.escaped? b with
        | some value => .ok (.plain, [value])
        | none => .error .badEscape
  | .unit ds =>
      if ds.length < 3 then .ok (.unit (b :: ds), [])
      else match hexNumber? (b :: ds) with
        | some n => ofUnit n
        | none => .error .badEscape
  | .half n => if b = Byte.backslash then .ok (.halfOpened n, []) else .error .halfPair
  | .halfOpened n => if b = Byte.letterU then .ok (.second n [], []) else .error .halfPair
  | .second n ds =>
      if ds.length < 3 then .ok (.second n (b :: ds), [])
      else match hexNumber? (b :: ds) with
        | some m => ofPair n m
        | none => .error .badEscape

/-- Takes a byte of a skipped string that does not close it.  Halves of pairs may stand alone. -/
def skip (state : Escape) (b : UInt8) : Except Cause Escape :=
  match state with
  | .opened =>
      if b = Byte.letterU then .ok (.unit [])
      else if (Byte.escaped? b).isSome then .ok .plain
      else .error .badEscape
  | .unit ds =>
      if ds.length < 3 then .ok (.unit (b :: ds))
      else if (hexNumber? (b :: ds)).isSome then .ok .plain
      else .error .badEscape
  | _ => if b = Byte.backslash then .ok .opened else .ok .plain

end Escape

variable {ι : Type} [Input ι]

/-- The bytes of a string up to its closing quote, behind those of `value`, latest first.  Every
round takes a byte, so as many rounds as there are bytes are enough. -/
def stringFrom : Nat → Escape → List UInt8 → ι → Except Complaint (List UInt8 × ι)
  | 0, _, _, c => .error ⟨.because .endInString, Input.here c⟩
  | n + 1, state, value, c =>
      match Input.take c with
      | (none, c) => .error ⟨.because .endInString, Input.here c⟩
      | (some b, c) =>
          if state.isPlain && b = Byte.quote then .ok (value.reverse, c)
          else match state.step b with
            | .ok (state, added) => stringFrom n state (added.reverse ++ value) c
            | .error cause => .error ⟨.because cause, Input.here c⟩

/-- The string that starts with the next byte, if one does. -/
def quoted? (c : ι) : Except Complaint (Option String × ι) := do
  let (next, c) := Input.peek c
  if next = some Byte.quote then
    let c := (Input.take c).2
    let (bytes, c) ← stringFrom (Input.rest c).length .plain [] c
    return (some (← Input.text bytes c), c)
  else return (none, c)

end RowTypes.Json
