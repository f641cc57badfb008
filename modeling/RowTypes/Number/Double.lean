/-!
# Number — doubles

Non-negative binary64 numbers in exact arithmetic: a mantissa below `2^53` times a power of two
from `2^-1074` to `2^971`.  `Double.nearest?` rounds a quotient, a tie going to the even mantissa,
and has no answer where the quotient is too large.  `Double.ofDecimal?` reads a decimal in two
roundings, the significand's and then the power of ten's, which may miss the nearest double by one
place.
-/

namespace RowTypes

/-- `mantissa · 2^exponent`. -/
structure Double where
  mantissa : Nat
  exponent : Int
  deriving DecidableEq

namespace Double

/-- `num / den` divided by `2^e`, as a quotient. -/
def scaled (num den : Nat) (e : Int) : Nat × Nat :=
  if 0 ≤ e then (num, den * Nat.pow 2 e.toNat) else (num * Nat.pow 2 (-e).toNat, den)

/-- The whole number nearest to `num / den`, the even one of two. -/
def roundEven (num den : Nat) : Nat :=
  let q := num / den
  let r := num % den
  if 2 * r < den ∨ (2 * r = den ∧ q % 2 = 0) then q else q + 1

/-- The exponent at which `num / den` has a mantissa of 53 bits, or the least exponent. -/
def fittingExponent (num den : Nat) : Int :=
  let low : Int := (num.log2 : Int) - den.log2 - 53
  let s := scaled num den low
  max (-1074) (if Nat.pow 2 53 ≤ s.1 / s.2 then low + 1 else low)

/-- The double nearest to `num / den`. -/
def nearest? (num den : Nat) : Option Double :=
  let e := fittingExponent num den
  let s := scaled num den e
  let m := roundEven s.1 s.2
  let x : Double := if m = Nat.pow 2 53 then ⟨Nat.pow 2 52, e + 1⟩ else ⟨m, e⟩
  if 971 < x.exponent then none else some x

def num (x : Double) : Nat := x.mantissa * Nat.pow 2 x.exponent.toNat

def den (x : Double) : Nat := Nat.pow 2 (-x.exponent).toNat

def zero : Double := ⟨0, 0⟩

/-- `x · 10^k`, the power and then the product rounded. -/
def timesTen? (x : Double) (k : Nat) : Option Double := do
  let p ← nearest? (Nat.pow 10 k) 1
  nearest? (x.num * p.num) (x.den * p.den)

/-- `x / 10^k`, the power and then the quotient rounded. -/
def overTen (x : Double) (k : Nat) : Double :=
  match nearest? (Nat.pow 10 k) 1 with
  | some p => (nearest? (x.num * p.den) (x.den * p.num)).getD zero
  | none => zero

/-- `x / 10^k` in steps of at most `10^308`, the greatest power a double has. -/
def lowered (x : Double) (k : Nat) : Double :=
  if k ≤ 308 then x.overTen k
  else if x.mantissa = 0 then x
  else lowered (x.overTen 308) (k - 308)
termination_by k

/-- `significand · 10^exponent`; no answer where it is too large. -/
def ofDecimal? (significand : Nat) (exponent : Int) : Option Double := do
  let x ← nearest? significand 1
  if exponent < 0 then some (x.lowered (-exponent).toNat)
  else if exponent ≤ 308 then x.timesTen? exponent.toNat
  else if x.mantissa = 0 then some x
  else none

end Double

end RowTypes
