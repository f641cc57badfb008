import RowTypes.Number.Double

/-!
# Number — shortest text

The text of a double has the fewest digits that read back as the same double, and of two such
texts the nearer, or the even one if both are as near.  A number from `0.00001` up to below `10^16`
is written with its point in place and at least one digit after it; any other with one digit before
the point and a signed exponent.
-/

namespace RowTypes.Double

/-- The power of ten of the first digit of a quotient above zero. -/
def decimalExponent (num den : Nat) : Int :=
  if den ≤ num then (Nat.toDigits 10 (num / den)).length - 1
  else -(Nat.toDigits 10 (den / num)).length

/-- `d · 10^p` as a quotient. -/
def decimal (d : Nat) (p : Int) : Nat × Nat :=
  (d * Nat.pow 10 p.toNat, Nat.pow 10 (-p).toNat)

def readsBack (x : Double) (d : Nat) (p : Int) : Bool :=
  nearest? (decimal d p).1 (decimal d p).2 = some x

/-- A number of `n` digits that reads back as `x`: digits and the power of ten of the last one. -/
def digitsOf? (x : Double) (n : Nat) : Option (Nat × Int) :=
  let p := decimalExponent x.num x.den - n + 1
  -- `x / 10^p` as a quotient
  let top := x.num * Nat.pow 10 (-p).toNat
  let bottom := x.den * Nat.pow 10 p.toNat
  let low := top / bottom
  let below := readsBack x low p
  let above := readsBack x (low + 1) p
  if below && (!above || roundEven top bottom = low) then some (low, p)
  else if above then some (low + 1, p)
  else none

/-- Seventeen digits always read back. -/
def shortest (x : Double) : Nat × Int :=
  ((List.range 17).findSome? fun n => x.digitsOf? (n + 1)).getD (0, 0)

/-- Digits without the zeros at their end, and the place of the point behind the first of them. -/
def pointed (d : Nat) (p : Int) : List Char × Int :=
  let ds := Nat.toDigits 10 d
  ((ds.reverse.dropWhile (· = '0')).reverse, ds.length + p)

def zeros (n : Nat) : List Char := List.replicate n '0'

/-- An exponent with its sign. -/
def exponentText (e : Int) : List Char :=
  (if e < 0 then '-' else '+') :: Nat.toDigits 10 e.natAbs

/-- Digits with the point `place` digits behind the first. -/
def layOut (ds : List Char) (place : Int) : List Char :=
  if 0 < place ∧ place ≤ 16 then
    if ds.length ≤ place then ds ++ zeros (place - ds.length).toNat ++ ['.', '0']
    else ds.take place.toNat ++ '.' :: ds.drop place.toNat
  else if -5 < place ∧ place ≤ 0 then ['0', '.'] ++ zeros (-place).toNat ++ ds
  else
    ds.take 1 ++ (if ds.length ≤ 1 then [] else '.' :: ds.drop 1) ++ 'e' :: exponentText (place - 1)

def text (x : Double) : String :=
  if x.mantissa = 0 then "0.0"
  else
    let s := x.shortest
    let d := pointed s.1 s.2
    String.ofList (layOut d.1 d.2)

end RowTypes.Double
