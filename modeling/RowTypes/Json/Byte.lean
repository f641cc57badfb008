/-!
# Json — bytes

The bytes that the grammar of JSON tells apart.
-/

namespace RowTypes.Json.Byte

def quote : UInt8 := 0x22
def plus : UInt8 := 0x2B
def comma : UInt8 := 0x2C
def minus : UInt8 := 0x2D
def point : UInt8 := 0x2E
def zero : UInt8 := 0x30
def colon : UInt8 := 0x3A
def openList : UInt8 := 0x5B
def backslash : UInt8 := 0x5C
def closeList : UInt8 := 0x5D
def letterF : UInt8 := 0x66
def letterN : UInt8 := 0x6E
def letterT : UInt8 := 0x74
def letterU : UInt8 := 0x75
def openObject : UInt8 := 0x7B
def closeObject : UInt8 := 0x7D
def lineFeed : UInt8 := 0x0A

def isBlank (b : UInt8) : Bool := b = 0x20 || b = 0x09 || b = 0x0A || b = 0x0D

def isControl (b : UInt8) : Bool := b < 0x20

def isDigit (b : UInt8) : Bool := 0x30 ≤ b && b ≤ 0x39

def isExponentMark (b : UInt8) : Bool := b = 0x65 || b = 0x45

def digit (b : UInt8) : Nat := b.toNat - 0x30

def hexDigit? (b : UInt8) : Option Nat :=
  if isDigit b then some (digit b)
  else if 0x61 ≤ b ∧ b ≤ 0x66 then some (b.toNat - 0x57)
  else if 0x41 ≤ b ∧ b ≤ 0x46 then some (b.toNat - 0x37)
  else none

/-- The byte that a backslash and `b` stand for, `u` apart. -/
def escaped? (b : UInt8) : Option UInt8 :=
  if b = quote ∨ b = backslash ∨ b = 0x2F then some b
  else if b = 0x62 then some 0x08
  else if b = 0x66 then some 0x0C
  else if b = 0x6E then some 0x0A
  else if b = 0x72 then some 0x0D
  else if b = 0x74 then some 0x09
  else none

end RowTypes.Json.Byte
