import RowTypes.Text.ClassTable

/-!
# Text — character classes

What a character counts as, over all of Unicode.  `Char.isWhitespace` and its kin know ASCII
only; names and comments come in any script.
-/

namespace RowTypes.Text

/-- The ranges hold the character. -/
def within (ranges : List (Nat × Nat)) (c : Char) : Bool :=
  ranges.any fun r => r.1 ≤ c.toNat && c.toNat ≤ r.2

def isBlank (c : Char) : Bool := within blankRanges c

def isCased (c : Char) : Bool := within casedRanges c

def isCaseIgnorable (c : Char) : Bool := within caseIgnorableRanges c

def isHidden (c : Char) : Bool := within hiddenRanges c

end RowTypes.Text
