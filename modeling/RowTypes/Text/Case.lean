import RowTypes.Text.CaseTable
import RowTypes.Text.Class

/-!
# Text — case

Upper- and lowercase of characters, and lowercase of a text.  A character may become several, so
both maps give lists.  In a text one character looks at its neighbours: a capital sigma that ends
a word becomes `ς`, any other becomes `σ`.
-/

namespace RowTypes.Text

/-- The image of a character under the first stretch that holds it; a character in none stays. -/
def mapped (stretches : List Stretch) (c : Char) : Char :=
  match stretches.findSome? fun s => s.image? c.toNat with
  | some n => Char.ofNat n
  | none => c

def upper (c : Char) : List Char :=
  match upperExpansions.lookup c with
  | some cs => cs
  | none => [mapped upperStretches c]

def lower (c : Char) : List Char :=
  if c = '\u0130' then ['i', '\u0307'] else [mapped lowerStretches c]

/-- The first character that is not case-ignorable has case. -/
def meetsCased (cs : List Char) : Bool :=
  (cs.dropWhile isCaseIgnorable).head?.any isCased

/-- A capital sigma ends a word when a cased character stands before it and none after. -/
def lowerSigma (before after : List Char) : Char :=
  if meetsCased before && !meetsCased after then '\u03c2' else '\u03c3'

/-- Lowercase of a text that stands after `before`, whose characters are listed latest first. -/
def lowerAfter (before : List Char) : List Char → List Char
  | [] => []
  | c :: cs =>
      (if c = '\u03a3' then [lowerSigma before cs] else lower c) ++ lowerAfter (c :: before) cs

def lowercase (s : String) : String :=
  String.ofList (lowerAfter [] s.toList)

end RowTypes.Text
