import RowTypes.Text.Class

/-!
# Text — quoted text

A text between double quotes, as messages show it: what would not be seen is written as its code
point in hexadecimal.
-/

namespace RowTypes.Text

/-- A character by its code point. -/
def codePoint (c : Char) : List Char :=
  ['\x5c', 'u', '\x7b'] ++ Nat.toDigits 16 c.toNat ++ ['\x7d']

/-- A character inside double quotes. -/
def shown (c : Char) : List Char :=
  match c with
  | '\x00' => ['\x5c', '0']
  | '\t' => ['\x5c', 't']
  | '\r' => ['\x5c', 'r']
  | '\n' => ['\x5c', 'n']
  | '"' => ['\x5c', '"']
  | '\x5c' => ['\x5c', '\x5c']
  | _ => if isHidden c then codePoint c else [c]

def quoted (s : String) : String :=
  String.ofList (['"'] ++ s.toList.flatMap shown ++ ['"'])

end RowTypes.Text
