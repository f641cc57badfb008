/-!
# Json — values

The JSON values that are written, as trees, and their two written forms: compact, without blanks,
and indented, two spaces a level.  An object keeps its members in order and may repeat a key.
-/

namespace RowTypes.Json

inductive Value where
  | null
  | flag (value : Bool)
  | text (value : String)
  | list (elements : List Value)
  | object (members : List (String × Value))

/-- The two hexadecimal digits of a control character. -/
def hexPair (n : Nat) : List Char :=
  Nat.toDigits 16 (n / 16) ++ Nat.toDigits 16 (n % 16)

/-- A character inside a string. -/
def escapedChar (c : Char) : List Char :=
  match c with
  | '"' => ['\x5c', '"']
  | '\x5c' => ['\x5c', '\x5c']
  | '\x08' => ['\x5c', 'b']
  | '\t' => ['\x5c', 't']
  | '\n' => ['\x5c', 'n']
  | '\x0c' => ['\x5c', 'f']
  | '\r' => ['\x5c', 'r']
  | c => if c.toNat < 0x20 then ['\x5c', 'u', '0', '0'] ++ hexPair c.toNat else [c]

def stringChars (s : String) : List Char :=
  '"' :: (s.toList.flatMap escapedChar ++ ['"'])

namespace Value

/-! ### Compact form -/

mutual

def compactChars : Value → List Char
  | .null => ['n', 'u', 'l', 'l']
  | .flag true => ['t', 'r', 'u', 'e']
  | .flag false => ['f', 'a', 'l', 's', 'e']
  | .text s => stringChars s
  | .list vs => '[' :: compactElements vs
  | .object ms => '\x7b' :: compactMembers ms

/-- The elements and the closing bracket. -/
def compactElements : List Value → List Char
  | [] => [']']
  | [v] => compactChars v ++ [']']
  | v :: vs => compactChars v ++ ',' :: compactElements vs

/-- The members and the closing brace. -/
def compactMembers : List (String × Value) → List Char
  | [] => ['\x7d']
  | [(k, v)] => stringChars k ++ ':' :: (compactChars v ++ ['\x7d'])
  | (k, v) :: ms => stringChars k ++ ':' :: (compactChars v ++ ',' :: compactMembers ms)

end

def compact (v : Value) : String := String.ofList v.compactChars

/-! ### Indented form -/

/-- A new line at a depth. -/
def newLine (depth : Nat) : List Char := '\n' :: List.replicate (2 * depth) ' '

mutual

/-- A value whose first character stands at `depth`. -/
def indentedChars (depth : Nat) : Value → List Char
  | .null => ['n', 'u', 'l', 'l']
  | .flag true => ['t', 'r', 'u', 'e']
  | .flag false => ['f', 'a', 'l', 's', 'e']
  | .text s => stringChars s
  | .list [] => ['[', ']']
  | .list vs => '[' :: indentedElements depth vs
  | .object [] => ['\x7b', '\x7d']
  | .object ms => '\x7b' :: indentedMembers depth ms

/-- The elements of a list at `depth`, each on a line of its own, and the closing bracket. -/
def indentedElements (depth : Nat) : List Value → List Char
  | [] => newLine depth ++ [']']
  | [v] => newLine (depth + 1) ++ indentedChars (depth + 1) v ++ newLine depth ++ [']']
  | v :: vs =>
      newLine (depth + 1) ++ indentedChars (depth + 1) v ++ ',' :: indentedElements depth vs

def indentedMembers (depth : Nat) : List (String × Value) → List Char
  | [] => newLine depth ++ ['\x7d']
  | [(k, v)] =>
      newLine (depth + 1) ++ stringChars k ++ [':', ' '] ++ indentedChars (depth + 1) v ++
        newLine depth ++ ['\x7d']
  | (k, v) :: ms =>
      newLine (depth + 1) ++ stringChars k ++ [':', ' '] ++ indentedChars (depth + 1) v ++
        ',' :: indentedMembers depth ms

end

def indented (v : Value) : String := String.ofList (v.indentedChars 0)

end Value

end RowTypes.Json
