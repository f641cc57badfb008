import Mathlib.Tactic.IntervalCases
import RowTypes.Json.Reader
import RowTypes.Json.Value

/-!
# Grammar — the texts of JSON

A `Tree` is a JSON text up to its blanks.  It tells how everything in it is spelled: a number with
its sign, its fraction and its exponent (`Numeral`), and a string piece by piece, where a character
stands for itself, behind a backslash, or as one or two units of four hexadecimal digits (`Piece`).

The text of a tree is a row of tokens (`Tree.tokens`), with blanks before, between and behind them
(`LaidOut`).  A value that is written has one tree, and the compact text of the value is that of the
tree without any blanks (`laidOut_compact`).
-/

namespace RowTypes.Json

/-- The bytes of characters. -/
def encode (cs : List Char) : List UInt8 := cs.flatMap String.utf8EncodeChar

@[simp] theorem encode_nil : encode [] = [] := rfl

@[simp] theorem encode_append (cs ds : List Char) : encode (cs ++ ds) = encode cs ++ encode ds :=
  List.flatMap_append

theorem encode_cons (c : Char) (cs : List Char) :
    encode (c :: cs) = String.utf8EncodeChar c ++ encode cs := rfl

theorem bytesOf_ofList (cs : List Char) : bytesOf (String.ofList cs) = encode cs := by
  rw [bytesOf, String.toUTF8, String.toByteArray_ofList, List.utf8Encode,
    List.toList_data_toByteArray, encode]

theorem bytesOf_eq (s : String) : bytesOf s = encode s.toList := by
  rw [← bytesOf_ofList, String.ofList_toList]

theorem decode?_bytesOf (s : String) : decode? (bytesOf s) = some s := by
  rw [decode?, bytesOf, Array.toArray_toList, String.fromUTF8?]
  exact dif_pos s.isValidUTF8

theorem decode?_encode (cs : List Char) : decode? (encode cs) = some (String.ofList cs) := by
  rw [← bytesOf_ofList, decode?_bytesOf]

/-! ### Numbers -/

/-- A row of digits, of which there is one at least. -/
structure Digits where
  first : Fin 10
  others : List (Fin 10) := []

def digitByte (d : Fin 10) : UInt8 := UInt8.ofNat (0x30 + d)

def Digits.bytes (ds : Digits) : List UInt8 := (ds.first :: ds.others).map digitByte

inductive Sign where
  | none
  | plus
  | minus

def Sign.bytes : Sign → List UInt8
  | .none => []
  | .plus => [Byte.plus]
  | .minus => [Byte.minus]

structure Exponent where
  capital : Bool := false
  sign : Sign := .none
  digits : Digits

def Exponent.mark (e : Exponent) : UInt8 := if e.capital then 0x45 else 0x65

def Exponent.bytes (e : Exponent) : List UInt8 := e.mark :: (e.sign.bytes ++ e.digits.bytes)

structure Numeral where
  negative : Bool := false
  whole : Digits
  fraction : Option Digits := none
  exponent : Option Exponent := none
  /-- A zero at the start is the only whole digit. -/
  noZero : whole.first = 0 → whole.others = [] := by decide

namespace Numeral

def minusBytes (n : Numeral) : List UInt8 := if n.negative then [Byte.minus] else []

def fractionBytes (n : Numeral) : List UInt8 :=
  match n.fraction with
  | some ds => Byte.point :: ds.bytes
  | none => []

def exponentBytes (n : Numeral) : List UInt8 :=
  match n.exponent with
  | some e => e.bytes
  | none => []

def bytes (n : Numeral) : List UInt8 :=
  n.minusBytes ++ (n.whole.bytes ++ (n.fractionBytes ++ n.exponentBytes))

end Numeral

/-! ### Strings -/

/-- A hexadecimal digit; the letters may be capital ones. -/
structure HexDigit where
  value : Fin 16
  capital : Bool := false

def HexDigit.of (n : Nat) (capital : Bool := false) : HexDigit := ⟨Fin.ofNat 16 n, capital⟩

def HexDigit.byte (d : HexDigit) : UInt8 :=
  UInt8.ofNat ((if d.value < 10 then 0x30 else if d.capital then 0x37 else 0x57) + d.value)

/-- A unit of 16 bits, in four digits. -/
structure CodeUnit where
  first : HexDigit
  second : HexDigit
  third : HexDigit
  fourth : HexDigit

namespace CodeUnit

def value (u : CodeUnit) : Nat :=
  ((u.first.value * 16 + u.second.value) * 16 + u.third.value) * 16 + u.fourth.value

def bytes (u : CodeUnit) : List UInt8 :=
  [u.first.byte, u.second.byte, u.third.byte, u.fourth.byte]

end CodeUnit

/-- The characters that a backslash and one letter stand for. -/
inductive ShortEscape where
  | quote
  | backslash
  | slash
  | backspace
  | formFeed
  | lineFeed
  | carriageReturn
  | tab

namespace ShortEscape

def letter : ShortEscape → UInt8
  | .quote => Byte.quote
  | .backslash => Byte.backslash
  | .slash => 0x2F
  | .backspace => 0x62
  | .formFeed => 0x66
  | .lineFeed => 0x6E
  | .carriageReturn => 0x72
  | .tab => 0x74

def char : ShortEscape → Char
  | .quote => '"'
  | .backslash => '\x5c'
  | .slash => '/'
  | .backspace => '\x08'
  | .formFeed => '\x0c'
  | .lineFeed => '\n'
  | .carriageReturn => '\r'
  | .tab => '\t'

end ShortEscape

/-- A part of a string between its quotes. -/
inductive Piece where
  /-- A character that stands for itself. -/
  | plain (c : Char) (h : c ≠ '"' ∧ c ≠ '\x5c' ∧ ¬ c.toNat < 0x20)
  | short (e : ShortEscape)
  | unit (u : CodeUnit)

def Piece.bytes : Piece → List UInt8
  | .plain c _ => String.utf8EncodeChar c
  | .short e => [Byte.backslash, e.letter]
  | .unit u => Byte.backslash :: Byte.letterU :: u.bytes

/-- A string as it is spelled. -/
abbrev Quoted := List Piece

namespace Quoted

def bytes (q : Quoted) : List UInt8 := q.flatMap Piece.bytes

/-- The characters of a string, or of what is left of it behind the first half of a pair.  A half
without the other one is no character. -/
def charsFrom? : Option CodeUnit → Quoted → Option (List Char)
  | none, [] => some []
  | none, .plain c _ :: q => (charsFrom? none q).map (c :: ·)
  | none, .short e :: q => (charsFrom? none q).map (e.char :: ·)
  | none, .unit u :: q =>
      if isSecondHalf u.value then none
      else if isFirstHalf u.value then charsFrom? (some u) q
      else (charsFrom? none q).map (Char.ofNat u.value :: ·)
  | some u, .unit v :: q =>
      if isSecondHalf v.value then
        (charsFrom? none q).map (Char.ofNat (pairValue u.value v.value) :: ·)
      else none
  | some _, _ => none

/-- What a string says, unless halves of pairs stand alone in it. -/
def text? (q : Quoted) : Option String := (charsFrom? none q).map String.ofList

end Quoted

/-! ### Trees -/

inductive Tree where
  | null
  | flag (value : Bool)
  | number (numeral : Numeral)
  | text (spelling : Quoted)
  | list (elements : List Tree)
  | object (members : List (Quoted × Tree))

abbrev Token := List UInt8

def Quoted.token (q : Quoted) : Token := Byte.quote :: (q.bytes ++ [Byte.quote])

/-- Behind an entry: what closes the list, or a comma and further entries. -/
def behind (closer : UInt8) : List (List Token) → List Token
  | [] => [[closer]]
  | ts :: tss => [Byte.comma] :: (ts ++ behind closer tss)

/-- Entries with commas between them, and what closes the list. -/
def separated (closer : UInt8) : List (List Token) → List Token
  | [] => [[closer]]
  | ts :: tss => ts ++ behind closer tss

namespace Tree

mutual

def tokens : Tree → List Token
  | .null => [encode ['n', 'u', 'l', 'l']]
  | .flag true => [encode ['t', 'r', 'u', 'e']]
  | .flag false => [encode ['f', 'a', 'l', 's', 'e']]
  | .number n => [n.bytes]
  | .text q => [q.token]
  | .list vs => [Byte.openList] :: separated Byte.closeList (elementTokens vs)
  | .object ms => [Byte.openObject] :: separated Byte.closeObject (memberTokens ms)

def elementTokens : List Tree → List (List Token)
  | [] => []
  | v :: vs => tokens v :: elementTokens vs

def memberTokens : List (Quoted × Tree) → List (List Token)
  | [] => []
  | (k, v) :: ms => (k.token :: [Byte.colon] :: tokens v) :: memberTokens ms

end

theorem elementTokens_eq (vs : List Tree) : elementTokens vs = vs.map tokens := by
  induction vs with
  | nil => rfl
  | cons v vs ih => rw [elementTokens, ih, List.map_cons]

/-- The tokens of a member. -/
def tokensOfMember (m : Quoted × Tree) : List Token :=
  m.1.token :: [Byte.colon] :: m.2.tokens

theorem memberTokens_eq (ms : List (Quoted × Tree)) :
    memberTokens ms = ms.map tokensOfMember := by
  induction ms with
  | nil => rfl
  | cons m ms ih => rw [memberTokens, ih, List.map_cons, tokensOfMember]

theorem tokens_list (vs : List Tree) :
    (list vs).tokens = [Byte.openList] :: separated Byte.closeList (vs.map tokens) := by
  rw [tokens, elementTokens_eq]

theorem tokens_object (ms : List (Quoted × Tree)) :
    (object ms).tokens =
      [Byte.openObject] :: separated Byte.closeObject (ms.map tokensOfMember) := by
  rw [tokens, memberTokens_eq]

end Tree

/-- Spaces, tabs and the ends of lines. -/
def Blanks (bytes : List UInt8) : Prop :=
  ∀ b ∈ bytes, b = 0x20 ∨ b = 0x09 ∨ b = 0x0A ∨ b = 0x0D

/-- Bytes that hold tokens in a row, with blanks before, between and behind them. -/
inductive LaidOut : List Token → List UInt8 → Prop
  | done {blanks : List UInt8} (h : Blanks blanks) : LaidOut [] blanks
  | token {blanks : List UInt8} (h : Blanks blanks) (t : Token) {ts : List Token}
      {rest : List UInt8} (hrest : LaidOut ts rest) : LaidOut (t :: ts) (blanks ++ (t ++ rest))

theorem laidOut_flatten (ts : List Token) : LaidOut ts ts.flatten := by
  induction ts with
  | nil => exact .done (List.forall_mem_nil _)
  | cons t ts ih => exact .token (List.forall_mem_nil _) t ih

/-! ### What is written -/

/-- The unit of a control character. -/
def CodeUnit.ofControl (n : Nat) : CodeUnit where
  first := .of 0
  second := .of 0
  third := .of (n / 16)
  fourth := .of (n % 16)

theorem CodeUnit.ofControl_spec {n : Nat} (h : n < 0x20) : (ofControl n).value = n ∧
    Byte.backslash :: Byte.letterU :: (ofControl n).bytes =
      encode (['\x5c', 'u', '0', '0'] ++ hexPair n) := by
  interval_cases n <;> exact ⟨rfl, rfl⟩

namespace Piece

/-- The piece that a character is written as. -/
def ofChar (c : Char) : Piece :=
  if hq : c = '"' then .short .quote
  else if hs : c = '\x5c' then .short .backslash
  else if c = '\x08' then .short .backspace
  else if c = '\t' then .short .tab
  else if c = '\n' then .short .lineFeed
  else if c = '\x0c' then .short .formFeed
  else if c = '\r' then .short .carriageReturn
  else if hc : c.toNat < 0x20 then .unit (.ofControl c.toNat)
  else .plain c ⟨hq, hs, hc⟩

/-- The three ways in which a character is written. -/
theorem ofChar_cases (c : Char) :
    (∃ e : ShortEscape, ofChar c = .short e ∧ e.char = c ∧
      encode (escapedChar c) = [Byte.backslash, e.letter]) ∨
    (c.toNat < 0x20 ∧ ofChar c = .unit (.ofControl c.toNat) ∧
      escapedChar c = ['\x5c', 'u', '0', '0'] ++ hexPair c.toNat) ∨
    ∃ h, ofChar c = .plain c h ∧ escapedChar c = [c] := by
  unfold escapedChar
  split
  · exact .inl ⟨.quote, rfl, rfl, rfl⟩
  · exact .inl ⟨.backslash, rfl, rfl, rfl⟩
  · exact .inl ⟨.backspace, rfl, rfl, rfl⟩
  · exact .inl ⟨.tab, rfl, rfl, rfl⟩
  · exact .inl ⟨.lineFeed, rfl, rfl, rfl⟩
  · exact .inl ⟨.formFeed, rfl, rfl, rfl⟩
  · exact .inl ⟨.carriageReturn, rfl, rfl, rfl⟩
  · rename_i hq hs hb ht hn hf hr
    rw [ofChar, dif_neg hq, dif_neg hs, if_neg hb, if_neg ht, if_neg hn, if_neg hf, if_neg hr]
    by_cases hc : c.toNat < 0x20
    · exact .inr (.inl ⟨hc, dif_pos hc, if_pos hc⟩)
    · exact .inr (.inr ⟨⟨hq, hs, hc⟩, dif_neg hc, if_neg hc⟩)

theorem bytes_ofChar (c : Char) : (ofChar c).bytes = encode (escapedChar c) := by
  rcases ofChar_cases c with ⟨e, hpiece, -, hbytes⟩ | ⟨hc, hpiece, hchars⟩ | ⟨h, hpiece, hchars⟩
  · rw [hpiece, hbytes, bytes]
  · rw [hpiece, hchars, bytes, (CodeUnit.ofControl_spec hc).2]
  · rw [hpiece, hchars, bytes, encode_cons, encode_nil, List.append_nil]

end Piece

namespace Quoted

/-- A text as it is written. -/
def of (s : String) : Quoted := s.toList.map Piece.ofChar

theorem bytes_of (s : String) : (of s).bytes = encode (s.toList.flatMap escapedChar) := by
  rw [bytes, of, List.flatMap_map, encode, List.flatMap_assoc]
  exact congrArg (s.toList.flatMap ·) (funext Piece.bytes_ofChar)

theorem token_of (s : String) : (of s).token = encode (stringChars s) := by
  rw [token, bytes_of, stringChars, encode_cons, encode_append]
  rfl

theorem charsFrom?_ofChar (c : Char) (q : Quoted) :
    charsFrom? none (Piece.ofChar c :: q) = (charsFrom? none q).map (c :: ·) := by
  rcases Piece.ofChar_cases c with ⟨e, hpiece, rfl, -⟩ | ⟨hc, hpiece, -⟩ | ⟨h, hpiece, -⟩
  · rw [hpiece, charsFrom?]
  · have hsecond : isSecondHalf c.toNat = false := by
      rw [isSecondHalf, Bool.and_eq_false_iff, decide_eq_false_iff_not]
      omega
    have hfirst : isFirstHalf c.toNat = false := by
      rw [isFirstHalf, Bool.and_eq_false_iff, decide_eq_false_iff_not]
      omega
    rw [hpiece, charsFrom?, (CodeUnit.ofControl_spec hc).1, hsecond, hfirst, Char.ofNat_toNat]
    rfl
  · rw [hpiece, charsFrom?]

theorem text?_of (s : String) : (of s).text? = some s := by
  have hchars (cs : List Char) : charsFrom? none (cs.map Piece.ofChar) = some cs := by
    induction cs with
    | nil => rfl
    | cons c cs ih => rw [List.map_cons, charsFrom?_ofChar, ih, Option.map_some]
  rw [text?, of, hchars, Option.map_some, String.ofList_toList]

end Quoted

namespace Value

mutual

/-- A value as it is written. -/
def tree : Value → Tree
  | .null => .null
  | .flag b => .flag b
  | .text s => .text (.of s)
  | .list vs => .list (elementTrees vs)
  | .object ms => .object (memberTrees ms)

def elementTrees : List Value → List Tree
  | [] => []
  | v :: vs => tree v :: elementTrees vs

def memberTrees : List (String × Value) → List (Quoted × Tree)
  | [] => []
  | (k, v) :: ms => (.of k, tree v) :: memberTrees ms

end

theorem elementTrees_eq (vs : List Value) : elementTrees vs = vs.map tree := by
  induction vs with
  | nil => rfl
  | cons v vs ih => rw [elementTrees, ih, List.map_cons]

theorem memberTrees_eq (ms : List (String × Value)) :
    memberTrees ms = ms.map fun m => (.of m.1, m.2.tree) := by
  induction ms with
  | nil => rfl
  | cons m ms ih => rw [memberTrees, ih, List.map_cons]

theorem tree_list (vs : List Value) : (list vs).tree = .list (vs.map tree) := by
  rw [tree, elementTrees_eq]

theorem tree_object (ms : List (String × Value)) :
    (object ms).tree = .object (ms.map fun m => (.of m.1, m.2.tree)) := by
  rw [tree, memberTrees_eq]

open Json.Tree (elementTokens memberTokens)

mutual

theorem encode_compactChars : ∀ v : Value, encode v.compactChars = v.tree.tokens.flatten
  | .null | .flag true | .flag false => by simp [compactChars, tree, Tree.tokens]
  | .text s => by simp [compactChars, tree, Tree.tokens, Quoted.token_of]
  | .list vs => by
      rw [compactChars, tree, Tree.tokens, encode_cons, encode_compactElements vs]
      rfl
  | .object ms => by
      rw [compactChars, tree, Tree.tokens, encode_cons, encode_compactMembers ms]
      rfl

theorem encode_compactElements : ∀ vs : List Value,
    encode (compactElements vs) =
      (separated Byte.closeList (elementTokens (elementTrees vs))).flatten
  | [] => rfl
  | [v] => by
      rw [compactElements, encode_append, encode_compactChars v]
      simp [elementTrees, elementTokens, separated, behind]
      rfl
  | v :: w :: vs => by
      rw [compactElements, encode_append, encode_compactChars v, encode_cons,
        encode_compactElements (w :: vs)]
      · simp [elementTrees, elementTokens, separated, behind]
        rfl
      · simp

theorem encode_compactMembers : ∀ ms : List (String × Value),
    encode (compactMembers ms) =
      (separated Byte.closeObject (memberTokens (memberTrees ms))).flatten
  | [] => rfl
  | [(k, v)] => by
      rw [compactMembers, encode_append, encode_cons, encode_append, encode_compactChars v]
      simp [memberTrees, memberTokens, separated, behind, Quoted.token_of]
      rfl
  | (k, v) :: m :: ms => by
      rw [compactMembers, encode_append, encode_cons, encode_append, encode_compactChars v,
        encode_cons, encode_compactMembers (m :: ms)]
      · simp [memberTrees, memberTokens, separated, behind, Quoted.token_of]
        rfl
      · simp

end

end Value

theorem laidOut_compact (v : Value) : LaidOut v.tree.tokens (bytesOf v.compact) := by
  rw [Value.compact, bytesOf_ofList, v.encode_compactChars]
  exact laidOut_flatten v.tree.tokens

end RowTypes.Json
