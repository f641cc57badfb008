import Mathlib.Data.List.Basic
import RowTypes.Source

/-!
# Literals — what a reader finds between quotes

A reader of the source takes a text in single quotes for a literal (`literal?`).  It scans from the
opening quote on; a backslash takes the next character as it is, and the first quote that is not
taken ends the literal.

`stringLiteral` writes a backslash in front of every quote and backslash of its value, so the reader
finds the value, whatever follows the literal (`literal?_stringLiteral`).  A key in quotes is
written without backslashes: the reader leaves it at the first quote of the name, and loses the
backslashes of the name.

**Quoted keys** (`quotedKey_denotes_iff`).  A key in quotes is read as its name if and only if the
name holds neither a quote nor a backslash; only then do the key of an enum's value and the literal
behind it denote the same.
-/

namespace RowTypes

/-- Scans a literal behind its opening quote, and gives what it denotes and what follows it.  A
backslash takes the next character as it is, and the first quote that is not taken ends the
literal. -/
def scanLiteral (taken : Bool) : List Char → Option (List Char × List Char)
  | [] => none
  | c :: cs =>
      if taken = true ∨ (c ≠ '\x27' ∧ c ≠ '\x5c') then
        (scanLiteral false cs).map fun p => (c :: p.1, p.2)
      else if c = '\x27' then some ([], cs)
      else scanLiteral true cs

/-- What the literal denotes that a text opens with, and what follows it. -/
def literal? (text : String) : Option (String × String) :=
  match text.toList with
  | '\x27' :: cs => (scanLiteral false cs).map fun p => (String.ofList p.1, String.ofList p.2)
  | _ => none

/-- The literal that a line opens with, behind blanks at most. -/
def keyOf? (line : String) : Option (String × String) :=
  literal? (String.ofList (line.toList.dropWhile (· = ' ')))

/-- A name holds a character that a literal has to escape. -/
def NeedsEscape (name : String) : Prop := ∃ c ∈ name.toList, c = '\x27' ∨ c = '\x5c'

instance (name : String) : Decidable (NeedsEscape name) := List.decidableBEx _ _

/-! ### Scanning -/

theorem scanLiteral_taken (c : Char) (cs : List Char) :
    scanLiteral true (c :: cs) = (scanLiteral false cs).map fun p => (c :: p.1, p.2) :=
  if_pos (.inl rfl)

theorem scanLiteral_ordinary {c : Char} (hquote : c ≠ '\x27') (hslash : c ≠ '\x5c')
    (cs : List Char) :
    scanLiteral false (c :: cs) = (scanLiteral false cs).map fun p => (c :: p.1, p.2) :=
  if_pos (.inr ⟨hquote, hslash⟩)

theorem scanLiteral_backslash (cs : List Char) :
    scanLiteral false ('\x5c' :: cs) = scanLiteral true cs := rfl

/-- An escaped text is read back up to the quote behind it. -/
theorem scanLiteral_flatMap (cs rest : List Char) :
    scanLiteral false (cs.flatMap literalChar ++ '\x27' :: rest) = some (cs, rest) := by
  induction cs with
  | nil => rfl
  | cons c cs ih =>
      rw [List.flatMap_cons, literalChar]
      split
      · rw [List.append_assoc, List.cons_append, scanLiteral_backslash, List.cons_append,
          scanLiteral_taken, List.nil_append, ih]
        rfl
      · rename_i hc
        obtain ⟨hquote, hslash⟩ := not_or.mp hc
        rw [List.append_assoc, List.singleton_append, scanLiteral_ordinary hquote hslash, ih]
        rfl

/-- What is read and what is left are no longer than the text, less the quote between them. -/
theorem length_of_scanLiteral {cs : List Char} : ∀ {taken : Bool} {value rest : List Char},
    scanLiteral taken cs = some (value, rest) → value.length + rest.length < cs.length := by
  induction cs with
  | nil => rintro taken value rest ⟨⟩
  | cons c cs ih =>
      intro taken value rest h
      rw [scanLiteral] at h
      split at h
      · obtain ⟨p, hp, heq⟩ := Option.map_eq_some_iff.mp h
        cases heq
        have hlen := ih hp
        simp only [List.length_cons]
        omega
      · split at h
        · cases h
          simp
        · have hlen := ih h
          rw [List.length_cons]
          omega

/-- **A text between quotes** is read as it stands if and only if nothing in it needs an escape. -/
theorem scanLiteral_eq_iff (cs rest : List Char) :
    scanLiteral false (cs ++ '\x27' :: rest) = some (cs, rest) ↔
      ¬ ∃ c ∈ cs, c = '\x27' ∨ c = '\x5c' := by
  induction cs with
  | nil => exact iff_of_true rfl (by simp)
  | cons c cs ih =>
      rw [List.exists_mem_cons_iff, not_or, List.cons_append]
      by_cases hc : c = '\x27' ∨ c = '\x5c'
      · refine iff_of_false (fun h => ?_) fun h => h.1 hc
        rcases hc with rfl | rfl
        · cases h
        -- The backslash itself is not read, so what is read behind it would be too long.
        · have hlen := length_of_scanLiteral (scanLiteral_backslash _ ▸ h)
          rw [List.length_append, List.length_cons, List.length_cons] at hlen
          omega
      · obtain ⟨hquote, hslash⟩ := not_or.mp hc
        rw [scanLiteral_ordinary hquote hslash, and_iff_right hc, ← ih, Option.map_eq_some_iff]
        constructor
        · rintro ⟨⟨value, left⟩, hp, heq⟩
          cases heq
          exact hp
        · intro h
          exact ⟨_, h, rfl⟩

/-! ### Literals and quoted keys -/

/-- A text between quotes opens with its characters, up to the first quote that is not taken. -/
theorem literal?_between (inner : List Char) (rest : String) :
    literal? (String.ofList (['\x27'] ++ inner ++ ['\x27']) ++ rest) =
      (scanLiteral false (inner ++ '\x27' :: rest.toList)).map
        fun p => (String.ofList p.1, String.ofList p.2) := by
  have hlist : (String.ofList (['\x27'] ++ inner ++ ['\x27']) ++ rest).toList =
      '\x27' :: (inner ++ '\x27' :: rest.toList) := by simp
  rw [literal?, hlist]
  rfl

/-- **A string literal denotes its value**, whatever follows it. -/
theorem literal?_stringLiteral (value rest : String) :
    literal? (stringLiteral value ++ rest) = some (value, rest) := by
  rw [stringLiteral, literal?_between, scanLiteral_flatMap, Option.map_some,
    String.ofList_toList, String.ofList_toList]

theorem quoteIfNeeded_eq {name : String} (h : needsQuotes name = true) :
    quoteIfNeeded name = String.ofList (['\x27'] ++ name.toList ++ ['\x27']) := by
  rw [quoteIfNeeded, if_pos h]
  refine String.toList_injective ?_
  simp

theorem literal?_quoteIfNeeded_iff {name : String} (h : needsQuotes name = true) (rest : String) :
    literal? (quoteIfNeeded name ++ rest) = some (name, rest) ↔ ¬ NeedsEscape name := by
  rw [NeedsEscape, ← scanLiteral_eq_iff name.toList rest.toList, quoteIfNeeded_eq h,
    literal?_between, Option.map_eq_some_iff]
  constructor
  · rintro ⟨⟨value, left⟩, hscan, heq⟩
    obtain ⟨rfl, rfl⟩ := Prod.mk.inj heq
    rw [String.toList_ofList, String.toList_ofList] at hscan ⊢
    exact hscan
  · intro hscan
    exact ⟨_, hscan, by rw [String.ofList_toList, String.ofList_toList]⟩

/-- The key of a line stands behind its indent. -/
theorem keyOf?_quoteIfNeeded_iff {name : String} (h : needsQuotes name = true) (rest : String) :
    keyOf? ("  " ++ quoteIfNeeded name ++ rest) = some (name, rest) ↔ ¬ NeedsEscape name := by
  have hlist : ("  " ++ quoteIfNeeded name ++ rest).toList =
      [' ', ' '] ++ (quoteIfNeeded name ++ rest).toList := by
    simp [String.toList_append]
  have hkey : (quoteIfNeeded name ++ rest).toList.dropWhile (· = ' ') =
      (quoteIfNeeded name ++ rest).toList := by
    simp [quoteIfNeeded_eq h]
  rw [keyOf?, hlist, List.dropWhile_append_of_pos (by simp), hkey, String.ofList_toList,
    literal?_quoteIfNeeded_iff h]

/-- **Quoted keys.**  A key in quotes is read as its name, by itself and in the line of a column or
of an enum's value, if and only if no character of the name needs an escape.  Only then do the key
and the literal of a value denote the same. -/
theorem quotedKey_denotes_iff {name : String} (h : needsQuotes name = true) :
    (∀ rest, literal? (quoteIfNeeded name ++ rest) = some (name, rest) ↔ ¬ NeedsEscape name) ∧
    (∀ (o : Options) (r : Resolver) (role : Role) (c : Column), c.name = name →
      (keyOf? (memberLine o r role c) = some (name, (if role.isOptional o c then "?" else "") ++
          ": " ++ r.resolve c.type ++ nullUnion o c ++ o.terminator ++ "\n") ↔
        ¬ NeedsEscape name)) ∧
    ∀ o : Options, o.pascalEnums = false →
      (keyOf? (enumMember o name) = some (name, " = " ++ stringLiteral name ++ ",\n") ↔
        ¬ NeedsEscape name) ∧
      (literal? (memberKey o name) = literal? (stringLiteral name) ↔ ¬ NeedsEscape name) := by
  refine ⟨literal?_quoteIfNeeded_iff h, ?member, fun o ho => ?enum⟩
  case member =>
    rintro o r role c rfl
    have hline : memberLine o r role c = "  " ++ quoteIfNeeded c.name ++
        ((if role.isOptional o c then "?" else "") ++ ": " ++ r.resolve c.type ++
          nullUnion o c ++ o.terminator ++ "\n") := by
      simp only [memberLine, String.append_assoc]
    rw [hline]
    exact keyOf?_quoteIfNeeded_iff h _
  case enum =>
    have hkey : memberKey o name = quoteIfNeeded name := by
      rw [memberKey, ho]
      rfl
    have hline : enumMember o name = "  " ++ quoteIfNeeded name ++
        (" = " ++ stringLiteral name ++ ",\n") := by
      simp only [enumMember, hkey, String.append_assoc]
    have hvalue := literal?_stringLiteral name ""
    have hname := literal?_quoteIfNeeded_iff h ""
    rw [String.append_empty] at hvalue hname
    rw [hline, hkey, hvalue]
    exact ⟨keyOf?_quoteIfNeeded_iff h _, hname⟩

/-- A key that is read as its name, and one that is not. -/
theorem quotedKey_denotes_createdAt :
    needsQuotes "created at" = true ∧ needsQuotes "it's me" = true ∧
      keyOf? (memberLine { optionals := true } ⟨[]⟩ .row
        { name := "created at", isNullable := true }) = some ("created at", "?: any\n") ∧
      literal? (memberKey {} "created at") = literal? (stringLiteral "created at") ∧
      literal? (memberKey {} "it's me") ≠ literal? (stringLiteral "it's me") := by
  have hquoted : needsQuotes "created at" = true ∧ needsQuotes "it's me" = true := by
    decide +kernel
  obtain ⟨-, hmember, henum⟩ := quotedKey_denotes_iff hquoted.1
  obtain ⟨-, -, henum'⟩ := quotedKey_denotes_iff hquoted.2
  exact ⟨hquoted.1, hquoted.2, (hmember _ _ _ _ rfl).mpr (by decide),
    (henum {} rfl).2.mpr (by decide), fun h => (henum' {} rfl).2.mp h (by decide)⟩

/-- Names that need escapes, one of a column and one of a value. -/
def remarkSchema : Schema where
  tables := [{ name := "remarks", columns := [{ name := "it's me", type := "text" }] }]
  enums := [{ name := "tone", values := ["o'clock-ish"] }]
  mapping := { entries := [("string", ["text"])] }

/-- The reader comes out of the keys at the quotes of the names. -/
theorem keyOf?_remarkSchema :
    (generate {} remarkSchema).source =
        "export enum Tone \x7b\n  'o'clock-ish' = 'o\\'clock-ish',\n\x7d\n\n" ++
          "export interface Remark \x7b\n  'it's me': string\n\x7d\n" ∧
      keyOf? "  'it's me': string\n" = some ("it", "s me': string\n") ∧
      literal? (memberKey {} "o'clock-ish") ≠ literal? (stringLiteral "o'clock-ish") ∧
      ∃ name, needsQuotes name = true ∧ literal? (quoteIfNeeded name) ≠ some (name, "") := by
  refine ⟨by decide +kernel, by decide +kernel, by decide +kernel, "it's me", ?_⟩
  decide +kernel

end RowTypes
