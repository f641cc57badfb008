import RowTypes.Options
import RowTypes.Text.Case

/-!
# Naming

How names of the schema become names of the declarations: title words, keys of members, string
literals, and the singular that names a row.
-/

namespace RowTypes

/-- Separators divide a name into words. -/
def isSeparator (c : Char) : Bool := c = '_' || c = '-' || Text.isBlank c

/-- Drops separators and capitalises the character behind them, and the first one if `start`. -/
def titleChars (start : Bool) : List Char → List Char
  | [] => []
  | c :: cs =>
      if isSeparator c then titleChars true cs
      else (if start then Text.upper c else [c]) ++ titleChars false cs

/-- The words of a name written together, each with a capital. -/
def titleWord (name : String) : String := String.ofList (titleChars true name.toList)

/-- A name needs quotes as a key if it holds a hyphen or a blank. -/
def needsQuotes (name : String) : Bool := name.toList.any fun c => c = '-' || Text.isBlank c

/-- The name between single quotes if it needs them.  Nothing inside is escaped. -/
def quoteIfNeeded (name : String) : String :=
  if needsQuotes name then "'" ++ name ++ "'" else name

/-- A character of a string literal; a quote or backslash is escaped. -/
def literalChar (c : Char) : List Char :=
  if c = '\x27' ∨ c = '\x5c' then ['\x5c', c] else [c]

def stringLiteral (value : String) : String :=
  String.ofList (['\x27'] ++ value.toList.flatMap literalChar ++ ['\x27'])

/-- The key of an enum member. -/
def memberKey (o : Options) (value : String) : String :=
  if o.pascalEnums then titleWord value else quoteIfNeeded value

/-- Takes the mark of the plural off a name that is written backwards. -/
def singularReversed : List Char → List Char
  | 's' :: 'e' :: 'i' :: stem => 'y' :: stem
  | 's' :: 'e' :: 's' :: 's' :: stem => 's' :: 's' :: stem
  | 's' :: 's' :: 'e' :: stem => 's' :: 's' :: 'e' :: stem
  | 's' :: stem => stem
  | cs => cs

/-- The title word of a table's name without the mark of the plural: `ies` becomes `y`, `sses`
becomes `ss`, `ess` stays, and else a final `s` goes.  A rule of spelling only; other plurals
stay as they are. -/
def singular (table : String) : String :=
  String.ofList (singularReversed (titleWord table).toList.reverse).reverse

end RowTypes
