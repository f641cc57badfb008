/-!
# Text — lines

A line ends at a line feed, with a carriage return before it taken along.  What follows the last
line feed is a line when it is not empty, and there a carriage return stays.
-/

namespace RowTypes.Text

/-- The lines of `current`, written latest first, followed by the text. -/
def linesFrom (current : List Char) : List Char → List (List Char)
  | [] => if current.isEmpty then [] else [current.reverse]
  | c :: cs =>
      if c = '\n' then
        (if current.head? = some '\r' then current.tail else current).reverse :: linesFrom [] cs
      else linesFrom (c :: current) cs

def lines (s : String) : List String :=
  (linesFrom [] s.toList).map String.ofList

end RowTypes.Text
