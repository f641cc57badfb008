/-!
# Path

Paths as they are written.  A path is taken apart at its slashes; empty pieces and `.` behind the
start stand for nothing, so `a//b`, `a/./b` and `a/b/` name the same parts.  Operations keep the
text of what they do not touch: nothing is normalised, and `..` is not resolved.
-/

namespace RowTypes

structure Path where
  text : String
  deriving DecidableEq

namespace Path

/-- The pieces of a text between its slashes. -/
def pieces : List Char → List (List Char)
  | [] => [[]]
  | c :: cs =>
      if c = '/' then [] :: pieces cs
      else match pieces cs with
        | [] => [[c]]
        | p :: ps => (c :: p) :: ps

/-- Pieces with a slash between them. -/
def ofPieces : List (List Char) → List Char
  | [] => []
  | [p] => p
  | p :: ps => p ++ '/' :: ofPieces ps

/-- A piece that stands for nothing. -/
def isVoid (p : List Char) : Bool := p = [] || p = ['.']

def dropVoidEnd (ps : List (List Char)) : List (List Char) := (ps.reverse.dropWhile isVoid).reverse

/-- A path in two: its start, which is a slash, a dot that means the current directory, or
nothing, and the pieces behind it, up to the last that stands for something. -/
structure Parts where
  start : List Char
  names : List (List Char)

def parts (p : Path) : Parts :=
  match p.text.toList with
  | '/' :: cs => ⟨['/'], dropVoidEnd (pieces cs)⟩
  | '.' :: cs =>
      if cs.head?.all (· = '/') then ⟨['.'], dropVoidEnd (pieces cs)⟩
      else ⟨[], dropVoidEnd (pieces ('.' :: cs))⟩
  | cs => ⟨[], dropVoidEnd (pieces cs)⟩

def Parts.toPath (p : Parts) : Path := ⟨String.ofList (p.start ++ ofPieces p.names)⟩

def isEmpty (p : Path) : Bool := p.text = ""

def isAbsolute (p : Path) : Bool := p.text.toList.head? = some '/'

/-- The path without its last part; the root and the empty path have none. -/
def parent? (p : Path) : Option Path :=
  let ps := p.parts
  if ps.names ≠ [] then some (Parts.toPath ⟨ps.start, dropVoidEnd ps.names.dropLast⟩)
  else if ps.start = ['.'] then some ⟨""⟩
  else none

/-- The path and what is left of it when its last part is taken off up to `n` times. -/
def ancestorsWithin (p : Path) : Nat → List Path
  | 0 => [p]
  | n + 1 => p :: (match p.parent? with | some q => q.ancestorsWithin n | none => [])

/-- The path, its parent, the parent of that, and so on.  A parent has the shorter text. -/
def ancestors (p : Path) : List Path := p.ancestorsWithin p.text.length

/-- The last part, if it is a name. -/
def fileName? (p : Path) : Option (List Char) := p.parts.names.getLast?.filter (· ≠ ['.', '.'])

/-- A file name without its last extension.  A dot at its start begins no extension. -/
def stemOf (name : List Char) : List Char :=
  match name.reverse.dropWhile (· ≠ '.') with
  | [] => name
  | [_] => name
  | _ :: stem => stem.reverse

def stem? (p : Path) : Option (List Char) := p.fileName?.map stemOf

/-- A name inside a directory. -/
def inside (directory : Path) (name : List Char) : Path :=
  let cs := directory.text.toList
  let slash := if cs.getLast?.all (· = '/') then [] else ['/']
  ⟨String.ofList (cs ++ slash ++ name)⟩

end Path

end RowTypes
