import RowTypes.Order
import RowTypes.Resolver
import RowTypes.Text.Lines

/-!
# Declaration

The text of one declaration: an enum, or the rows of a table.  A table has a row declaration, for
what is read, and may have an insert declaration, for what is written: the same members, of which
those may be missing that the database fills in.
-/

namespace RowTypes

/-! ### Enums -/

def enumMember (o : Options) (value : String) : String :=
  "  " ++ memberKey o value ++ " = " ++ stringLiteral value ++ ",\n"

/-- What follows an opening brace: members, each on a line of its own, and the closing brace. -/
def body (members : List String) : String :=
  (if members.isEmpty then "" else "\n") ++ String.join members ++ "\x7d"

def enumBlock (o : Options) (e : Enum) : String :=
  "export enum " ++ titleWord e.name ++ " \x7b" ++
    body ((sortedByName id e.values).map (enumMember o)) ++ "\n"

/-! ### Doc comments -/

def commentLine (indent line : String) : String := indent ++ " * " ++ line ++ "\n"

def commentBlock (indent : String) (lines : List String) : String :=
  indent ++ "/**\n" ++ String.join (lines.map (commentLine indent)) ++ indent ++ "*/\n"

/-- The lines of a comment, of which an empty one counts as absent. -/
def commentLines? (comment : Option String) : Option (List String) :=
  (comment.filter (· ≠ "")).map Text.lines

def tableComment (o : Options) (t : Table) : String :=
  match commentLines? t.comment with
  | some lines => if o.comments then commentBlock "" lines else ""
  | none => ""

/-- The comment of a column names its primary key behind its own lines. -/
def columnComment (o : Options) (c : Column) : String :=
  let own := commentLines? c.comment
  if o.comments && (own.isSome || c.isPrimaryKey) then
    commentBlock "  " (own.getD [] ++ if c.isPrimaryKey then ["PRIMARY KEY"] else [])
  else ""

/-! ### Rows -/

/-- Which of the declarations of a table. -/
inductive Role where
  | row
  | insert
  deriving DecidableEq

/-- A member may be missing. -/
def Role.isOptional (role : Role) (o : Options) (c : Column) : Bool :=
  match role with
  | .row => o.optionals && c.isNullable
  | .insert => c.isNullable || c.hasDefault

/-- What the name of the declaration has behind the singular of the table's name. -/
def Role.nameEnd (role : Role) (o : Options) : String :=
  match role with
  | .row => o.suffix
  | .insert => "Insert" ++ o.suffix

def declaredName (o : Options) (role : Role) (table : String) : String :=
  singular table ++ role.nameEnd o

/-- The opening line of a declaration, with its brace. -/
def declarationHead (o : Options) (role : Role) (table : String) : String :=
  if o.typeAlias then "export type " ++ declaredName o role table ++ " = \x7b"
  else "export interface " ++ declaredName o role table ++ " \x7b"

/-- A nullable column is a union with `null` where it is not made optional instead. -/
def nullUnion (o : Options) (c : Column) : String :=
  if c.isNullable && !o.optionals then " | null" else ""

def memberLine (o : Options) (r : Resolver) (role : Role) (c : Column) : String :=
  "  " ++ quoteIfNeeded c.name ++ (if role.isOptional o c then "?" else "") ++ ": " ++
    r.resolve c.type ++ nullUnion o c ++ o.terminator ++ "\n"

def memberBlock (o : Options) (r : Resolver) (role : Role) (c : Column) : String :=
  columnComment o c ++ memberLine o r role c

def declaration (o : Options) (r : Resolver) (role : Role) (t : Table) : String :=
  tableComment o t ++ declarationHead o role t.name ++
    body ((sortedByName (·.name) t.columns).map (memberBlock o r role)) ++ o.terminator ++ "\n"

/-- Views get no insert declaration. -/
def hasInsert (o : Options) (t : Table) : Bool := o.insertTypes && !t.isView

def tableBlock (o : Options) (r : Resolver) (t : Table) : String :=
  declaration o r .row t ++ if hasInsert o t then "\n" ++ declaration o r .insert t else ""

end RowTypes
