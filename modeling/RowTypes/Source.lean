import RowTypes.Declaration

/-!
# Source

The whole source of a schema: the header, the names of the tables, the enums and the tables, of
which the last two come in the order of their names.  Excluded tables and enums are left out;
a type may still refer to an excluded enum.
-/

namespace RowTypes

def enumBlocks (o : Options) (enums : List Enum) : List String :=
  (sortedByName (·.name) (enums.filter fun e => !o.isExcluded e.name)).map (enumBlock o)

def tableBlocks (o : Options) (r : Resolver) (tables : List Table) : List String :=
  (sortedByName (·.name) (tables.filter fun t => !o.isExcluded t.name)).map (tableBlock o r)

/-- Blocks with an empty line between them. -/
def joined (blocks : List String) : String := String.intercalate "\n" blocks

/-! ### Table names -/

/-- The tables whose names are declared. -/
def namedTables (o : Options) (tables : List Table) : List Table :=
  sortedByName (·.name) (tables.filter fun t => !t.isView && !o.isExcluded t.name)

def nameUnion (names : List String) : String :=
  if names.isEmpty then "never" else String.intercalate " | " (names.map stringLiteral)

def nameMember (name : String) : String :=
  "  " ++ singular name ++ " = " ++ stringLiteral name ++ ",\n"

/-- The union and the enum of the tables' names. -/
def tableNames (o : Options) (tables : List Table) : String :=
  let names := (namedTables o tables).map (·.name)
  "export type Tables = " ++ nameUnion names ++ o.terminator ++ "\n\n" ++
    "export enum Table \x7b" ++ body (names.map nameMember) ++ "\n"

/-! ### Generation -/

/-- A source and the numbers of its declarations. -/
structure Generated where
  source : String
  enumCount : Nat
  /-- Tables, each of which has one or two declarations. -/
  tableCount : Nat
  insertCount : Nat
  deriving DecidableEq

def headerText (o : Options) : String :=
  match o.header.filter (· ≠ "") with
  | some header => header ++ "\n\n"
  | none => ""

def generate (o : Options) (s : Schema) : Generated :=
  let enums := enumBlocks o s.enums
  let tables := tableBlocks o (.of s.mapping s.enums) s.tables
  { source :=
      headerText o ++ (if o.tableNames then tableNames o s.tables ++ "\n" else "") ++
        (if enums.isEmpty then "" else joined enums ++ "\n") ++ joined tables
    enumCount := enums.length
    tableCount := tables.length
    insertCount := (s.tables.filter fun t => !o.isExcluded t.name && hasInsert o t).length }

end RowTypes
