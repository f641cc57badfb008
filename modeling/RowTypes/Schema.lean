import RowTypes.Mapping

/-!
# Schema

A snapshot of a relational schema: tables and views with their columns, enumerated types, and the
type mapping.  A snapshot is written as a JSON object in which every key but the name of a table,
a column or an enum may be left out, and unknown keys are skipped.
-/

namespace RowTypes

/-- An index that a column takes part in. -/
structure Index where
  name : Option String := none
  isPrimaryKey : Bool := false
  deriving DecidableEq

structure Column where
  name : String := ""
  /-- The native type, with a leading `_` where it is an array of the type that follows. -/
  type : String := ""
  isNullable : Bool := false
  hasDefault : Bool := false
  comment : Option String := none
  indices : List Index := []
  deriving DecidableEq

/-- A table or a view. -/
structure Table where
  name : String := ""
  columns : List Column := []
  comment : Option String := none
  isView : Bool := false
  deriving DecidableEq

structure Enum where
  name : String := ""
  values : List String := []
  deriving DecidableEq

structure Schema where
  tables : List Table := []
  enums : List Enum := []
  mapping : Mapping := .empty
  deriving DecidableEq

namespace Column

def ofType (name type : String) : Column := { name, type }

def nullable (c : Column) : Column := { c with isNullable := true }

def withDefault (c : Column) : Column := { c with hasDefault := true }

def withComment (c : Column) (text : String) : Column := { c with comment := some text }

/-- Adds a nameless index of the primary key. -/
def primaryKey (c : Column) : Column :=
  { c with indices := c.indices ++ [{ isPrimaryKey := true }] }

def isPrimaryKey (c : Column) : Bool := c.indices.any (·.isPrimaryKey)

end Column

namespace Table

def named (name : String) : Table := { name }

def withColumn (t : Table) (c : Column) : Table := { t with columns := t.columns ++ [c] }

def withComment (t : Table) (text : String) : Table := { t with comment := some text }

def view (t : Table) : Table := { t with isView := true }

end Table

/-- The same schema, up to the order of mapping entries. -/
def Schema.sameAs (a b : Schema) : Bool :=
  a.tables = b.tables && a.enums = b.enums && a.mapping.sameAs b.mapping

/-! ### Writing -/

def textOrNull : Option String → Json.Value
  | some s => .text s
  | none => .null

def Index.toJson (i : Index) : Json.Value :=
  .object [("name", textOrNull i.name), ("isPrimaryKey", .flag i.isPrimaryKey)]

def Column.toJson (c : Column) : Json.Value :=
  .object
    [("name", .text c.name), ("type", .text c.type), ("isNullable", .flag c.isNullable),
      ("hasDefault", .flag c.hasDefault), ("comment", textOrNull c.comment),
      ("indices", .list (c.indices.map Index.toJson))]

def Table.toJson (t : Table) : Json.Value :=
  .object
    [("name", .text t.name), ("columns", .list (t.columns.map Column.toJson)),
      ("comment", textOrNull t.comment), ("isView", .flag t.isView)]

def Enum.toJson (e : Enum) : Json.Value :=
  .object [("name", .text e.name), ("values", .list (e.values.map .text))]

def Schema.toJson (s : Schema) : Json.Value :=
  .object
    [("tables", .list (s.tables.map Table.toJson)), ("enums", .list (s.enums.map Enum.toJson)),
      ("typeMapping", s.mapping.toJson)]

/-! ### Reading -/

def Index.shape : Json.Shape Index where
  title := "Index"
  blank := {}
  closed := false
  fields :=
    [.defaulted "name" (Json.optional Json.text) fun v i => { i with name := v },
      .defaulted "isPrimaryKey" Json.flag fun v i => { i with isPrimaryKey := v }]

def Column.shape : Json.Shape Column where
  title := "Column"
  blank := {}
  closed := false
  fields :=
    [.mandatory "name" Json.text fun v c => { c with name := v },
      .defaulted "type" Json.text fun v c => { c with type := v },
      .defaulted "isNullable" Json.flag fun v c => { c with isNullable := v },
      .defaulted "hasDefault" Json.flag fun v c => { c with hasDefault := v },
      .defaulted "comment" (Json.optional Json.text) fun v c => { c with comment := v },
      .defaulted "indices" (Json.list (Json.record Index.shape)) fun v c =>
        { c with indices := v }]

def Table.shape : Json.Shape Table where
  title := "Table"
  blank := {}
  closed := false
  fields :=
    [.mandatory "name" Json.text fun v t => { t with name := v },
      .defaulted "columns" (Json.list (Json.record Column.shape)) fun v t =>
        { t with columns := v },
      .defaulted "comment" (Json.optional Json.text) fun v t => { t with comment := v },
      .defaulted "isView" Json.flag fun v t => { t with isView := v }]

def Enum.shape : Json.Shape Enum where
  title := "EnumDefinition"
  blank := {}
  closed := false
  fields :=
    [.mandatory "name" Json.text fun v e => { e with name := v },
      .defaulted "values" (Json.list Json.text) fun v e => { e with values := v }]

def Schema.shape : Json.Shape Schema where
  title := "Schema"
  blank := {}
  closed := false
  fields :=
    [.defaulted "tables" (Json.list (Json.record Table.shape)) fun v s => { s with tables := v },
      .defaulted "enums" (Json.list (Json.record Enum.shape)) fun v s => { s with enums := v },
      .defaulted "typeMapping" Mapping.reader fun v s => { s with mapping := v }]

def Schema.ofJson? (source : Json.Source) (bytes : List UInt8) : Except Json.Complaint Schema :=
  Json.read (Json.record Schema.shape) source bytes

end RowTypes
