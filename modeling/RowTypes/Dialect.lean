import RowTypes.Error
import RowTypes.Mapping
import RowTypes.Text.Case

/-!
# Dialect

The databases a snapshot may come from.  Each brings a mapping from its native types; `none`
brings an empty one.  No dialect lists a native twice.
-/

namespace RowTypes

inductive Dialect where
  | postgres
  | mysql
  | sqlite
  | mssql
  | none
  deriving DecidableEq

namespace Dialect

def all : List Dialect := [.postgres, .mysql, .sqlite, .mssql, .none]

def name : Dialect → String
  | .postgres => "postgres"
  | .mysql => "mysql"
  | .sqlite => "sqlite"
  | .mssql => "mssql"
  | .none => "none"

/-- The dialects by name. -/
def named : List (String × Dialect) := all.map fun d => (d.name, d)

/-- Other names of dialects. -/
def aliases : List (String × Dialect) :=
  [("postgresql", .postgres), ("pg", .postgres), ("mariadb", .mysql), ("sqlite3", .sqlite),
    ("sqlserver", .mssql)]

/-- The dialect of a name or alias in upper or lower case. -/
def ofName? (name : String) : Except Error Dialect :=
  let folded := Text.lowercase name
  match (named ++ aliases).lookup folded with
  | some d => .ok d
  | Option.none => .error (.config (.unknownDialect folded))

def toJson (d : Dialect) : Json.Value := .text d.name

def ofJson? (text : String) : Except Json.Complaint Dialect :=
  Json.read (Json.variant named) .text (Json.bytesOf text)

def mapping : Dialect → Mapping
  | .postgres => { entries :=
      [("number",
          ["int2", "int4", "int8", "smallint", "integer", "bigint", "float4", "float8", "real",
            "double precision", "numeric", "decimal", "money", "oid", "serial", "bigserial",
            "smallserial"]),
        ("string",
          ["text", "varchar", "character varying", "char", "character", "bpchar", "citext",
            "name", "uuid", "inet", "cidr", "macaddr", "time", "timetz", "interval", "xml",
            "tsvector", "bit", "varbit"]),
        ("Date",
          ["date", "timestamp", "timestamptz", "timestamp without time zone",
            "timestamp with time zone"]),
        ("boolean", ["bool", "boolean"]),
        ("Object", ["json", "jsonb"]),
        ("Buffer", ["bytea"])] }
  | .mysql => { entries :=
      [("number",
          ["tinyint", "smallint", "mediumint", "int", "integer", "bigint", "float", "double",
            "decimal", "numeric", "year", "bit"]),
        ("string",
          ["char", "varchar", "tinytext", "text", "mediumtext", "longtext", "enum", "set",
            "time"]),
        ("Date", ["date", "datetime", "timestamp"]),
        ("boolean", ["bool", "boolean"]),
        ("Object", ["json"]),
        ("Buffer", ["binary", "varbinary", "tinyblob", "blob", "mediumblob", "longblob"])] }
  | .sqlite => { entries :=
      [("number", ["integer", "int", "real", "numeric", "float", "double"]),
        ("string", ["text", "varchar", "char", "clob"]),
        ("Date", ["date", "datetime"]),
        ("boolean", ["boolean"]),
        ("Buffer", ["blob"])] }
  | .mssql => { entries :=
      [("number",
          ["tinyint", "smallint", "int", "bigint", "decimal", "numeric", "float", "real",
            "money", "smallmoney"]),
        ("string",
          ["char", "varchar", "text", "nchar", "nvarchar", "ntext", "uniqueidentifier", "time",
            "xml"]),
        ("Date", ["date", "datetime", "datetime2", "smalldatetime", "datetimeoffset"]),
        ("boolean", ["bit"]),
        ("Buffer", ["binary", "varbinary", "image"])] }
  | .none => .empty

end Dialect

end RowTypes
