import RowTypes.Json.Reader
import RowTypes.Json.Value

/-!
# Options

What the generated declarations look like.  An options file is a JSON object; every key may be
left out, and an unknown one is refused.
-/

namespace RowTypes

structure Options where
  /-- Rows are type aliases and not interfaces. -/
  typeAlias : Bool := false
  /-- Members and declarations of rows end in a semicolon. -/
  semicolons : Bool := false
  /-- The keys of enum members are title words. -/
  pascalEnums : Bool := false
  /-- A nullable column is an optional member and not a union with `null`. -/
  optionals : Bool := false
  /-- Comments of the schema become doc comments. -/
  comments : Bool := false
  /-- Every table that is no view gets an insert declaration. -/
  insertTypes : Bool := false
  /-- The names of the tables are declared. -/
  tableNames : Bool := false
  /-- Ends the name of every declaration of a table. -/
  suffix : String := ""
  /-- Tables and enums that are left out. -/
  exclude : List String := []
  /-- Comes before all declarations. -/
  header : Option String := none
  deriving DecidableEq

namespace Options

def isExcluded (o : Options) (name : String) : Bool := o.exclude.contains name

def terminator (o : Options) : String := if o.semicolons then ";" else ""

/-! ### Json -/

def toJson (o : Options) : Json.Value :=
  .object
    [("type", .flag o.typeAlias), ("semicolons", .flag o.semicolons),
      ("pascalEnums", .flag o.pascalEnums), ("optionals", .flag o.optionals),
      ("comments", .flag o.comments), ("insertTypes", .flag o.insertTypes),
      ("tableNames", .flag o.tableNames), ("suffix", .text o.suffix),
      ("exclude", .list (o.exclude.map .text)),
      ("header", match o.header with | some s => .text s | none => .null)]

def shape : Json.Shape Options where
  title := "GeneratorOptions"
  blank := {}
  closed := true
  fields :=
    [.defaulted "type" Json.flag fun v o => { o with typeAlias := v },
      .defaulted "semicolons" Json.flag fun v o => { o with semicolons := v },
      .defaulted "pascalEnums" Json.flag fun v o => { o with pascalEnums := v },
      .defaulted "optionals" Json.flag fun v o => { o with optionals := v },
      .defaulted "comments" Json.flag fun v o => { o with comments := v },
      .defaulted "insertTypes" Json.flag fun v o => { o with insertTypes := v },
      .defaulted "tableNames" Json.flag fun v o => { o with tableNames := v },
      .defaulted "suffix" Json.text fun v o => { o with suffix := v },
      .defaulted "exclude" (Json.list Json.text) fun v o => { o with exclude := v },
      .defaulted "header" (Json.optional Json.text) fun v o => { o with header := v }]

def ofJson? (text : String) : Except Json.Complaint Options :=
  Json.read (Json.record shape) .text (Json.bytesOf text)

end Options

end RowTypes
