import RowTypes.Batch
import RowTypes.Command.Arguments

/-!
# Command — requests

The switches of each command, and what a command line asks for.
-/

namespace RowTypes.Command

/-! ### Switches -/

/-- Switches of every command.  Nothing is logged, so of those about logging only the form
counts. -/
def sharedSwitches : List Switch :=
  [{ name := "verbose", letter := some 'v' },
    { name := "log-level", operand := .choice ["error", "warn", "info", "debug", "trace"] },
    { name := "json-logs" },
    { name := "help", letter := some 'h', stop := some .help }]

def dialectSwitch : Switch :=
  { name := "dialect", operand := .choice (Dialect.all.map (·.name)) }

def mainLevel : Level where
  switches := sharedSwitches ++ [{ name := "version", letter := some 'V', stop := some .version }]
  commands := ["generate", "mappings", "help"]

def mappingsLevel : Level where
  switches := sharedSwitches ++ [dialectSwitch]

def generateLevel : Level where
  switches := sharedSwitches ++
    [{ name := "schema", letter := some 's', operand := .path, repeatable := true },
      { name := "output", letter := some 'o', operand := .path },
      { name := "out-dir", operand := .path },
      { name := "config", letter := some 'c', operand := .path },
      dialectSwitch,
      { name := "type" },
      { name := "semicolons" },
      { name := "pascal-enums" },
      { name := "optionals" },
      { name := "comments" },
      { name := "insert-types" },
      { name := "table-names" },
      { name := "suffix", operand := .text },
      { name := "exclude", operand := .text, repeatable := true },
      { name := "header", operand := .text },
      { name := "header-file", operand := .path }]

/-! ### Requests -/

/-- What `generate` is asked for. -/
structure GenerateRequest where
  snapshots : List Path
  output : Option Path := none
  directory : Option Path := none
  config : Option Path := none
  dialect : Dialect := .postgres
  typeAlias : Bool := false
  semicolons : Bool := false
  pascalEnums : Bool := false
  optionals : Bool := false
  comments : Bool := false
  insertTypes : Bool := false
  tableNames : Bool := false
  suffix : Option String := none
  exclude : List String := []
  header : Option String := none
  headerFile : Option Path := none
  deriving DecidableEq

inductive Request where
  | generate (request : GenerateRequest)
  | mappings (dialect : Dialect)
  deriving DecidableEq

def dialectOf (given : Given) : Dialect :=
  ((given.value? "dialect").bind fun n => Dialect.named.lookup n).getD .postgres

/-- A snapshot is required, and of two switches that contradict one another only one may be
given. -/
def GenerateRequest.ofGiven? (given : Given) : Except Stop GenerateRequest :=
  if !given.has "schema" || (given.has "output" && given.has "out-dir") ||
      (given.has "header" && given.has "header-file") then .error .misuse
  else .ok {
    snapshots := (given.values "schema").map Path.mk
    output := (given.value? "output").map Path.mk
    directory := (given.value? "out-dir").map Path.mk
    config := (given.value? "config").map Path.mk
    dialect := dialectOf given
    typeAlias := given.has "type"
    semicolons := given.has "semicolons"
    pascalEnums := given.has "pascal-enums"
    optionals := given.has "optionals"
    comments := given.has "comments"
    insertTypes := given.has "insert-types"
    tableNames := given.has "table-names"
    suffix := given.value? "suffix"
    exclude := given.values "exclude"
    header := given.value? "header"
    headerFile := (given.value? "header-file").map Path.mk }

/-- The words behind `help` name one command at most. -/
def helpRequest (words : List String) : Stop :=
  match words with
  | [] => .help
  | [w] => if mainLevel.commands.contains w then .help else .misuse
  | _ => .misuse

def Request.ofWords? (words : List String) : Except Stop Request := do
  match (← scan mainLevel [] none words).2 with
  | some ("generate", ws) =>
      return .generate (← GenerateRequest.ofGiven? (← scan generateLevel [] none ws).1)
  | some ("mappings", ws) => return .mappings (dialectOf (← scan mappingsLevel [] none ws).1)
  | some (_, ws) => .error (helpRequest ws)
  | none => .error .misuse

end RowTypes.Command
