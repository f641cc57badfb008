import RowTypes.Command.Request

/-!
# Command — runs

Runs a command line on a disk.  The options of `generate` come from its config file, if it names
one, and then from its switches: a flag can only be added, excluded names are added, and suffix
and header take the place of those in the file.  Then every snapshot is generated, also after one
has failed.
-/

namespace RowTypes.Command

/-- Why `generate` failed. -/
inductive Failure where
  | badConfig (path : Path) (error : Error)
  | badHeader (path : Path) (fault : Disk.Fault)
  | directoryWanted
  | failedJobs (failed total : Nat) (first : Error)
  deriving DecidableEq

/-- An error and, where it has one, the fault behind it. -/
def errorChain (e : Error) : String :=
  match e with
  | .disk fault => e.message ++ ": " ++ fault.message
  | _ => e.message

def Failure.message : Failure → String
  | .badConfig path error => "loading options from " ++ path.text ++ ": " ++ errorChain error
  | .badHeader path fault => "reading header file " ++ path.text ++ ": " ++ fault.message
  | .directoryWanted => "--out-dir is required when generating more than one schema"
  | .failedJobs failed total first =>
      toString failed ++ " of " ++ toString total ++ " schema(s) failed: " ++ first.message

/-! ### Options -/

def configOptions (r : GenerateRequest) (d : Disk) : Except Failure Options :=
  match r.config with
  | some p => (Options.ofFile d p).mapError (.badConfig p)
  | none => .ok {}

/-- The text without the line feeds at its end. -/
def dropFinalNewlines (s : String) : String :=
  String.ofList (s.toList.reverse.dropWhile (· = '\n')).reverse

/-- The header that the request asks for, if it asks for one. -/
def requestedHeader (r : GenerateRequest) (d : Disk) : Except Failure (Option String) :=
  match r.header, r.headerFile with
  | some text, _ => .ok (some text)
  | none, some p =>
      match d.readText p with
      | .ok text => .ok (some (dropFinalNewlines text))
      | .error fault => .error (.badHeader p fault)
  | none, none => .ok none

/-- The switches of a request laid over options. -/
def overlaid (o : Options) (r : GenerateRequest) : Options where
  typeAlias := o.typeAlias || r.typeAlias
  semicolons := o.semicolons || r.semicolons
  pascalEnums := o.pascalEnums || r.pascalEnums
  optionals := o.optionals || r.optionals
  comments := o.comments || r.comments
  insertTypes := o.insertTypes || r.insertTypes
  tableNames := o.tableNames || r.tableNames
  suffix := r.suffix.getD o.suffix
  exclude := o.exclude ++ r.exclude
  header := o.header

def buildOptions (r : GenerateRequest) (d : Disk) : Except Failure Options := do
  let o := overlaid (← configOptions r d) r
  return { o with header := (← requestedHeader r d) <|> o.header }

/-! ### Jobs -/

def destinationOf (r : GenerateRequest) (snapshot : Path) : Destination :=
  match r.directory, r.output with
  | some directory, _ => .inDirectory directory snapshot
  | none, some path => .file path
  | none, none => .stdout

def jobs (r : GenerateRequest) (o : Options) : List Job :=
  r.snapshots.map fun p => ⟨p, destinationOf r p, o⟩

/-- A batch fails with its first error if it has one. -/
def verdict (reports : List Report) : Except Failure Unit :=
  match reports.filterMap Report.error? with
  | [] => .ok ()
  | first :: others => .error (.failedJobs (others.length + 1) reports.length first)

def runGenerate (r : GenerateRequest) (w : World) : World × Except Failure Unit :=
  match buildOptions r w.disk with
  | .error failure => (w, .error failure)
  | .ok o =>
      if 1 < r.snapshots.length ∧ r.directory = none then (w, .error .directoryWanted)
      else
        let (w, reports) := runBatch (.of r.dialect) (jobs r o) w
        (w, verdict reports)

/-! ### Command lines -/

def programName : String := "sqlts"

def versionText : String := programName ++ " 0.1.0\n"

def helpText : String :=
  "Usage: " ++ programName ++ " generate -s FILE... | mappings [--dialect NAME]\n"

/-- What a run leaves behind besides the disk. -/
structure Outcome where
  exit : Nat
  stdout : String := ""
  /-- The last message of a run that failed. -/
  failure : Option String := none
  deriving DecidableEq

def Stop.outcome : Stop → Outcome
  | .misuse => { exit := 2 }
  | .help => { exit := 0, stdout := helpText }
  | .version => { exit := 0, stdout := versionText }

def run (words : List String) (d : Disk) : Disk × Outcome :=
  match Request.ofWords? words with
  | .error stop => (d, stop.outcome)
  | .ok (.mappings dialect) =>
      (d, { exit := 0, stdout := dialect.mapping.toJson.indented ++ "\n" })
  | .ok (.generate r) =>
      match runGenerate r { disk := d } with
      | (w, .ok ()) => (w.disk, { exit := 0, stdout := w.stdout })
      | (w, .error failure) =>
          (w.disk,
            { exit := 1, stdout := w.stdout,
              failure := some ("Generation failed: " ++ failure.message) })

end RowTypes.Command
