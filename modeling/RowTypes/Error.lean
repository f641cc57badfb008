import RowTypes.Disk.Fault
import RowTypes.Json.Failure

/-!
# Error

What can go wrong around generation, which itself never fails.  An error is of one of five kinds.
Its cause says what happened; `Error.message` puts it into words.
-/

namespace RowTypes

/-- Why a JSON file could not be used. -/
inductive BadFile where
  | refused (complaint : Json.Complaint)
  | unreadable (fault : Disk.Fault)
  deriving DecidableEq

def BadFile.message : BadFile → String
  | .refused complaint => complaint.message
  | .unreadable fault => fault.message

inductive SchemaCause where
  | badSnapshot (path : String) (cause : BadFile)
  | other (message : String)
  deriving DecidableEq

def SchemaCause.message : SchemaCause → String
  | .badSnapshot path cause => "invalid schema snapshot " ++ path ++ ": " ++ cause.message
  | .other message => message

inductive ConfigCause where
  | badOptions (path : String) (complaint : Json.Complaint)
  | unknownDialect (name : String)
  | other (message : String)
  deriving DecidableEq

def jsonMessage (complaint : Json.Complaint) : String :=
  "Serialization error: " ++ complaint.message

def ConfigCause.message : ConfigCause → String
  | .badOptions path complaint => "invalid options file " ++ path ++ ": " ++ jsonMessage complaint
  | .unknownDialect name => "unknown dialect: " ++ name
  | .other message => message

inductive OutputCause where
  | noDirectory (path : String) (fault : Disk.Fault)
  | other (message : String)
  deriving DecidableEq

def OutputCause.message : OutputCause → String
  | .noDirectory path fault => "cannot create " ++ path ++ ": " ++ fault.message
  | .other message => message

inductive Error where
  | schema (cause : SchemaCause)
  | config (cause : ConfigCause)
  | output (cause : OutputCause)
  | disk (fault : Disk.Fault)
  | json (complaint : Json.Complaint)
  deriving DecidableEq

def Error.message : Error → String
  | .schema cause => "Schema error: " ++ cause.message
  | .config cause => "Configuration error: " ++ cause.message
  | .output cause => "Output error: " ++ cause.message
  | .disk fault => "IO error: " ++ fault.message
  | .json complaint => jsonMessage complaint

end RowTypes
