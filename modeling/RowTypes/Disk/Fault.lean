/-!
# Disk — faults

Why the disk refused a request.  Each fault has a number; a name that cannot be passed on and
bytes that are no text are found before and after the disk is asked, and have none.
-/

namespace RowTypes.Disk

inductive Fault where
  | notFound
  | exists
  | notDirectory
  | isDirectory
  | nameTooLong
  | nulInName
  | notText
  deriving DecidableEq

/-- A fault with its number. -/
def Fault.numbered (text : String) (number : Nat) : String :=
  text ++ " (os error " ++ toString number ++ ")"

def Fault.message : Fault → String
  | .notFound => numbered "No such file or directory" 2
  | .exists => numbered "File exists" 17
  | .notDirectory => numbered "Not a directory" 20
  | .isDirectory => numbered "Is a directory" 21
  | .nameTooLong => numbered "File name too long" 36
  | .nulInName => "file name contained an unexpected NUL byte"
  | .notText => "stream did not contain valid UTF-8"

end RowTypes.Disk
