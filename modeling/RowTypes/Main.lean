import RowTypes.Command.Run

/-!
# Main

The program.  It looks at the disk along the paths that the command line names, runs the command
on what it saw, and then makes the changes.
-/

namespace RowTypes.Main

open Disk (Location Node)

/-- The paths that a command line reads or writes. -/
def touched (words : List String) : List Path :=
  match Command.Request.ofWords? words with
  | .ok (.generate r) =>
      r.snapshots ++ r.config.toList ++ r.headerFile.toList ++
        (r.snapshots.map (Command.destinationOf r)).filterMap fun
          | .file p => some p
          | .stdout => none
  | _ => []

/-- The locations that names lead through. -/
def trail (l : Location) : List String → List Location
  | [] => [l]
  | n :: ns =>
      l :: trail (if n = "" ∨ n = "." then l else if n = ".." then l.dropLast else l ++ [n]) ns

def pathTrail (current : Location) (p : Path) : List Location :=
  trail (if p.isAbsolute then [] else current) ((Disk.names p).map String.ofList)

def realName (l : Location) : String := "/" ++ String.intercalate "/" l

/-- What is at a location. -/
def look (l : Location) : IO (Option Node) := do
  try
    if ← (← IO.FS.realPath (realName l)).isDir then return some .directory
    return some (.file (← IO.FS.readBinFile (realName l)).data.toList)
  catch _ => return none

/-- The disk as far as the locations go. -/
def picture (current : Location) (ls : List Location) : IO Disk := do
  let nodes ← (ls.filter (· ≠ [])).filterMapM fun l => do
    return (← look l).map fun n => (l, n)
  return ⟨current, nodes⟩

/-- Makes the changes that lead from one picture to another. -/
def apply (before after : Disk) : IO Unit := do
  let changed := after.nodes.reverse.filter fun e => before.node? e.1 ≠ some e.2
  for (l, n) in changed do
    if n = .directory then IO.FS.createDirAll (realName l)
  for (l, n) in changed do
    if let .file content := n then IO.FS.writeBinFile (realName l) ⟨content.toArray⟩

def run (words : List String) : IO UInt32 := do
  let current := ((← IO.currentDir).toString.splitOn "/").filter (· ≠ "")
  let ls := trail [] current ++ (touched words).flatMap (pathTrail current)
  let before ← picture current ls.eraseDups
  let (after, outcome) := Command.run words before
  apply before after
  IO.print outcome.stdout
  match outcome.failure with
  | some message => IO.eprintln message
  | none => if outcome.exit = 2 then IO.eprint Command.helpText
  return outcome.exit.toUInt32

end RowTypes.Main

def main (words : List String) : IO UInt32 := RowTypes.Main.run words
