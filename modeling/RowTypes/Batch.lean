import RowTypes.Loader
import RowTypes.Source

/-!
# Batch

A job reads one snapshot and writes the source generated from it.  It has two steps: reading,
which depends on the disk and changes nothing, and writing.  A batch runs every job, also after
one has failed, and reports on them in their order.
-/

namespace RowTypes

/-- Where a source goes. -/
inductive Destination where
  | stdout
  | file (path : Path)
  deriving DecidableEq

/-- The file in a directory that a snapshot's source goes to: the stem of the snapshot's file
name, or `schema` where it has none, with the extension `.ts`. -/
def Destination.inDirectory (directory snapshot : Path) : Destination :=
  .file (directory.inside (snapshot.stem?.getD "schema".toList ++ ".ts".toList))

/-- What a run can change. -/
structure World where
  disk : Disk
  /-- What was printed so far. -/
  stdout : String := ""
  deriving DecidableEq

/-- Makes the directories on the way to a file. -/
def ensureParent (d : Disk) (p : Path) : Disk × Except Error Unit :=
  match p.parent? with
  | none => (d, .ok ())
  | some parent =>
      if parent.isEmpty then (d, .ok ())
      else match d.makeDirectories parent with
        | (d, .ok ()) => (d, .ok ())
        | (d, .error fault) => (d, .error (.output (.noDirectory parent.text fault)))

/-- Writes a file and makes the directories on the way to it. -/
def writeFile (d : Disk) (p : Path) (source : String) : Disk × Except Error Unit :=
  match ensureParent d p with
  | (d, .error e) => (d, .error e)
  | (d, .ok ()) =>
      match d.write p (Json.bytesOf source) with
      | .ok d => (d, .ok ())
      | .error fault => (d, .error (.disk fault))

def Destination.write (destination : Destination) (source : String) (w : World) :
    World × Except Error Unit :=
  match destination with
  | .stdout => ({ w with stdout := w.stdout ++ source }, .ok ())
  | .file p =>
      let (disk, written) := writeFile w.disk p source
      ({ w with disk }, written)

structure Job where
  snapshot : Path
  destination : Destination
  options : Options
  deriving DecidableEq

namespace Job

/-- The reading step: loads the snapshot and generates its source. -/
def prepare (j : Job) (l : Loader) (d : Disk) : Except Error Generated :=
  (l.loadFile d j.snapshot).map (generate j.options)

/-- The writing step. -/
def deliver (j : Job) (prepared : Except Error Generated) (w : World) :
    World × Except Error Generated :=
  match prepared with
  | .error e => (w, .error e)
  | .ok g =>
      let (w, written) := j.destination.write g.source w
      (w, written.map fun () => g)

def run (j : Job) (l : Loader) (w : World) : World × Except Error Generated :=
  j.deliver (j.prepare l w.disk) w

end Job

/-- The outcome of a job. -/
structure Report where
  snapshot : Path
  destination : Destination
  result : Except Error Generated

namespace Report

def isSuccess (r : Report) : Bool := r.result.isOk

def error? (r : Report) : Option Error :=
  match r.result with
  | .ok _ => none
  | .error e => some e

/-- The report in one line. -/
def summary (r : Report) : String :=
  match r.result with
  | .ok g =>
      r.snapshot.text ++ ": " ++ toString g.enumCount ++ " enums, " ++ toString g.tableCount ++
        " tables, " ++ toString g.insertCount ++ " insert types (" ++
        toString g.source.utf8ByteSize ++ " bytes)"
  | .error e => r.snapshot.text ++ ": failed: " ++ e.message

end Report

/-- Runs the jobs one after another. -/
def runBatch (l : Loader) : List Job → World → World × List Report
  | [], w => (w, [])
  | j :: js, w =>
      let (w, result) := j.run l w
      let (w, reports) := runBatch l js w
      (w, ⟨j.snapshot, j.destination, result⟩ :: reports)

end RowTypes
