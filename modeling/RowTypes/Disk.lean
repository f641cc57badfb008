import RowTypes.Disk.Fault
import RowTypes.Path

/-!
# Disk

A tree of directories and files, as a table from locations to nodes; a location is the list of the
names on the way from the root.  There are no links.

The table is seen from the root down: what it has at a location is there if the parent is a
directory, and the directories on the way to the current one are there always.  So every disk is a
tree with a current directory in it, whatever its table holds.

Paths are followed name by name from the current directory, or from the root if they start with a
slash.  Every name but the last has to lead to a directory.  A fault changes nothing, except that
`makeDirectories` leaves the directories it made on the way.
-/

namespace RowTypes

namespace Disk

abbrev Location := List String

inductive Node where
  | directory
  | file (content : List UInt8)
  deriving DecidableEq

end Disk

structure Disk where
  /-- The current directory. -/
  current : Disk.Location
  nodes : List (Disk.Location × Disk.Node)
  deriving DecidableEq

namespace Disk

/-- What is at a location if there is a directory for it to be in. -/
def listed? (d : Disk) (l : Location) : Option Node :=
  if l <+: d.current then some .directory else d.nodes.lookup l

/-- The node at the location that has these names from the last one up. -/
def nodeUp? (d : Disk) : List String → Option Node
  | [] => some .directory
  | name :: above =>
      if d.nodeUp? above = some .directory then d.listed? (name :: above).reverse else none

/-- The node at a location. -/
def node? (d : Disk) (l : Location) : Option Node := d.nodeUp? l.reverse

/-- Puts a node at a location, in the place of a file that is there. -/
def put (d : Disk) (l : Location) (n : Node) : Disk :=
  { d with nodes := (l, n) :: d.nodes.filter fun e => ¬ l <+: e.1 }

/-- The longest name, in bytes. -/
def nameLimit : Nat := 255

/-- The first length of a path, in bytes, that is too long. -/
def pathLimit : Nat := 4096

/-- One step along a path.  What it leads to need not exist. -/
def enter (d : Disk) (l : Location) (name : String) : Except Fault Location :=
  match d.node? l with
  | none => .error .notFound
  | some (.file _) => .error .notDirectory
  | some .directory =>
      if name = "" ∨ name = "." then .ok l
      else if name = ".." then .ok l.dropLast
      else if nameLimit < name.utf8ByteSize then .error .nameTooLong
      else .ok (l ++ [name])

/-- A path that can be passed on to the disk. -/
def checked (p : Path) : Except Fault Path :=
  if '\x00' ∈ p.text.toList then .error .nulInName
  else if p.text = "" then .error .notFound
  else if pathLimit ≤ p.text.utf8ByteSize then .error .nameTooLong
  else .ok p

/-- The location that names lead to, from where the path starts. -/
def follow (d : Disk) (p : Path) (names : List (List Char)) : Except Fault Location :=
  (names.map String.ofList).foldlM d.enter (if p.isAbsolute then [] else d.current)

def names (p : Path) : List (List Char) := Path.pieces p.text.toList

/-! ### Looking -/

/-- The node that a path leads to. -/
def openNode (d : Disk) (p : Path) : Except Fault Node := do
  let p ← checked p
  match d.node? (← d.follow p (names p)) with
  | some n => .ok n
  | none => .error .notFound

def isDirectory (d : Disk) (p : Path) : Bool :=
  match d.openNode p with
  | .ok .directory => true
  | _ => false

def read (d : Disk) (p : Path) : Except Fault (List UInt8) := do
  match ← d.openNode p with
  | .file content => .ok content
  | .directory => .error .isDirectory

def readText (d : Disk) (p : Path) : Except Fault String := do
  match String.fromUTF8? ⟨(← d.read p).toArray⟩ with
  | some s => .ok s
  | none => .error .notText

/-! ### Changing -/

/-- Where a path would make a new node. -/
structure Spot where
  directory : Location
  /-- Nothing where the path leads to a directory by its form. -/
  name : Option String
  /-- A slash follows the name. -/
  slashed : Bool

def spot (d : Disk) (p : Path) : Except Fault Spot := do
  let p ← checked p
  let slashes := (names p).reverse.takeWhile (· = [])
  match (names p).reverse.dropWhile (· = []) with
  | [] => .ok ⟨[], none, true⟩
  | last :: before =>
      let l ← d.enter (← d.follow p before.reverse) "."
      let name := String.ofList last
      .ok ⟨l, if name = "." ∨ name = ".." then none else some name, slashes ≠ []⟩

/-- Puts a file at a path, in the place of one that is there. -/
def write (d : Disk) (p : Path) (content : List UInt8) : Except Fault Disk := do
  let s ← d.spot p
  match s.name with
  | none => .error .isDirectory
  | some name =>
      if s.slashed then .error .isDirectory
      else
        let l ← d.enter s.directory name
        if d.node? l = some .directory then .error .isDirectory
        else .ok (d.put l (.file content))

def makeDirectory (d : Disk) (p : Path) : Except Fault Disk := do
  let s ← d.spot p
  match s.name with
  | none => .error .exists
  | some name =>
      let l ← d.enter s.directory name
      if (d.node? l).isSome then .error .exists else .ok (d.put l .directory)

/-- A directory that is wanted: if it cannot be made, it may be there already. -/
def ensureDirectory (d : Disk) (p : Path) : Disk × Except Fault Unit :=
  match d.makeDirectory p with
  | .ok d => (d, .ok ())
  | .error f => (d, if d.isDirectory p then .ok () else .error f)

/-- The first of the paths as a directory, where each path is the parent of the one before it. -/
def ensureChain (d : Disk) : List Path → Disk × Except Fault Unit
  | [] => (d, .ok ())
  | p :: above =>
      if p.isEmpty then (d, .ok ())
      else match d.makeDirectory p with
        | .error .notFound =>
            match d.ensureChain above with
            | (d, .ok ()) => d.ensureDirectory p
            | failed => failed
        | _ => d.ensureDirectory p

/-- A directory with all directories on the way to it. -/
def makeDirectories (d : Disk) (p : Path) : Disk × Except Fault Unit := d.ensureChain p.ancestors

/-! ### Listing -/

/-- The files below the current directory, each with its path from there. -/
def files (d : Disk) : List (String × List UInt8) :=
  d.nodes.filterMap fun (l, _) =>
    match d.node? l with
    | some (.file content) =>
        if d.current <+: l then some (String.intercalate "/" (l.drop d.current.length), content)
        else none
    | _ => none

end Disk

end RowTypes
