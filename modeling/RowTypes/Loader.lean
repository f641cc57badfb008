import RowTypes.Dialect
import RowTypes.Disk
import RowTypes.Options
import RowTypes.Schema

/-!
# Loader

Loading a snapshot gives it its effective type mapping: the dialect's, under the snapshot's own,
under the custom one of the loader.
-/

namespace RowTypes

structure Loader where
  dialect : Dialect := .postgres
  custom : Mapping := .empty
  deriving DecidableEq

namespace Loader

def of (dialect : Dialect) : Loader := { dialect }

/-- Adds natives to the custom mapping. -/
def withCustom (l : Loader) (target : String) (natives : List String) : Loader :=
  { l with custom := l.custom.insert target natives }

/-- The mapping of a snapshot that brings none. -/
def baseMapping (l : Loader) : Mapping := l.dialect.mapping.mergedWith l.custom

/-- Gives a schema its effective mapping. -/
def finish (l : Loader) (s : Schema) : Schema :=
  { s with mapping := (l.dialect.mapping.mergedWith s.mapping).mergedWith l.custom }

/-- Loads a snapshot whose bytes come as a text or as a stream. -/
def loadBytes (l : Loader) (source : Json.Source) (bytes : List UInt8) : Except Error Schema :=
  match Schema.ofJson? source bytes with
  | .ok s => .ok (l.finish s)
  | .error complaint => .error (.json complaint)

def loadText (l : Loader) (text : String) : Except Error Schema :=
  l.loadBytes .text (Json.bytesOf text)

/-- Loads a snapshot from a file, which is read as a stream.  A directory can be opened, so it is
refused as a bad snapshot. -/
def loadFile (l : Loader) (d : Disk) (p : Path) : Except Error Schema :=
  match d.openNode p with
  | .error fault => .error (.disk fault)
  | .ok .directory => .error (.schema (.badSnapshot p.text (.unreadable .isDirectory)))
  | .ok (.file content) =>
      match Schema.ofJson? .stream content with
      | .ok s => .ok (l.finish s)
      | .error complaint => .error (.schema (.badSnapshot p.text (.refused complaint)))

end Loader

/-- Reads options from a file. -/
def Options.ofFile (d : Disk) (p : Path) : Except Error Options :=
  match d.readText p with
  | .error fault => .error (.disk fault)
  | .ok text =>
      match Options.ofJson? text with
      | .ok o => .ok o
      | .error complaint => .error (.config (.badOptions p.text complaint))

end RowTypes
