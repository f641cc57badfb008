/-!
# Command — arguments

How the words of a command line become switches with their values.  A switch is written `--name`
or, where it has a letter, `-x`; letters may be written together.  A value is the next word, or
follows the name behind `=`, or the letter with or without `=`.  A word that starts with `-` is
only a value when it is written in this second way, or is `-` alone.  Behind `--` no word may
follow, as no command takes words of its own.

Reading stops at the first word that is wrong, or that asks for help or the version.
-/

namespace RowTypes.Command

/-- Why a command line is not run. -/
inductive Stop where
  | misuse
  | help
  | version
  deriving DecidableEq

/-- The value that a switch takes. -/
inductive Operand where
  | none
  | text
  /-- Any text but the empty one. -/
  | path
  | choice (words : List String)
  deriving DecidableEq

def Operand.accepts (value : String) : Operand → Bool
  | .none => false
  | .text => true
  | .path => value ≠ ""
  | .choice words => words.contains value

structure Switch where
  name : String
  letter : Option Char := none
  operand : Operand := .none
  repeatable : Bool := false
  /-- What the switch asks for instead of a run. -/
  stop : Option Stop := none
  deriving DecidableEq

/-- Names of switches with their values, in the order of the words; a value that is not taken is
empty. -/
abbrev Given := List (String × String)

/-- A word by its form. -/
inductive Form where
  | escape
  | long (name : String) (value : Option String)
  | letters (cs : List Char)
  | plain

/-- A name and what is behind its first `=`. -/
def splitValue (cs : List Char) : Form :=
  let value := cs.dropWhile (· ≠ '=')
  .long (String.ofList (cs.takeWhile (· ≠ '=')))
    (if value = [] then none else some (String.ofList value.tail))

def Form.of (word : String) : Form :=
  match word.toList with
  | ['-', '-'] => .escape
  | '-' :: '-' :: cs => splitValue cs
  | '-' :: c :: cs => .letters (c :: cs)
  | _ => .plain

namespace Given

def has (given : Given) (name : String) : Bool := given.any (·.1 = name)

def value? (given : Given) (name : String) : Option String := given.lookup name

def values (given : Given) (name : String) : List String :=
  (given.filter (·.1 = name)).map (·.2)

/-- A switch that is given once more. -/
def add (given : Given) (s : Switch) (value : String) : Except Stop Given :=
  if !s.repeatable && given.has s.name then .error .misuse else .ok (given ++ [(s.name, value)])

def addFlag (given : Given) (s : Switch) : Except Stop Given :=
  match s.stop with
  | some stop => .error stop
  | none => given.add s ""

def addValue (given : Given) (s : Switch) (value : String) : Except Stop Given :=
  if s.operand.accepts value then given.add s value else .error .misuse

end Given

/-- What a command understands: its switches and the commands below it. -/
structure Level where
  switches : List Switch
  commands : List String := []

/-- Switches so far, and one that still waits for its value. -/
abbrev Progress := Given × Option Switch

def readLetters (level : Level) (given : Given) : List Char → Except Stop Progress
  | [] => .ok (given, none)
  | c :: cs =>
      match level.switches.find? (·.letter = some c) with
      | none => .error .misuse
      | some s =>
          if s.operand = .none then do readLetters level (← given.addFlag s) cs
          else if cs = [] then .ok (given, some s)
          else do
            let value := if cs.head? = some '=' then cs.tail else cs
            return (← given.addValue s (String.ofList value), none)

def readLong (level : Level) (given : Given) (name : String) (value : Option String) :
    Except Stop Progress :=
  match level.switches.find? (·.name = name) with
  | none => .error .misuse
  | some s =>
      match value with
      | none =>
          if s.operand = .none then do return (← given.addFlag s, none)
          else .ok (given, some s)
      | some v => do return (← given.addValue s v, none)

/-- Reads words up to a command, which is given with the words behind it. -/
def scan (level : Level) :
    Given → Option Switch → List String → Except Stop (Given × Option (String × List String))
  | given, none, [] => .ok (given, none)
  | _, some _, [] => .error .misuse
  | given, some s, w :: ws =>
      match Form.of w with
      | .plain => do scan level (← given.addValue s w) none ws
      | _ => .error .misuse
  | given, none, w :: ws =>
      match Form.of w with
      | .escape => if ws = [] then .ok (given, none) else .error .misuse
      | .long name value => do
          let (given, waiting) ← readLong level given name value
          scan level given waiting ws
      | .letters cs => do
          let (given, waiting) ← readLetters level given cs
          scan level given waiting ws
      | .plain => if level.commands.contains w then .ok (given, some (w, ws)) else .error .misuse

end RowTypes.Command
