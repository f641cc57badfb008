import RowTypes.Naming
import RowTypes.Schema

/-!
# Resolver

The type that a native type is declared with.  The mapping goes first and the first target that
lists the native counts; then come the enums, by their exact name; every other native is `any`.
A leading `_` marks an array of the type that follows it.

A resolver turns the mapping around once: it holds the pairs of a native and its target in the
order of the mapping, and behind them the enums with their titles.
-/

namespace RowTypes

/-- The type of a native that is neither mapped nor an enum. -/
def unknownType : String := "any"

structure Resolver where
  /-- The first pair of a native counts. -/
  index : List (String × String)

/-- The pairs of a native and a target, in the order of the mapping. -/
def Mapping.inverted (m : Mapping) : List (String × String) :=
  m.entries.flatMap fun e => e.2.map fun native => (native, e.1)

namespace Resolver

def of (m : Mapping) (enums : List Enum) : Resolver :=
  ⟨m.inverted ++ enums.map fun e => (e.name, titleWord e.name)⟩

/-- The element type of a native type without its mark. -/
def element (r : Resolver) (native : String) : String := (r.index.lookup native).getD unknownType

/-- The type of the elements, if the native type is marked as an array. -/
def elementOf? (native : String) : Option String :=
  match native.toList with
  | '_' :: cs => some (String.ofList cs)
  | _ => none

def resolve (r : Resolver) (native : String) : String :=
  match elementOf? native with
  | some inner => "Array<" ++ r.element inner ++ ">"
  | none => r.element native

end Resolver

end RowTypes
