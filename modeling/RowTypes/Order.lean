import RowTypes.Text.Case

/-!
# Order

Names are ordered by their lowercase, and names of one lowercase by themselves.  Sorting is
stable, and two names only tie when they are the same, so the names of a sorted list do not depend
on the order they came in.
-/

namespace RowTypes

/-- Compares without regard to case. -/
def compareFolded (a b : String) : Ordering := compare (Text.lowercase a) (Text.lowercase b)

/-- A name with its lowercase, which is computed once for a whole sort. -/
structure SortKey where
  folded : String
  name : String

namespace SortKey

def of (name : String) : SortKey := ⟨Text.lowercase name, name⟩

def order (a b : SortKey) : Ordering :=
  (compare a.folded b.folded).then (compare a.name b.name)

/-- Puts an item in front of the first one that does not come before it. -/
def insert {α : Type} (x : SortKey × α) : List (SortKey × α) → List (SortKey × α)
  | [] => [x]
  | y :: ys => if y.1.order x.1 = .lt then y :: insert x ys else x :: y :: ys

end SortKey

def compareNames (a b : String) : Ordering := (SortKey.of a).order (SortKey.of b)

/-- The items in the order of their names; items of one name stay in their order. -/
def sortedByName {α : Type} (name : α → String) (items : List α) : List α :=
  (items.foldr (fun a sorted => SortKey.insert (SortKey.of (name a), a) sorted) []).map (·.2)

end RowTypes
