import RowTypes.Json.Reader
import RowTypes.Json.Value

/-!
# Mapping

A type mapping lists, under each target type name, the native type names it stands for.  No
target has two entries.  Entries keep their order, and where a native is listed under several
targets the first one counts, so the order matters.

`insert` extends the entry of a target, `replace` puts a new list in its place; either adds an
entry at the end where there is none.  `mergedWith` lays a second mapping over a first: its
entries come last and whole, and neither their targets nor their natives are left in the first.
-/

namespace RowTypes

@[ext]
structure Mapping where
  entries : List (String × List String)
  /-- No target has two entries. -/
  distinct : (entries.map (·.1)).Nodup := by decide
  deriving DecidableEq

namespace Mapping

def empty : Mapping where
  entries := []

def keys (m : Mapping) : List String := m.entries.map (·.1)

/-- All natives of all entries. -/
def natives (m : Mapping) : List String := m.entries.flatMap (·.2)

def get? (m : Mapping) (target : String) : Option (List String) := m.entries.lookup target

def size (m : Mapping) : Nat := m.entries.length

def isEmpty (m : Mapping) : Bool := m.entries.isEmpty

/-! ### Altering an entry -/

/-- Changes the list of a target, where a target without an entry has the empty list. -/
def alterEntry (target : String) (f : List String → List String) :
    List (String × List String) → List (String × List String)
  | [] => [(target, f [])]
  | e :: es => if e.1 = target then (target, f e.2) :: es else e :: alterEntry target f es

section Altering

variable {target : String} {f : List String → List String} {es : List (String × List String)}

/-- A target that has an entry keeps its place, and a new one goes to the end. -/
theorem keys_alterEntry : (alterEntry target f es).map (·.1) =
    if target ∈ es.map (·.1) then es.map (·.1) else es.map (·.1) ++ [target] := by
  induction es with
  | nil => rfl
  | cons e es ih =>
      by_cases he : e.1 = target
      · simp [alterEntry, he]
      · rw [alterEntry, if_neg he, List.map_cons, ih]
        by_cases hes : target ∈ es.map (·.1)
        · rw [if_pos hes, if_pos (.tail _ hes), List.map_cons]
        · have hnot : target ∉ (e :: es).map (·.1) := fun h =>
            (List.mem_cons.mp h).elim (fun h => he h.symm) hes
          rw [if_neg hes, if_neg hnot, List.map_cons, List.cons_append]

theorem nodup_alterEntry (h : (es.map (·.1)).Nodup) :
    ((alterEntry target f es).map (·.1)).Nodup := by
  rw [keys_alterEntry]
  by_cases htarget : target ∈ es.map (·.1)
  · rwa [if_pos htarget]
  · rw [if_neg htarget, List.nodup_append]
    refine ⟨h, by simp, fun k hk t ht hkt => htarget ?_⟩
    rwa [← List.mem_singleton.mp ht, ← hkt]

end Altering

/-- The entry of a target with its natives changed.  A target without an entry has no natives and
gets one at the end. -/
def alter (m : Mapping) (target : String) (f : List String → List String) : Mapping where
  entries := alterEntry target f m.entries
  distinct := nodup_alterEntry m.distinct

def insert (m : Mapping) (target : String) (natives : List String) : Mapping :=
  m.alter target (· ++ natives)

def replace (m : Mapping) (target : String) (natives : List String) : Mapping :=
  m.alter target fun _ => natives

/-- Inserts the pairs one after another. -/
def ofList (pairs : List (String × List String)) : Mapping :=
  pairs.foldl (fun m p => m.insert p.1 p.2) empty

/-- The mapping that the members of an object describe: a repeated key keeps its first place and
its last list. -/
def ofMembers (pairs : List (String × List String)) : Mapping :=
  pairs.foldl (fun m p => m.replace p.1 p.2) empty

/-! ### Merging -/

/-- What is left of an entry under `overrides`, if anything is. -/
def underneath (overrides : Mapping) (e : String × List String) :
    Option (String × List String) :=
  let kept := e.2.filter (· ∉ overrides.natives)
  if e.1 ∈ overrides.keys ∨ kept = [] then none else some (e.1, kept)

theorem key_of_underneath {overrides : Mapping} {e e' : String × List String}
    (h : overrides.underneath e = some e') : e.1 ∉ overrides.keys ∧ e'.1 = e.1 := by
  simp only [underneath] at h
  split at h
  · cases h
  · rename_i hkept
    cases h
    exact ⟨fun hk => hkept (.inl hk), rfl⟩

theorem keys_underneath_sublist (overrides : Mapping) (es : List (String × List String)) :
    ((es.filterMap overrides.underneath).map (·.1)).Sublist (es.map (·.1)) := by
  induction es with
  | nil => exact .slnil
  | cons e es ih =>
      rw [List.filterMap_cons]
      cases hu : overrides.underneath e with
      | none => exact ih.cons _
      | some e' =>
          rw [List.map_cons, (key_of_underneath hu).2]
          exact ih.cons_cons _

/-- What is left of the base under the overrides. -/
def remains (base overrides : Mapping) : Mapping where
  entries := base.entries.filterMap overrides.underneath
  distinct := base.distinct.sublist (keys_underneath_sublist overrides base.entries)

theorem not_mem_keys_of_mem_remains {base overrides : Mapping} {target : String}
    (h : target ∈ (base.remains overrides).keys) : target ∉ overrides.keys := by
  obtain ⟨e', he', rfl⟩ := List.mem_map.mp h
  obtain ⟨e, -, hu⟩ := List.mem_filterMap.mp he'
  obtain ⟨hk, hkey⟩ := key_of_underneath hu
  rwa [hkey]

theorem nodup_remains_append (base overrides : Mapping) :
    (((base.remains overrides).entries ++ overrides.entries).map (·.1)).Nodup := by
  rw [List.map_append, List.nodup_append]
  refine ⟨(base.remains overrides).distinct, overrides.distinct, fun k hk t ht hkt => ?_⟩
  exact not_mem_keys_of_mem_remains hk (hkt ▸ ht)

def mergedWith (base overrides : Mapping) : Mapping where
  entries := (base.remains overrides).entries ++ overrides.entries
  distinct := nodup_remains_append base overrides

theorem entries_remains_eq (base overrides : Mapping) :
    (base.remains overrides).entries = base.entries.filterMap overrides.underneath := rfl

theorem entries_mergedWith {base overrides : Mapping} :
    (base.mergedWith overrides).entries =
      (base.remains overrides).entries ++ overrides.entries := rfl

/-- The same lists under the same targets, in any order of entries. -/
def sameAs (a b : Mapping) : Bool :=
  a.size = b.size && a.entries.all fun e => b.get? e.1 = some e.2

/-! ### Json -/

def toJson (m : Mapping) : Json.Value :=
  .object (m.entries.map fun e => (e.1, .list (e.2.map .text)))

def reader : Json.Reader Mapping := do
  return ofMembers (← Json.object (Json.list Json.text))

def ofJson? (source : Json.Source) (bytes : List UInt8) : Except Json.Complaint Mapping :=
  Json.read reader source bytes

end Mapping

end RowTypes
