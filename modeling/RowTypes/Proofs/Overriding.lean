import RowTypes.Proofs.Merging
import RowTypes.Proofs.Spellings

/-!
# Overriding — the entries of a merge in their order

`Merging` says what a merge lists, its order left aside.  Here the order counts.  A merge can be
made in two passes, over the base and over the overrides, which put entry after entry into a
mapping where a target that comes again would keep its old place (`Mapping.mergedInPasses`).  No
target does come again: those of the overrides are passed over in the base.

**Overriding** (`mergedWith_order`).  A merge of mappings with distinct targets is what the passes
make.  The overrides stand at its end as they are, and before them what is left of the base, in the
order of the base; so overrides that are merged again change nothing, and neither does a mapping
that is merged with itself.

No dialect has an entry without natives, so an empty mapping between the dialect and the custom
mapping of a loader changes nothing either: **the mapping of a snapshot that brings none is the base
mapping of the loader** (`finish_of_isEmpty`).
-/

namespace RowTypes

namespace Mapping

variable {a b base overrides : Mapping}

/-! ### In two passes -/

/-- A step of the pass over the base: an entry whose target is not overridden goes to the end with
the natives that are not overridden, if there are any. -/
def keepEntry (overrides m : Mapping) (e : String × List String) : Mapping :=
  if e.1 ∈ overrides.keys then m
  else if e.2.filter (· ∉ overrides.natives) = [] then m
  else m.replace e.1 (e.2.filter (· ∉ overrides.natives))

/-- The merge in two passes. -/
def mergedInPasses (base overrides : Mapping) : Mapping :=
  overrides.entries.foldl (fun m e => m.replace e.1 e.2)
    (base.entries.foldl overrides.keepEntry empty)

/-- A step puts in what is left of the entry. -/
theorem keepEntry_eq (m : Mapping) (e : String × List String) :
    overrides.keepEntry m e =
      match overrides.underneath e with
      | some left => m.replace left.1 left.2
      | none => m := by
  rw [keepEntry, underneath]
  by_cases hkey : e.1 ∈ overrides.keys
  · rw [if_pos hkey, if_pos (.inl hkey)]
  · by_cases hkept : e.2.filter (· ∉ overrides.natives) = []
    · rw [if_neg hkey, if_pos hkept, if_pos (.inr hkept)]
    · rw [if_neg hkey, if_neg hkept, if_neg (not_or.mpr ⟨hkey, hkept⟩)]

theorem foldl_keepEntry (es : List (String × List String)) (m : Mapping) :
    es.foldl overrides.keepEntry m =
      (es.filterMap overrides.underneath).foldl (fun m e => m.replace e.1 e.2) m := by
  induction es generalizing m with
  | nil => rfl
  | cons e es ih =>
      rw [List.foldl_cons, ih, keepEntry_eq, List.filterMap_cons]
      cases overrides.underneath e with
      | none => rfl
      | some left => rfl

/-- Distinct targets take no one's place, so the passes make the merge. -/
theorem mergedInPasses_eq : base.mergedInPasses overrides = base.mergedWith overrides := by
  rw [mergedInPasses, foldl_keepEntry, ← List.foldl_append]
  exact ofMembers_entries (base.mergedWith overrides)

/-! ### Laws -/

/-- What is left of the base: the entries of other targets, without the natives that are
overridden, as far as they have others. -/
theorem entries_remains : (base.remains overrides).entries =
    ((base.entries.filter (·.1 ∉ overrides.keys)).map
      fun e => (e.1, e.2.filter (· ∉ overrides.natives))).filter (·.2 ≠ []) := by
  change base.entries.filterMap overrides.underneath = _
  induction base.entries with
  | nil => rfl
  | cons e es ih =>
      rw [List.filterMap_cons, ih, List.filter_cons]
      by_cases hkey : e.1 ∈ overrides.keys
      · have hnone : overrides.underneath e = none := if_pos (.inl hkey)
        rw [hnone, if_neg (by simpa using hkey)]
      · rw [if_pos (decide_eq_true hkey), List.map_cons, List.filter_cons]
        by_cases hkept : e.2.filter (· ∉ overrides.natives) = []
        · have hnone : overrides.underneath e = none := if_pos (.inr hkept)
          rw [hnone, if_neg (by simpa using hkept)]
        · have hsome : overrides.underneath e =
              some (e.1, e.2.filter (· ∉ overrides.natives)) :=
            if_neg (not_or.mpr ⟨hkey, hkept⟩)
          rw [hsome, if_pos (decide_eq_true hkept)]

theorem empty_mergedWith : empty.mergedWith b = b := rfl

theorem entries_mergedWith_empty : (a.mergedWith empty).entries = a.entries.filter (·.2 ≠ []) := by
  have hkeys : ∀ t, decide (t ∉ empty.keys) = true := fun t => rfl
  have hnatives : ∀ n, decide (n ∉ empty.natives) = true := fun n => rfl
  change (a.remains empty).entries ++ [] = _
  rw [List.append_nil, entries_remains]
  simp [hkeys, hnatives]

theorem mergedWith_mergedWith_right : (a.mergedWith b).mergedWith b = a.mergedWith b :=
  mergedWith_absorbs (b := empty)

theorem mergedWith_self : a.mergedWith a = a :=
  mergedWith_eq_right_iff.mpr remains_self

/-- **Overriding.**  A merge has distinct targets, as the two passes make it.  At its end stand the
overrides; before them what they leave of the base, in its order, with none of their natives.
Overrides that are merged again change nothing; an empty base leaves the overrides, empty overrides
drop what is empty in the base, and a mapping over itself is itself. -/
theorem mergedWith_order (a b : Mapping) :
    (a.mergedWith b).keys.Nodup ∧
      a.mergedInPasses b = a.mergedWith b ∧
      (a.mergedWith b).entries =
        ((a.entries.filter (·.1 ∉ b.keys)).map
          fun e => (e.1, e.2.filter (· ∉ b.natives))).filter (·.2 ≠ []) ++ b.entries ∧
      (∀ before, (a.mergedWith b).entries = before ++ b.entries →
        ∀ e ∈ before, ∀ n ∈ b.natives, n ∉ e.2) ∧
      (a.mergedWith b).mergedWith b = a.mergedWith b ∧
      empty.mergedWith b = b ∧
      (a.mergedWith empty).entries = a.entries.filter (·.2 ≠ []) ∧
      a.mergedWith a = a := by
  refine ⟨(a.mergedWith b).distinct, mergedInPasses_eq, ?order, ?disjoint,
    mergedWith_mergedWith_right, empty_mergedWith, entries_mergedWith_empty, mergedWith_self⟩
  case order => rw [entries_mergedWith, entries_remains]
  case disjoint =>
    intro before hbefore e he n hn hmem
    obtain rfl : before = (a.remains b).entries :=
      List.append_cancel_right (hbefore.symm.trans entries_mergedWith)
    exact (listsUnder_remains.mp ⟨e, he, rfl, hmem⟩).2.1 hn

section Example

/-- A base with an entry that is overridden, one that is emptied, and an empty one. -/
def counted : Mapping where
  entries :=
    [("number", ["int4", "int8"]), ("bigint", ["int8"]), ("any", []), ("string", ["text", "int8"])]

/-- Overrides with a target of the base, which comes before a new one, and an empty entry. -/
def widened : Mapping where
  entries := [("string", ["citext"]), ("BigInt", ["int8"]), ("Date", [])]

theorem mergedWith_order_widened :
    (counted.mergedWith widened).entries =
        [("number", ["int4"]), ("string", ["citext"]), ("BigInt", ["int8"]), ("Date", [])] ∧
      (counted.mergedWith widened).mergedWith widened = counted.mergedWith widened := by
  obtain ⟨-, -, horder, -, habsorbs, -⟩ := mergedWith_order counted widened
  exact ⟨horder.trans (by decide), habsorbs⟩

end Example

end Mapping

/-! ### The base mapping of a loader -/

/-- A loader to which custom natives were added call by call. -/
def Loader.built (d : Dialect) (calls : List (String × List String)) : Loader :=
  calls.foldl (fun l call => l.withCustom call.1 call.2) (.of d)

/-- The calls insert their natives into the custom mapping and leave the dialect. -/
theorem Loader.built_eq (d : Dialect) (calls : List (String × List String)) :
    Loader.built d calls = { dialect := d, custom := .ofList calls } := by
  suffices h : ∀ l : Loader, calls.foldl (fun l call => l.withCustom call.1 call.2) l =
      { l with custom := calls.foldl (fun m call => m.insert call.1 call.2) l.custom } from
    h (.of d)
  induction calls with
  | nil => exact fun l => rfl
  | cons call calls ih => exact fun l => ih (l.withCustom call.1 call.2)

/-- No entry of a dialect is empty. -/
theorem Dialect.entries_ne_nil (d : Dialect) : ∀ e ∈ d.mapping.entries, e.2 ≠ [] := by
  cases d <;> decide

theorem Dialect.mergedWith_empty (d : Dialect) : d.mapping.mergedWith .empty = d.mapping := by
  have hentries := Mapping.entries_mergedWith_empty (a := d.mapping)
  rw [List.filter_eq_self.mpr fun e he => decide_eq_true (d.entries_ne_nil e he)] at hentries
  exact Mapping.ext hentries

/-- **The base mapping.**  However a loader was built, a schema with an empty mapping gets the base
mapping, which is the custom mapping of the calls over the dialect; tables and enums stay. -/
theorem finish_of_isEmpty (d : Dialect) (calls : List (String × List String)) (s : Schema) :
    (s.mapping.isEmpty = true →
      ((Loader.built d calls).finish s).mapping = (Loader.built d calls).baseMapping) ∧
    (Loader.built d calls).baseMapping = d.mapping.mergedWith (.ofList calls) ∧
    ((Loader.built d calls).finish s).tables = s.tables ∧
    ((Loader.built d calls).finish s).enums = s.enums := by
  refine ⟨fun h => ?mapping, ?base, rfl, rfl⟩
  case mapping =>
    have hempty : s.mapping = .empty := Mapping.ext (List.isEmpty_iff.mp h)
    rw [Loader.finish, hempty, Dialect.mergedWith_empty]
    rfl
  case base => rw [Loader.built_eq, Loader.baseMapping]

section Example

/-- A target that comes again, natives of the dialect under other targets, and no natives at all. -/
def customCalls : List (String × List String) :=
  [("Json", []), ("bigint", ["int8"]), ("number", []), ("Json", ["json", "jsonb"]),
    ("bigint", ["bigserial"])]

def bareSchema : Schema where
  tables := [{ name := "events", columns := [{ name := "payload", type := "jsonb" }] }]
  enums := [{ name := "level" }]

theorem finish_of_isEmpty_bareSchema :
    bareSchema.mapping.isEmpty = true ∧
      ((Loader.built .postgres customCalls).finish bareSchema).mapping =
        (Loader.built .postgres customCalls).baseMapping ∧
      ((Loader.built .postgres customCalls).finish bareSchema).mapping.keys =
        ["string", "Date", "boolean", "Buffer", "Json", "bigint", "number"] ∧
      ((Loader.built .postgres customCalls).finish bareSchema).tables = bareSchema.tables := by
  obtain ⟨hmapping, hbase, htables, -⟩ := finish_of_isEmpty .postgres customCalls bareSchema
  refine ⟨rfl, hmapping rfl, ?_, htables⟩
  rw [hmapping rfl, hbase]
  decide +kernel

end Example

end RowTypes
