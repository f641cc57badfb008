import Mathlib.Data.List.Basic
import RowTypes.Resolver

/-!
# Resolution — the index and the plain scan

A resolver looks a native up in an index that it made from the mapping and the enums.  What it
finds is what a scan of the mapping finds, entry by entry, and behind it a scan of the names of the
enums (`Resolver.element_of`).  The same is found in hash indexes that are filled native by native
and enum by enum, if whatever comes first stays (`Mapping.getElem?_targetIndex`,
`getElem?_enumIndex`).

A native that is marked as an array is its bare native under `Array<…>` (`Resolver.resolve_eq`).

**Resolution** (`Resolver.resolve_eq_scan`).  Every native type resolves to what the scan finds for
its bare native, and so do hash indexes; where the mapping lists the bare native, neither entries
behind its own nor other enums change the type.
-/

namespace RowTypes

/-- The target of the first entry that lists a native, of the entries whose target is admitted. -/
def Mapping.firstTarget? (m : Mapping) (admits : String → Bool) (native : String) :
    Option String :=
  (m.entries.find? fun e => admits e.1 && e.2.contains native).map (·.1)

/-- The target of the first entry that lists a native. -/
def Mapping.target? (m : Mapping) (native : String) : Option String :=
  m.firstTarget? (fun _ => true) native

namespace Mapping

variable {m : Mapping} {admits : String → Bool} {native target : String}

theorem mem_natives : native ∈ m.natives ↔ ∃ e ∈ m.entries, native ∈ e.2 :=
  List.mem_flatMap

/-- A mapping has no target for a native that it does not list. -/
theorem firstTarget?_eq_none (h : native ∉ m.natives) : m.firstTarget? admits native = none := by
  rw [firstTarget?, Option.map_eq_none_iff, List.find?_eq_none]
  intro e he hn
  simp only [Bool.and_eq_true, List.contains_iff_mem] at hn
  exact h (mem_natives.mpr ⟨e, he, hn.2⟩)

/-- What an entry of the mapping says of a native that has a target. -/
theorem exists_of_target?_eq_some (h : m.target? native = some target) :
    ∃ e ∈ m.entries, native ∈ e.2 ∧ e.1 = target := by
  obtain ⟨e, he, rfl⟩ := Option.map_eq_some_iff.mp h
  obtain hn := List.find?_some he
  simp only [Bool.true_and, List.contains_iff_mem] at hn
  exact ⟨e, List.mem_of_find?_eq_some he, hn, rfl⟩

theorem not_mem_natives_of_target? (h : m.target? native = none) : native ∉ m.natives := by
  intro hn
  obtain ⟨e, he, hmem⟩ := mem_natives.mp hn
  refine List.find?_eq_none.mp (Option.map_eq_none_iff.mp h) e he ?_
  simp only [Bool.true_and, List.contains_iff_mem]
  exact hmem

theorem exists_target? (h : native ∈ m.natives) : ∃ t, m.target? native = some t := by
  cases ht : m.target? native with
  | none => exact absurd h (not_mem_natives_of_target? ht)
  | some t => exact ⟨t, rfl⟩

/-- Entries behind those that list a native do not count for it. -/
theorem target?_of_isPrefix {m' : Mapping} (h : native ∈ m.natives)
    (hm : m.entries <+: m'.entries) : m'.target? native = m.target? native := by
  obtain ⟨t, ht⟩ := exists_target? h
  obtain ⟨later, hlater⟩ := hm
  rw [ht]
  rw [target?, firstTarget?] at ht ⊢
  rw [← hlater, List.find?_append, Option.map_or, ht, Option.some_or]

end Mapping

/-! ### Hash indexes -/

/-- The targets of the natives, filled in entry by entry and native by native: a native that has
a target keeps it. -/
def Mapping.targetIndex (m : Mapping) : Std.HashMap String String :=
  m.entries.foldl
    (fun index e => e.2.foldl (fun index native => index.insertIfNew native e.1) index) ∅

/-- The enums by name, of which the first of a name stays. -/
def enumIndex (enums : List Enum) : Std.HashMap String Enum :=
  enums.foldl (fun index e => index.insertIfNew e.name e) ∅

section Index

variable {α β : Type} (index : Std.HashMap String α)

/-- What is in the index stays; only a new key is added. -/
theorem getElem?_insertIfNew_eq_or (key native : String) (value : α) :
    (index.insertIfNew key value)[native]? =
      index[native]?.or (if key = native then some value else none) := by
  rw [Std.HashMap.getElem?_insertIfNew]
  by_cases hkey : key = native
  · subst hkey
    by_cases hmem : key ∈ index
    · have hsome : index[key]?.isSome = true := Std.HashMap.mem_iff_isSome_getElem?.mp hmem
      rw [if_neg (by simp [hmem]), Option.or_of_isSome hsome]
    · rw [if_pos (by simp [hmem]), if_pos rfl, Std.HashMap.getElem?_eq_none hmem, Option.none_or]
  · rw [if_neg (by simp [hkey]), if_neg hkey, Option.or_none]

/-- Of the items that are added one after another, the first of a key is found, and only where the
index had none. -/
theorem getElem?_foldl_insertIfNew (key : β → String) (value : β → α) (items : List β)
    (native : String) :
    (items.foldl (fun index x => index.insertIfNew (key x) (value x)) index)[native]? =
      index[native]?.or ((items.find? fun x => key x = native).map value) := by
  induction items generalizing index with
  | nil => rw [List.foldl_nil, List.find?_nil, Option.map_none, Option.or_none]
  | cons x xs ih =>
      rw [List.foldl_cons, ih, getElem?_insertIfNew_eq_or, Option.or_assoc, List.find?_cons]
      by_cases hkey : key x = native
      · simp [hkey]
      · simp [hkey]

end Index

/-- An entry gives its target to the natives that it lists, as far as they have none. -/
theorem getElem?_foldl_natives (index : Std.HashMap String String) (e : String × List String)
    (native : String) :
    (e.2.foldl (fun index native => index.insertIfNew native e.1) index)[native]? =
      index[native]?.or (if native ∈ e.2 then some e.1 else none) := by
  rw [getElem?_foldl_insertIfNew index (fun n => n) (fun _ => e.1) e.2 native]
  refine congrArg _ ?_
  by_cases hn : native ∈ e.2
  · obtain ⟨n, hfind⟩ : ∃ n, (e.2.find? fun n => n = native) = some n :=
      Option.isSome_iff_exists.mp (by simpa using hn)
    rw [if_pos hn, hfind, Option.map_some]
  · have hfind : (e.2.find? fun n => n = native) = none := by
      simp only [List.find?_eq_none, decide_eq_true_eq]
      rintro n hmem rfl
      exact hn hmem
    rw [if_neg hn, hfind, Option.map_none]

theorem Mapping.getElem?_targetIndex (m : Mapping) (native : String) :
    m.targetIndex[native]? = m.target? native := by
  -- Each entry starts from the index that the entries in front of it have left.
  suffices h : ∀ (es : List (String × List String)) (index : Std.HashMap String String),
      (es.foldl (fun index e =>
        e.2.foldl (fun index native => index.insertIfNew native e.1) index) index)[native]? =
        index[native]?.or ((es.find? fun e => true && e.2.contains native).map (·.1)) by
    rw [targetIndex, h, Std.HashMap.getElem?_empty, Option.none_or, target?, firstTarget?]
  intro es
  induction es with
  | nil => exact fun index => Option.or_none.symm
  | cons e es ih =>
      intro index
      rw [List.foldl_cons, ih, getElem?_foldl_natives, Option.or_assoc]
      refine congrArg _ ?_
      simp only [List.find?_cons, Bool.true_and]
      by_cases hn : native ∈ e.2
      · simp [hn]
      · simp [hn]

theorem getElem?_enumIndex (enums : List Enum) (native : String) :
    (enumIndex enums)[native]? = enums.find? (·.name = native) := by
  have hindex := getElem?_foldl_insertIfNew ∅ Enum.name (fun e => e) enums native
  rw [Std.HashMap.getElem?_empty, Option.none_or, Option.map_id'] at hindex
  exact hindex

namespace Resolver

/-- The type of a bare native, if the mapping gives it a certain target, or none. -/
def typeOf (target : Option String) (enums : List Enum) (native : String) : String :=
  match target with
  | some t => t
  | none => if native ∈ enums.map (·.name) then titleWord native else unknownType

/-- A native type starts with the mark of an array. -/
def isMarked (native : String) : Bool := native.toList.head? = some '_'

/-- A native type without its mark, if it has one. -/
def bare (native : String) : String :=
  if isMarked native then String.ofList native.toList.tail else native

/-- A type, or the type of arrays of it. -/
def wrapped (marked : Bool) (type : String) : String :=
  if marked then "Array<" ++ type ++ ">" else type

/-! ### The index -/

theorem lookup_pairs (target native : String) (natives : List String) :
    (natives.map fun n => (n, target)).lookup native =
      if native ∈ natives then some target else none := by
  induction natives with
  | nil => rfl
  | cons n ns ih =>
      rw [List.map_cons, List.lookup_cons, ih]
      by_cases h : native = n
      · simp [h]
      · simp [h, beq_eq_false_iff_ne.mpr h]

theorem lookup_inverted (m : Mapping) (native : String) :
    m.inverted.lookup native = m.target? native := by
  rw [Mapping.inverted, Mapping.target?, Mapping.firstTarget?]
  induction m.entries with
  | nil => rfl
  | cons e es ih =>
      simp only [List.flatMap_cons, List.lookup_append, lookup_pairs, List.find?_cons,
        Bool.true_and] at ih ⊢
      by_cases h : native ∈ e.2
      · simp [h]
      · simp [h, ih]

theorem lookup_titles (enums : List Enum) (native : String) :
    (enums.map fun e => (e.name, titleWord e.name)).lookup native =
      if native ∈ enums.map (·.name) then some (titleWord native) else none := by
  induction enums with
  | nil => rfl
  | cons e es ih =>
      rw [List.map_cons, List.lookup_cons, ih]
      by_cases h : native = e.name
      · simp [h]
      · simp [h, beq_eq_false_iff_ne.mpr h]

/-- **The index is the scan**: the mapping in its order, then the names of the enums. -/
theorem element_of (m : Mapping) (enums : List Enum) (native : String) :
    (Resolver.of m enums).element native = typeOf (m.target? native) enums native := by
  rw [element, Resolver.of, List.lookup_append, lookup_inverted, lookup_titles]
  cases m.target? native with
  | some t => rfl
  | none =>
      simp only [typeOf, Option.none_or]
      split <;> rfl

/-! ### Marks -/

theorem resolve_eq (r : Resolver) (native : String) :
    r.resolve native = wrapped (isMarked native) (r.element (bare native)) := by
  rw [resolve, elementOf?]
  split
  · rename_i cs h
    split at h
    · rename_i ds hd
      cases h
      simp [wrapped, bare, isMarked, hd]
    · cases h
  · rename_i h
    -- A mark would have been split off.
    have hn : isMarked native = false := by
      rw [isMarked, decide_eq_false_iff_not]
      intro hm
      obtain ⟨ds, hd⟩ := List.head?_eq_some_iff.mp hm
      rw [hd] at h
      cases h
    simp [wrapped, bare, hn]

/-! ### The plain scan -/

/-- The type of a bare native by hash indexes. -/
def hashedElement (m : Mapping) (enums : List Enum) (native : String) : String :=
  match m.targetIndex[native]? with
  | some target => target
  | none =>
      match (enumIndex enums)[native]? with
      | some e => titleWord e.name
      | none => unknownType

theorem hashedElement_eq (m : Mapping) (enums : List Enum) (native : String) :
    hashedElement m enums native = typeOf (m.target? native) enums native := by
  rw [hashedElement, Mapping.getElem?_targetIndex, getElem?_enumIndex]
  cases m.target? native with
  | some target => rfl
  | none =>
      simp only [typeOf]
      cases hfind : enums.find? (·.name = native) with
      | some e =>
          have hname : e.name = native := by simpa using List.find?_some hfind
          rw [if_pos (List.mem_map.mpr ⟨e, List.mem_of_find?_eq_some hfind, hname⟩), ← hname]
      | none =>
          rw [if_neg]
          rintro hmem
          obtain ⟨e, he, hname⟩ := List.mem_map.mp hmem
          exact List.find?_eq_none.mp hfind e he (decide_eq_true hname)

theorem resolve_of (m : Mapping) (enums : List Enum) (native : String) :
    (Resolver.of m enums).resolve native =
      wrapped (isMarked native) (typeOf (m.target? (bare native)) enums (bare native)) := by
  rw [resolve_eq, element_of]

/-- **Resolution.**  A native type resolves to what a scan finds for its bare native: the target of
the first entry that lists it, or the title of the enum of this name, or the unknown type.  Hash
indexes in which the first target and the first enum stay give the same.  Once the mapping lists
the bare native, entries behind its own and other enums change nothing. -/
theorem resolve_eq_scan (m : Mapping) (enums : List Enum) (native : String) :
    (Resolver.of m enums).resolve native =
        wrapped (isMarked native) (typeOf (m.target? (bare native)) enums (bare native)) ∧
      (Resolver.of m enums).resolve native =
        wrapped (isMarked native) (hashedElement m enums (bare native)) ∧
      ∀ (m' : Mapping) (enums' : List Enum), m.entries <+: m'.entries →
        bare native ∈ m.natives →
          (Resolver.of m' enums').resolve native = (Resolver.of m enums).resolve native := by
  refine ⟨resolve_of m enums native, ?hashed, fun m' enums' hm h => ?later⟩
  case hashed => rw [hashedElement_eq, resolve_of]
  case later =>
    obtain ⟨t, ht⟩ := Mapping.exists_target? h
    rw [resolve_of, resolve_of, Mapping.target?_of_isPrefix h hm, ht]
    rfl

/-- Natives that are listed twice or are enums too, one of them with a mark of its own. -/
def overlapping : Mapping where
  entries := [("empty", []), ("string", ["mood", "_raw"]), ("Mood", ["mood"])]

/-- `overlapping` with a target behind its own. -/
def overlappingMore : Mapping where
  entries := overlapping.entries ++ [("any", ["mood"])]

theorem resolve_eq_scan_overlapping :
    bare "_mood" ∈ overlapping.natives ∧
      (Resolver.of overlapping [{ name := "mood" }, { name := "raw" }]).resolve "_mood" =
        "Array<string>" ∧
      (Resolver.of overlappingMore []).resolve "_mood" = "Array<string>" ∧
      (Resolver.of overlapping [{ name := "raw" }]).resolve "_raw" = "Array<Raw>" ∧
      (Resolver.of overlapping [{ name := "raw" }]).resolve "__raw" = "Array<string>" := by
  obtain ⟨hscan, -, hlater⟩ :=
    resolve_eq_scan overlapping [{ name := "mood" }, { name := "raw" }] "_mood"
  have hlisted : bare "_mood" ∈ overlapping.natives := by decide
  have hmood := hscan.trans (by decide : _ = "Array<string>")
  refine ⟨hlisted, hmood, (hlater overlappingMore [] ⟨_, rfl⟩ hlisted).trans hmood, ?_, ?_⟩
  · exact (resolve_eq_scan _ _ _).1.trans (by decide +kernel)
  · exact (resolve_eq_scan _ _ _).1.trans (by decide)

end Resolver

end RowTypes
