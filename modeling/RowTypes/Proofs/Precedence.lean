import RowTypes.Loader
import RowTypes.Proofs.Resolution

/-!
# Precedence — the layers of an effective mapping

The effective mapping of a schema is made by two merges.  A merge drops the overridden targets of
its base, takes the overriding natives out of the lists that remain, and drops the lists that this
empties; so an override hides a native that it lists, and also one that it no longer lists.

`Mapping.firstTarget?_mergedWith` says what a merge does to the first target of a native, whatever
targets are admitted: the overrides answer for every native they list, and for no other.  Applied
twice, it gives the three layers (`layeredTarget?`).

**Precedence** (`resolve_finish`).  A native type resolves to what the layers say: the custom
mapping, under it the snapshot, under it the dialect, and behind them the enums.
-/

namespace RowTypes

namespace Mapping

variable {base overrides : Mapping} {admits : String → Bool} {native : String}

/-- An entry that is left of the base lists what it listed, without the natives of the overrides. -/
theorem underneath_eq_some {e e' : String × List String}
    (h : overrides.underneath e = some e') :
    e.1 ∉ overrides.keys ∧ e'.1 = e.1 ∧ ∀ n, n ∈ e'.2 ↔ n ∈ e.2 ∧ n ∉ overrides.natives := by
  simp only [underneath] at h
  split at h
  · cases h
  · rename_i hk
    cases h
    exact ⟨fun hm => hk (.inl hm), rfl, fun n => by simp [List.mem_filter]⟩

/-- An entry of which nothing is left has an overridden target, or only overridden natives. -/
theorem underneath_eq_none {e : String × List String} (h : overrides.underneath e = none) :
    e.1 ∈ overrides.keys ∨ ∀ n ∈ e.2, n ∈ overrides.natives := by
  simp only [underneath] at h
  split at h
  · rename_i hk
    refine hk.imp_right fun hnil n hn => ?_
    by_contra hno
    have : n ∈ e.2.filter (· ∉ overrides.natives) := by simp [List.mem_filter, hn, hno]
    rw [hnil] at this
    cases this
  · cases h

/-- What is left of the base answers as the base does, where its target is not overridden. -/
theorem find?_underneath (h : native ∉ overrides.natives) (es : List (String × List String)) :
    ((es.filterMap overrides.underneath).find? fun e =>
        admits e.1 && e.2.contains native).map (·.1) =
      (es.find? fun e =>
        (admits e.1 && e.1 ∉ overrides.keys) && e.2.contains native).map (·.1) := by
  induction es with
  | nil => rfl
  | cons e es ih =>
      rw [List.filterMap_cons]
      cases hu : overrides.underneath e with
      | none =>
          have he : ((admits e.1 && e.1 ∉ overrides.keys) && e.2.contains native) = false := by
            rcases underneath_eq_none hu with hk | hn
            · simp [hk]
            · have hnot : native ∉ e.2 := fun hm => h (hn native hm)
              simp [hnot]
          rw [List.find?_cons, he]
          exact ih
      | some e' =>
          obtain ⟨hk, hkey, hmem⟩ := underneath_eq_some hu
          have he : (admits e'.1 && e'.2.contains native) =
              ((admits e.1 && e.1 ∉ overrides.keys) && e.2.contains native) := by
            rw [Bool.eq_iff_iff]
            simp [hkey, hk, hmem, h]
          simp only [List.find?_cons, he]
          split
          · rw [Option.map_some, Option.map_some, hkey]
          · exact ih

/-- **A merge, native by native.**  The overrides answer for the natives that they list; for every
other native the base answers, without the targets of the overrides. -/
theorem firstTarget?_mergedWith :
    (base.mergedWith overrides).firstTarget? admits native =
      if native ∈ overrides.natives then overrides.firstTarget? admits native
      else base.firstTarget? (fun t => admits t && t ∉ overrides.keys) native := by
  rw [firstTarget?, entries_mergedWith, entries_remains_eq, List.find?_append, Option.map_or]
  by_cases h : native ∈ overrides.natives
  -- What is left of the base lists no native of the overrides, so they answer alone.
  · have hbase : (base.entries.filterMap overrides.underneath).find?
        (fun e => admits e.1 && e.2.contains native) = none := by
      rw [List.find?_eq_none]
      intro e he hn
      obtain ⟨e₀, -, hu⟩ := List.mem_filterMap.mp he
      simp only [Bool.and_eq_true, List.contains_iff_mem] at hn
      exact (((underneath_eq_some hu).2.2 native).mp hn.2).2 h
    rw [if_pos h, hbase]
    rfl
  · have hover : (overrides.entries.find? fun e => admits e.1 && e.2.contains native).map (·.1) =
        none := firstTarget?_eq_none h
    rw [if_neg h, hover, Option.or_none, find?_underneath h]
    rfl

end Mapping

/-! ### The layers -/

/-- The target of a native in three layers.  The custom mapping answers for every native it lists.
Of the others the snapshot answers for every one it lists, by a target that is not custom.  For the
rest the base answers, by a target that neither of the two has. -/
def layeredTarget? (base snapshot custom : Mapping) (native : String) : Option String :=
  if native ∈ custom.natives then custom.target? native
  else if native ∈ snapshot.natives then snapshot.firstTarget? (fun t => t ∉ custom.keys) native
  else base.firstTarget? (fun t => t ∉ snapshot.keys && t ∉ custom.keys) native

theorem target?_finish (l : Loader) (s : Schema) (native : String) :
    (l.finish s).mapping.target? native =
      layeredTarget? l.dialect.mapping s.mapping l.custom native := by
  simp only [Loader.finish, Mapping.target?, Mapping.firstTarget?_mergedWith, layeredTarget?,
    Bool.true_and, Bool.and_comm]

/-- **Precedence.**  Against the mapping of a loaded schema, a native type resolves through the
layers, and then through the enums; it is an array exactly if it is marked as one. -/
theorem resolve_finish (l : Loader) (s : Schema) (enums : List Enum) (native : String) :
    (Resolver.of (l.finish s).mapping enums).resolve native =
      Resolver.wrapped (Resolver.isMarked native)
        (Resolver.typeOf
          (layeredTarget? l.dialect.mapping s.mapping l.custom (Resolver.bare native))
          enums (Resolver.bare native)) := by
  rw [Resolver.resolve_eq, Resolver.element_of, target?_finish]

end RowTypes
