import RowTypes.Proofs.EntryOrder
import RowTypes.Proofs.Sources

/-!
# Reloading — the dialect can come back

Loading gives a schema its effective mapping, which holds what the dialect, the snapshot and the
custom mapping list.  If the schema is written and loaded again, its effective mapping is the
snapshot's.  But a mapping does not say what was overridden: a target that the snapshot emptied is
dropped, and so is an entry of the dialect whose natives have gone to targets that were replaced
later.  When the dialect is laid under the mapping a second time, nothing is in its way there.

`Loader.Restores` says, in terms of the three mappings, which natives come back under which targets
of the dialect.

**A second pass puts exactly these in front and changes nothing else; so a schema is stable if and
only if nothing is restored, and after a second pass it is** (`finish_finish`).
-/

namespace RowTypes

/-- A native comes back under a target of the dialect when a loaded schema is loaded again. -/
structure Loader.Restores (l : Loader) (s : Schema) (target native : String) : Prop where
  inDialect : l.dialect.mapping.ListsUnder target native
  notCustom : target ∉ l.custom.keys
  /-- Nothing is left of the snapshot's list of the target, if it has one. -/
  emptied : ∀ n, s.mapping.ListsUnder target n → n ∈ l.custom.natives
  /-- Nothing is left of the dialect's list, unless the snapshot has one in its place. -/
  taken : target ∉ s.mapping.keys → ∀ n, l.dialect.mapping.ListsUnder target n →
    n ∈ s.mapping.natives ∨ n ∈ l.custom.natives
  free : native ∉ l.custom.natives
  /-- The targets under which the snapshot lists the native are replaced. -/
  replaced : ∀ t, s.mapping.ListsUnder t native → t ∈ l.custom.keys

variable {l : Loader} {s : Schema} {target native : String}

/-! ### What is restored -/

theorem listsUnder_finish : (l.finish s).mapping.ListsUnder target native ↔
    l.custom.ListsUnder target native ∨ target ∉ l.custom.keys ∧ native ∉ l.custom.natives ∧
      (s.mapping.ListsUnder target native ∨ target ∉ s.mapping.keys ∧
        native ∉ s.mapping.natives ∧ l.dialect.mapping.ListsUnder target native) := by
  rw [Loader.finish, Mapping.listsUnder_mergedWith, Mapping.listsUnder_mergedWith]

theorem Loader.Restores.not_mem_keys (h : l.Restores s target native) :
    target ∉ (l.finish s).mapping.keys := by
  rw [Loader.finish, Mapping.mem_keys_mergedWith]
  rintro (hk | ⟨n, -, hn, hl⟩)
  · exact h.notCustom hk
  · rcases Mapping.listsUnder_mergedWith.mp hl with hs | ⟨hks, hns, hd⟩
    · exact hn (h.emptied n hs)
    · exact (h.taken hks n hd).elim hns hn

theorem Loader.Restores.not_mem_natives (h : l.Restores s target native) :
    native ∉ (l.finish s).mapping.natives := by
  rw [Mapping.mem_natives_iff]
  rintro ⟨t, ht⟩
  rcases listsUnder_finish.mp ht with hc | ⟨hkc, -, hs | ⟨hks, hns, hd⟩⟩
  · exact h.free hc.mem_natives
  · exact hkc (h.replaced t hs)
  -- The dialect lists the native once, so the entry that is left is the target's own.
  · obtain rfl : t = target := by
      by_contra hne
      exact Mapping.not_contested_of_nodup l.dialect.nodup_natives
        ⟨t, target, hne, hd, h.inDialect⟩
    exact (h.taken hks native hd).elim hns h.free

/-- What is restored is what the first pass has neither a target nor a native of. -/
theorem listsUnder_remains_finish :
    (l.dialect.mapping.remains (l.finish s).mapping).ListsUnder target native ↔
      l.Restores s target native := by
  rw [Mapping.listsUnder_remains]
  constructor
  · rintro ⟨hk, hn, hd⟩
    have hcustom : ∀ t, ¬ l.custom.ListsUnder t native := fun t h =>
      hn (listsUnder_finish.mpr (.inl h)).mem_natives
    have hfree : native ∉ l.custom.natives := fun h =>
      (Mapping.mem_natives_iff.mp h).elim hcustom
    have hkeys : target ∉ l.custom.keys := fun h =>
      hk (Mapping.mem_keys_mergedWith.mpr (.inl h))
    refine ⟨hd, hkeys, fun n hs => ?_, fun hks n hdn => ?_, hfree, fun t hs => ?_⟩
    · by_contra hnc
      exact hk (listsUnder_finish.mpr (.inr ⟨hkeys, hnc, .inl hs⟩)).mem_keys
    · by_contra hnot
      obtain ⟨hns, hnc⟩ := not_or.mp hnot
      exact hk (listsUnder_finish.mpr (.inr ⟨hkeys, hnc, .inr ⟨hks, hns, hdn⟩⟩)).mem_keys
    · by_contra hkt
      exact hn (listsUnder_finish.mpr (.inr ⟨hkt, hfree, .inl hs⟩)).mem_natives
  · intro h
    exact ⟨h.not_mem_keys, h.not_mem_natives, h.inDialect⟩

/-! ### The second pass -/

theorem mapping_finish_finish (l : Loader) (s : Schema) : (l.finish (l.finish s)).mapping =
    l.dialect.mapping.mergedWith (l.finish s).mapping :=
  Mapping.mergedWith_absorbs

theorem finish_eq_iff {s' : Schema} (ht : s.tables = s'.tables) (he : s.enums = s'.enums) :
    l.finish s = l.finish s' ↔ (l.finish s).mapping = (l.finish s').mapping := by
  simp [Loader.finish, ht, he]

/-- A native that is not restored keeps its target. -/
theorem target?_finish_finish (h : ∀ t, ¬ l.Restores s t native) :
    (l.finish (l.finish s)).mapping.target? native = (l.finish s).mapping.target? native := by
  rw [mapping_finish_finish]
  unfold Mapping.target?
  rw [Mapping.firstTarget?_mergedWith]
  split_ifs with hn
  · rfl
  · rw [Mapping.firstTarget?_eq_none hn]
    by_contra hne
    obtain ⟨t, ht⟩ := Option.ne_none_iff_exists'.mp hne
    obtain ⟨hk, hl⟩ := Mapping.listsUnder_of_firstTarget? ht
    have hk : t ∉ (l.finish s).mapping.keys := by simpa using hk
    exact h t (listsUnder_remains_finish.mp (Mapping.listsUnder_remains.mpr ⟨hk, hn, hl⟩))

/-- **Reloading.**  A second pass puts what it restores in front of the mapping.  The schema is
stable exactly if nothing is restored, and from the second pass on it is.  A schema that is
written and loaded again has had a second pass; its source is the same unless the type of a shown
column was restored. -/
theorem finish_finish (l : Loader) (s : Schema) :
    (∃ restored : Mapping,
      (l.finish (l.finish s)).mapping.entries =
        restored.entries ++ (l.finish s).mapping.entries ∧
      ∀ target native, restored.ListsUnder target native ↔ l.Restores s target native) ∧
    (l.finish (l.finish s) = l.finish s ↔ ∀ target native, ¬ l.Restores s target native) ∧
    l.finish (l.finish (l.finish s)) = l.finish (l.finish s) ∧
    (∀ source, l.loadBytes source (Json.bytesOf (l.finish s).toJson.compact) =
        .ok (l.finish (l.finish s))) ∧
    ∀ o : Options,
      (∀ t ∈ o.shown (·.name) s.tables, ∀ c ∈ t.columns, ∀ target,
        ¬ l.Restores s target (Resolver.bare c.type)) →
      generate o (l.finish (l.finish s)) = generate o (l.finish s) := by
  refine ⟨⟨_, congrArg Mapping.entries (mapping_finish_finish l s), fun _ _ =>
    listsUnder_remains_finish⟩, ?stable, ?twice, fun source =>
      Loader.loadBytes_compact l _ source, fun o h => ?generated⟩
  case stable =>
    have hmapping : l.finish (l.finish s) = l.finish s ↔
        (l.finish (l.finish s)).mapping = (l.finish s).mapping := finish_eq_iff rfl rfl
    rw [hmapping, mapping_finish_finish, Mapping.mergedWith_eq_right_iff,
      Mapping.remains_eq_empty_iff]
    simp only [listsUnder_remains_finish]
  case twice =>
    refine Iff.mpr (finish_eq_iff rfl rfl) ?_
    rw [mapping_finish_finish, mapping_finish_finish]
    exact Mapping.mergedWith_mergedWith_self
  case generated =>
    exact generate_congr_types fun t ht c hc =>
      Resolver.resolve_congr (target?_finish_finish (h t ht c hc)) s.enums

section Example

/-- A custom target that the snapshot has too. -/
def rawBytes : Loader where
  custom := { entries := [("Bytes", ["raw"])] }

/-- The snapshot empties a target of the dialect, and takes the only native of another one. -/
def files : Schema where
  tables :=
    [{ name := "files", columns := [{ name := "data", type := "_bytea" }] },
      { name := "notes", columns := [{ name := "line", type := "text" }] }]
  mapping := { entries := [("number", []), ("Bytes", ["bytea"])] }

theorem restores_bytea : rawBytes.Restores files "Buffer" "bytea" where
  inDialect := ⟨("Buffer", ["bytea"]), by decide, rfl, by decide⟩
  notCustom := by decide
  emptied := by
    rintro n ⟨e, he, hkey, -⟩
    exact absurd hkey ((by decide : ∀ e ∈ files.mapping.entries, e.1 ≠ "Buffer") e he)
  taken := by
    rintro - n ⟨e, he, hkey, hn⟩
    have hall : ∀ e ∈ rawBytes.dialect.mapping.entries, e.1 = "Buffer" →
        ∀ n ∈ e.2, n ∈ files.mapping.natives ∨ n ∈ rawBytes.custom.natives := by decide +kernel
    exact hall e he hkey n hn
  free := by decide
  replaced := by
    rintro t ⟨e, he, rfl, hn⟩
    have hall : ∀ e ∈ files.mapping.entries, "bytea" ∈ e.2 → e.1 ∈ rawBytes.custom.keys := by
      decide
    exact hall e he hn

theorem not_restores_text (target : String) : ¬ rawBytes.Restores files target "text" := by
  rintro ⟨hd, -, -, htaken, -, -⟩
  have htarget : ∀ e ∈ rawBytes.dialect.mapping.entries, "text" ∈ e.2 → e.1 = "string" := by
    decide +kernel
  obtain ⟨e, he, rfl, hn⟩ := id hd
  rw [htarget e he hn] at hd htaken
  exact absurd (htaken (by decide) "text" hd) (by decide)

/-- The files' bytes come back, so the schema is not stable; the notes do not see it. -/
theorem finish_finish_files :
    rawBytes.finish (rawBytes.finish files) ≠ rawBytes.finish files ∧
      rawBytes.loadBytes .stream (Json.bytesOf (rawBytes.finish files).toJson.compact) =
        .ok (rawBytes.finish (rawBytes.finish files)) ∧
      generate { exclude := ["files"] } (rawBytes.finish (rawBytes.finish files)) =
        generate { exclude := ["files"] } (rawBytes.finish files) := by
  obtain ⟨-, hstable, -, hreload, hgenerate⟩ := finish_finish rawBytes files
  refine ⟨fun h => hstable.mp h "Buffer" "bytea" restores_bytea, hreload .stream, ?_⟩
  · refine hgenerate _ fun t ht c hc target => ?_
    have htypes : ∀ t ∈ Options.shown { exclude := ["files"] } (·.name) files.tables,
        ∀ c ∈ t.columns, Resolver.bare c.type = "text" := by decide
    rw [htypes t ht c hc]
    exact not_restores_text target

/-- A snapshot that has no natives for a target of the dialect. -/
def uncounted : Schema where
  tables := [{ name := "counts", columns := [{ name := "n", type := "int4" }] }]
  mapping := { entries := [("number", [])] }

/-- The target is gone after the first pass, and back after the second. -/
theorem finish_uncounted_ne :
    Loader.finish {} (Loader.finish {} uncounted) ≠ Loader.finish {} uncounted ∧
      (generate {} (Loader.finish {} uncounted)).source =
        "export interface Count \x7b\n  n: any\n\x7d\n" ∧
      (generate {} (Loader.finish {} (Loader.finish {} uncounted))).source =
        "export interface Count \x7b\n  n: number\n\x7d\n" := by
  decide +kernel

end Example

end RowTypes
