import RowTypes.Proofs.Merging
import RowTypes.Proofs.Visibility

/-!
# EntryOrder — when the order of entries counts

Two mappings are the same, their order left aside, when one is a permutation of the other
(`Mapping.sameAs_iff_perm`).  The resolver does not leave the order aside: of the targets that list
a native, it takes the first.

**Same mappings resolve a native alike unless it is contested and they begin its targets with
different ones** (`resolve_of_sameAs`); so sources of the same schema differ only where a shown
column has such a type.  Every contested native can be made to resolve otherwise by another order
of the entries.

**Where no native is listed twice, the order of the entries and of their natives does not matter,
also not through the loader**: the effective mapping lists no native twice again, and it resolves
alike however the snapshot's entries and the custom ones are ordered (`resolve_of_reordered`).
-/

namespace RowTypes

namespace Mapping

variable {a b : Mapping} {target native : String}

/-! ### The same entries in another order -/

theorem get?_eq_some_iff {natives : List String} :
    a.get? target = some natives ↔ (target, natives) ∈ a.entries := by
  rw [get?, List.lookup_eq_some_iff]
  constructor
  · rintro ⟨before, after, he, -⟩
    rw [he]
    exact List.mem_append_right _ (.head _)
  · intro hmem
    obtain ⟨before, after, he⟩ := List.append_of_mem hmem
    refine ⟨before, after, he, fun e hbefore => ?_⟩
    have h := a.distinct
    rw [he, List.map_append, List.map_cons, List.nodup_middle, List.nodup_cons] at h
    rw [bne_iff_ne]
    rintro rfl
    exact h.1 (List.mem_append_left _ (List.mem_map.mpr ⟨e, hbefore, rfl⟩))

theorem sameAs_iff_perm : a.sameAs b = true ↔ a.entries.Perm b.entries := by
  rw [sameAs, Bool.and_eq_true, decide_eq_true_iff, List.all_eq_true]
  simp only [decide_eq_true_eq, get?_eq_some_iff]
  constructor
  · rintro ⟨hsize, hsub⟩
    exact (List.subperm_of_subset (.of_map _ a.distinct) hsub).perm_of_length_le hsize.ge
  · intro h
    exact ⟨h.length_eq, fun e he => h.mem_iff.mp he⟩

theorem listsUnder_of_perm (h : a.entries.Perm b.entries) :
    a.ListsUnder target native ↔ b.ListsUnder target native := by
  simp only [ListsUnder, h.mem_iff]

/-- Another order of the entries gives a contested native another target. -/
theorem exists_target?_ne (h : a.Contested native) :
    ∃ b : Mapping, a.sameAs b = true ∧
      ∃ t t', t ≠ t' ∧ a.target? native = some t ∧ b.target? native = some t' := by
  obtain ⟨t, ht⟩ := exists_target? (mem_natives_iff.mpr (h.imp fun _ ⟨_, _, h, _⟩ => h))
  -- One of the two targets is not the first; its entry goes in front.
  obtain ⟨e, he, hne, hn⟩ : ∃ e ∈ a.entries, e.1 ≠ t ∧ native ∈ e.2 := by
    obtain ⟨-, -, hne, ⟨e, he, rfl, hn⟩, ⟨e', he', rfl, hn'⟩⟩ := h
    by_cases heq : e.1 = t
    · exact ⟨e', he', fun h' => hne (heq.trans h'.symm), hn'⟩
    · exact ⟨e, he, heq, hn⟩
  have hperm : a.entries.Perm (e :: a.entries.erase e) := List.perm_cons_erase he
  let b : Mapping := ⟨e :: a.entries.erase e, (hperm.map _).nodup_iff.mp a.distinct⟩
  refine ⟨b, sameAs_iff_perm.mpr hperm, t, e.1, hne.symm, ht, ?_⟩
  rw [target?, firstTarget?, List.find?_cons_of_pos (by simpa using hn)]
  rfl

/-! ### The same natives in another order -/

/-- Items of lists that are related one by one. -/
theorem exists_related {α β : Type} {R : α → β → Prop} {l : List α} {l' : List β}
    (h : List.Forall₂ R l l') : (∀ x ∈ l, ∃ y ∈ l', R x y) ∧ ∀ y ∈ l', ∃ x ∈ l, R x y := by
  induction h with
  | nil => simp
  | cons hxy _ ih =>
      simp only [List.exists_mem_cons_iff, List.forall_mem_cons]
      exact ⟨⟨.inl hxy, fun x hx => .inr (ih.1 x hx)⟩, .inl hxy, fun y hy => .inr (ih.2 y hy)⟩

/-- The same entries in another order, each with the same natives in another order. -/
def Reordered (a b : Mapping) : Prop :=
  Matched (fun e e' => e.1 = e'.1 ∧ e.2.Perm e'.2) a.entries b.entries

theorem Reordered.exists_entry (h : a.Reordered b) :
    (∀ e ∈ a.entries, ∃ e' ∈ b.entries, e.1 = e'.1 ∧ e.2.Perm e'.2) ∧
      ∀ e' ∈ b.entries, ∃ e ∈ a.entries, e.1 = e'.1 ∧ e.2.Perm e'.2 := by
  obtain ⟨middle, hperm, hmiddle⟩ := h
  simp only [hperm.mem_iff]
  exact exists_related hmiddle

theorem Reordered.listsUnder (h : a.Reordered b) :
    a.ListsUnder target native ↔ b.ListsUnder target native := by
  obtain ⟨hab, hba⟩ := h.exists_entry
  constructor
  · rintro ⟨e, he, rfl, hn⟩
    obtain ⟨e', he', hkey, hnatives⟩ := hab e he
    exact ⟨e', he', hkey.symm, hnatives.mem_iff.mp hn⟩
  · rintro ⟨e', he', rfl, hn⟩
    obtain ⟨e, he, hkey, hnatives⟩ := hba e' he'
    exact ⟨e, he, hkey, hnatives.mem_iff.mpr hn⟩

theorem Reordered.mem_natives (h : a.Reordered b) : native ∈ a.natives ↔ native ∈ b.natives := by
  simp only [mem_natives_iff, h.listsUnder]

theorem Reordered.mem_keys (h : a.Reordered b) : target ∈ a.keys ↔ target ∈ b.keys := by
  obtain ⟨hab, hba⟩ := h.exists_entry
  simp only [keys, List.mem_map]
  constructor
  · rintro ⟨e, he, rfl⟩
    obtain ⟨e', he', hkey, -⟩ := hab e he
    exact ⟨e', he', hkey.symm⟩
  · rintro ⟨e', he', rfl⟩
    obtain ⟨e, he, hkey, -⟩ := hba e' he'
    exact ⟨e, he, hkey⟩

end Mapping

/-! ### Resolving -/

namespace Resolver

theorem wrapped_inj {marked : Bool} {t t' : String} (h : wrapped marked t = wrapped marked t') :
    t = t' := by
  cases marked with
  | false => exact h
  | true => exact (String.append_right_inj _).mp ((String.append_left_inj _).mp h)

variable {a b : Mapping} {native : String}

theorem resolve_congr (h : a.target? (bare native) = b.target? (bare native))
    (enums : List Enum) :
    (Resolver.of a enums).resolve native = (Resolver.of b enums).resolve native := by
  rw [resolve_of, resolve_of, h]

theorem resolve_ne {t t' : String} (ht : a.target? (bare native) = some t)
    (ht' : b.target? (bare native) = some t') (hne : t ≠ t') (enums : List Enum) :
    (Resolver.of a enums).resolve native ≠ (Resolver.of b enums).resolve native := by
  rw [resolve_of, resolve_of, ht, ht']
  exact fun h => hne (wrapped_inj h)

end Resolver

open Resolver (bare)

theorem target?_of_sameAs {a b : Mapping} {native : String} (h : a.sameAs b = true)
    (hn : a.Contested native → a.target? native = b.target? native) :
    a.target? native = b.target? native := by
  by_cases hc : a.Contested native
  · exact hn hc
  · have hperm := Mapping.sameAs_iff_perm.mp h
    exact Mapping.target?_congr (fun t => Mapping.listsUnder_of_perm hperm) hc

/-- **Same mappings, same types**, but for contested natives whose first target the order changes.
Only there can the sources of the same schema differ, and every contested native can be made to
resolve otherwise. -/
theorem resolve_of_sameAs :
    (∀ (a b : Mapping) (enums : List Enum) (native : String),
      a.sameAs b = true →
        ((Resolver.of a enums).resolve native = (Resolver.of b enums).resolve native ↔
          (a.Contested (bare native) → a.target? (bare native) = b.target? (bare native)))) ∧
    (∀ (o : Options) (s s' : Schema), s.sameAs s' = true →
        (∀ t ∈ o.shown (·.name) s.tables, ∀ c ∈ t.columns,
          s.mapping.Contested (bare c.type) →
            s.mapping.target? (bare c.type) = s'.mapping.target? (bare c.type)) →
        generate o s = generate o s') ∧
    ∀ (a : Mapping) (native : String), a.Contested (bare native) →
      ∃ b : Mapping, a.sameAs b = true ∧ ∀ enums,
        (Resolver.of a enums).resolve native ≠ (Resolver.of b enums).resolve native := by
  refine ⟨?mappings, ?schemas, ?contested⟩
  case mappings =>
    intro a b enums native h
    refine ⟨fun hres hc => ?_, fun hn =>
      Resolver.resolve_congr (target?_of_sameAs h hn) enums⟩
    obtain ⟨t, _, _, ht, _⟩ := hc
    obtain ⟨t₁, h₁⟩ := Mapping.exists_target? ht.mem_natives
    have hperm := Mapping.sameAs_iff_perm.mp h
    obtain ⟨t₂, h₂⟩ :=
      Mapping.exists_target? ((Mapping.listsUnder_of_perm hperm).mp ht).mem_natives
    by_contra hne
    rw [h₁, h₂, Option.some_inj] at hne
    exact Resolver.resolve_ne h₁ h₂ hne enums hres
  case schemas =>
    rintro o ⟨tables, enums, m⟩ ⟨tables', enums', m'⟩ h htypes
    simp only [Schema.sameAs, Bool.and_eq_true, decide_eq_true_eq] at h
    obtain ⟨⟨rfl, rfl⟩, h⟩ := h
    exact generate_congr_types fun t ht c hc =>
      Resolver.resolve_congr (target?_of_sameAs h (htypes t ht c hc)) enums
  case contested =>
    intro a native hc
    obtain ⟨b, hsame, t, t', hne, ht, ht'⟩ := Mapping.exists_target?_ne hc
    exact ⟨b, hsame, fun enums => Resolver.resolve_ne ht ht' hne enums⟩

section Example

/-- A column whose type is listed under two targets. -/
def totals (mapping : Mapping) : Schema where
  tables := [{ name := "totals", columns := [{ name := "sum", type := "numeric" }] }]
  mapping := mapping

def textFirst : Mapping where
  entries := [("string", ["numeric"]), ("number", ["numeric", "int4"]), ("boolean", ["bool"])]

def numberFirst : Mapping where
  entries := [("number", ["numeric", "int4"]), ("string", ["numeric"]), ("boolean", ["bool"])]

/-- Another order in which `string` is in front of `number`. -/
def flagsFirst : Mapping where
  entries := [("boolean", ["bool"]), ("string", ["numeric"]), ("number", ["numeric", "int4"])]

theorem resolve_of_sameAs_textFirst :
    (Resolver.of textFirst []).resolve "_int4" = (Resolver.of numberFirst []).resolve "_int4" ∧
      generate {} (totals textFirst) = generate {} (totals flagsFirst) ∧
      ∃ b : Mapping, textFirst.sameAs b = true ∧ ∀ enums,
        (Resolver.of textFirst enums).resolve "numeric" ≠
          (Resolver.of b enums).resolve "numeric" := by
  obtain ⟨hmappings, hschemas, hcontested⟩ := resolve_of_sameAs
  refine ⟨?_, ?_, ?_⟩
  · exact (hmappings _ _ _ _ (by decide)).mpr fun _ => by decide
  · have htypes : ∀ t ∈ Options.shown {} (·.name) (totals textFirst).tables, ∀ c ∈ t.columns,
        textFirst.target? (bare c.type) = flagsFirst.target? (bare c.type) := by decide
    exact hschemas {} (totals textFirst) (totals flagsFirst) (by decide)
      fun t hmem c hc _ => htypes t hmem c hc
  · refine hcontested textFirst "numeric" ⟨"string", "number", by decide, ?_, ?_⟩
    · exact ⟨("string", ["numeric"]), .head _, rfl, by decide⟩
    · exact ⟨("number", ["numeric", "int4"]), .tail _ (.head _), rfl, by decide⟩

/-- The same schema, and not the same source. -/
theorem source_textFirst_ne :
    (totals textFirst).sameAs (totals numberFirst) = true ∧
      (generate {} (totals textFirst)).source ≠ (generate {} (totals numberFirst)).source ∧
      (Resolver.of textFirst []).resolve "numeric" ≠
        (Resolver.of numberFirst []).resolve "numeric" := by
  decide +kernel

end Example

/-! ### Through the loader -/

section Reordered

variable {l l' : Loader} {s s' : Schema} {target native : String}

theorem nodup_natives_finish (hs : s.mapping.natives.Nodup) (hc : l.custom.natives.Nodup) :
    (l.finish s).mapping.natives.Nodup :=
  Mapping.nodup_natives_mergedWith
    (Mapping.nodup_natives_mergedWith l.dialect.nodup_natives hs) hc

theorem listsUnder_finish_congr (hd : l.dialect = l'.dialect)
    (hs : s.mapping.Reordered s'.mapping) (hc : l.custom.Reordered l'.custom) :
    (l.finish s).mapping.ListsUnder target native ↔
      (l'.finish s').mapping.ListsUnder target native := by
  simp only [Loader.finish, Mapping.listsUnder_mergedWith, hd, hs.listsUnder, hs.mem_keys,
    hs.mem_natives, hc.listsUnder, hc.mem_keys, hc.mem_natives]

/-- **Mappings without repetition have no order.**  If neither the snapshot nor the custom mapping
lists a native twice, then neither does the effective mapping, and it resolves every native as that
of reordered mappings does. -/
theorem resolve_of_reordered (l : Loader) (s : Schema) (hs : s.mapping.natives.Nodup)
    (hc : l.custom.natives.Nodup) :
    (l.finish s).mapping.natives.Nodup ∧
      ∀ (l' : Loader) (s' : Schema), l.dialect = l'.dialect →
        l.custom.Reordered l'.custom → s.mapping.Reordered s'.mapping →
          (∀ enums native, (Resolver.of (l.finish s).mapping enums).resolve native =
            (Resolver.of (l'.finish s').mapping enums).resolve native) ∧
          ∀ o tables enums, generate o ⟨tables, enums, (l.finish s).mapping⟩ =
            generate o ⟨tables, enums, (l'.finish s').mapping⟩ := by
  have hnodup := nodup_natives_finish hs hc
  refine ⟨hnodup, fun l' s' hd hcustom hsnapshot => ?_⟩
  have htarget : ∀ native, (l.finish s).mapping.target? native =
      (l'.finish s').mapping.target? native := fun native =>
    Mapping.target?_congr (fun t => listsUnder_finish_congr hd hsnapshot hcustom)
      (Mapping.not_contested_of_nodup hnodup)
  have hresolve : ∀ enums native, (Resolver.of (l.finish s).mapping enums).resolve native =
      (Resolver.of (l'.finish s').mapping enums).resolve native := fun enums native =>
    Resolver.resolve_congr (htarget (bare native)) enums
  exact ⟨hresolve, fun o tables enums =>
    generate_congr_types fun t _ c _ => hresolve enums c.type⟩

end Reordered

section Example

/-- Custom targets for natives of the dialect, and for one of the snapshot. -/
def largeNumbers : Loader where
  custom := { entries := [("bigint", ["int8", "serial8"]), ("Decimal", ["numeric", "tax"])] }

def taxes : Schema where
  tables := [{ name := "taxes", columns := [{ name := "rate", type := "_tax" }] }]
  mapping := { entries := [("Rate", ["tax", "toll"]), ("Json", ["json"])] }

/-- `largeNumbers` and `taxes` in another order. -/
def largeNumbersBackwards : Loader where
  custom := { entries := [("Decimal", ["tax", "numeric"]), ("bigint", ["serial8", "int8"])] }

def taxesBackwards : Schema where
  mapping := { entries := [("Json", ["json"]), ("Rate", ["toll", "tax"])] }

theorem resolve_of_reordered_taxes :
    (largeNumbers.finish taxes).mapping.natives.Nodup ∧
      (Resolver.of (largeNumbers.finish taxes).mapping []).resolve "_tax" =
        (Resolver.of (largeNumbersBackwards.finish taxesBackwards).mapping []).resolve "_tax" ∧
      generate {} ⟨taxes.tables, [], (largeNumbers.finish taxes).mapping⟩ =
        generate {} ⟨taxes.tables, [],
          (largeNumbersBackwards.finish taxesBackwards).mapping⟩ := by
  obtain ⟨hnodup, hreordered⟩ := resolve_of_reordered largeNumbers taxes (by decide) (by decide)
  obtain ⟨hresolve, hgenerate⟩ := hreordered largeNumbersBackwards taxesBackwards rfl
    ⟨_, .swap _ _ _, .cons ⟨rfl, by decide⟩ (.cons ⟨rfl, by decide⟩ .nil)⟩
    ⟨_, .swap _ _ _, .cons ⟨rfl, by decide⟩ (.cons ⟨rfl, by decide⟩ .nil)⟩
  exact ⟨hnodup, hresolve [] "_tax", hgenerate {} taxes.tables []⟩

end Example

end RowTypes
