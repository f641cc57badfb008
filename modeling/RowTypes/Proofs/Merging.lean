import Mathlib.Data.List.Nodup
import Mathlib.Data.List.Pairwise
import RowTypes.Proofs.Precedence

/-!
# Merging — what a mapping lists

What a mapping says, its order left aside, is which natives it lists under which targets
(`Mapping.ListsUnder`).  A native is contested when it is listed under two targets; only then does
the order of the entries decide (`target?_eq_some_iff`).

**A merge lists what its overrides list, and what the base lists under a target that the overrides
do not have, if they do not list the native either** (`listsUnder_mergedWith`).  So a merge of
mappings that list no native twice lists no native twice.
-/

namespace RowTypes

namespace Mapping

/-- An entry of the target lists the native. -/
def ListsUnder (m : Mapping) (target native : String) : Prop :=
  ∃ e ∈ m.entries, e.1 = target ∧ native ∈ e.2

/-- A native is listed under two targets. -/
def Contested (m : Mapping) (native : String) : Prop :=
  ∃ t t', t ≠ t' ∧ m.ListsUnder t native ∧ m.ListsUnder t' native

variable {m a b base overrides : Mapping} {target native : String}

theorem mem_natives_iff : native ∈ m.natives ↔ ∃ t, m.ListsUnder t native := by
  rw [mem_natives]
  constructor
  · rintro ⟨e, he, hn⟩
    exact ⟨e.1, e, he, rfl, hn⟩
  · rintro ⟨-, e, he, -, hn⟩
    exact ⟨e, he, hn⟩

theorem ListsUnder.mem_natives (h : m.ListsUnder target native) : native ∈ m.natives :=
  mem_natives_iff.mpr ⟨target, h⟩

theorem ListsUnder.mem_keys (h : m.ListsUnder target native) : target ∈ m.keys := by
  obtain ⟨e, he, rfl, -⟩ := h
  exact List.mem_map_of_mem he

/-! ### The first target -/

theorem listsUnder_of_firstTarget? {admits : String → Bool}
    (h : m.firstTarget? admits native = some target) :
    admits target = true ∧ m.ListsUnder target native := by
  obtain ⟨e, he, rfl⟩ := Option.map_eq_some_iff.mp h
  have hfound := List.find?_some he
  simp only [Bool.and_eq_true, List.contains_iff_mem] at hfound
  exact ⟨hfound.1, e, List.mem_of_find?_eq_some he, rfl, hfound.2⟩

theorem listsUnder_of_target? (h : m.target? native = some target) :
    m.ListsUnder target native := (listsUnder_of_firstTarget? h).2

/-- A native that is not contested has the only target under which it is listed. -/
theorem target?_eq_some_iff (h : ¬ m.Contested native) :
    m.target? native = some target ↔ m.ListsUnder target native := by
  refine ⟨listsUnder_of_target?, fun hl => ?_⟩
  obtain ⟨t, ht⟩ := exists_target? hl.mem_natives
  by_contra hne
  refine h ⟨target, t, ?_, hl, listsUnder_of_target? ht⟩
  rintro rfl
  exact hne ht

theorem target?_congr (h : ∀ t, a.ListsUnder t native ↔ b.ListsUnder t native)
    (ha : ¬ a.Contested native) : a.target? native = b.target? native := by
  have hb : ¬ b.Contested native := fun ⟨t, t', hne, ht, ht'⟩ =>
    ha ⟨t, t', hne, (h t).mpr ht, (h t').mpr ht'⟩
  ext t
  rw [target?_eq_some_iff ha, target?_eq_some_iff hb, h]

/-- No native is contested where none is listed twice. -/
theorem not_contested_of_nodup (h : m.natives.Nodup) : ¬ m.Contested native := by
  rintro ⟨-, -, hne, ⟨e, he, rfl, hn⟩, ⟨e', he', rfl, hn'⟩⟩
  have hpairs := (List.nodup_flatMap.mp h).2
  have : Std.Symm (Function.onFun List.Disjoint (Prod.snd (α := String) (β := List String))) :=
    ⟨fun _ _ hd _ hn hn' => hd hn' hn⟩
  exact hpairs.forall he he' (fun h => hne (h ▸ rfl)) hn hn'

/-! ### What a merge lists -/

theorem listsUnder_remains : (base.remains overrides).ListsUnder target native ↔
    target ∉ overrides.keys ∧ native ∉ overrides.natives ∧ base.ListsUnder target native := by
  constructor
  · rintro ⟨e', he', rfl, hn⟩
    obtain ⟨e, he, hu⟩ := List.mem_filterMap.mp he'
    obtain ⟨hk, hkey, hmem⟩ := underneath_eq_some hu
    exact ⟨hkey ▸ hk, ((hmem native).mp hn).2, e, he, hkey.symm, ((hmem native).mp hn).1⟩
  · rintro ⟨hk, hn, e, he, rfl, hne⟩
    cases hu : overrides.underneath e with
    | none =>
        rcases underneath_eq_none hu with h | h
        · exact absurd h hk
        · exact absurd (h native hne) hn
    | some e' =>
        obtain ⟨-, hkey, hmem⟩ := underneath_eq_some hu
        exact ⟨e', List.mem_filterMap.mpr ⟨e, he, hu⟩, hkey, (hmem native).mpr ⟨hne, hn⟩⟩

/-- **What a merge lists.** -/
theorem listsUnder_mergedWith : (base.mergedWith overrides).ListsUnder target native ↔
    overrides.ListsUnder target native ∨
      target ∉ overrides.keys ∧ native ∉ overrides.natives ∧ base.ListsUnder target native := by
  rw [← listsUnder_remains]
  simp only [ListsUnder, entries_mergedWith, List.mem_append, or_and_right, exists_or]
  exact or_comm

theorem mem_natives_mergedWith : native ∈ (base.mergedWith overrides).natives ↔
    native ∈ overrides.natives ∨
      native ∉ overrides.natives ∧ ∃ t, t ∉ overrides.keys ∧ base.ListsUnder t native := by
  simp only [mem_natives_iff, listsUnder_mergedWith, exists_or]
  refine or_congr_right ?_
  constructor
  · rintro ⟨t, hk, hn, ht⟩
    exact ⟨hn, t, hk, ht⟩
  · rintro ⟨hn, t, hk, ht⟩
    exact ⟨t, hk, hn, ht⟩

theorem ne_nil_of_mem_remains {e : String × List String}
    (h : e ∈ (base.remains overrides).entries) : e.2 ≠ [] := by
  obtain ⟨e₀, -, hu⟩ := List.mem_filterMap.mp h
  simp only [underneath] at hu
  split at hu
  · cases hu
  · rename_i hk
    cases hu
    exact fun h => hk (.inr h)

/-- A target is left if a native is left under it: emptied entries are dropped. -/
theorem mem_keys_remains : target ∈ (base.remains overrides).keys ↔
    ∃ n, (base.remains overrides).ListsUnder target n := by
  constructor
  · intro h
    obtain ⟨e, he, rfl⟩ := List.mem_map.mp h
    obtain ⟨n, hn⟩ := List.exists_mem_of_ne_nil _ (ne_nil_of_mem_remains he)
    exact ⟨n, e, he, rfl, hn⟩
  · rintro ⟨n, hn⟩
    exact hn.mem_keys

theorem mem_keys_mergedWith : target ∈ (base.mergedWith overrides).keys ↔
    target ∈ overrides.keys ∨
      ∃ n, target ∉ overrides.keys ∧ n ∉ overrides.natives ∧ base.ListsUnder target n := by
  simp only [← listsUnder_remains, ← mem_keys_remains]
  rw [keys, entries_mergedWith, List.map_append, List.mem_append, or_comm]
  rfl

/-! ### Merges keep order in a mapping -/

theorem natives_remains_sublist : (base.remains overrides).natives.Sublist base.natives := by
  change ((base.entries.filterMap overrides.underneath).flatMap (·.2)).Sublist
    (base.entries.flatMap (·.2))
  induction base.entries with
  | nil => exact .slnil
  | cons e es ih =>
      simp only [List.filterMap_cons, List.flatMap_cons]
      simp only [underneath]
      split
      · exact ih.trans (List.sublist_append_right _ _)
      · rename_i e' hu
        split at hu
        · cases hu
        · cases hu
          exact List.filter_sublist.append ih

/-- Overrides that list no native twice leave none listed twice. -/
theorem nodup_natives_mergedWith (hb : base.natives.Nodup) (ho : overrides.natives.Nodup) :
    (base.mergedWith overrides).natives.Nodup := by
  rw [natives, entries_mergedWith, List.flatMap_append, List.nodup_append]
  refine ⟨hb.sublist natives_remains_sublist, ho, ?_⟩
  rintro n hn _ hn' rfl
  obtain ⟨t, ht⟩ := mem_natives_iff.mp hn
  exact (listsUnder_remains.mp ht).2.1 hn'

/-! ### Merging again -/

theorem underneath_eq_self {e : String × List String} (hk : e.1 ∉ overrides.keys)
    (hn : ∀ n ∈ e.2, n ∉ overrides.natives) (hne : e.2 ≠ []) :
    overrides.underneath e = some e := by
  have hkept : e.2.filter (· ∉ overrides.natives) = e.2 :=
    List.filter_eq_self.mpr fun n h => by simpa using hn n h
  rw [underneath, hkept, if_neg (not_or.mpr ⟨hk, hne⟩)]

/-- What is left under some overrides is left whole under fewer. -/
theorem remains_remains {fewer : Mapping} (hk : ∀ t ∈ fewer.keys, t ∈ overrides.keys)
    (hn : ∀ n ∈ fewer.natives, n ∈ overrides.natives) :
    (base.remains overrides).remains fewer = base.remains overrides := by
  have hwhole : ∀ e ∈ (base.remains overrides).entries, fewer.underneath e = some e := by
    intro e he
    obtain ⟨n, hl⟩ := mem_keys_remains.mp (List.mem_map_of_mem he)
    refine underneath_eq_self (fun h => (listsUnder_remains.mp hl).1 (hk _ h)) (fun n' hn' h => ?_)
      (ne_nil_of_mem_remains he)
    exact (listsUnder_remains.mp ⟨e, he, rfl, hn'⟩).2.1 (hn n' h)
  exact Mapping.ext ((List.filterMap_congr hwhole).trans List.filterMap_some)

theorem remains_self : m.remains m = empty := by
  refine Mapping.ext (List.filterMap_eq_nil_iff.mpr fun e he => ?_)
  rw [underneath, if_pos (.inl (List.mem_map_of_mem he))]

theorem entries_remains_mergedWith {c : Mapping} :
    ((base.mergedWith overrides).remains c).entries =
      ((base.remains overrides).remains c).entries ++ (overrides.remains c).entries :=
  List.filterMap_append

/-- **Overrides that were merged already change nothing**, at whatever level they were. -/
theorem mergedWith_absorbs {c : Mapping} :
    (a.mergedWith (b.mergedWith c)).mergedWith c = a.mergedWith (b.mergedWith c) := by
  have hc : (b.mergedWith c).remains c = b.remains c := by
    refine Mapping.ext ?_
    rw [entries_remains_mergedWith, remains_remains (fun _ h => h) (fun _ h => h), remains_self]
    exact List.append_nil _
  have ha : (a.remains (b.mergedWith c)).remains c = a.remains (b.mergedWith c) :=
    remains_remains (fun _ h => mem_keys_mergedWith.mpr (.inl h))
      fun _ h => mem_natives_mergedWith.mpr (.inl h)
  refine Mapping.ext ?_
  rw [entries_mergedWith, entries_remains_mergedWith, ha, hc, List.append_assoc]
  rfl

theorem remains_eq_empty_iff :
    base.remains overrides = empty ↔ ∀ t n, ¬ (base.remains overrides).ListsUnder t n := by
  constructor
  · intro h t n
    rw [h]
    rintro ⟨e, he, -⟩
    cases he
  · intro h
    refine Mapping.ext (List.eq_nil_iff_forall_not_mem.mpr fun e he => ?_)
    obtain ⟨n, hn⟩ := mem_keys_remains.mp (List.mem_map_of_mem he)
    exact h e.1 n hn

theorem mergedWith_eq_right_iff :
    base.mergedWith overrides = overrides ↔ base.remains overrides = empty := by
  constructor
  · intro h
    have hentries := congrArg Mapping.entries h
    rw [entries_mergedWith, List.append_left_eq_self] at hentries
    exact Mapping.ext hentries
  · intro h
    refine Mapping.ext ?_
    rw [entries_mergedWith, h]
    rfl

/-- A base that was merged already leaves nothing to merge. -/
theorem mergedWith_mergedWith_self : a.mergedWith (a.mergedWith b) = a.mergedWith b := by
  rw [mergedWith_eq_right_iff, remains_eq_empty_iff]
  intro t n h
  obtain ⟨hk, hn, hl⟩ := listsUnder_remains.mp h
  have hkb : t ∉ b.keys := fun h => hk (mem_keys_mergedWith.mpr (.inl h))
  have hnb : n ∉ b.natives := fun h => hn (mem_natives_mergedWith.mpr (.inl h))
  exact hk (mem_keys_mergedWith.mpr (.inr ⟨n, hkb, hnb, hl⟩))

end Mapping

/-! ### Dialects -/

theorem Dialect.nodup_natives (d : Dialect) : d.mapping.natives.Nodup := by
  cases d <;> decide +kernel

end RowTypes
