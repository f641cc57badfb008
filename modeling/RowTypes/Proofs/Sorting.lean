import Mathlib.Data.List.Sort
import RowTypes.Order

/-!
# Sorting — the order of names is canonical

`compareNames` is a linear order: names that tie are the same name (`eq_of_compareNames_isLE`).
Sorting by name is the insertion sort of that order (`sortedByName_eq_insertionSort`), so its
result is an ascending permutation of the items in which those of one name stand as they came
(`arranged_sortedByName`).  There is only one of that kind (`Arranged.unique`), so items may be left
out before or after sorting (`sortedByName_filter`).

The names of the sorted list do not depend on the order of the items (`map_sortedByName_of_perm`),
and where an item is determined by its name, nor does the list (`sortedByName_eq_of_perm`).
Lists whose items correspond one to one, in any order and under the same names, correspond item by
item when they are sorted (`Matched.sorted`).
-/

namespace RowTypes

/-! ### The order of names -/

instance : Std.TransCmp compareNames :=
  inferInstanceAs (Std.TransCmp (compareLex (compareOn Text.lowercase) compare))

instance : Std.LawfulEqCmp compareNames where
  eq_of_compare h := by
    rw [compareNames, SortKey.order, Ordering.then_eq_eq] at h
    exact Std.LawfulEqOrd.eq_of_compare h.2

theorem eq_of_compareNames_isLE {a b : String} (h : (compareNames a b).isLE)
    (h' : (compareNames b a).isLE) : a = b :=
  Std.LawfulEqCmp.eq_of_compare (Std.OrientedCmp.isLE_antisymm h h')

/-- The item `a` may stand before the item `b` in a list that is sorted by name. -/
def NameLE {α : Type} (name : α → String) (a b : α) : Prop :=
  (compareNames (name a) (name b)).isLE

section Sorting

variable {α : Type} (name : α → String)

instance : DecidableRel (NameLE name) := fun a b =>
  inferInstanceAs (Decidable ((compareNames (name a) (name b)).isLE = true))

instance : IsTrans α (NameLE name) := ⟨fun _ _ _ => Std.TransCmp.isLE_trans⟩

instance : Std.Total (NameLE name) where
  total a b := by
    have h : compareNames (name a) (name b) = (compareNames (name b) (name a)).swap :=
      Std.OrientedCmp.eq_swap
    unfold NameLE
    rw [h]
    cases compareNames (name b) (name a) <;> simp

theorem nameLE_iff {a b : α} :
    NameLE name a b ↔ ¬ (SortKey.of (name b)).order (SortKey.of (name a)) = .lt := by
  have h : compareNames (name a) (name b) = (compareNames (name b) (name a)).swap :=
    Std.OrientedCmp.eq_swap
  change _ ↔ ¬ compareNames (name b) (name a) = .lt
  unfold NameLE
  rw [h]
  cases compareNames (name b) (name a) <;> simp

/-! ### Sorting is an insertion sort -/

theorem map_insert_eq_orderedInsert (x : α) (l : List α) :
    SortKey.insert (SortKey.of (name x), x) (l.map fun a => (SortKey.of (name a), a)) =
      (l.orderedInsert (NameLE name) x).map fun a => (SortKey.of (name a), a) := by
  induction l with
  | nil => rfl
  | cons y l ih =>
      simp only [List.map_cons, SortKey.insert, List.orderedInsert_cons, nameLE_iff]
      split
      · rw [List.map_cons, ih]
      · rfl

theorem sortedByName_eq_insertionSort (l : List α) :
    sortedByName name l = l.insertionSort (NameLE name) := by
  have h : l.foldr (fun a sorted => SortKey.insert (SortKey.of (name a), a) sorted) [] =
      (l.insertionSort (NameLE name)).map fun a => (SortKey.of (name a), a) := by
    induction l with
    | nil => rfl
    | cons x l ih =>
        rw [List.foldr_cons, ih, map_insert_eq_orderedInsert, List.insertionSort_cons]
  rw [sortedByName, h, List.map_map]
  exact List.map_id _

theorem sortedByName_perm (l : List α) : (sortedByName name l).Perm l := by
  rw [sortedByName_eq_insertionSort]
  exact List.perm_insertionSort _ l

theorem mem_sortedByName {a : α} {l : List α} : a ∈ sortedByName name l ↔ a ∈ l :=
  (sortedByName_perm name l).mem_iff

theorem pairwise_sortedByName (l : List α) : (sortedByName name l).Pairwise (NameLE name) := by
  rw [sortedByName_eq_insertionSort]
  exact List.pairwise_insertionSort _ l

/-! ### Items of one name -/

/-- Items of one name keep their order. -/
theorem filter_sortedByName (l : List α) (n : String) :
    (sortedByName name l).filter (name · = n) = l.filter (name · = n) := by
  have hties : (l.filter (name · = n)).Pairwise (NameLE name) := by
    refine List.pairwise_of_forall_mem_list fun a ha b hb => ?_
    have ha := of_decide_eq_true (List.mem_filter.mp ha).2
    have hb := of_decide_eq_true (List.mem_filter.mp hb).2
    rw [NameLE, ha, hb]
    exact Std.ReflCmp.isLE_rfl
  have hsub : (l.filter (name · = n)).Sublist (sortedByName name l) := by
    rw [sortedByName_eq_insertionSort]
    exact List.sublist_insertionSort hties List.filter_sublist
  have hsub : (l.filter (name · = n)).Sublist ((sortedByName name l).filter (name · = n)) := by
    simpa only [List.filter_filter, Bool.and_self] using hsub.filter (name · = n)
  exact (hsub.eq_of_length ((sortedByName_perm name l).filter _).length_eq.symm).symm

/-- The items of a list in the order of their names, those of one name as they came. -/
structure Arranged (items arranged : List α) : Prop where
  perm : arranged.Perm items
  ascending : arranged.Pairwise (NameLE name)
  stable : ∀ n, arranged.filter (name · = n) = items.filter (name · = n)

theorem arranged_sortedByName (l : List α) : Arranged name l (sortedByName name l) :=
  ⟨sortedByName_perm name l, pairwise_sortedByName name l, filter_sortedByName name l⟩

variable {name}

theorem eq_of_ascending {l l' : List α} (hperm : l.Perm l') (h : l.Pairwise (NameLE name))
    (h' : l'.Pairwise (NameLE name))
    (hties : ∀ n, l.filter (name · = n) = l'.filter (name · = n)) : l = l' := by
  induction l generalizing l' with
  | nil => exact hperm.nil_eq
  | cons a l ih =>
      obtain ⟨b, l', rfl⟩ := List.exists_cons_of_ne_nil (l := l') (by
        rintro rfl
        exact List.cons_ne_nil a l hperm.eq_nil)
      -- Either first item comes before the other one, so both have the first name.
      have hname : name a = name b := by
        by_cases hab : a = b
        · rw [hab]
        · have ha : a ∈ l' := (List.mem_cons.mp (hperm.mem_iff.mp (.head _))).resolve_left hab
          have hb : b ∈ l :=
            (List.mem_cons.mp (hperm.mem_iff.mpr (.head _))).resolve_left (Ne.symm hab)
          exact eq_of_compareNames_isLE (List.rel_of_pairwise_cons h hb)
            (List.rel_of_pairwise_cons h' ha)
      have hfirst := hties (name a)
      rw [List.filter_cons_of_pos (by simp), List.filter_cons_of_pos (by simp [hname])] at hfirst
      obtain ⟨rfl, hrest⟩ := List.cons.inj hfirst
      rw [ih hperm.cons_inv h.of_cons h'.of_cons fun n => ?_]
      by_cases hn : name a = n
      · rw [← hn, hrest]
      · have hrest := hties n
        rwa [List.filter_cons_of_neg (by simp [hn]),
          List.filter_cons_of_neg (by simp [hn])] at hrest

/-- **There is one arrangement** of a list. -/
theorem Arranged.unique {l m m' : List α} (h : Arranged name l m) (h' : Arranged name l m') :
    m = m' :=
  eq_of_ascending (h.perm.trans h'.perm.symm) h.ascending h'.ascending fun n =>
    (h.stable n).trans (h'.stable n).symm

theorem Arranged.filter {l m : List α} (h : Arranged name l m) (p : α → Bool) :
    Arranged name (l.filter p) (m.filter p) := by
  refine ⟨h.perm.filter p, h.ascending.filter p, fun n => ?_⟩
  rw [List.filter_comm, h.stable n, List.filter_comm]

/-- It does not matter whether items are left out before or after they are sorted. -/
theorem sortedByName_filter (p : α → Bool) (l : List α) :
    sortedByName name (l.filter p) = (sortedByName name l).filter p :=
  (arranged_sortedByName name _).unique ((arranged_sortedByName name l).filter p)

/-! ### Sorted lists in any order of the items -/

/-- The names of a sorted list do not depend on the order of the items. -/
theorem map_sortedByName_of_perm {l l' : List α} (h : l.Perm l') :
    (sortedByName name l).map name = (sortedByName name l').map name := by
  have hascending (l : List α) :
      ((sortedByName name l).map name).Pairwise fun a b => (compareNames a b).isLE :=
    List.pairwise_map.mpr (pairwise_sortedByName name l)
  have hperm : (sortedByName name l).Perm (sortedByName name l') :=
    (sortedByName_perm name l).trans (h.trans (sortedByName_perm name l').symm)
  exact List.Perm.eq_of_pairwise (fun _ _ _ _ => eq_of_compareNames_isLE) (hascending l)
    (hascending l') (hperm.map name)

/-- **Sorting is canonical** on items that are determined by their names. -/
theorem sortedByName_eq_of_perm {l l' : List α} (h : l.Perm l')
    (hl : ∀ a ∈ l, ∀ b ∈ l, name a = name b → a = b) :
    sortedByName name l = sortedByName name l' := by
  refine List.Perm.eq_of_pairwise (fun a b ha hb hab hba => ?_) (pairwise_sortedByName name l)
    (pairwise_sortedByName name l')
    ((sortedByName_perm name l).trans (h.trans (sortedByName_perm name l').symm))
  have ha' : a ∈ l := (mem_sortedByName name).mp ha
  have hb' : b ∈ l := h.mem_iff.mpr ((mem_sortedByName name).mp hb)
  exact hl a ha' b hb' (eq_of_compareNames_isLE hab hba)

end Sorting

/-! ### Lists that match -/

/-- Every item of one list has a counterpart of its own in the other, in any order. -/
def Matched {α β : Type} (R : α → β → Prop) (l : List α) (l' : List β) : Prop :=
  ∃ m, l.Perm m ∧ List.Forall₂ R m l'

section Matching

variable {α β : Type} {R : α → β → Prop} {name : α → String} {name' : β → String}

theorem forall₂_orderedInsert (hR : ∀ a b, R a b → name a = name' b) {x : α} {y : β}
    (hxy : R x y) {l : List α} {l' : List β} (h : List.Forall₂ R l l') :
    List.Forall₂ R (l.orderedInsert (NameLE name) x) (l'.orderedInsert (NameLE name') y) := by
  induction h with
  | nil => exact .cons hxy .nil
  | @cons a b l l' hab hl ih =>
      -- Insertion decides by names alone, so it goes the same way in both lists.
      have he : NameLE name x a ↔ NameLE name' y b := by
        rw [NameLE, NameLE, hR x y hxy, hR a b hab]
      simp only [List.orderedInsert_cons, he]
      split
      · exact .cons hxy (.cons hab hl)
      · exact .cons hab ih

theorem forall₂_sortedByName (hR : ∀ a b, R a b → name a = name' b) {l : List α} {l' : List β}
    (h : List.Forall₂ R l l') :
    List.Forall₂ R (sortedByName name l) (sortedByName name' l') := by
  rw [sortedByName_eq_insertionSort, sortedByName_eq_insertionSort]
  induction h with
  | nil => exact .nil
  | cons hab _ ih => exact forall₂_orderedInsert hR hab ih

/-- **Matching lists correspond when sorted**, if related items have one name and no two items
share theirs. -/
theorem Matched.sorted {l : List α} {l' : List β} (h : Matched R l l')
    (hR : ∀ a b, R a b → name a = name' b) (hl : (l.map name).Nodup) :
    List.Forall₂ R (sortedByName name l) (sortedByName name' l') := by
  obtain ⟨m, hm, hml⟩ := h
  rw [sortedByName_eq_of_perm hm fun a ha b hb => List.inj_on_of_nodup_map hl ha hb]
  exact forall₂_sortedByName hR hml

end Matching

end RowTypes
