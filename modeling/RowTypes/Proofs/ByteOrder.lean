import RowTypes.Proofs.Sorting
import RowTypes.Proofs.Tokens

/-!
# Byte order — names as their bytes compare

Names are compared character by character, and files hold bytes.  UTF-8 makes no difference between
the two: where two texts differ first, the lower character also has the lower byte in the first
place where the bytes of the two characters differ (`Json.below_utf8EncodeChar`).  So texts compare
as their bytes do (`Json.compare_bytesOf`).

**Sorting by name** (`sortedByName_canonical`).  The order of names compares the bytes of their
lowercase, and then their own.  It is total and transitive, and only a name ties with itself.  The
sorted items are a permutation of the items that ascends in this order and keeps the items of one
name as they came; their names do not depend on the order of the items, and items can be left out
before or after sorting.
-/

namespace RowTypes

namespace Json

variable {as bs : List UInt8} {c d : Char} {m n : Nat}

/-! ### Bytes of characters -/

/-- Both rows of bytes go on to a place where they differ, and the first of these has the lower byte
in the first row. -/
def Below : List UInt8 → List UInt8 → Prop
  | a :: as, b :: bs => a < b ∨ a = b ∧ Below as bs
  | _, _ => False

theorem below_ofNat (hm : m < 256) (hn : n < 256) :
    Below (UInt8.ofNat m :: as) (UInt8.ofNat n :: bs) ↔ m < n ∨ m = n ∧ Below as bs := by
  rw [Below, UInt8.lt_iff_toNat_lt, ← UInt8.toNat_inj, UInt8.toNat_ofNat', UInt8.toNat_ofNat',
    Nat.mod_eq_of_lt hm, Nat.mod_eq_of_lt hn]

theorem two_digits (h : m < n) : m / 64 < n / 64 ∨ m / 64 = n / 64 ∧ m % 64 < n % 64 := by
  omega

/-- To the base 64, the lower of two numbers has the lower digit where they differ first. -/
theorem three_digits (h : m < n) : m / 4096 < n / 4096 ∨ m / 4096 = n / 4096 ∧
    (m / 64 % 64 < n / 64 % 64 ∨ m / 64 % 64 = n / 64 % 64 ∧ m % 64 < n % 64) := by
  have hdiv (k : Nat) : k / 64 / 64 = k / 4096 := Nat.div_div_eq_div_mul k 64 64
  rcases two_digits h with h | ⟨h, hlast⟩
  · rw [← hdiv, ← hdiv]
    rcases two_digits h with h | ⟨h, hmiddle⟩
    · exact .inl h
    · exact .inr ⟨h, .inl hmiddle⟩
  · rw [← hdiv, ← hdiv, h]
    exact .inr ⟨rfl, .inr ⟨rfl, hlast⟩⟩

theorem four_digits (h : m < n) : m / 262144 < n / 262144 ∨ m / 262144 = n / 262144 ∧
    (m / 4096 % 64 < n / 4096 % 64 ∨ m / 4096 % 64 = n / 4096 % 64 ∧
      (m / 64 % 64 < n / 64 % 64 ∨ m / 64 % 64 = n / 64 % 64 ∧ m % 64 < n % 64)) := by
  have hdiv (k : Nat) : k / 4096 / 64 = k / 262144 := Nat.div_div_eq_div_mul k 4096 64
  rw [← hdiv, ← hdiv]
  rcases three_digits h with h | ⟨h, hlast⟩
  · rcases two_digits h with h | ⟨h, hmiddle⟩
    · exact .inl h
    · exact .inr ⟨h, .inl hmiddle⟩
  · rw [h]
    exact .inr ⟨rfl, .inr ⟨rfl, hlast⟩⟩

/-- **A lower character has lower bytes.** -/
theorem below_utf8EncodeChar (h : c < d) :
    Below (String.utf8EncodeChar c) (String.utf8EncodeChar d) := by
  have hvalid : d.val.toNat < 0x110000 := by
    have hd : d.val.toNat.isValidChar := d.valid
    rw [Nat.isValidChar] at hd
    omega
  have hlt : c.val.toNat < d.val.toNat := h
  simp only [String.utf8EncodeChar]
  generalize c.val.toNat = m at hlt ⊢
  generalize d.val.toNat = n at hlt hvalid ⊢
  split_ifs <;> simp (disch := omega) only [below_ofNat] <;>
    simp (disch := omega) only [Below, Nat.mod_eq_of_lt, Nat.add_lt_add_iff_right,
      Nat.add_right_cancel_iff, and_false, or_false]
  -- As many bytes hold the digits in their order.
  any_goals first
    | exact hlt
    | exact two_digits hlt
    | exact three_digits hlt
    | exact four_digits hlt
  -- More bytes begin with a higher one.
  all_goals omega

/-! ### Bytes of texts -/

theorem Below.compare_append (h : Below as bs) (xs ys : List UInt8) :
    compare (as ++ xs) (bs ++ ys) = .lt := by
  induction as generalizing bs with
  | nil => exact h.elim
  | cons a as ih =>
      cases bs with
      | nil => exact h.elim
      | cons b bs =>
          rw [List.cons_append, List.cons_append, List.compare_cons_cons]
          rcases h with hlt | ⟨rfl, h⟩
          · rw [Std.compare_eq_lt.mpr hlt, Ordering.lt_then]
          · rw [Std.compare_self, Ordering.eq_then, ih h]

theorem compare_append_left (as xs ys : List UInt8) :
    compare (as ++ xs) (as ++ ys) = compare xs ys := by
  induction as with
  | nil => rfl
  | cons a as ih =>
      rw [List.cons_append, List.cons_append, List.compare_cons_cons, Std.compare_self,
        Ordering.eq_then, ih]

theorem compare_encode_of_lt {cs ds : List Char} (h : cs < ds) :
    compare (encode cs) (encode ds) = .lt := by
  induction h with
  | @nil d ds =>
      obtain ⟨b, bs, hb⟩ := List.exists_cons_of_ne_nil (String.utf8EncodeChar_ne_nil (c := d))
      rw [encode_cons, hb]
      rfl
  | rel h =>
      rw [encode_cons, encode_cons]
      exact (below_utf8EncodeChar h).compare_append _ _
  | cons _ ih => rw [encode_cons, encode_cons, compare_append_left, ih]

theorem compare_bytesOf_of_lt {s t : String} (h : s < t) :
    compare (bytesOf s) (bytesOf t) = .lt := by
  rw [bytesOf_eq, bytesOf_eq]
  exact compare_encode_of_lt (String.lt_iff.mp h)

/-- **Texts compare as their bytes do.** -/
theorem compare_bytesOf (s t : String) : compare (bytesOf s) (bytesOf t) = compare s t := by
  have hlt {s t : String} (h : s < t) : compare s t = .lt := if_pos h
  rcases Std.lt_trichotomy s t with h | rfl | h
  · rw [compare_bytesOf_of_lt h, hlt h]
  · rw [Std.compare_self, Std.compare_self]
  · have hbytes : compare (bytesOf s) (bytesOf t) = (compare (bytesOf t) (bytesOf s)).swap :=
      Std.OrientedCmp.eq_swap
    have htexts : compare s t = (compare t s).swap := Std.OrientedCmp.eq_swap
    rw [hbytes, compare_bytesOf_of_lt h, htexts, hlt h]

end Json

/-! ### The order of names -/

/-- Compares names by the bytes of their lowercase, and names of one lowercase by their own. -/
def compareBytes (a b : String) : Ordering :=
  (compare (Json.bytesOf (Text.lowercase a)) (Json.bytesOf (Text.lowercase b))).then
    (compare (Json.bytesOf a) (Json.bytesOf b))

theorem compareBytes_eq : compareBytes = compareNames := by
  funext a b
  rw [compareBytes, Json.compare_bytesOf, Json.compare_bytesOf]
  rfl

/-- Any two names compare, comparisons go together, and only a name ties with itself. -/
structure OrdersNames (cmp : String → String → Ordering) : Prop where
  total : ∀ a b, (cmp a b).isLE ∨ (cmp b a).isLE
  trans : ∀ a b c, (cmp a b).isLE → (cmp b c).isLE → (cmp a c).isLE
  eq_iff : ∀ a b, cmp a b = .eq ↔ a = b

theorem ordersNames_compareNames : OrdersNames compareNames where
  total := (inferInstance : Std.Total (NameLE id)).total
  trans _ _ _ := Std.TransCmp.isLE_trans
  eq_iff _ _ := Std.LawfulEqCmp.compare_eq_iff_eq

/-- **Sorting by name** gives the items in the order of their names, byte by byte, those of one name
as they came.  The names come out the same for every order of the items, and leaving items out may
come first or last. -/
theorem sortedByName_canonical {α : Type} (name : α → String) (items : List α) :
    OrdersNames compareBytes ∧
    (∀ a b, (compareFolded a b).then (compare a b) = compareBytes a b) ∧
    (sortedByName name items).Perm items ∧
    (sortedByName name items).Pairwise (fun a b => (compareBytes (name a) (name b)).isLE) ∧
    (∀ n, (sortedByName name items).filter (name · = n) = items.filter (name · = n)) ∧
    (∀ items', items'.Perm items →
      (sortedByName name items').map name = (sortedByName name items).map name) ∧
    ∀ shown : α → Bool,
      sortedByName name (items.filter shown) = (sortedByName name items).filter shown := by
  obtain ⟨hperm, hascending, hstable⟩ := arranged_sortedByName name items
  rw [compareBytes_eq]
  exact ⟨ordersNames_compareNames, fun _ _ => rfl, hperm, hascending, hstable,
    fun _ => map_sortedByName_of_perm, fun shown => sortedByName_filter shown items⟩

/-- Names of one lowercase, one of which comes twice, and one that stands between them as it is. -/
def numberedNames : List (Nat × String) := [(1, "z"), (2, "İ"), (3, "i\u0307"), (4, "İ")]

/-- The names from last to first, sorted, and without those of odd numbers. -/
theorem sortedByName_canonical_numberedNames :
    numberedNames.reverse.Perm numberedNames ∧ compare "z" "İ" = .lt ∧
      (compareBytes "i\u0307" "İ").isLE ∧ (compareBytes "İ" "z").isLE ∧
      (compareBytes "i\u0307" "z").isLE ∧
      sortedByName (·.2) numberedNames = [(3, "i\u0307"), (2, "İ"), (4, "İ"), (1, "z")] ∧
      (sortedByName (·.2) numberedNames.reverse).map (·.2) = ["i\u0307", "İ", "İ", "z"] ∧
      sortedByName (·.2) (numberedNames.filter fun p => p.1 % 2 = 0) = [(2, "İ"), (4, "İ")] := by
  obtain ⟨horder, -, -, -, -, hnames, hfilter⟩ := sortedByName_canonical (·.2) numberedNames
  have hsorted : sortedByName (·.2) numberedNames =
      [(3, "i\u0307"), (2, "İ"), (4, "İ"), (1, "z")] := by
    decide +kernel
  have hreverse := numberedNames.reverse_perm
  have hplain : compare "z" "İ" = .lt := by decide +kernel
  have hfirst : (compareBytes "i\u0307" "İ").isLE := by decide +kernel
  have hsecond : (compareBytes "İ" "z").isLE := by decide +kernel
  refine ⟨hreverse, hplain, hfirst, hsecond, horder.trans _ _ _ hfirst hsecond, hsorted, ?_, ?_⟩
  · rw [hnames _ hreverse, hsorted]
    rfl
  · rw [hfilter fun p => p.1 % 2 = 0, hsorted]
    rfl

end RowTypes
