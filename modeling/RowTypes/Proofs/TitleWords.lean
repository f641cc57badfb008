import Mathlib.Data.List.Basic
import RowTypes.Resolver

/-!
# Title words — what uppercase cannot bring in

A title word is made of the characters of a name and of their uppercases.  The case tables move a
character away from every range that a word of a declaration must not meet: a character of such a
range is the uppercase of nothing but itself (`Text.eq_of_mem_upper`).

So a title word holds no separator (`isSeparator_of_mem_titleWord`), and it is never the unknown
type, which starts with a small letter (`titleWord_ne_unknownType`).
-/

namespace RowTypes

namespace Text

/-- No character of the case tables has an image in the ranges. -/
def avoids (ranges : List (Nat × Nat)) : Bool :=
  (upperExpansions.all fun e => e.2.all fun d => !within ranges d) &&
    ranges.all fun r => decide (0 < r.1) &&
      upperStretches.all fun s => decide ((r.2 : Int) < s.first + s.shift) ||
        decide ((s.last : Int) + s.shift < r.1)

variable {ranges : List (Nat × Nat)}

theorem avoids_iff : avoids ranges = true ↔
    (∀ e ∈ upperExpansions, ∀ d ∈ e.2, within ranges d = false) ∧
      ∀ r ∈ ranges, 0 < r.1 ∧
        ∀ s ∈ upperStretches, (r.2 : Int) < s.first + s.shift ∨ s.last + s.shift < r.1 := by
  simp only [avoids, Bool.and_eq_true, Bool.or_eq_true, List.all_eq_true, decide_eq_true_eq,
    Bool.not_eq_true']

/-- A number that is no character stands for the first one. -/
theorem toNat_ofNat (n : Nat) : (Char.ofNat n).toNat = n ∨ (Char.ofNat n).toNat = 0 := by
  by_cases h : n.isValidChar
  · rw [Char.ofNat, dif_pos h]
    exact .inl rfl
  · rw [Char.ofNat, dif_neg h]
    exact .inr rfl

theorem Stretch.image?_eq_some {s : Stretch} {n k : Nat} (h : s.image? n = some k) :
    s.first ≤ n ∧ n ≤ s.last ∧ k = (n + s.shift).toNat := by
  simp only [Stretch.image?, Option.ite_none_right_eq_some, Option.some.injEq] at h
  exact ⟨h.1.1, h.1.2.1, h.2.symm⟩

/-- A character with an image stands for a place outside the ranges. -/
theorem within_image (h : avoids ranges = true) {s : Stretch} (hs : s ∈ upperStretches)
    {n k : Nat} (hk : s.image? n = some k) : within ranges (Char.ofNat k) = false := by
  obtain ⟨hfirst, hlast, hshift⟩ := Stretch.image?_eq_some hk
  rw [within, List.any_eq_false]
  intro r hr hin
  obtain ⟨hpos, haway⟩ := (avoids_iff.mp h).2 r hr
  simp only [Bool.and_eq_true, decide_eq_true_eq] at hin
  -- A number that is no character falls back to zero, which lies before every range.
  rcases toNat_ofNat k with he | he <;> rw [he] at hin
  · rcases haway s hs with hlow | hhigh <;> omega
  · omega

theorem mem_upperExpansions {c : Char} {cs : List Char} (h : upperExpansions.lookup c = some cs) :
    (c, cs) ∈ upperExpansions := by
  obtain ⟨l, r, he, -⟩ := List.lookup_eq_some_iff.mp h
  rw [he]
  simp

/-- **Uppercase brings nothing in.**  Only a character of the ranges has one as its uppercase, and
it is the uppercase of itself. -/
theorem eq_of_mem_upper (h : avoids ranges = true) {c d : Char} (hd : d ∈ upper c)
    (hin : within ranges d = true) : d = c := by
  simp only [upper] at hd
  split at hd
  · rename_i cs hcs
    rw [(avoids_iff.mp h).1 _ (mem_upperExpansions hcs) d hd] at hin
    cases hin
  · rw [List.mem_singleton, mapped] at hd
    split at hd
    · rename_i k hk
      obtain ⟨s, hs, himage⟩ := List.exists_of_findSome?_eq_some hk
      rw [hd, within_image h hs himage] at hin
      cases hin
    · exact hd

end Text

/-! ### Separators -/

/-- The separators, as ranges. -/
def separatorRanges : List (Nat × Nat) := (0x5F, 0x5F) :: (0x2D, 0x2D) :: Text.blankRanges

theorem isSeparator_eq (c : Char) : isSeparator c = Text.within separatorRanges c := by
  have single (k : Char) : decide (c = k) = (decide (k.toNat ≤ c.toNat) &&
      decide (c.toNat ≤ k.toNat)) := by
    rw [← Bool.decide_and, decide_eq_decide, ← Nat.le_antisymm_iff, eq_comm, Char.toNat_inj]
  rw [isSeparator, single '_', single '-', Bool.or_assoc]
  rfl

/-- What the case tables show: no uppercase is empty, there is none among the separators, and none
with the small letter that the unknown type starts with. -/
theorem upper_tables : (∀ e ∈ Text.upperExpansions, e.2 ≠ []) ∧
    Text.avoids separatorRanges = true ∧ Text.avoids [(0x61, 0x61)] = true ∧
    'a' ∉ Text.upper 'a' := by
  decide +kernel

theorem titleChars_separator {start : Bool} {c : Char} (hc : isSeparator c = true)
    (cs : List Char) : titleChars start (c :: cs) = titleChars true cs :=
  if_pos hc

theorem titleChars_cons {start : Bool} {c : Char} (hc : isSeparator c = false) (cs : List Char) :
    titleChars start (c :: cs) = (if start then Text.upper c else [c]) ++ titleChars false cs :=
  if_neg (Bool.eq_false_iff.mp hc)

theorem isSeparator_of_mem_titleChars {c : Char} {cs : List Char} :
    ∀ {start : Bool}, c ∈ titleChars start cs → isSeparator c = false := by
  induction cs with
  | nil => rintro start ⟨⟩
  | cons k ks ih =>
      intro start h
      cases hk : isSeparator k with
      | true =>
          rw [titleChars_separator hk] at h
          exact ih h
      | false =>
          rw [titleChars_cons hk] at h
          rcases List.mem_append.mp h with hc | hc
          · by_contra hsep
            rw [Bool.not_eq_false, isSeparator_eq] at hsep
            -- Only the first character of a word changes, and no other has a separator as
            -- uppercase.
            have hck : c = k := by
              cases start with
              | true => exact Text.eq_of_mem_upper upper_tables.2.1 hc hsep
              | false => exact List.mem_singleton.mp hc
            rw [← isSeparator_eq, hck, hk] at hsep
            cases hsep
          · exact ih hc

/-- A title word holds no separator. -/
theorem isSeparator_of_mem_titleWord {c : Char} {name : String} (h : c ∈ (titleWord name).toList) :
    isSeparator c = false := by
  rw [titleWord, String.toList_ofList] at h
  exact isSeparator_of_mem_titleChars h

/-! ### The first character -/

theorem small_not_mem_upper (c : Char) : 'a' ∉ Text.upper c := by
  intro h
  obtain ⟨-, -, hsmall, hself⟩ := upper_tables
  have hc : 'a' = c := Text.eq_of_mem_upper hsmall h (by decide)
  rw [← hc] at h
  exact hself h

theorem Text.upper_ne_nil (c : Char) : Text.upper c ≠ [] := by
  rw [Text.upper]
  split
  · rename_i cs hcs
    exact upper_tables.1 (c, cs) (Text.mem_upperExpansions hcs)
  · exact List.cons_ne_nil _ _

/-- The first character of a title word is of an uppercase. -/
theorem exists_mem_upper {d : Char} {cs : List Char} (h : (titleChars true cs).head? = some d) :
    ∃ c, d ∈ Text.upper c := by
  induction cs with
  | nil => cases h
  | cons c cs ih =>
      cases hc : isSeparator c with
      | true =>
          rw [titleChars_separator hc] at h
          exact ih h
      | false =>
          rw [titleChars_cons hc, if_pos rfl,
            List.head?_append_of_ne_nil _ (Text.upper_ne_nil c)] at h
          exact ⟨c, List.mem_of_head? h⟩

/-- A title word is not the unknown type. -/
theorem titleWord_ne_unknownType (name : String) : titleWord name ≠ unknownType := by
  intro h
  have hhead : (titleChars true name.toList).head? = some 'a' := by
    rw [← String.toList_ofList (l := titleChars true name.toList), ← titleWord, h]
    rfl
  obtain ⟨c, hc⟩ := exists_mem_upper hhead
  exact small_not_mem_upper c hc

end RowTypes
