import RowTypes.Proofs.TitleWords

/-!
# Words — a title word is its words with capitals

The *words* of a name are the longest runs of its characters without a separator (`Runs`), and they
are what is left of its parts between separators when the empty ones go (`words`, `runs_iff`).

**A title word** (`titleWord_words`) puts the words together, each with its first character in
uppercase.  So a separator divides a title word into two (`words_append_gap`), separators at the
ends or next to one another do nothing, and a title word is its own: it has no separator
(`isSeparator_of_mem_titleWord`), and every character of an uppercase is its own uppercase
(`Text.upper_of_mem_upper`), since no image in the case tables has an image of its own
(`Text.not_mem_changing`).
-/

namespace RowTypes

namespace Text

variable {c d : Char} {s : Stretch} {n k : Nat} {ns : List Nat}

/-! ### The uppercase of an uppercase -/

/-- The characters of a stretch, as numbers. -/
def Stretch.points (s : Stretch) : List Nat :=
  (List.range ((s.last - s.first) / s.step + 1)).map fun j => s.first + s.step * j

theorem Stretch.mem_points (h : s.image? n = some k) : n ∈ s.points := by
  simp only [Stretch.image?, Option.ite_none_right_eq_some] at h
  obtain ⟨⟨hfirst, hlast, hstep⟩, -⟩ := h
  refine List.mem_map.mpr ⟨(n - s.first) / s.step, List.mem_range.mpr ?_, ?_⟩
  · exact Nat.lt_succ_of_le (Nat.div_le_div_right (Nat.sub_le_sub_right hlast _))
  · have hdiv := Nat.div_add_mod (n - s.first) s.step
    omega

/-- A set of numbers as the bits of one number. -/
def bits (ns : List Nat) : Nat := ns.foldr (fun n m => m ||| 1 <<< n) 0

theorem testBit_bits : (bits ns).testBit n = true ↔ n ∈ ns := by
  induction ns with
  | nil => simp [bits]
  | cons m ns ih =>
      rw [bits, List.foldr_cons, Nat.testBit_or, Bool.or_eq_true, ← bits, ih, Nat.one_shiftLeft,
        Nat.testBit_two_pow, decide_eq_true_eq, List.mem_cons, or_comm, eq_comm]

/-- The union of sets, put together set by set: one list of all their numbers nests too deep to be
evaluated. -/
def union (nss : List (List Nat)) : Nat := nss.foldr (fun ns m => m ||| bits ns) 0

theorem testBit_union {nss : List (List Nat)} :
    (union nss).testBit n = true ↔ ∃ ns ∈ nss, n ∈ ns := by
  induction nss with
  | nil => simp [union]
  | cons ns nss ih =>
      rw [union, List.foldr_cons, Nat.testBit_or, Bool.or_eq_true, ← union, ih, testBit_bits,
        List.exists_mem_cons_iff, or_comm]

/-- The characters that have an uppercase in the tables. -/
def changing : List (List Nat) := upperExpansions.map (·.1.toNat) :: upperStretches.map (·.points)

/-- The characters that the tables give as uppercases, and the one that stands for a number that is
no character. -/
def images : List Nat :=
  0 :: upperExpansions.flatMap (·.2.map Char.toNat) ++
    upperStretches.flatMap fun s => s.points.map fun n : Nat => (n + s.shift).toNat

theorem images_settled : (images.all fun k => !(union changing).testBit k) = true := by
  decide +kernel

/-- No image has an uppercase in the tables. -/
theorem not_mem_changing (h : k ∈ images) : ∀ ns ∈ changing, k ∉ ns := by
  intro ns hns hk
  have hsettled := List.all_eq_true.mp images_settled k h
  rw [testBit_union.mpr ⟨ns, hns, hk⟩] at hsettled
  cases hsettled

theorem upper_of_not_mem (h : ∀ ns ∈ changing, d.toNat ∉ ns) : upper d = [d] := by
  have hlookup : upperExpansions.lookup d = none := by
    by_contra hsome
    obtain ⟨ds, hds⟩ := Option.ne_none_iff_exists'.mp hsome
    exact h _ List.mem_cons_self (List.mem_map_of_mem (mem_upperExpansions hds))
  have himage : ∀ s ∈ upperStretches, s.image? d.toNat = none := by
    intro s hs
    by_contra hsome
    obtain ⟨k, hk⟩ := Option.ne_none_iff_exists'.mp hsome
    exact h _ (List.mem_cons_of_mem _ (List.mem_map_of_mem hs)) (Stretch.mem_points hk)
  rw [upper, hlookup, mapped, List.findSome?_eq_none_iff.mpr himage]

theorem mem_images_of_image? (hs : s ∈ upperStretches) (hk : s.image? n = some k) :
    (Char.ofNat k).toNat ∈ images := by
  rcases toNat_ofNat k with he | he <;> rw [he]
  · refine List.mem_append_right _ (List.mem_flatMap.mpr ⟨s, hs, List.mem_map.mpr ⟨n, ?_⟩⟩)
    exact ⟨Stretch.mem_points hk, (Stretch.image?_eq_some hk).2.2.symm⟩
  · exact List.mem_append_left _ List.mem_cons_self

/-- A character of an uppercase is an image, or it is all of its own uppercase. -/
theorem mem_images_or_upper_eq (h : d ∈ upper c) : d.toNat ∈ images ∨ upper d = [d] := by
  cases hlookup : upperExpansions.lookup c with
  | some cs =>
      rw [upper, hlookup] at h
      refine .inl (List.mem_append_left _ (List.mem_cons_of_mem _ ?_))
      exact List.mem_flatMap.mpr ⟨_, mem_upperExpansions hlookup, List.mem_map_of_mem h⟩
  | none =>
      have hupper : upper c = [mapped upperStretches c] := by rw [upper, hlookup]
      rw [hupper, List.mem_singleton] at h
      cases himage : upperStretches.findSome? fun s => s.image? c.toNat with
      | some k =>
          obtain ⟨s, hs, hk⟩ := List.exists_of_findSome?_eq_some himage
          rw [mapped, himage] at h
          exact .inl (h ▸ mem_images_of_image? hs hk)
      | none =>
          rw [mapped, himage] at h hupper
          exact .inr (h ▸ hupper)

/-- **A character of an uppercase is its own uppercase.** -/
theorem upper_of_mem_upper (h : d ∈ upper c) : upper d = [d] :=
  (mem_images_or_upper_eq h).elim (fun hd => upper_of_not_mem (not_mem_changing hd)) id

end Text

/-! ### Words -/

/-- The words of characters, with the gaps before, between and behind them: a gap is made of
separators, a word is not empty and has none, and a word goes on to the next gap or to the end. -/
inductive Runs : List Char → List (List Char) → Prop where
  | done {gap : List Char} (hgap : ∀ c ∈ gap, isSeparator c = true) : Runs gap []
  | word {gap w rest : List Char} {ws : List (List Char)}
      (hgap : ∀ c ∈ gap, isSeparator c = true) (hne : w ≠ [])
      (hw : ∀ c ∈ w, isSeparator c = false)
      (hend : ∀ c ∈ rest.head?, isSeparator c = true) (t : Runs rest ws) :
      Runs (gap ++ w ++ rest) (w :: ws)

/-- The parts between separators, without the empty ones. -/
def words (cs : List Char) : List (List Char) := (cs.splitOnP isSeparator).filter (· ≠ [])

variable {c s : Char} {cs ds gap w rest : List Char} {ws : List (List Char)}

theorem words_append_cons (cs ds : List Char) (hs : isSeparator s = true) :
    words (cs ++ s :: ds) = words cs ++ words ds := by
  rw [words, List.splitOnP_append_cons cs ds hs, List.filter_append]
  rfl

theorem words_separator (hs : isSeparator s = true) (cs : List Char) : words (s :: cs) = words cs :=
  words_append_cons [] cs hs

theorem words_gap (hgap : ∀ c ∈ gap, isSeparator c = true) (cs : List Char) :
    words (gap ++ cs) = words cs := by
  induction gap with
  | nil => rfl
  | cons s gap ih =>
      obtain ⟨hs, hgap⟩ := List.forall_mem_cons.mp hgap
      rw [List.cons_append, words_separator hs, ih hgap]

theorem words_of_gap (hgap : ∀ c ∈ gap, isSeparator c = true) : words gap = [] := by
  rw [← List.append_nil gap, words_gap hgap]
  rfl

theorem words_word (hne : w ≠ []) (hw : ∀ c ∈ w, isSeparator c = false) : words w = [w] := by
  rw [words, List.splitOnP_eq_singleton hw, List.filter_cons_of_pos (by simpa using hne),
    List.filter_nil]

theorem Runs.words_eq (h : Runs cs ws) : words cs = ws := by
  induction h with
  | done hgap => exact words_of_gap hgap
  | @word gap w rest ws hgap hne hw hend _ ih =>
      rw [List.append_assoc, words_gap hgap]
      cases rest with
      | nil =>
          rw [List.append_nil, words_word hne hw, ← ih]
          rfl
      | cons s rest =>
          have hs := hend s rfl
          rw [words_append_cons w rest hs, words_word hne hw, ← ih, words_separator hs]
          rfl

theorem Runs.gap_cons (hs : isSeparator s = true) (h : Runs cs ws) : Runs (s :: cs) ws := by
  cases h with
  | done hgap => exact .done (List.forall_mem_cons.mpr ⟨hs, hgap⟩)
  | @word gap w rest ws hgap hne hw hend t =>
      exact .word (List.forall_mem_cons.mpr ⟨hs, hgap⟩) hne hw hend t

/-- A character before a gap, or before the end, is a word. -/
theorem Runs.word_singleton (hc : isSeparator c = false)
    (hend : ∀ d ∈ cs.head?, isSeparator d = true) (h : Runs cs ws) : Runs (c :: cs) ([c] :: ws) :=
  have hgap : ∀ d ∈ ([] : List Char), isSeparator d = true := by simp
  .word hgap (List.cons_ne_nil c []) (by simpa using hc) hend h

/-- A character before a word goes into it. -/
theorem Runs.word_cons (hc : isSeparator c = false)
    (hend : ¬ ∀ d ∈ cs.head?, isSeparator d = true) (h : Runs cs ws) :
    ∃ ws, Runs (c :: cs) ws := by
  cases h with
  | done hgap => exact absurd (fun d hd => hgap d (List.mem_of_head? hd)) hend
  | @word gap w rest ws hgap hne hw hend' t =>
      cases gap with
      | nil =>
          have hw : ∀ d ∈ c :: w, isSeparator d = false := List.forall_mem_cons.mpr ⟨hc, hw⟩
          exact ⟨_, .word hgap (List.cons_ne_nil c w) hw hend' t⟩
      | cons s gap =>
          refine absurd ?_ hend
          rintro d ⟨⟩
          exact hgap s List.mem_cons_self

theorem exists_runs (cs : List Char) : ∃ ws, Runs cs ws := by
  induction cs with
  | nil => exact ⟨[], .done (by simp)⟩
  | cons c cs ih =>
      obtain ⟨ws, h⟩ := ih
      by_cases hc : isSeparator c = true
      · exact ⟨ws, h.gap_cons hc⟩
      · rw [Bool.not_eq_true] at hc
        by_cases hend : ∀ d ∈ cs.head?, isSeparator d = true
        · exact ⟨_, h.word_singleton hc hend⟩
        · exact h.word_cons hc hend

/-- Characters have their words and no others. -/
theorem runs_iff : Runs cs ws ↔ words cs = ws := by
  constructor
  · exact Runs.words_eq
  · rintro rfl
    obtain ⟨ws, h⟩ := exists_runs cs
    rwa [h.words_eq]

/-- A gap divides the words. -/
theorem words_append_gap (hgap : ∀ c ∈ gap, isSeparator c = true) (hne : gap ≠ [])
    (cs ds : List Char) : words (cs ++ gap ++ ds) = words cs ++ words ds := by
  obtain ⟨s, gap, rfl⟩ := List.exists_cons_of_ne_nil hne
  obtain ⟨hs, hgap⟩ := List.forall_mem_cons.mp hgap
  rw [List.append_assoc, List.cons_append, words_append_cons cs _ hs, words_gap hgap]

/-! ### Title words -/

/-- A word with its first character in uppercase. -/
def capitalised : List Char → List Char
  | [] => []
  | c :: cs => Text.upper c ++ cs

theorem titleChars_gap (hgap : ∀ c ∈ gap, isSeparator c = true) (cs : List Char) :
    titleChars true (gap ++ cs) = titleChars true cs := by
  induction gap with
  | nil => rfl
  | cons s gap ih =>
      obtain ⟨hs, hgap⟩ := List.forall_mem_cons.mp hgap
      rw [List.cons_append, titleChars_separator hs, ih hgap]

theorem titleChars_word (hw : ∀ c ∈ w, isSeparator c = false) (cs : List Char) :
    titleChars false (w ++ cs) = w ++ titleChars false cs := by
  induction w with
  | nil => rfl
  | cons c w ih =>
      obtain ⟨hc, hw⟩ := List.forall_mem_cons.mp hw
      rw [List.cons_append, titleChars_cons hc, ih hw]
      rfl

theorem titleChars_capital (hne : w ≠ []) (hw : ∀ c ∈ w, isSeparator c = false) (cs : List Char) :
    titleChars true (w ++ cs) = capitalised w ++ titleChars false cs := by
  obtain ⟨c, w, rfl⟩ := List.exists_cons_of_ne_nil hne
  obtain ⟨hc, hw⟩ := List.forall_mem_cons.mp hw
  rw [List.cons_append, titleChars_cons hc, titleChars_word hw, capitalised, List.append_assoc]
  rfl

/-- Behind a word it makes no difference that a word has begun. -/
theorem titleChars_of_end (hend : ∀ c ∈ cs.head?, isSeparator c = true) :
    titleChars false cs = titleChars true cs := by
  cases cs with
  | nil => rfl
  | cons s cs => rw [titleChars_separator (hend s rfl), titleChars_separator (hend s rfl)]

theorem Runs.titleChars_eq (h : Runs cs ws) : titleChars true cs = ws.flatMap capitalised := by
  induction h with
  | @done gap hgap =>
      rw [← List.append_nil gap, titleChars_gap hgap]
      rfl
  | word hgap hne hw hend _ ih =>
      rw [List.append_assoc, titleChars_gap hgap, titleChars_capital hne hw,
        titleChars_of_end hend, ih, List.flatMap_cons]

theorem titleChars_eq_words (cs : List Char) :
    titleChars true cs = (words cs).flatMap capitalised :=
  (runs_iff.mpr rfl).titleChars_eq

theorem titleChars_append_gap (hgap : ∀ c ∈ gap, isSeparator c = true) (hne : gap ≠ [])
    (cs ds : List Char) :
    titleChars true (cs ++ gap ++ ds) = titleChars true cs ++ titleChars true ds := by
  simp only [titleChars_eq_words, words_append_gap hgap hne, List.flatMap_append]

/-- What begins with a character of an uppercase and has no separator stays as it is. -/
theorem titleChars_titleChars (cs : List Char) :
    titleChars true (titleChars true cs) = titleChars true cs := by
  have hfree {d : Char} (hd : d ∈ titleChars true cs) := isSeparator_of_mem_titleChars hd
  cases htitle : titleChars true cs with
  | nil => rfl
  | cons c ds =>
      rw [htitle] at hfree
      obtain ⟨k, hk⟩ := exists_mem_upper (d := c) (by rw [htitle]; rfl)
      have hcapital := titleChars_capital (List.cons_ne_nil c ds) (fun _ => hfree) []
      rw [List.append_nil, capitalised, Text.upper_of_mem_upper hk] at hcapital
      exact hcapital.trans (List.append_nil (c :: ds))

/-! ### Names -/

/-- A text of separators. -/
def IsGap (gap : String) : Prop := ∀ c ∈ gap.toList, isSeparator c = true

theorem IsGap.separator_append {gap : String} (hs : isSeparator s = true) (hgap : IsGap gap) :
    IsGap (String.singleton s ++ gap) := by
  intro c hc
  rw [String.toList_append, String.toList_singleton] at hc
  rcases List.mem_cons.mp hc with rfl | hc
  · exact hs
  · exact hgap c hc

theorem titleWord_gap {gap : String} (hgap : IsGap gap) (name : String) :
    titleWord (gap ++ name) = titleWord name := by
  rw [titleWord, String.toList_append, titleChars_gap hgap, titleWord]

theorem titleWord_append_gap {gap : String} (hgap : IsGap gap) (hne : gap ≠ "") (a b : String) :
    titleWord (a ++ gap ++ b) = titleWord a ++ titleWord b := by
  have hne : gap.toList ≠ [] := by simpa using hne
  simp only [titleWord, String.toList_append, titleChars_append_gap hgap hne, String.ofList_append]

theorem titleWord_gap_end {gap : String} (hgap : IsGap gap) (name : String) :
    titleWord (name ++ gap) = titleWord name := by
  by_cases hne : gap = ""
  · rw [hne, String.append_empty]
  · have h := titleWord_append_gap hgap hne name ""
    rwa [String.append_empty, show titleWord "" = "" from rfl, String.append_empty] at h

/-- **A title word** is made of the words of the name, each with its first character in uppercase.
So it falls in two at a separator, and separators at the ends of the name or behind another one do
nothing.  It holds no separator, and it is the title word of itself. -/
theorem titleWord_words (name : String) :
    (∀ ws, Runs name.toList ws ↔ words name.toList = ws) ∧
    titleWord name = String.ofList ((words name.toList).flatMap capitalised) ∧
    (∀ s, isSeparator s = true → ∀ rest,
      titleWord (name ++ String.singleton s ++ rest) = titleWord name ++ titleWord rest) ∧
    (∀ gap, IsGap gap →
      titleWord (gap ++ name) = titleWord name ∧ titleWord (name ++ gap) = titleWord name ∧
      ∀ s, isSeparator s = true → ∀ rest,
        titleWord (name ++ (String.singleton s ++ gap) ++ rest) =
          titleWord (name ++ String.singleton s ++ rest)) ∧
    (∀ c ∈ (titleWord name).toList, isSeparator c = false) ∧
    titleWord (titleWord name) = titleWord name := by
  have hempty : IsGap "" := by simp [IsGap]
  have hdivides (gap : String) (hgap : IsGap gap) (s : Char) (hs : isSeparator s = true)
      (rest : String) :
      titleWord (name ++ (String.singleton s ++ gap) ++ rest) = titleWord name ++ titleWord rest :=
    titleWord_append_gap (hgap.separator_append hs) (by simp) name rest
  have hsingle := hdivides "" hempty
  simp only [String.append_empty] at hsingle
  refine ⟨fun _ => runs_iff, ?_, hsingle, ?_, fun _ => isSeparator_of_mem_titleWord, ?_⟩
  · rw [titleWord, titleChars_eq_words]
  · intro gap hgap
    refine ⟨titleWord_gap hgap name, titleWord_gap_end hgap name, ?_⟩
    intro s hs rest
    rw [hdivides gap hgap s hs, hsingle s hs]
  · rw [titleWord, titleWord, String.toList_ofList, titleChars_titleChars]

/-- A name with gaps before, between and behind its words, and with uppercases of two characters. -/
def ligatureName : String := "_ǆur - straße\u00a0ﬁn-"

/-- The words of the name, and its title word, alone, before another word and a second time. -/
theorem titleWord_words_ligatureName :
    Runs ligatureName.toList ["ǆur".toList, "straße".toList, "ﬁn".toList] ∧
      titleWord ligatureName = "ǄurStraßeFIn" ∧
      titleWord (ligatureName ++ String.singleton '_' ++ "ßa") = "ǄurStraßeFInSSa" ∧
      titleWord ("- " ++ ligatureName) = "ǄurStraßeFIn" ∧
      titleWord (ligatureName ++ (String.singleton '_' ++ "- ") ++ "ßa") = "ǄurStraßeFInSSa" ∧
      '-' ∉ (titleWord ligatureName).toList ∧ titleWord "ǄurStraßeFIn" = "ǄurStraßeFIn" := by
  obtain ⟨hruns, htitle, hdivides, hgap, hfree, hagain⟩ := titleWord_words ligatureName
  have hvalue : titleWord ligatureName = "ǄurStraßeFIn" := by
    rw [htitle]
    decide +kernel
  have hunderscore : isSeparator '_' = true := by decide +kernel
  have hblank : IsGap "- " := by
    intro c hc
    obtain rfl | rfl : c = '-' ∨ c = ' ' := by simpa using hc
    · decide +kernel
    · decide +kernel
  have hrest : titleWord "ßa" = "SSa" := by decide +kernel
  obtain ⟨hbefore, -, hdoubled⟩ := hgap "- " hblank
  have hjoined := hdivides '_' hunderscore "ßa"
  rw [hvalue, hrest] at hjoined
  refine ⟨(hruns _).mpr ?_, hvalue, hjoined, hbefore.trans hvalue, ?_, ?_, ?_⟩
  · decide +kernel
  · exact (hdoubled '_' hunderscore "ßa").trans hjoined
  · intro h
    exact absurd (hfree '-' h) (by decide +kernel)
  · rw [hvalue] at hagain
    exact hagain

end RowTypes
