import RowTypes.Proofs.DiskChanges

/-!
# Plain paths — one name after another

A path is plain if it holds no `.` and no `..`.  It then says by its names alone where it leads:
from the root or from the current directory, one name after another (`Path.way`, `Disk.place`).
Empty pieces only ask for a directory where they stand.

The parent of a plain path is plain, goes the same way without the last name, and is a beginning of
its text (`Path.Plain.exists_parent`).
-/

namespace RowTypes

namespace Path

variable {p : Path}

instance (q : List Char) : Decidable (Ordinary q) :=
  inferInstanceAs (Decidable (_ ∧ _))

/-- Every piece of the path is a name or empty. -/
def Plain (p : Path) : Prop := ∀ q ∈ p.allPieces, q = [] ∨ Ordinary q

instance (p : Path) : Decidable p.Plain :=
  inferInstanceAs (Decidable (∀ q ∈ p.allPieces, q = [] ∨ Ordinary q))

/-- The names among pieces. -/
def namesOf (qs : List (List Char)) : List String := (qs.filter (· ≠ [])).map String.ofList

/-- The names of a path. -/
def way (p : Path) : List String := namesOf p.allPieces

/-- A name that leads one level down. -/
def OrdinaryName (n : String) : Prop := n ≠ "" ∧ n ≠ "." ∧ n ≠ ".."

theorem Ordinary.ne_nil {q : List Char} (h : Ordinary q) : q ≠ [] := by
  rintro rfl
  exact absurd h.1 (by decide)

theorem ordinaryName_ofList {q : List Char} (h : Ordinary q) : OrdinaryName (String.ofList q) := by
  obtain ⟨hvoid, hdots⟩ := h
  rw [isVoid, Bool.or_eq_false_iff, decide_eq_false_iff_not, decide_eq_false_iff_not] at hvoid
  exact ⟨(@String.ofList_inj q []).not.mpr hvoid.1, (@String.ofList_inj q ['.']).not.mpr hvoid.2,
    (@String.ofList_inj q ['.', '.']).not.mpr hdots⟩

@[simp] theorem namesOf_nil : namesOf [] = [] := rfl

@[simp] theorem namesOf_cons_nil (qs : List (List Char)) : namesOf ([] :: qs) = namesOf qs := by
  simp [namesOf]

theorem namesOf_cons {q : List Char} (h : q ≠ []) (qs : List (List Char)) :
    namesOf (q :: qs) = String.ofList q :: namesOf qs := by
  simp [namesOf, h]

theorem namesOf_append (qs rs : List (List Char)) :
    namesOf (qs ++ rs) = namesOf qs ++ namesOf rs := by
  simp [namesOf]

theorem Plain.ordinaryName (hp : p.Plain) {n : String} (h : n ∈ p.way) : OrdinaryName n := by
  obtain ⟨q, hq, rfl⟩ := List.mem_map.mp h
  obtain ⟨hmem, hne⟩ := List.mem_filter.mp hq
  exact ordinaryName_ofList ((hp q hmem).resolve_left (by simpa using hne))

/-! ### Pieces and their text -/

theorem ofPieces_cons {q : List Char} {qs : List (List Char)} (h : qs ≠ []) :
    ofPieces (q :: qs) = q ++ '/' :: ofPieces qs := by
  cases qs with
  | nil => exact absurd rfl h
  | cons r rs => rfl

theorem ofPieces_pieces (cs : List Char) : ofPieces (pieces cs) = cs := by
  induction cs with
  | nil => rfl
  | cons c cs ih =>
      by_cases hc : c = '/'
      · rw [hc, pieces_slash, ofPieces_cons (pieces_ne_nil cs), ih]
        rfl
      · obtain ⟨q, qs, hq, hcq⟩ := pieces_cons hc cs
        rw [hq] at ih
        rw [hcq]
        cases qs with
        | nil => exact congrArg (c :: ·) ih
        | cons r rs =>
            rw [ofPieces_cons (List.cons_ne_nil r rs)] at ih ⊢
            exact congrArg (c :: ·) ih

theorem pieces_ofPieces {qs : List (List Char)} (hne : qs ≠ []) (h : ∀ q ∈ qs, '/' ∉ q) :
    pieces (ofPieces qs) = qs := by
  induction qs with
  | nil => exact absurd rfl hne
  | cons q qs ih =>
      cases qs with
      | nil => exact pieces_of_no_slash (h q (.head _))
      | cons r rs =>
          rw [ofPieces_cons (List.cons_ne_nil r rs), pieces_append,
            pieces_of_no_slash (h q (.head _)),
            ih (List.cons_ne_nil r rs) fun q hq => h q (.tail _ hq)]
          rfl

theorem ofPieces_isPrefix (qs rs : List (List Char)) : ofPieces qs <+: ofPieces (qs ++ rs) := by
  induction qs with
  | nil => exact List.nil_prefix
  | cons q qs ih =>
      cases qs with
      | nil =>
          cases rs with
          | nil => exact List.prefix_rfl
          | cons r rs => exact List.prefix_append _ _
      | cons r rs' =>
          rw [List.cons_append, ofPieces_cons (List.cons_ne_nil r rs'),
            ofPieces_cons (List.append_ne_nil_of_left_ne_nil (List.cons_ne_nil r rs') rs)]
          exact (List.prefix_append_right_inj q).mpr ((List.prefix_cons_inj '/').mpr ih)

theorem length_namesOf_pieces_le (cs : List Char) : (namesOf (pieces cs)).length ≤ cs.length := by
  induction cs with
  | nil => exact Nat.le_refl 0
  | cons c cs ih =>
      by_cases hc : c = '/'
      · rw [hc, pieces_slash, namesOf_cons_nil]
        exact Nat.le_succ_of_le ih
      · obtain ⟨q, qs, hq, hcq⟩ := pieces_cons hc cs
        rw [hq, namesOf] at ih
        rw [hcq, namesOf_cons (List.cons_ne_nil c q), List.length_cons, List.length_cons]
        refine Nat.succ_le_succ (Nat.le_trans ?_ ih)
        rw [namesOf, List.length_map, List.length_map]
        exact ((List.sublist_cons_self q qs).filter _).length_le

theorem length_way_le (p : Path) : p.way.length ≤ p.text.length := by
  rw [← String.length_toList]
  exact length_namesOf_pieces_le _

/-! ### Parents -/

/-- What `dropVoidEnd` drops from plain pieces is empty. -/
theorem exists_dropVoidEnd (qs : List (List Char)) (h : ∀ q ∈ qs, q = [] ∨ Ordinary q) :
    (∃ voids, qs = dropVoidEnd qs ++ voids ∧ namesOf voids = []) ∧
      ∀ q, (dropVoidEnd qs).getLast? = some q → q ≠ [] := by
  constructor
  · obtain ⟨voids, hqs, hvoids⟩ := exists_voids qs
    refine ⟨voids, hqs.symm, ?_⟩
    rw [namesOf, List.map_eq_nil_iff, List.filter_eq_nil_iff]
    intro q hq
    rcases h q (hqs ▸ List.mem_append_right _ hq) with rfl | ho
    · simp
    · have hvoid := ho.1
      rw [hvoids q hq] at hvoid
      cases hvoid
  · rintro q hq rfl
    exact absurd (getLast?_dropVoidEnd hq).2 (by decide)

/-- A plain path in two: a slash or nothing, and what the parts are made of. -/
theorem Plain.exists_parts (hp : p.Plain) : ∃ cs,
    p.text.toList = (if p.isAbsolute then ['/'] else []) ++ cs ∧
      p.parts = ⟨if p.isAbsolute then ['/'] else [], dropVoidEnd (pieces cs)⟩ ∧
      (p.isAbsolute = false → cs.head? ≠ some '/') ∧ p.way = namesOf (pieces cs) ∧
      ∀ q ∈ pieces cs, q = [] ∨ Ordinary q := by
  obtain ⟨cs, htext, hnames, hbegins⟩ := p.exists_text
  have hparts : p.parts = ⟨p.parts.start, dropVoidEnd (pieces cs)⟩ := by rw [← hnames]
  rcases hbegins with ⟨hs, hslash, -⟩ | hs | ⟨hs, hhead⟩ <;> rw [hs] at htext hparts
  · have habs : p.isAbsolute = false := by
      rw [isAbsolute, htext]
      exact decide_eq_false hslash
    have hpieces : p.allPieces = pieces cs := by rw [allPieces, htext, List.nil_append]
    refine ⟨cs, by rw [habs, htext]; rfl, by rw [habs, hparts]; rfl, fun _ => hslash, ?_, ?_⟩
    · rw [way, hpieces]
    · exact fun q hq => hp q (hpieces ▸ hq)
  · have habs : p.isAbsolute = true := by
      rw [isAbsolute, htext]
      rfl
    have hpieces : p.allPieces = [] :: pieces cs := by
      rw [allPieces, htext, List.singleton_append, pieces_slash]
    refine ⟨cs, by rw [habs, htext]; rfl, by rw [habs, hparts]; rfl, fun h => ?_, ?_, ?_⟩
    · rw [habs] at h
      cases h
    · rw [way, hpieces, namesOf_cons_nil]
    · exact fun q hq => hp q (hpieces ▸ .tail _ hq)
  -- A single dot is no plain piece.
  · have hdot : ['.'] ∈ p.allPieces := by
      rw [allPieces, htext]
      exact List.mem_of_head? (head?_pieces_eq_dot.mpr ⟨cs, rfl, hhead⟩)
    rcases hp _ hdot with h | h
    · cases h
    · exact absurd h.1 (by decide)

theorem Plain.parent?_eq_none (hp : p.Plain) (h : p.way = []) : p.parent? = none := by
  obtain ⟨cs, -, hparts, -, hway, hcs⟩ := hp.exists_parts
  obtain ⟨⟨voids, hvoids, -⟩, hlast⟩ := exists_dropVoidEnd (pieces cs) hcs
  have hnil : dropVoidEnd (pieces cs) = [] := by
    rcases List.eq_nil_or_concat' (dropVoidEnd (pieces cs)) with hd | ⟨qs, q, hd⟩
    · exact hd
    -- A last piece that stands for something is a name.
    · have hq := hlast q (by rw [hd, List.getLast?_concat])
      rw [hway, hvoids, hd, namesOf_append, namesOf_append, namesOf_cons hq] at h
      simp at h
  rw [parent?, hparts]
  cases p.isAbsolute <;> simp [hnil]

/-- What is left of plain pieces when the last name is taken off. -/
theorem exists_upper {cs : List Char} {ns : List String} {n : String}
    (hcs : ∀ q ∈ pieces cs, q = [] ∨ Ordinary q) (h : namesOf (pieces cs) = ns ++ [n]) :
    ∃ qs q us, dropVoidEnd (pieces cs) = qs ++ [q] ∧ ofPieces (dropVoidEnd qs) = us ∧ us <+: cs ∧
      namesOf (pieces us) = ns ∧ (∀ r ∈ pieces us, r = [] ∨ Ordinary r) ∧
      ((pieces us).getLast? = some [] → ns = []) := by
  obtain ⟨⟨voids, hvoids, hnames⟩, hlast⟩ := exists_dropVoidEnd (pieces cs) hcs
  rcases List.eq_nil_or_concat' (dropVoidEnd (pieces cs)) with hd | ⟨qs, q, hd⟩
  · rw [hvoids, hd, List.nil_append, hnames] at h
    simp at h
  · have hq := hlast q (by rw [hd, List.getLast?_concat])
    have hqs : ∀ r ∈ qs, r ∈ pieces cs := fun r hr => by
      rw [hvoids, hd]
      simp [hr]
    obtain ⟨⟨voids', hvoids', hnames'⟩, hlast'⟩ :=
      exists_dropVoidEnd qs fun r hr => hcs r (hqs r hr)
    have hrs : ∀ r ∈ dropVoidEnd qs, r ∈ pieces cs := fun r hr => by
      refine hqs r ?_
      rw [hvoids']
      exact List.mem_append_left _ hr
    have hns : namesOf (dropVoidEnd qs) = ns := by
      rw [hvoids, hd, namesOf_append, hnames, List.append_nil, namesOf_append,
        namesOf_cons hq, namesOf_nil] at h
      rw [← (List.append_inj' h rfl).1, hvoids', namesOf_append, hnames', List.append_nil,
        ← hvoids']
    refine ⟨qs, q, _, hd, rfl, ?_, ?_⟩
    · rw [← ofPieces_pieces cs, hvoids, hd, hvoids', List.append_assoc, List.append_assoc,
        ← hvoids']
      exact ofPieces_isPrefix _ _
    · by_cases hnil : dropVoidEnd qs = []
      · rw [hnil] at hns ⊢
        exact ⟨hns, fun r hr => .inl (List.mem_singleton.mp hr), fun _ => hns.symm⟩
      · rw [pieces_ofPieces hnil fun r hr => slash_not_mem_piece (hrs r hr)]
        exact ⟨hns, fun r hr => hcs r (hrs r hr), fun hr => absurd rfl (hlast' [] hr)⟩

/-- **The parent of a plain path** goes the same way without the last name. -/
theorem Plain.exists_parent (hp : p.Plain) {ns : List String} {n : String}
    (h : p.way = ns ++ [n]) : ∃ q : Path, p.parent? = some q ∧ q.Plain ∧ q.way = ns ∧
      q.isAbsolute = p.isAbsolute ∧ q.text.toList <+: p.text.toList ∧
      (q.allPieces.getLast? = some [] → ns = []) := by
  obtain ⟨cs, htext, hparts, hhead, hway, hcs⟩ := hp.exists_parts
  obtain ⟨qs, q, us, hd, hus, hprefix, hnames, hordinary, hlast⟩ := exists_upper hcs (hway ▸ h)
  have hparent : p.parent? = some ⟨String.ofList ((if p.isAbsolute then ['/'] else []) ++ us)⟩ := by
    simp [parent?, hparts, hd, Parts.toPath, hus]
  refine ⟨_, hparent, ?_⟩
  cases habs : p.isAbsolute with
  | true =>
      rw [habs, if_pos rfl] at htext
      have hall : (⟨String.ofList ('/' :: us)⟩ : Path).allPieces = [] :: pieces us := by
        rw [allPieces, String.toList_ofList, pieces_slash]
      refine ⟨?_, ?_, ?_, ?_, ?_⟩
      · intro r hr
        rcases List.mem_cons.mp (hall ▸ hr) with rfl | hr
        · exact .inl rfl
        · exact hordinary r hr
      · exact (congrArg namesOf hall).trans ((namesOf_cons_nil _).trans hnames)
      · simp [isAbsolute]
      · rw [htext, String.toList_ofList]
        exact (List.prefix_append_right_inj _).mpr hprefix
      · intro hnil
        refine hlast ?_
        rw [← hnil]
        exact ((congrArg List.getLast? hall).trans
          (List.getLast?_cons_of_ne_nil (pieces_ne_nil _))).symm
  | false =>
      rw [habs, if_neg Bool.false_ne_true, List.nil_append] at htext
      have hall : (⟨String.ofList us⟩ : Path).allPieces = pieces us := by
        rw [allPieces, String.toList_ofList]
      refine ⟨?_, ?_, ?_, ?_, ?_⟩
      · exact fun r hr => hordinary r (hall ▸ hr)
      · exact (congrArg namesOf hall).trans hnames
      · rw [isAbsolute, decide_eq_false_iff_not]
        intro h
        obtain ⟨rest, hrest⟩ := hprefix
        refine hhead habs ?_
        rw [← hrest, List.head?_append]
        simpa using Or.inl h
      · rw [htext, String.toList_ofList]
        exact hprefix
      · exact fun hnil => hlast ((congrArg List.getLast? hall).symm.trans hnil)

end Path

end RowTypes
