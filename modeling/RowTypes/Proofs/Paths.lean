import Mathlib.Data.List.Basic
import RowTypes.Batch

/-!
# Paths — the name of an output

A snapshot's source goes to a file of its own name with another extension.  That name is one piece:
it holds no slash, and it is neither void nor `..` (`slash_not_mem_outputName`,
`ordinary_outputName`), so the pieces of an output are those of its directory and its name
(`pieces_inside`).

A snapshot may bear the name of an output itself.  Its own output then has that name
(`outputName_of_fileName?`), so it can only meet the output of a snapshot that it shares one with.
-/

namespace RowTypes

namespace Path

/-! ### Pieces -/

theorem pieces_ne_nil (cs : List Char) : pieces cs ≠ [] := by
  cases cs with
  | nil => exact List.cons_ne_nil _ _
  | cons c cs =>
      rw [pieces]
      split
      · exact List.cons_ne_nil _ _
      · split <;> exact List.cons_ne_nil _ _

theorem pieces_cons {c : Char} (hc : c ≠ '/') (cs : List Char) :
    ∃ q qs, pieces cs = q :: qs ∧ pieces (c :: cs) = (c :: q) :: qs := by
  obtain ⟨q, qs, hq⟩ := List.exists_cons_of_ne_nil (pieces_ne_nil cs)
  exact ⟨q, qs, hq, by rw [pieces, if_neg hc, hq]⟩

theorem pieces_slash (cs : List Char) : pieces ('/' :: cs) = [] :: pieces cs := by
  rw [pieces, if_pos rfl]

theorem pieces_of_no_slash {name : List Char} (h : '/' ∉ name) : pieces name = [name] := by
  induction name with
  | nil => rfl
  | cons c cs ih =>
      obtain ⟨hc, hcs⟩ := not_or.mp (List.mem_cons.not.mp h)
      obtain ⟨q, qs, hq, hcq⟩ := pieces_cons (Ne.symm hc) cs
      rw [ih hcs, List.cons.injEq] at hq
      rw [hcq, ← hq.1, ← hq.2]

theorem pieces_append (cs rest : List Char) :
    pieces (cs ++ '/' :: rest) = pieces cs ++ pieces rest := by
  induction cs with
  | nil => rw [List.nil_append, pieces_slash]; rfl
  | cons c cs ih =>
      by_cases hc : c = '/'
      · rw [hc, List.cons_append, pieces_slash, pieces_slash, ih, List.cons_append]
      · obtain ⟨q, qs, hq, hcq⟩ := pieces_cons hc cs
        obtain ⟨q', qs', hq', hcq'⟩ := pieces_cons hc (cs ++ '/' :: rest)
        rw [ih, hq, List.cons_append, List.cons.injEq] at hq'
        rw [List.cons_append, hcq', hcq, ← hq'.1, ← hq'.2, List.cons_append]

theorem slash_not_mem_piece {cs q : List Char} (h : q ∈ pieces cs) : '/' ∉ q := by
  induction cs generalizing q with
  | nil =>
      rw [List.mem_singleton.mp h]
      exact List.not_mem_nil
  | cons c cs ih =>
      by_cases hc : c = '/'
      · rw [hc, pieces_slash] at h
        rcases List.mem_cons.mp h with rfl | h
        · exact List.not_mem_nil
        · exact ih h
      · obtain ⟨p, ps, hp, hcp⟩ := pieces_cons hc cs
        rw [hcp] at h
        rcases List.mem_cons.mp h with rfl | h
        · exact List.mem_cons.not.mpr (not_or.mpr ⟨Ne.symm hc, ih (by rw [hp]; exact .head _)⟩)
        · exact ih (by rw [hp]; exact .tail _ h)

/-- The pieces of a path, from where it starts. -/
def allPieces (p : Path) : List (List Char) := pieces p.text.toList

/-- A piece that names something in a directory. -/
def Ordinary (q : List Char) : Prop := isVoid q = false ∧ q ≠ ['.', '.']

/-! ### Joining -/

/-- The pieces of a directory that a name is put behind. -/
def directoryPieces (directory : Path) : List (List Char) :=
  if directory.text.toList.getLast?.all (· = '/') then directory.allPieces.dropLast
  else directory.allPieces

theorem pieces_inside (directory : Path) {name : List Char} (h : '/' ∉ name) :
    (directory.inside name).allPieces = directory.directoryPieces ++ [name] := by
  rw [allPieces, inside, directoryPieces, allPieces, String.toList_ofList]
  rcases List.eq_nil_or_concat' directory.text.toList with hd | ⟨cs, c, hd⟩
  · rw [hd]
    exact pieces_of_no_slash h
  · rw [hd, List.getLast?_concat]
    by_cases hc : c = '/'
    · have hlast : pieces (cs ++ ['/']) = pieces cs ++ [[]] := pieces_append cs []
      simp [hc, pieces_append, pieces_of_no_slash h, hlast]
    · have hjoin : cs ++ [c] ++ ['/'] ++ name = (cs ++ [c]) ++ '/' :: name := by
        rw [List.append_assoc, List.singleton_append]
      rw [Option.all_some, decide_eq_false hc, if_neg Bool.false_ne_true,
        if_neg Bool.false_ne_true, hjoin, pieces_append, pieces_of_no_slash h]

theorem inside_inj {directory : Path} {name name' : List Char} :
    directory.inside name = directory.inside name' ↔ name = name' := by
  simp only [inside, Path.mk.injEq, String.ofList_inj, List.append_cancel_left_eq]

/-! ### File names -/

/-- What is taken off the end is void. -/
theorem exists_voids (ps : List (List Char)) :
    ∃ voids, dropVoidEnd ps ++ voids = ps ∧ ∀ q ∈ voids, isVoid q = true := by
  refine ⟨(ps.reverse.takeWhile isVoid).reverse, ?_, fun q hq => ?_⟩
  · rw [dropVoidEnd, ← List.reverse_append, List.takeWhile_append_dropWhile, List.reverse_reverse]
  · exact List.all_eq_true.mp List.all_takeWhile q (List.mem_reverse.mp hq)

theorem getLast?_dropVoidEnd {ps : List (List Char)} {q : List Char}
    (h : (dropVoidEnd ps).getLast? = some q) : q ∈ ps ∧ isVoid q = false := by
  rw [dropVoidEnd, List.getLast?_reverse] at h
  refine ⟨List.mem_reverse.mp ((List.dropWhile_sublist _).mem (List.mem_of_head? h)), ?_⟩
  have hnot := List.head?_dropWhile_not isVoid ps.reverse
  rw [h] at hnot
  simpa using hnot

theorem dropVoidEnd_concat {ps : List (List Char)} {q : List Char} (h : isVoid q = false) :
    dropVoidEnd (ps ++ [q]) = ps ++ [q] := by
  rw [dropVoidEnd, List.reverse_concat, List.dropWhile_cons_of_neg (by simp [h]),
    List.reverse_cons, List.reverse_reverse]

theorem head?_pieces_eq_nil {cs : List Char} :
    (pieces cs).head? = some [] ↔ cs.head?.all (· = '/') = true := by
  cases cs with
  | nil => simp [pieces]
  | cons c cs =>
      by_cases hc : c = '/'
      · simp [hc, pieces_slash]
      · obtain ⟨q, qs, -, hcq⟩ := pieces_cons hc cs
        simp [hc, hcq]

theorem head?_pieces_eq_dot {cs : List Char} :
    (pieces cs).head? = some ['.'] ↔
      ∃ rest, cs = '.' :: rest ∧ rest.head?.all (· = '/') = true := by
  cases cs with
  | nil => simp [pieces]
  | cons c cs =>
      by_cases hc : c = '/'
      · simp [hc, pieces_slash]
      · obtain ⟨q, qs, hq, hcq⟩ := pieces_cons hc cs
        have hnil : q = [] ↔ cs.head?.all (· = '/') = true := by
          rw [← head?_pieces_eq_nil, hq, List.head?_cons, Option.some.injEq]
        simp [hcq, hnil]

/-- Where a path may start, before the text of its parts. -/
def Begins (start cs : List Char) : Prop :=
  start = [] ∧ cs.head? ≠ some '/' ∧ (pieces cs).head? ≠ some ['.'] ∨ start = ['/'] ∨
    start = ['.'] ∧ cs.head?.all (· = '/') = true

/-- The text of a path is its start and the text of its parts. -/
theorem exists_text (p : Path) : ∃ cs, p.text.toList = p.parts.start ++ cs ∧
    p.parts.names = dropVoidEnd (pieces cs) ∧ Begins p.parts.start cs := by
  rw [parts]
  split
  · rename_i htext
    exact ⟨_, htext, rfl, .inr (.inl rfl)⟩
  · rename_i cs htext
    split
    · exact ⟨cs, htext, rfl, .inr (.inr ⟨rfl, ‹_›⟩)⟩
    · rename_i hcs
      refine ⟨_, htext, rfl, .inl ⟨rfl, by simp, fun h => ?_⟩⟩
      obtain ⟨rest, hrest, hall⟩ := head?_pieces_eq_dot.mp h
      exact hcs ((List.cons.inj hrest).2 ▸ hall)
  · rename_i hslash hdot
    refine ⟨_, rfl, rfl, .inl ⟨rfl, fun h => ?_, fun h => ?_⟩⟩
    · obtain ⟨rest, hrest⟩ := List.head?_eq_some_iff.mp h
      exact hslash rest hrest
    · obtain ⟨rest, hrest, -⟩ := head?_pieces_eq_dot.mp h
      exact hdot rest hrest

/-- The named parts of a path come from its pieces, or from those behind its start.  Either list
ends with the same piece, if that is an ordinary one. -/
theorem parts_names (p : Path) : ∃ cs, p.parts.names = dropVoidEnd (pieces cs) ∧
    ∀ q, Ordinary q → p.allPieces.getLast? = some q → (pieces cs).getLast? = some q := by
  obtain ⟨cs, htext, hnames, hbegins⟩ := p.exists_text
  refine ⟨cs, hnames, fun q hq h => ?_⟩
  rw [allPieces, htext] at h
  rcases hbegins with ⟨hs, -⟩ | hs | ⟨hs, hhead⟩ <;> rw [hs] at h
  · exact h
  · rwa [List.singleton_append, pieces_slash,
      List.getLast?_cons_of_ne_nil (pieces_ne_nil cs)] at h
  -- The dot stands for the current directory: its piece is void, and a slash follows it if
  -- anything does.
  · cases cs with
    | nil =>
        obtain rfl : ['.'] = q := by simpa [pieces] using h
        exact absurd hq.1 (by decide)
    | cons c cs =>
        obtain rfl : c = '/' := by simpa using hhead
        rw [List.singleton_append, pieces, if_neg (by decide), pieces_slash] at h
        rw [pieces_slash, List.getLast?_cons_of_ne_nil (pieces_ne_nil cs)]
        rwa [List.getLast?_cons_of_ne_nil (pieces_ne_nil cs)] at h

/-- A file name is an ordinary piece. -/
theorem ordinary_of_fileName? {p : Path} {name : List Char} (h : p.fileName? = some name) :
    Ordinary name ∧ '/' ∉ name := by
  obtain ⟨cs, hnames, -⟩ := p.parts_names
  obtain ⟨hlast, hdots⟩ := Option.filter_eq_some_iff.mp h
  rw [hnames] at hlast
  obtain ⟨hmem, hvoid⟩ := getLast?_dropVoidEnd hlast
  exact ⟨⟨hvoid, by simpa using hdots⟩, slash_not_mem_piece hmem⟩

/-- An ordinary last piece is the file name. -/
theorem fileName?_of_getLast? {p : Path} {name : List Char} (hname : Ordinary name)
    (h : p.allPieces.getLast? = some name) : p.fileName? = some name := by
  obtain ⟨cs, hnames, hlast⟩ := p.parts_names
  obtain ⟨before, hb⟩ := List.getLast?_eq_some_iff.mp (hlast name hname h)
  rw [fileName?, hnames, hb, dropVoidEnd_concat hname.1, List.getLast?_concat]
  simp [hname.2]

/-! ### Names of outputs -/

/-- The name of the file that a snapshot's source goes to. -/
def outputName (snapshot : Path) : List Char :=
  snapshot.stem?.getD "schema".toList ++ ".ts".toList

/-- A stem is not empty, and a character of it is one of the name. -/
theorem stemOf_cases {name : List Char} (h : name ≠ []) :
    stemOf name ≠ [] ∧ ∀ c ∈ stemOf name, c ∈ name := by
  rw [stemOf]
  split
  · exact ⟨h, fun _ hc => hc⟩
  · exact ⟨h, fun _ hc => hc⟩
  · rename_i c stem hne hdrop
    refine ⟨fun hnil => hne (List.reverse_eq_nil_iff.mp hnil), fun d hd => ?_⟩
    have hsub := List.dropWhile_sublist (fun c => decide (c ≠ '.')) (l := name.reverse)
    rw [hdrop] at hsub
    exact List.mem_reverse.mp (hsub.mem (.tail _ (List.mem_reverse.mp hd)))

/-- The stem of a stem with an extension behind it. -/
theorem stemOf_append {stem extension : List Char} (h : stem ≠ []) (hdot : '.' ∉ extension) :
    stemOf (stem ++ '.' :: extension) = stem := by
  have hall : ∀ c ∈ extension.reverse, decide (c ≠ '.') = true := by
    intro c hc
    rw [decide_eq_true_eq]
    rintro rfl
    exact hdot (List.mem_reverse.mp hc)
  have hdrop : (stem ++ '.' :: extension).reverse.dropWhile (· ≠ '.') = '.' :: stem.reverse := by
    rw [List.reverse_append, List.reverse_cons, List.append_assoc,
      List.dropWhile_append_of_pos hall, List.singleton_append,
      List.dropWhile_cons_of_neg (by decide)]
  rw [stemOf, hdrop]
  split
  · rename_i hnil
    cases hnil
  · rename_i hnil
    exact absurd (List.reverse_eq_nil_iff.mp (List.cons.inj hnil).2) h
  · rename_i hcons
    rw [← (List.cons.inj hcons).2, List.reverse_reverse]

/-- The name of an output is a stem with the extension behind it. -/
theorem exists_outputName_eq (snapshot : Path) :
    ∃ stem, stem ≠ [] ∧ '/' ∉ stem ∧ snapshot.outputName = stem ++ ".ts".toList := by
  cases hf : snapshot.fileName? with
  | none => exact ⟨"schema".toList, by decide, by decide, by rw [outputName, stem?, hf]; rfl⟩
  | some name =>
      obtain ⟨⟨hvoid, -⟩, hslash⟩ := ordinary_of_fileName? hf
      have hne : name ≠ [] := by
        rintro rfl
        exact absurd hvoid (by decide)
      obtain ⟨hstem, hmem⟩ := stemOf_cases hne
      exact ⟨stemOf name, hstem, fun hc => hslash (hmem _ hc), by rw [outputName, stem?, hf]; rfl⟩

theorem slash_not_mem_outputName (snapshot : Path) : '/' ∉ snapshot.outputName := by
  obtain ⟨stem, -, hslash, hname⟩ := snapshot.exists_outputName_eq
  rw [hname, List.mem_append]
  rintro (h | h)
  · exact hslash h
  · exact absurd h (by decide)

theorem ordinary_outputName (snapshot : Path) : Ordinary snapshot.outputName := by
  obtain ⟨stem, -, -, hname⟩ := snapshot.exists_outputName_eq
  have hlast : snapshot.outputName.getLast? = some 's' := by
    rw [hname]
    exact List.getLast?_append_of_ne_nil _ (by decide)
  refine ⟨?_, fun h => ?_⟩
  · rw [isVoid, Bool.or_eq_false_iff, decide_eq_false_iff_not, decide_eq_false_iff_not]
    exact ⟨fun h => by simp [h] at hlast, fun h => by simp [h] at hlast⟩
  · simp [h] at hlast

/-- A snapshot that bears the name of an output has an output of that name. -/
theorem outputName_of_fileName? {p snapshot : Path} (h : p.fileName? = some snapshot.outputName) :
    p.outputName = snapshot.outputName := by
  obtain ⟨stem, hne, -, hname⟩ := snapshot.exists_outputName_eq
  rw [outputName, stem?, h, hname]
  change stemOf (stem ++ '.' :: ['t', 's']) ++ _ = _
  rw [stemOf_append hne (by decide)]

/-- The file in a directory that a snapshot's source goes to. -/
def outputIn (directory snapshot : Path) : Path := directory.inside snapshot.outputName

theorem getLast?_outputIn (directory snapshot : Path) :
    (directory.outputIn snapshot).allPieces.getLast? = some snapshot.outputName := by
  rw [outputIn, pieces_inside directory snapshot.slash_not_mem_outputName, List.getLast?_concat]

end Path

end RowTypes
