import RowTypes.Proofs.MakingDirectories

/-!
# All or nothing — what one write leaves behind

A write has four ways to fail on the way to its file, and each leaves the disk as harmless as the
others: every file is as it was and none has come, only directories may have (`Undamaged`).  A write
that succeeds has changed one file, the one that its path leads to, and the directories above it
are there (`HasWritten`).

That the directories are there needs no look at how they were made.  Where a path leads to a place,
every path above it leads to a directory (`isDirectory_of_mem_ancestors`), since the text of a
parent is the beginning of the path before one of its slashes (`Path.exists_text_of_parent?`).

**All or nothing** (`run_allOrNothing`).  A job with a file to write to, and a write alone, leave
all files undamaged if they fail, and the source in its place if they succeed.
-/

namespace RowTypes

/-! ### Parents -/

namespace Path

variable {p q : Path}

theorem dropVoidEnd_isPrefix (ps : List (List Char)) : dropVoidEnd ps <+: ps := by
  obtain ⟨voids, hvoids, -⟩ := exists_voids ps
  exact ⟨voids, hvoids⟩

theorem ofPieces_append {qs rs : List (List Char)} (hqs : qs ≠ []) (hrs : rs ≠ []) :
    ofPieces (qs ++ rs) = ofPieces qs ++ '/' :: ofPieces rs := by
  induction qs with
  | nil => exact absurd rfl hqs
  | cons q qs ih =>
      rw [List.cons_append]
      cases qs with
      | nil => exact ofPieces_cons hrs
      | cons r qs =>
          rw [ofPieces_cons (List.cons_ne_nil r qs), ofPieces_cons (by simp),
            ih (List.cons_ne_nil r qs), List.append_assoc, List.cons_append]

/-- The pieces of a parent come before others. -/
theorem exists_pieces_of_parent {ps : List (List Char)} (h : dropVoidEnd ps ≠ []) :
    ∃ rest, rest ≠ [] ∧ ps = dropVoidEnd (dropVoidEnd ps).dropLast ++ rest := by
  obtain ⟨rest, hrest⟩ := (dropVoidEnd_isPrefix (dropVoidEnd ps).dropLast).trans
    ((List.dropLast_prefix _).trans (dropVoidEnd_isPrefix ps))
  refine ⟨rest, ?_, hrest.symm⟩
  rintro rfl
  -- The last part is among the pieces and not among those of the parent.
  have hparent := (dropVoidEnd_isPrefix (dropVoidEnd ps).dropLast).length_le
  have hall := (dropVoidEnd_isPrefix ps).length_le
  have hpos := List.length_pos_iff.mpr h
  rw [List.append_nil] at hrest
  rw [hrest, List.length_dropLast] at hparent
  omega

/-- **A parent is what stands before one of the slashes**, or the root. -/
theorem exists_text_of_parent? (h : p.parent? = some q) (hq : q.isEmpty = false) :
    (∃ rest, p.text.toList = q.text.toList ++ '/' :: rest) ∨ q = ⟨"/"⟩ := by
  obtain ⟨cs, htext, hnames, hstart⟩ := p.exists_text
  rw [parent?] at h
  split at h
  · rename_i hne
    obtain ⟨rest, hrest, hpieces⟩ := exists_pieces_of_parent (hnames ▸ hne)
    rw [← hnames] at hpieces
    obtain rfl := Option.some.inj h
    rw [Parts.toPath] at hq ⊢
    rw [String.toList_ofList, htext]
    by_cases hnil : dropVoidEnd p.parts.names.dropLast = []
    -- Nothing is left of the parts but where the path starts.
    · rw [hnil] at hq ⊢
      rcases hstart with ⟨hs, -⟩ | hs | ⟨hs, hhead⟩ <;> rw [hs] at hq ⊢
      · exact absurd hq (by decide)
      · exact .inr rfl
      · cases cs with
        | nil => exact absurd hnames (by rw [show dropVoidEnd (pieces []) = [] from rfl]; exact hne)
        | cons c cs =>
            obtain rfl : c = '/' := by simpa using hhead
            exact .inl ⟨cs, rfl⟩
    · refine .inl ⟨ofPieces rest, ?_⟩
      rw [← ofPieces_pieces cs, hpieces, ofPieces_append hnil hrest, List.append_assoc]
  · split at h
    · obtain rfl := Option.some.inj h
      exact absurd hq (by decide)
    · cases h

theorem ancestorsWithin_eq (p : Path) (n : Nat) :
    p.ancestorsWithin n = p :: (p.ancestorsWithin n).tail := by
  cases n <;> rfl

theorem ancestorsWithin_of_isEmpty (h : p.isEmpty = true) (n : Nat) :
    p.ancestorsWithin n = [p] := by
  obtain rfl : p = ⟨""⟩ := congrArg Path.mk (of_decide_eq_true h)
  cases n <;> rfl

end Path

namespace Disk

variable {d d' : Disk} {p q : Path} {l : Location}

/-- The parent of a path that leads somewhere leads to a directory. -/
theorem locate_parent? (hl : d.locate p = .ok l) (hp : p.parent? = some q)
    (hq : q.isEmpty = false) : ∃ l', d.locate q = .ok l' ∧ d.node? l' = some .directory := by
  obtain ⟨hc, hfollow⟩ := locate_eq_ok.mp hl
  rcases Path.exists_text_of_parent? hp hq with ⟨rest, htext⟩ | rfl
  · have hne : q.text.toList ≠ [] := by
      simpa [Path.isEmpty, String.toList_eq_nil_iff] using hq
    have habs : p.isAbsolute = q.isAbsolute := by
      rw [Path.isAbsolute, Path.isAbsolute, htext, List.head?_append_of_ne_nil _ hne]
    have hnames : names p = names q ++ Path.pieces rest := by
      rw [names, names, htext, Path.pieces_append]
    obtain ⟨r, rs, hr⟩ := List.exists_cons_of_ne_nil (Path.pieces_ne_nil rest)
    rw [follow, hnames, List.map_append, List.foldlM_append, bind_eq_ok, habs] at hfollow
    obtain ⟨l', hl', hrest⟩ := hfollow
    rw [hr, List.map_cons, List.foldlM_cons, bind_eq_ok] at hrest
    obtain ⟨_, henter, -⟩ := hrest
    have hq' := checked_of_isPrefix hc hq ⟨'/' :: rest, htext.symm⟩
    exact ⟨l', locate_eq_ok.mpr ⟨hq', hl'⟩, directory_of_enter henter⟩
  · exact ⟨[], rfl, node?_nil⟩

theorem isDirectory_iff : d.isDirectory p = true ↔ d.openNode p = .ok .directory := by
  rw [isDirectory]
  split
  · exact iff_of_true rfl ‹_›
  · exact iff_of_false Bool.false_ne_true ‹_›

/-- **The paths above a path that leads somewhere lead to directories.** -/
theorem isDirectory_of_mem_ancestors {n : Nat} (hl : d.locate p = .ok l)
    (hmem : q ∈ (p.ancestorsWithin n).tail) (hq : q.isEmpty = false) : d.isDirectory q = true := by
  induction n generalizing p l with
  | zero => cases hmem
  | succ n ih =>
      rw [Path.ancestorsWithin, List.tail_cons] at hmem
      split at hmem
      · rename_i above hparent
        cases hempty : above.isEmpty with
        | true =>
            rw [Path.ancestorsWithin_of_isEmpty hempty, List.mem_singleton] at hmem
            rw [hmem, hempty] at hq
            cases hq
        | false =>
            obtain ⟨l', hl', hdir⟩ := locate_parent? hl hparent hempty
            rw [Path.ancestorsWithin_eq, List.mem_cons] at hmem
            rcases hmem with rfl | hmem
            · exact isDirectory_iff.mpr (openNode_eq_ok.mpr ⟨l', hl', hdir⟩)
            · exact ih hl' hmem
      · cases hmem

/-! ### What is left behind -/

/-- Every file is as it was, and none has come.  Where something has come, it is a directory with
no file in it. -/
structure Undamaged (d d' : Disk) : Prop where
  current : d'.current = d.current
  files : ∀ l content, d'.node? l = some (.file content) ↔ d.node? l = some (.file content)
  directories : ∀ l, d.node? l = some .directory → d'.node? l = some .directory
  empty : ∀ l, d.node? l = none → ∀ below content,
    d'.node? (l ++ below) ≠ some (.file content)

/-- The file that a path leads to holds the content, and the directories above it are there.  Every
other file is as it was, and none has come. -/
structure HasWritten (d d' : Disk) (p : Path) (content : List UInt8) : Prop where
  current : d'.current = d.current
  place : ∃ l, d'.locate p = .ok l ∧ d.node? l ≠ some .directory ∧
    d'.node? l = some (.file content) ∧ ∀ l' ≠ l, ∀ content',
      d'.node? l' = some (.file content') ↔ d.node? l' = some (.file content')
  read : d'.read p = .ok content
  directories : ∀ l, d.node? l = some .directory → d'.node? l = some .directory
  above : ∀ q ∈ p.ancestors.tail, q.isEmpty = false → d'.isDirectory q = true

/-- Directories that come are no files. -/
theorem AddsDirectories.file_iff (h : d.AddsDirectories d') {content : List UInt8} :
    d'.node? l = some (.file content) ↔ d.node? l = some (.file content) := by
  refine ⟨fun hl => ?_, h.node⟩
  rcases h.nodes l with heq | ⟨-, hdir⟩
  · exact heq ▸ hl
  · rw [hdir] at hl
    cases hl

theorem AddsDirectories.undamaged (h : d.AddsDirectories d') : d.Undamaged d' where
  current := h.current
  files _ _ := h.file_iff
  directories _ := h.node
  empty l hl below content hfile := by
    rw [h.file_iff, node?_append hl below] at hfile
    cases hfile

theorem AddsDirectories.hasWritten {content : List UInt8} (h : d.AddsDirectories d')
    (hl : d'.locate p = .ok l) (hfree : d'.Free l) :
    d.HasWritten (d'.put l (.file content)) p content := by
  have hkeeps := keepsDirectories_put (n := .file content) hfree
  have hl' := hkeeps.locate hl
  have hfile : (d'.put l (.file content)).node? l = some (.file content) := by
    rw [node?_put hfree, if_pos rfl]
  refine ⟨h.current,
    ⟨l, hl', fun hdir => hfree.here (h.node hdir), hfile, fun l' hne' content' => ?_⟩,
    read_eq_ok.mpr ⟨l, hl', hfile⟩, fun l' hdir => hkeeps.directory l' (h.node hdir),
    fun q hq => isDirectory_of_mem_ancestors hl' hq⟩
  rw [node?_put hfree, if_neg hne', h.file_iff]

end Disk

/-! ### Writes and jobs -/

/-- How a write to a path may leave the world, with the text that it has written or with an
error. -/
def World.AllOrNothing (w w' : World) (p : Path) (written : Except Error String) : Prop :=
  w'.stdout = w.stdout ∧
    match written with
    | .error _ => w.disk.Undamaged w'.disk
    | .ok source => w.disk.HasWritten w'.disk p (Json.bytesOf source)

theorem write_allOrNothing (p : Path) (source : String) (w : World) :
    w.AllOrNothing ((Destination.file p).write source w).1 p
      (((Destination.file p).write source w).2.map fun () => source) := by
  rw [Destination.write]
  rcases writeFile_cases w.disk p source with ⟨e, d, h, hadds⟩ | ⟨d, l, h, hadds, hl, hfree⟩
  · rw [h]
    exact ⟨rfl, hadds.undamaged⟩
  · rw [h]
    exact ⟨rfl, hadds.hasWritten hl hfree⟩

/-- **All or nothing.**  A job that has a file to write to, and a write to a file alone, leave every
file as it was if they fail.  If they succeed, no other file than theirs has changed, and it holds
the source. -/
theorem run_allOrNothing (l : Loader) (snapshot p : Path) (o : Options) (source : String)
    (w : World) :
    w.AllOrNothing (Job.run ⟨snapshot, .file p, o⟩ l w).1 p
        ((Job.run ⟨snapshot, .file p, o⟩ l w).2.map (·.source)) ∧
      w.AllOrNothing ((Destination.file p).write source w).1 p
        (((Destination.file p).write source w).2.map fun () => source) := by
  refine ⟨?_, write_allOrNothing p source w⟩
  rw [Job.run]
  cases Job.prepare ⟨snapshot, .file p, o⟩ l w.disk with
  | error e => exact ⟨rfl, (Disk.AddsDirectories.refl w.disk).undamaged⟩
  | ok g =>
      have hwrite := write_allOrNothing p g.source w
      rw [Job.deliver]
      generalize (Destination.file p).write g.source w = written at hwrite ⊢
      obtain ⟨w', e | _⟩ := written
      · exact hwrite
      · exact hwrite

end RowTypes
