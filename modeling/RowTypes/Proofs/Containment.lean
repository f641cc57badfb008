import RowTypes.Proofs.AllOrNothing

/-!
# Containment — a directory keeps what is written into it

The *components* of a path are where it starts, if that is said, and its pieces that stand for
something (`Path.components`).  The parent of a path has all of them but the last
(`components_parent?`), and a name put into a directory adds itself and nothing else
(`components_inside`).

The name of an output is a stem with an extension behind it.  The stem is cut off the last component
of the snapshot, if that is a name (`isStem_iff`); it may be `..`, but what follows it makes it an
ordinary name all the same.

**Containment** (`inDirectory_contained`).  A destination in a directory is the directory with one
ordinary name behind it, and its parent is the directory.  Writing there leaves alone every file but
the one of this name at the place that the directory leads to.
-/

namespace RowTypes

namespace Path

variable {p q directory : Path} {start cs name : List Char} {ns : List (List Char)}

/-! ### Components -/

/-- The pieces that stand for something. -/
def named (ps : List (List Char)) : List (List Char) := ps.filter fun q => !isVoid q

/-- The component that a path starts with: a slash, or a dot for the current directory. -/
def startComponent (p : Path) : List (List Char) :=
  if p.isAbsolute then [['/']] else if p.allPieces.head? = some ['.'] then [['.']] else []

/-- What a path is made of.  The root is the slash itself, and `..` is a component like a name. -/
def components (p : Path) : List (List Char) := p.startComponent ++ named p.allPieces

example : components ⟨"./a//../b/."⟩ = [['.'], ['a'], ['.', '.'], ['b']] := by
  decide

theorem named_append (ps qs : List (List Char)) : named (ps ++ qs) = named ps ++ named qs :=
  List.filter_append _ _

theorem named_cons_of_isVoid (h : isVoid name = true) (ps : List (List Char)) :
    named (name :: ps) = named ps := by
  simp [named, h]

theorem named_singleton (h : isVoid name = false) : named [name] = [name] := by
  simp [named, h]

theorem named_dropVoidEnd (ps : List (List Char)) : named (dropVoidEnd ps) = named ps := by
  obtain ⟨voids, hps, hvoids⟩ := exists_voids ps
  have hnone : named voids = [] := by
    rw [named, List.filter_eq_nil_iff]
    intro q hq
    simp [hvoids q hq]
  conv_rhs => rw [← hps, named_append, hnone, List.append_nil]

/-- The start as a component. -/
def startsWith (start : List Char) : List (List Char) := if start = [] then [] else [start]

theorem components_of_begins (h : Begins start cs) (htext : p.text.toList = start ++ cs) :
    p.components = startsWith start ++ named (pieces cs) := by
  rw [components, startComponent, allPieces, isAbsolute, htext]
  rcases h with ⟨rfl, hslash, hdot⟩ | rfl | ⟨rfl, hhead⟩
  · simp [hslash, hdot, startsWith]
  · simp [pieces_slash, startsWith, named_cons_of_isVoid (show isVoid [] = true from rfl)]
  · obtain ⟨q, qs, hq, hcq⟩ := pieces_cons (show '.' ≠ '/' by decide) cs
    have hnil := head?_pieces_eq_nil.mpr hhead
    rw [hq, List.head?_cons, Option.some.injEq] at hnil
    subst hnil
    simp [hcq, hq, startsWith, named_cons_of_isVoid (show isVoid [] = true from rfl),
      named_cons_of_isVoid (show isVoid ['.'] = true from rfl)]

theorem components_eq_parts (p : Path) :
    p.components = startsWith p.parts.start ++ named p.parts.names := by
  obtain ⟨cs, htext, hnames, hbegins⟩ := p.exists_text
  rw [components_of_begins hbegins htext, hnames, named_dropVoidEnd]

/-! ### Parents -/

theorem head?_of_isPrefix {α : Type} {l l' : List α} (h : l <+: l') (hne : l ≠ []) :
    l'.head? = l.head? := by
  obtain ⟨rest, rfl⟩ := h
  exact List.head?_append_of_ne_nil l hne

/-- Fewer pieces start the same way. -/
theorem Begins.of_isPrefix (h : Begins start cs) (hns : ns <+: pieces cs) :
    Begins start (ofPieces ns) := by
  have hprefix : ofPieces ns <+: cs := by
    obtain ⟨rest, hrest⟩ := hns
    rw [← ofPieces_pieces cs, ← hrest]
    exact ofPieces_isPrefix ns rest
  by_cases hnil : ofPieces ns = []
  · rw [hnil]
    rcases h with ⟨hs, -⟩ | hs | ⟨hs, -⟩
    · exact .inl ⟨hs, nofun, nofun⟩
    · exact .inr (.inl hs)
    · exact .inr (.inr ⟨hs, rfl⟩)
  · have hne : ns ≠ [] := fun h => hnil (by rw [h]; rfl)
    have hpieces := pieces_ofPieces hne fun q hq => slash_not_mem_piece (hns.mem hq)
    rwa [Begins, head?_of_isPrefix hprefix hnil, head?_of_isPrefix hns hne, ← hpieces,
      ofPieces_pieces] at h

theorem components_toPath (h : Begins start cs) (hns : ns <+: pieces cs) :
    (Parts.toPath ⟨start, ns⟩).components = startsWith start ++ named ns := by
  have htext : (Parts.toPath ⟨start, ns⟩).text.toList = start ++ ofPieces ns :=
    String.toList_ofList
  rw [components_of_begins (h.of_isPrefix hns) htext]
  by_cases hnil : ns = []
  · rw [hnil]
    rfl
  · rw [pieces_ofPieces hnil fun q hq => slash_not_mem_piece (hns.mem hq)]

theorem mem_of_dropVoidEnd {ps : List (List Char)} (h : dropVoidEnd ps = ns ++ [name]) :
    name ∈ ps ∧ isVoid name = false :=
  getLast?_dropVoidEnd (by rw [h, List.getLast?_concat])

/-- **A parent** has all components but the last. -/
theorem components_parent? (h : p.parent? = some q) : q.components = p.components.dropLast := by
  obtain ⟨cs, htext, hnames, hbegins⟩ := p.exists_text
  rw [components_eq_parts p]
  rw [parent?] at h
  split at h
  · rename_i hne
    obtain ⟨init, last, hlast⟩ := (List.eq_nil_or_concat' p.parts.names).resolve_left hne
    obtain ⟨-, hvoid⟩ := mem_of_dropVoidEnd (hnames.symm.trans hlast)
    have hinit : dropVoidEnd init <+: pieces cs :=
      (dropVoidEnd_isPrefix init).trans ((List.prefix_append init [last]).trans
        (hlast ▸ hnames ▸ dropVoidEnd_isPrefix (pieces cs)))
    obtain rfl := Option.some.inj h
    rw [hlast, List.dropLast_concat, components_toPath hbegins hinit, named_dropVoidEnd,
      named_append, named_singleton hvoid, ← List.append_assoc, List.dropLast_concat]
  · rename_i hnil
    rw [not_not.mp hnil]
    split at h
    · rename_i hstart
      obtain rfl := Option.some.inj h
      rw [hstart]
      rfl
    · cases h

/-! ### File names -/

/-- The last component, if it is a name. -/
def lastName? (p : Path) : Option (List Char) :=
  p.components.getLast?.filter fun q => q ∉ [['/'], ['.'], ['.', '.']]

theorem fileName?_eq_lastName? (p : Path) : p.fileName? = p.lastName? := by
  obtain ⟨cs, -, hnames, hbegins⟩ := p.exists_text
  rw [lastName?, components_eq_parts, fileName?]
  rcases List.eq_nil_or_concat' p.parts.names with hnil | ⟨init, last, hlast⟩
  -- Where a path starts is no name.
  · rw [hnil]
    rcases hbegins with ⟨hs, -⟩ | hs | ⟨hs, -⟩ <;> rw [hs] <;> rfl
  · obtain ⟨hmem, hvoid⟩ := mem_of_dropVoidEnd (hnames.symm.trans hlast)
    have hslash : last ≠ ['/'] := by
      rintro rfl
      exact slash_not_mem_piece hmem (.head _)
    have hdot : last ≠ ['.'] := by
      rintro rfl
      cases hvoid
    rw [hlast, named_append, named_singleton hvoid, ← List.append_assoc, List.getLast?_concat,
      List.getLast?_concat]
    simp [Option.filter, hslash, hdot]

/-- The name without its last extension; or the whole name, where a dot is at most at its start. -/
def CutsExtension (name stem : List Char) : Prop :=
  '.' ∉ name.tail ∧ stem = name ∨
    stem ≠ [] ∧ ∃ extension, '.' ∉ extension ∧ name = stem ++ '.' :: extension

/-- The stem of the last component, or `schema` where that is no name. -/
def IsStem (p : Path) (stem : List Char) : Prop :=
  match p.lastName? with
  | some name => CutsExtension name stem
  | none => stem = "schema".toList

theorem cutsExtension_stemOf (name : List Char) : CutsExtension name (stemOf name) := by
  let extension := (name.reverse.takeWhile (· ≠ '.')).reverse
  have hname : (name.reverse.dropWhile (· ≠ '.')).reverse ++ extension = name := by
    rw [← List.reverse_append, List.takeWhile_append_dropWhile, List.reverse_reverse]
  have hnone : '.' ∉ extension := by
    intro h
    simpa using List.mem_takeWhile_imp (List.mem_reverse.mp h)
  rw [stemOf]
  split <;> rename_i hdrop <;> rw [hdrop] at hname
  · rw [← hname]
    exact .inl ⟨fun h => hnone (List.mem_of_mem_tail h), rfl⟩
  · rw [← hname]
    exact .inl ⟨hnone, rfl⟩
  · rename_i c stem hne
    have hdot : c = '.' := by
      have hhead := List.head?_dropWhile_not (· ≠ '.') name.reverse
      rw [hdrop] at hhead
      simpa using hhead
    rw [hdot, List.reverse_cons, List.append_assoc] at hname
    exact .inr ⟨fun h => hne (List.reverse_eq_nil_iff.mp h), extension, hnone, hname.symm⟩

theorem stemOf_of_not_mem_tail (h : '.' ∉ name.tail) : stemOf name = name := by
  cases name with
  | nil => rfl
  | cons c cs =>
      have hall : ∀ d ∈ cs.reverse, decide (d ≠ '.') = true := by
        intro d hd
        rw [decide_eq_true_eq]
        rintro rfl
        exact h (List.mem_reverse.mp hd)
      rw [stemOf, List.reverse_cons, List.dropWhile_append_of_pos hall]
      by_cases hc : c = '.'
      · rw [List.dropWhile_cons_of_neg (by simp [hc])]
      · rw [List.dropWhile_cons_of_pos (by simp [hc])]
        rfl

theorem cutsExtension_iff {stem : List Char} : CutsExtension name stem ↔ stemOf name = stem := by
  constructor
  · rintro (⟨hnone, rfl⟩ | ⟨hne, extension, hdot, rfl⟩)
    · exact stemOf_of_not_mem_tail hnone
    · exact stemOf_append hne hdot
  · rintro rfl
    exact cutsExtension_stemOf name

/-- A path has one stem. -/
theorem isStem_iff {stem : List Char} : p.IsStem stem ↔ p.stem?.getD "schema".toList = stem := by
  rw [IsStem, ← fileName?_eq_lastName?, stem?]
  cases p.fileName? with
  | none => exact eq_comm
  | some name => exact cutsExtension_iff

/-! ### Joining -/

theorem allPieces_cases (directory : Path) : directory.allPieces = directory.directoryPieces ∨
    directory.allPieces = directory.directoryPieces ++ [[]] := by
  rw [directoryPieces]
  split
  · rename_i hlast
    refine .inr ?_
    rw [allPieces]
    rcases List.eq_nil_or_concat' directory.text.toList with hd | ⟨cs, c, hd⟩ <;> rw [hd]
    · rfl
    · obtain rfl : c = '/' := by simpa [hd] using hlast
      have hpieces : pieces (cs ++ ['/']) = pieces cs ++ [[]] := pieces_append cs []
      rw [hpieces, List.dropLast_concat]
  · exact .inl rfl

theorem isAbsolute_inside (directory : Path) (hname : '/' ∉ name) :
    (directory.inside name).isAbsolute = directory.isAbsolute := by
  rw [isAbsolute, isAbsolute, inside, String.toList_ofList]
  by_cases hd : directory.text.toList = []
  · have hhead : name.head? ≠ some '/' := fun h => hname (List.mem_of_head? h)
    simp [hd, hhead]
  · rw [List.append_assoc, List.head?_append_of_ne_nil _ hd]

theorem named_directoryPieces (directory : Path) :
    named directory.directoryPieces = named directory.allPieces := by
  rcases directory.allPieces_cases with h | h <;> rw [h]
  rw [named_append]
  exact (List.append_nil _).symm

theorem startComponent_inside (directory : Path) (hname : Ordinary name) (hslash : '/' ∉ name) :
    (directory.inside name).startComponent = directory.startComponent := by
  have hdot : name ≠ ['.'] := by
    rintro rfl
    cases hname.1
  have hhead : (directory.inside name).allPieces.head? = some ['.'] ↔
      directory.allPieces.head? = some ['.'] := by
    rw [pieces_inside directory hslash]
    cases hpieces : directory.directoryPieces with
    | nil =>
        have hall := directory.allPieces_cases.resolve_left (hpieces ▸ pieces_ne_nil _)
        simp [hall, hpieces, hdot]
    | cons q qs => rcases directory.allPieces_cases with h | h <;> rw [h, hpieces] <;> rfl
  rw [startComponent, startComponent, isAbsolute_inside directory hslash, if_congr hhead rfl rfl]

/-- **A name in a directory** is a component behind those of the directory. -/
theorem components_inside (directory : Path) (hname : Ordinary name) (hslash : '/' ∉ name) :
    (directory.inside name).components = directory.components ++ [name] := by
  rw [components, components, startComponent_inside directory hname hslash,
    pieces_inside directory hslash, named_append, named_singleton hname.1, named_directoryPieces,
    List.append_assoc]

theorem exists_parent?_inside (directory : Path) (hname : Ordinary name) (hslash : '/' ∉ name) :
    ∃ parent, (directory.inside name).parent? = some parent ∧
      parent.components = directory.components := by
  have hnames : (directory.inside name).parts.names ≠ [] := by
    have hlast : (directory.inside name).allPieces.getLast? = some name := by
      rw [pieces_inside directory hslash, List.getLast?_concat]
    have hfile := fileName?_of_getLast? hname hlast
    intro hnil
    rw [fileName?, hnil] at hfile
    cases hfile
  obtain ⟨parent, hparent⟩ : ∃ parent, (directory.inside name).parent? = some parent :=
    ⟨_, if_pos hnames⟩
  refine ⟨parent, hparent, ?_⟩
  rw [components_parent? hparent, components_inside directory hname hslash, List.dropLast_concat]

end Path

/-! ### The disk -/

namespace Disk

variable {d d' : Disk} {directory : Path} {name : List Char} {l l₀ : Location}

/-- A path leads to a directory, which is the current one for the empty path. -/
structure LeadsTo (d : Disk) (directory : Path) (l : Location) : Prop where
  location : if directory.isEmpty then l = d.current else d.locate directory = .ok l
  node : d.node? l = some .directory

theorem KeepsDirectories.leadsTo (h : d.KeepsDirectories d') (hl : d.LeadsTo directory l) :
    d'.LeadsTo directory l := by
  refine ⟨?_, h.directory l hl.node⟩
  have hlocation := hl.location
  split_ifs at hlocation ⊢
  · rw [h.current, hlocation]
  · exact h.locate hlocation

/-- The pieces of a directory that a name is put behind lead where the directory leads. -/
theorem leadsTo_of_follow (hchecked : directory.isEmpty = false → checked directory = .ok directory)
    (h : d.follow directory directory.directoryPieces = .ok l)
    (hdir : d.node? l = some .directory) : d.LeadsTo directory l := by
  refine ⟨?_, hdir⟩
  split_ifs with hempty
  · obtain rfl : directory = ⟨""⟩ := congrArg Path.mk (of_decide_eq_true hempty)
    exact (Except.ok.inj h).symm
  · refine locate_eq_ok.mpr ⟨hchecked (Bool.not_eq_true _ ▸ hempty), ?_⟩
    rw [names, ← Path.allPieces]
    rcases directory.allPieces_cases with hall | hall <;> rw [hall]
    · exact h
    · rw [follow] at h ⊢
      rw [List.map_append, List.foldlM_append, h]
      exact (bind_pure _).trans (enter_empty hdir)

/-- Behind a directory, a name is entered at the place that the directory leads to. -/
theorem exists_leadsTo_of_locate (hname : Path.Ordinary name) (hslash : '/' ∉ name)
    (h : d.locate (directory.inside name) = .ok l) :
    ∃ l₀, d.LeadsTo directory l₀ ∧ l = l₀ ++ [String.ofList name] := by
  obtain ⟨hchecked, hfollow⟩ := locate_eq_ok.mp h
  rw [follow, names, ← Path.allPieces, Path.pieces_inside directory hslash,
    Path.isAbsolute_inside directory hslash, List.map_append, List.foldlM_append,
    bind_eq_ok] at hfollow
  obtain ⟨l₀, hl₀, hlast⟩ := hfollow
  rw [List.map_singleton, List.foldlM_cons, bind_eq_ok] at hlast
  obtain ⟨l', henter, hl'⟩ := hlast
  obtain rfl : l' = l := Except.ok.inj hl'
  have hprefix : directory.text.toList <+: (directory.inside name).text.toList := by
    rw [Path.inside, String.toList_ofList, List.append_assoc]
    exact List.prefix_append _ _
  refine ⟨l₀, leadsTo_of_follow (fun hne => checked_of_isPrefix hchecked hne hprefix) hl₀
    (directory_of_enter henter), ?_⟩
  exact ((enter_cases henter).resolve_right fun hnot => hnot.1 hname).2

end Disk

/-! ### Destinations -/

/-- Every file is as it was, but perhaps one of this name where the directory leads to. -/
def Disk.ChangesOnly (d d' : Disk) (directory : Path) (name : List Char) : Prop :=
  ∀ l, (∀ content, d'.node? l = some (.file content) ↔ d.node? l = some (.file content)) ∨
    ∃ l₀, d'.LeadsTo directory l₀ ∧ l = l₀ ++ [String.ofList name]

theorem changesOnly_write (directory : Path) {name : List Char} (hname : Path.Ordinary name)
    (hslash : '/' ∉ name) (source : String) (w : World) :
    w.disk.ChangesOnly ((Destination.file (directory.inside name)).write source w).1.disk
      directory name := by
  intro l
  rw [Destination.write]
  rcases writeFile_cases w.disk (directory.inside name) source with
    ⟨e, d, h, hadds⟩ | ⟨d, l', h, hadds, hl, hfree⟩ <;> rw [h]
  · exact .inl fun content => hadds.file_iff
  · obtain ⟨l₀, hleads, rfl⟩ := Disk.exists_leadsTo_of_locate hname hslash hl
    have hkeeps := Disk.keepsDirectories_put (n := .file (Json.bytesOf source)) hfree
    by_cases hlast : l = l₀ ++ [String.ofList name]
    · exact .inr ⟨l₀, hkeeps.leadsTo hleads, hlast⟩
    · refine .inl fun content => ?_
      rw [Disk.node?_put hfree, if_neg hlast, hadds.file_iff]

/-- **Containment.**  A destination in a directory is the directory and one ordinary name behind
it, which is the stem of the snapshot with `.ts`.  Its parent is the directory, and writing there
changes no file but the one of this name at the place that the directory leads to. -/
theorem inDirectory_contained (directory snapshot : Path) :
    ∃ stem name, snapshot.IsStem stem ∧ name = stem ++ ".ts".toList ∧
      '/' ∉ name ∧ name ∉ [[], ['.'], ['.', '.']] ∧
      Destination.inDirectory directory snapshot = .file (directory.inside name) ∧
      (directory.inside name).components = directory.components ++ [name] ∧
      (∃ parent, (directory.inside name).parent? = some parent ∧
        parent.components = directory.components) ∧
      ∀ (source : String) (w : World), w.disk.ChangesOnly
        ((Destination.inDirectory directory snapshot).write source w).1.disk directory name := by
  have hslash := snapshot.slash_not_mem_outputName
  have hname := snapshot.ordinary_outputName
  have hvoid := hname.1
  rw [Path.isVoid, Bool.or_eq_false_iff, decide_eq_false_iff_not, decide_eq_false_iff_not] at hvoid
  have hplain : snapshot.outputName ∉ [[], ['.'], ['.', '.']] := by
    simp [hvoid, hname.2]
  have hfile : Destination.inDirectory directory snapshot =
      .file (directory.inside snapshot.outputName) := rfl
  have hwrite := changesOnly_write directory hname hslash
  rw [← hfile] at hwrite
  exact ⟨_, _, Path.isStem_iff.mpr rfl, rfl, hslash, hplain, hfile,
    Path.components_inside directory hname hslash,
    Path.exists_parent?_inside directory hname hslash, hwrite⟩

example : Destination.inDirectory ⟨"out/."⟩ ⟨"/db/...json/"⟩ = .file ⟨"out/./...ts"⟩ := by
  decide +kernel

example : Destination.inDirectory ⟨""⟩ ⟨"db/.."⟩ = .file ⟨"schema.ts"⟩ := by
  decide +kernel

end RowTypes
