import Mathlib.Data.List.Basic
import Mathlib.Data.List.Induction
import RowTypes.Proofs.Paths

/-!
# Disk changes — what a write leaves alone

What is at a location depends on the location above it (`node?_concat`), so the nodes of a disk are
a tree (`node?_dropLast`) in which a node can be put wherever there is a directory above and none in
its place (`Free`, `node?_put`).

Making the directories on the way to a file only puts directories where nothing was
(`AddsDirectories`).  Writing the file then changes the node at one location, which is where the
path of the file leads (`writeFile_cases`).

A path that leads somewhere still leads there when directories stay directories
(`KeepsDirectories.locate`), so what was written can be read back, and what lies elsewhere is as
it was.

The last name of a path says much about where it leads: the location ends with that name
(`getLast?_of_locate`), and a path can only lead to a file by its name (`exists_name_of_file`).
-/

namespace RowTypes

theorem bind_eq_ok {ε α β : Type} {x : Except ε α} {f : α → Except ε β} {b : β} :
    x >>= f = .ok b ↔ ∃ a, x = .ok a ∧ f a = .ok b := by
  cases x with
  | error e => exact ⟨fun h => (nomatch h), fun ⟨_, h, _⟩ => (nomatch h)⟩
  | ok a => exact ⟨fun h => ⟨a, rfl, h⟩, fun ⟨_, h, hb⟩ => Except.ok.inj h ▸ hb⟩

namespace Disk

variable {d d' d'' : Disk} {p : Path} {l l' : Location} {n : Node}

/-! ### Nodes -/

@[simp] theorem node?_nil : d.node? [] = some .directory := rfl

/-- A node is there if its parent is a directory. -/
theorem node?_concat (d : Disk) (l : Location) (name : String) :
    d.node? (l ++ [name]) =
      if d.node? l = some .directory then d.listed? (l ++ [name]) else none := by
  rw [node?, node?, List.reverse_append, List.reverse_singleton, List.singleton_append, nodeUp?,
    List.reverse_cons, List.reverse_reverse]

/-- **The parent of every node is a directory.** -/
theorem node?_dropLast (h : d.node? l = some n) : d.node? l.dropLast = some .directory := by
  rcases List.eq_nil_or_concat' l with rfl | ⟨parent, name, rfl⟩
  · exact node?_nil
  · rw [node?_concat] at h
    rw [List.dropLast_concat]
    by_contra hparent
    rw [if_neg hparent] at h
    cases h

/-- Below a place where nothing is there is nothing. -/
theorem node?_append (hl : d.node? l = none) (below : Location) : d.node? (l ++ below) = none := by
  induction below generalizing l with
  | nil => rwa [List.append_nil]
  | cons name below ih =>
      rw [List.append_cons]
      refine ih ?_
      rw [node?_concat, hl, if_neg nofun]

/-- The directories on the way to the current one are there. -/
theorem node?_of_isPrefix (h : l <+: d.current) : d.node? l = some .directory := by
  induction l using List.reverseRecOn with
  | nil => exact node?_nil
  | append_singleton l name ih =>
      rw [node?_concat, if_pos (ih ((List.prefix_append l [name]).trans h)), listed?, if_pos h]

/-- Nothing but the directories above a node is on the way to it. -/
theorem directory_of_isPrefix (h : d.node? l' = some n) (hl : l <+: l') (hne : l ≠ l') :
    d.node? l = some .directory := by
  obtain ⟨below, rfl⟩ := hl
  induction below using List.reverseRecOn generalizing n with
  | nil => exact absurd (List.append_nil l).symm hne
  | append_singleton below name ih =>
      have hparent := node?_dropLast h
      rw [← List.append_assoc, List.dropLast_concat] at hparent
      by_cases hbelow : l = l ++ below
      · rwa [← hbelow] at hparent
      · exact ih hparent hbelow

/-! ### Putting a node -/

/-- A place where a node may be put: there is a directory above it, and none at it. -/
structure Free (d : Disk) (l : Location) : Prop where
  above : d.node? l.dropLast = some .directory
  here : d.node? l ≠ some .directory

theorem free_of_none {name : String} (hl : d.node? l = some .directory)
    (hn : d.node? (l ++ [name]) = none) : d.Free (l ++ [name]) :=
  ⟨by rwa [List.dropLast_concat], by rw [hn]; nofun⟩

theorem lookup_filter {p : Location × Node → Bool} (nodes : List (Location × Node))
    (h : ∀ n, p (l, n) = true) : (nodes.filter p).lookup l = nodes.lookup l := by
  induction nodes with
  | nil => rfl
  | cons e es ih =>
      rw [List.filter_cons, List.lookup_cons]
      by_cases he : l = e.1
      · subst he
        rw [if_pos (h e.2), List.lookup_cons, beq_self_eq_true]
      · rw [beq_eq_false_iff_ne.mpr he]
        split
        · rw [List.lookup_cons, beq_eq_false_iff_ne.mpr he, ih]
        · exact ih

theorem listed?_put (hn : d.node? l ≠ some .directory) : (d.put l n).listed? l = some n := by
  rw [listed?, put, if_neg fun h => hn (node?_of_isPrefix h), List.lookup_cons_self]

theorem listed?_put_of_not_isPrefix (h : ¬ l <+: l') : (d.put l n).listed? l' = d.listed? l' := by
  have hne : (l' == l) = false := beq_eq_false_iff_ne.mpr fun heq => h (heq ▸ List.prefix_rfl)
  rw [listed?, listed?, put, List.lookup_cons, hne, lookup_filter _ fun _ => by simpa using h]

theorem listed?_put_below (hn : d.node? l ≠ some .directory) (h : l <+: l') (hne : l' ≠ l) :
    (d.put l n).listed? l' = none := by
  rw [listed?, put, if_neg fun hcurrent => hn (node?_of_isPrefix (h.trans hcurrent)),
    List.lookup_cons, beq_eq_false_iff_ne.mpr hne]
  refine List.lookup_eq_none_iff.mpr fun e he => bne_iff_ne.mpr ?_
  rintro rfl
  simp [h] at he

/-- **A node that is put at a place is at that place, and everything else is as it was.** -/
theorem node?_put (h : d.Free l) :
    (d.put l n).node? l' = if l' = l then some n else d.node? l' := by
  induction l' using List.reverseRecOn with
  | nil =>
      rw [if_neg, node?_nil, node?_nil]
      rintro rfl
      exact h.here node?_nil
  | append_singleton parent name ih =>
      rw [node?_concat, node?_concat, ih]
      by_cases hl : parent ++ [name] = l
      · have hparent : parent ≠ l := fun heq => by simp [← heq] at hl
        have habove := h.above
        rw [← hl, List.dropLast_concat] at habove
        rw [if_neg hparent, if_pos habove, if_pos hl, hl, listed?_put h.here]
      · rw [if_neg hl]
        by_cases hparent : parent = l
        -- Below the new node nothing is left, and nothing was.
        · rw [hparent, if_neg h.here,
            listed?_put_below h.here (List.prefix_append l [name]) (by simp), ite_self]
        · rw [if_neg hparent]
          by_cases hdir : d.node? parent = some .directory
          · rw [if_pos hdir, if_pos hdir, listed?_put_of_not_isPrefix fun hprefix => h.here ?_]
            rcases List.prefix_concat_iff.mp hprefix with heq | hprefix
            · exact absurd heq.symm hl
            · exact directory_of_isPrefix hdir hprefix (Ne.symm hparent)
          · rw [if_neg hdir, if_neg hdir]

/-- The same nodes, and perhaps directories where nothing was. -/
structure AddsDirectories (d d' : Disk) : Prop where
  current : d'.current = d.current
  nodes : ∀ l, d'.node? l = d.node? l ∨ d.node? l = none ∧ d'.node? l = some .directory

/-- Directories stay directories. -/
structure KeepsDirectories (d d' : Disk) : Prop where
  current : d'.current = d.current
  directory : ∀ l, d.node? l = some .directory → d'.node? l = some .directory

theorem AddsDirectories.refl (d : Disk) : d.AddsDirectories d := ⟨rfl, fun _ => .inl rfl⟩

theorem AddsDirectories.trans (h : d.AddsDirectories d') (h' : d'.AddsDirectories d'') :
    d.AddsDirectories d'' := by
  refine ⟨h'.current.trans h.current, fun l => ?_⟩
  rcases h.nodes l with hl | ⟨hl, hdir⟩ <;> rcases h'.nodes l with hl' | ⟨hl', hdir'⟩
  · exact .inl (hl'.trans hl)
  · exact .inr ⟨hl ▸ hl', hdir'⟩
  · exact .inr ⟨hl, hl'.trans hdir⟩
  · rw [hdir] at hl'
    cases hl'

/-- A node that was there is still there. -/
theorem AddsDirectories.node (h : d.AddsDirectories d') (hn : d.node? l = some n) :
    d'.node? l = some n := by
  rcases h.nodes l with hl | ⟨hl, -⟩
  · exact hl.trans hn
  · rw [hn] at hl
    cases hl

theorem AddsDirectories.keeps (h : d.AddsDirectories d') : d.KeepsDirectories d' :=
  ⟨h.current, fun _ => h.node⟩

theorem KeepsDirectories.trans (h : d.KeepsDirectories d') (h' : d'.KeepsDirectories d'') :
    d.KeepsDirectories d'' :=
  ⟨h'.current.trans h.current, fun l hl => h'.directory l (h.directory l hl)⟩

theorem keepsDirectories_put (h : d.Free l) : d.KeepsDirectories (d.put l n) := by
  refine ⟨rfl, fun l' hl' => ?_⟩
  rw [node?_put h, if_neg]
  · exact hl'
  · rintro rfl
    exact h.here hl'

theorem addsDirectories_put (h : d.Free l) (hnone : d.node? l = none) :
    d.AddsDirectories (d.put l .directory) := by
  refine ⟨rfl, fun l' => ?_⟩
  rw [node?_put h]
  split
  · rename_i heq
    exact .inr ⟨heq ▸ hnone, rfl⟩
  · exact .inl rfl

/-! ### Following a path -/

theorem directory_of_enter {name : String} (h : d.enter l name = .ok l') :
    d.node? l = some .directory := by
  rw [enter] at h
  split at h
  · cases h
  · cases h
  · assumption

theorem enter_of_directory (hl : d.node? l = some .directory) (hl' : d'.node? l = some .directory)
    (name : String) : d'.enter l name = d.enter l name := by
  rw [enter, enter, hl, hl']

/-- Where a path leads to, if everything on the way is a directory. -/
def locate (d : Disk) (p : Path) : Except Fault Location := do
  let p ← checked p
  d.follow p (names p)

theorem checked_eq_ok {q : Path} (h : checked p = .ok q) : q = p := by
  rw [checked] at h
  split at h
  · cases h
  · split at h
    · cases h
    · split at h <;> cases h
      rfl

theorem locate_eq_ok : d.locate p = .ok l ↔ checked p = .ok p ∧ d.follow p (names p) = .ok l := by
  rw [locate, bind_eq_ok]
  constructor
  · rintro ⟨q, hq, hl⟩
    obtain rfl := checked_eq_ok hq
    exact ⟨hq, hl⟩
  · exact fun h => ⟨p, h⟩

theorem KeepsDirectories.foldlM_enter (h : d.KeepsDirectories d') {names : List String} :
    names.foldlM d.enter l = .ok l' → names.foldlM d'.enter l = .ok l' := by
  induction names generalizing l with
  | nil => exact id
  | cons name names ih =>
      rw [List.foldlM_cons, List.foldlM_cons, bind_eq_ok, bind_eq_ok]
      rintro ⟨l₁, hl₁, hl'⟩
      have hdir := directory_of_enter hl₁
      exact ⟨l₁, (enter_of_directory hdir (h.directory l hdir) name).trans hl₁, ih hl'⟩

theorem KeepsDirectories.locate (h : d.KeepsDirectories d') (hl : d.locate p = .ok l) :
    d'.locate p = .ok l := by
  obtain ⟨hp, hl⟩ := locate_eq_ok.mp hl
  refine locate_eq_ok.mpr ⟨hp, ?_⟩
  rw [follow] at hl ⊢
  rw [h.current]
  exact h.foldlM_enter hl

theorem openNode_eq_ok : d.openNode p = .ok n ↔ ∃ l, d.locate p = .ok l ∧ d.node? l = some n := by
  simp only [openNode, locate, bind_eq_ok]
  constructor
  · rintro ⟨q, hq, l, hl, hn⟩
    refine ⟨l, ⟨q, hq, hl⟩, ?_⟩
    split at hn
    · rename_i m hm
      rw [hm, Except.ok.inj hn]
    · cases hn
  · rintro ⟨l, ⟨q, hq, hl⟩, hn⟩
    exact ⟨q, hq, l, hl, by rw [hn]⟩

theorem read_eq_ok {content : List UInt8} :
    d.read p = .ok content ↔ ∃ l, d.locate p = .ok l ∧ d.node? l = some (.file content) := by
  rw [← openNode_eq_ok, read, bind_eq_ok]
  constructor
  · rintro ⟨n, hn, hc⟩
    cases n with
    | directory => cases hc
    | file c => rw [hn, Except.ok.inj hc]
  · exact fun h => ⟨_, h, rfl⟩

/-! ### The last name -/

/-- The last name of a path is entered last. -/
theorem exists_enter_of_locate {q : List Char} (hq : p.allPieces.getLast? = some q)
    (h : d.locate p = .ok l) : ∃ l₀, d.enter l₀ (String.ofList q) = .ok l := by
  obtain ⟨-, hl⟩ := locate_eq_ok.mp h
  obtain ⟨before, hb⟩ := List.getLast?_eq_some_iff.mp hq
  rw [follow, names, ← Path.allPieces, hb, List.map_append, List.foldlM_append, bind_eq_ok] at hl
  obtain ⟨l₀, -, hl⟩ := hl
  rw [List.map_singleton, List.foldlM_cons, bind_eq_ok] at hl
  obtain ⟨l₁, hl₁, hl⟩ := hl
  exact ⟨l₀, hl₁.trans hl⟩

/-- Entering an ordinary name goes one level down, any other stays at a directory. -/
theorem enter_cases {q : List Char} (h : d.enter l (String.ofList q) = .ok l') :
    (Path.Ordinary q ∧ l' = l ++ [String.ofList q]) ∨
      (¬ Path.Ordinary q ∧ (l' = l ∨ l' = l.dropLast)) := by
  have hdir := directory_of_enter h
  have hempty : String.ofList q = "" ↔ q = [] := @String.ofList_inj q []
  have hdot : String.ofList q = "." ↔ q = ['.'] := @String.ofList_inj q ['.']
  have hdots : String.ofList q = ".." ↔ q = ['.', '.'] := @String.ofList_inj q ['.', '.']
  simp only [enter, hdir, hempty, hdot, hdots] at h
  simp only [Path.Ordinary, Path.isVoid, Bool.or_eq_false_iff, decide_eq_false_iff_not]
  split at h
  · rename_i hq
    exact .inr ⟨fun ho => hq.elim ho.1.1 ho.1.2, .inl (Except.ok.inj h).symm⟩
  · rename_i hvoid
    split at h
    · rename_i hq
      exact .inr ⟨fun ho => ho.2 hq, .inr (Except.ok.inj h).symm⟩
    · rename_i hq
      split at h
      · cases h
      · exact .inl ⟨⟨not_or.mp hvoid, hq⟩, (Except.ok.inj h).symm⟩

/-- A path that ends with an ordinary name leads to a location that ends with it. -/
theorem getLast?_of_locate {q : List Char} (hq : Path.Ordinary q)
    (hlast : p.allPieces.getLast? = some q) (h : d.locate p = .ok l) :
    l.getLast? = some (String.ofList q) := by
  obtain ⟨l₀, he⟩ := exists_enter_of_locate hlast h
  rcases enter_cases he with ⟨-, rfl⟩ | ⟨hno, -⟩
  · exact List.getLast?_concat
  · exact absurd hq hno

/-- **Files have names.**  A path that leads to a file ends with an ordinary name. -/
theorem exists_name_of_file {content : List UInt8} (h : d.locate p = .ok l)
    (hl : d.node? l = some (.file content)) :
    ∃ q, Path.Ordinary q ∧ p.allPieces.getLast? = some q := by
  obtain ⟨q, hq⟩ : ∃ q, p.allPieces.getLast? = some q := by
    rw [Path.allPieces, List.getLast?_eq_some_getLast (Path.pieces_ne_nil _)]
    exact ⟨_, rfl⟩
  obtain ⟨l₀, he⟩ := exists_enter_of_locate hq h
  have hdir := directory_of_enter he
  rcases enter_cases he with ⟨ho, -⟩ | ⟨-, rfl | rfl⟩
  · exact ⟨q, ho, hq⟩
  -- A name that is not ordinary leads to a directory or to the parent of one.
  · rw [hdir] at hl
    cases hl
  · rw [node?_dropLast hdir] at hl
    cases hl

/-- What a name leads to is free, unless it is a directory. -/
theorem free_of_enter {name : String} (h : d.enter l name = .ok l')
    (hl' : d.node? l' ≠ some .directory) : d.Free l' := by
  have hdir := directory_of_enter h
  rw [← String.ofList_toList (s := name)] at h
  rcases enter_cases h with ⟨-, rfl⟩ | ⟨-, rfl | rfl⟩
  · exact ⟨by rwa [List.dropLast_concat], hl'⟩
  · exact absurd hdir hl'
  · exact absurd (node?_dropLast hdir) hl'

/-! ### Making directories -/

theorem makeDirectory_adds (h : d.makeDirectory p = .ok d') : d.AddsDirectories d' := by
  rw [makeDirectory, bind_eq_ok] at h
  obtain ⟨s, -, h⟩ := h
  cases hname : s.name with
  | none =>
      rw [hname] at h
      cases h
  | some name =>
      simp only [hname, bind_eq_ok] at h
      obtain ⟨l, hl, h⟩ := h
      split at h
      · cases h
      · rename_i hnone
        rw [Bool.not_eq_true, Option.isSome_eq_false_iff, Option.isNone_iff_eq_none] at hnone
        rw [← Except.ok.inj h]
        exact addsDirectories_put (free_of_enter hl (by rw [hnone]; nofun)) hnone

theorem ensureDirectory_adds : d.AddsDirectories (d.ensureDirectory p).1 := by
  rw [ensureDirectory]
  split
  · exact makeDirectory_adds ‹_›
  · exact .refl d

theorem ensureChain_adds (ps : List Path) : d.AddsDirectories (d.ensureChain ps).1 := by
  induction ps with
  | nil => exact .refl d
  | cons p ps ih =>
      rw [ensureChain]
      split
      · exact .refl d
      · split
        · split
          · rename_i d₁ h
            rw [h] at ih
            exact ih.trans ensureDirectory_adds
          · exact ih
        · exact ensureDirectory_adds

theorem makeDirectories_adds : d.AddsDirectories (d.makeDirectories p).1 :=
  ensureChain_adds p.ancestors

end Disk

/-! ### Writing files -/

section Writing

variable {d d' : Disk} {p : Path}

theorem ensureParent_adds : d.AddsDirectories (ensureParent d p).1 := by
  rw [ensureParent]
  split
  · exact .refl d
  · split
    · exact .refl d
    · rename_i parent _ _
      have hadds := d.makeDirectories_adds (p := parent)
      split <;> rename_i h <;> rw [h] at hadds <;> exact hadds

/-- A spot with a name and no slash behind it is what the path leads to. -/
theorem Disk.locate_of_spot {s : Spot} {name : String} (h : d.spot p = .ok s)
    (hname : s.name = some name) (hslash : s.slashed = false) :
    d.locate p = d.enter s.directory name := by
  simp only [spot, bind_eq_ok] at h
  obtain ⟨q, hq, h⟩ := h
  obtain rfl := checked_eq_ok hq
  split at h
  · rw [← Except.ok.inj h] at hname
    cases hname
  · rename_i last before hdrop
    simp only [bind_eq_ok] at h
    obtain ⟨l₀, hfollow, l, henter, h⟩ := h
    have hs := (Except.ok.inj h).symm
    subst hs
    -- No slash follows the name, so the path is taken apart into what is before it and the name.
    have htake : (names q).reverse.takeWhile (· = []) = [] := by simpa using hslash
    have hnames : names q = before.reverse ++ [last] := by
      rw [← List.reverse_cons, ← hdrop, ← List.nil_append (List.dropWhile _ _), ← htake,
        List.takeWhile_append_dropWhile, List.reverse_reverse]
    have hlast : String.ofList last = name := by
      dsimp only at hname
      split at hname
      · cases hname
      · exact Option.some.inj hname
    have hl : l = l₀ := by
      simp only [enter, directory_of_enter henter] at henter
      exact (Except.ok.inj henter).symm
    rw [follow] at hfollow
    rw [locate, hq, ← hlast, hl]
    change d.follow q (names q) = _
    rw [follow, hnames, List.map_append, List.foldlM_append, hfollow]
    change List.foldlM d.enter l₀ [String.ofList last] = _
    rw [List.foldlM_cons]
    cases d.enter l₀ (String.ofList last) <;> rfl

/-- A write puts the file where its path leads. -/
theorem Disk.write_eq_ok {content : List UInt8} (h : d.write p content = .ok d') :
    ∃ l, d.locate p = .ok l ∧ d.Free l ∧ d' = d.put l (.file content) := by
  rw [write, bind_eq_ok] at h
  obtain ⟨s, hs, h⟩ := h
  cases hname : s.name with
  | none =>
      rw [hname] at h
      cases h
  | some name =>
      simp only [hname] at h
      split at h
      · cases h
      · rename_i hslash
        obtain ⟨l, hl, h⟩ := bind_eq_ok.mp h
        split at h
        · cases h
        · rename_i hn
          refine ⟨l, ?_, free_of_enter hl hn, (Except.ok.inj h).symm⟩
          rw [locate_of_spot hs hname (Bool.not_eq_true _ ▸ hslash), hl]

/-- **What writing a file changes.**  It adds directories; and then, unless it fails, it puts the
file where its path leads, which is free. -/
theorem writeFile_cases (d : Disk) (p : Path) (source : String) :
    (∃ e d', writeFile d p source = (d', .error e) ∧ d.AddsDirectories d') ∨
      ∃ d₁ l, writeFile d p source = (d₁.put l (.file (Json.bytesOf source)), .ok ()) ∧
        d.AddsDirectories d₁ ∧ d₁.locate p = .ok l ∧ d₁.Free l := by
  have hadds := ensureParent_adds (d := d) (p := p)
  rw [writeFile]
  rcases hmade : ensureParent d p with ⟨d₁, e | _⟩ <;> rw [hmade] at hadds
  · exact .inl ⟨e, d₁, rfl, hadds⟩
  · dsimp only
    split
    · rename_i d₂ hw
      obtain ⟨l, hl, hfree, rfl⟩ := Disk.write_eq_ok hw
      exact .inr ⟨d₁, l, rfl, hadds, hl, hfree⟩
    · exact .inl ⟨_, d₁, rfl, hadds⟩

end Writing

end RowTypes
