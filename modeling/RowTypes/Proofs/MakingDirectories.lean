import Mathlib.Data.List.TakeWhile
import RowTypes.Proofs.PlainPaths

/-!
# Making directories — one after another

A directory is made by asking for it and, when something on the way is missing, for its parent
first.  On a plain path that comes to the same as going down its names and making what is missing
(`Disk.makeAlong`): **both leave the same disk and end in the same way** (`ensureChain_eq`).

Going down the names, what a disk has more of does not matter, if it is directories that would be
made anyway (`makeAlong_grown`).
-/

namespace RowTypes

namespace Disk

variable {d d₀ d' : Disk} {p : Path} {l l' : Location} {n : String} {ns : List String}

/-- Where a path starts. -/
def base (d : Disk) (p : Path) : Location := if p.isAbsolute then [] else d.current

/-- Where a plain path leads. -/
def place (d : Disk) (p : Path) : Location := d.base p ++ p.way

theorem node?_base (d : Disk) (p : Path) : d.node? (d.base p) = some .directory := by
  rw [base]
  split
  · exact node?_nil
  · exact node?_of_isPrefix List.prefix_rfl

theorem base_congr (h : d'.current = d.current) (p : Path) : d'.base p = d.base p := by
  rw [base, base, h]

theorem place_congr (h : d'.current = d.current) (p : Path) : d'.place p = d.place p := by
  rw [place, place, base_congr h]

/-! ### Going down names -/

theorem enter_name (hn : Path.OrdinaryName n) (hl : d.node? l = some .directory) :
    d.enter l n =
      if nameLimit < n.utf8ByteSize then .error .nameTooLong else .ok (l ++ [n]) := by
  rw [enter, hl]
  dsimp only
  rw [if_neg (by simp [hn.1, hn.2.1]), if_neg hn.2.2]

theorem enter_empty (hl : d.node? l = some .directory) : d.enter l "" = .ok l := by
  rw [enter, hl]
  rfl

theorem enter_dot (hl : d.node? l = some .directory) : d.enter l "." = .ok l := by
  rw [enter, hl]
  rfl

theorem foldlM_enter_cons (hn : Path.OrdinaryName n) (hl : d.node? l = some .directory) :
    (n :: ns).foldlM d.enter l =
      if nameLimit < n.utf8ByteSize then .error .nameTooLong
      else ns.foldlM d.enter (l ++ [n]) := by
  rw [List.foldlM_cons, enter_name hn hl]
  split <;> rfl

/-- Where there is no directory, no name can be entered, and the name does not matter. -/
theorem enter_error (hl : d.node? l ≠ some .directory) :
    ∃ f, f ≠ .nameTooLong ∧ f ≠ .exists ∧ ∀ n, d.enter l n = .error f := by
  cases hn : d.node? l with
  | none => exact ⟨.notFound, by decide, by decide, fun n => by rw [enter, hn]⟩
  | some node =>
      cases node with
      | directory => exact absurd hn hl
      | file c => exact ⟨.notDirectory, by decide, by decide, fun n => by rw [enter, hn]⟩

/-- Empty pieces before a name do not matter. -/
theorem enter_pieces (qs : List (List Char)) (n : String) :
    ((qs.map String.ofList).foldlM d.enter l >>= fun l => d.enter l n) =
      ((Path.namesOf qs).foldlM d.enter l >>= fun l => d.enter l n) := by
  induction qs generalizing l with
  | nil => rfl
  | cons q qs ih =>
      by_cases hq : q = []
      · subst hq
        rw [Path.namesOf_cons_nil, ← ih, List.map_cons, List.foldlM_cons]
        by_cases hl : d.node? l = some .directory
        · rw [show String.ofList [] = "" from rfl, enter_empty hl]
          rfl
        · obtain ⟨f, -, -, hf⟩ := enter_error hl
          rw [hf]
          cases qs with
          | nil => exact (hf n).symm
          | cons r rs =>
              rw [List.map_cons, List.foldlM_cons, hf]
              rfl
      · rw [Path.namesOf_cons hq, List.map_cons, List.foldlM_cons, List.foldlM_cons]
        simp only [bind_assoc]
        exact congrArg _ (funext fun l => ih)

/-- Pieces without a name lead nowhere else. -/
theorem foldlM_enter_void {qs : List (List Char)} (hqs : Path.namesOf qs = [])
    (hl : d.node? l = some .directory) : (qs.map String.ofList).foldlM d.enter l = .ok l := by
  induction qs with
  | nil => rfl
  | cons q qs ih =>
      by_cases hq : q = []
      · subst hq
        rw [Path.namesOf_cons_nil] at hqs
        rw [List.map_cons, List.foldlM_cons, show String.ofList [] = "" from rfl, enter_empty hl]
        exact ih hqs
      · rw [Path.namesOf_cons hq] at hqs
        cases hqs

/-! ### Making what is missing -/

/-- Goes down names from a directory and makes the directories that are missing. -/
def makeAlong (d : Disk) (l : Location) : List String → Disk × Except Fault Unit
  | [] => (d, .ok ())
  | n :: ns =>
      if nameLimit < n.utf8ByteSize then (d, .error .nameTooLong)
      else match d.node? (l ++ [n]) with
        | none => (d.put (l ++ [n]) .directory).makeAlong (l ++ [n]) ns
        | some .directory => d.makeAlong (l ++ [n]) ns
        | some (.file _) => (d, .error (if ns = [] then .exists else .notDirectory))

/-- A directory that is made is there. -/
theorem node?_made (hl : d.node? l = some .directory) (hn : d.node? (l ++ [n]) = none) :
    (d.put (l ++ [n]) .directory).node? (l ++ [n]) = some .directory := by
  rw [node?_put (free_of_none hl hn), if_pos rfl]

theorem makeAlong_adds (hl : d.node? l = some .directory) (ns : List String) :
    d.AddsDirectories (d.makeAlong l ns).1 := by
  induction ns generalizing d l with
  | nil => exact .refl d
  | cons n ns ih =>
      rw [makeAlong]
      split
      · exact .refl d
      · split
        · rename_i hnone
          exact (addsDirectories_put (free_of_none hl hnone) hnone).trans (ih (node?_made hl hnone))
        · exact ih ‹_›
        · exact .refl d

/-- The last name comes last.  A file there is in the way of what is below it. -/
theorem makeAlong_concat (l : Location) (ns : List String) (n : String) :
    d.makeAlong l (ns ++ [n]) =
      match d.makeAlong l ns with
      | (d', .ok ()) => d'.makeAlong (l ++ ns) [n]
      | (d', .error .exists) => (d', .error .notDirectory)
      | (d', .error f) => (d', .error f) := by
  induction ns generalizing d l with
  | nil => simp [makeAlong]
  | cons m ns ih =>
      rw [List.cons_append, makeAlong, makeAlong]
      split
      · rfl
      · split
        · rw [ih, List.append_assoc, List.singleton_append]
        · rw [ih, List.append_assoc, List.singleton_append]
        · cases ns <;> simp

/-- When all directories are made, they are there. -/
theorem node?_of_makeAlong (hl : d.node? l = some .directory)
    (h : d.makeAlong l ns = (d', .ok ())) {ms : List String} (hms : ms <+: ns) :
    d'.node? (l ++ ms) = some .directory := by
  induction ns generalizing d l ms with
  | nil =>
      cases h
      rwa [List.prefix_nil.mp hms, List.append_nil]
  | cons n ns ih =>
      rw [makeAlong] at h
      have hadds := makeAlong_adds hl (n :: ns)
      rw [makeAlong, h] at hadds
      cases ms with
      | nil =>
          rw [List.append_nil]
          exact hadds.node hl
      | cons m ms =>
          obtain ⟨rfl, hrest⟩ := List.cons_prefix_cons.mp hms
          rw [List.append_cons]
          split at h
          · cases h
          · split at h
            · exact ih (node?_made hl ‹_›) h hrest
            · exact ih ‹_› h hrest
            · cases h

/-- When all directories are made, none of their names was too long. -/
theorem foldlM_enter_of_makeAlong (hns : ∀ n ∈ ns, Path.OrdinaryName n)
    (hl : d.node? l = some .directory) (h : d.makeAlong l ns = (d', .ok ())) :
    ns.foldlM d'.enter l = .ok (l ++ ns) := by
  induction ns generalizing d l with
  | nil => exact congrArg _ (List.append_nil l).symm
  | cons n ns ih =>
      have hdir := node?_of_makeAlong hl h (List.nil_prefix)
      rw [List.append_nil] at hdir
      rw [foldlM_enter_cons (hns n (.head _)) hdir]
      rw [makeAlong] at h
      split at h
      · cases h
      · rename_i hshort
        have hrest : ∀ m ∈ ns, Path.OrdinaryName m := fun m hm => hns m (.tail _ hm)
        rw [if_neg hshort, List.append_cons l n ns]
        split at h
        · exact ih hrest (node?_made hl ‹_›) h
        · exact ih hrest ‹_› h
        · cases h

/-- Where nothing is below a directory, only a name that is too long can be in the way. -/
theorem makeAlong_empty (hl : d.node? l = some .directory)
    (h : ∀ s ≠ [], d.node? (l ++ s) = none) (ns : List String) :
    (d.makeAlong l ns).2 = .ok () ∨ (d.makeAlong l ns).2 = .error .nameTooLong := by
  induction ns generalizing d l with
  | nil => exact .inl rfl
  | cons n ns ih =>
      rw [makeAlong]
      split
      · exact .inr rfl
      · have hnone := h [n] (List.cons_ne_nil n [])
        rw [hnone]
        refine ih (node?_made hl hnone) fun s hs => ?_
        rw [node?_put (free_of_none hl hnone), if_neg (by simpa using hs), List.append_assoc]
        exact h _ (by simp)

/-- How going down the names ends, and what comes of making the directories there. -/
theorem makeAlong_cases (hl : d.node? l = some .directory)
    (hns : ∀ n ∈ ns, Path.OrdinaryName n) :
    (ns.foldlM d.enter l = .ok (l ++ ns) ∧ d.node? (l ++ ns) = some .directory ∧
        d.makeAlong l ns = (d, .ok ())) ∨
      (∃ c, ns.foldlM d.enter l = .ok (l ++ ns) ∧ d.node? (l ++ ns) = some (.file c) ∧
        d.makeAlong l ns = (d, .error .exists)) ∨
      (∃ f, (f = .notDirectory ∨ f = .nameTooLong) ∧ ns.foldlM d.enter l = .error f ∧
        d.makeAlong l ns = (d, .error f)) ∨
      ((ns.foldlM d.enter l = .error .notFound ∨
          (ns.foldlM d.enter l = .ok (l ++ ns) ∧ d.node? (l ++ ns) = none)) ∧
        ((d.makeAlong l ns).2 = .ok () ∨ (d.makeAlong l ns).2 = .error .nameTooLong)) := by
  induction ns generalizing l with
  | nil => exact .inl ⟨by rw [List.append_nil]; rfl, by rwa [List.append_nil], rfl⟩
  | cons n ns ih =>
      have hrest : ∀ m ∈ ns, Path.OrdinaryName m := fun m hm => hns m (.tail _ hm)
      rw [foldlM_enter_cons (hns n (.head _)) hl, makeAlong, List.append_cons l n ns]
      by_cases hlong : nameLimit < n.utf8ByteSize
      · rw [if_pos hlong, if_pos hlong]
        exact .inr (.inr (.inl ⟨_, .inr rfl, rfl, rfl⟩))
      · rw [if_neg hlong, if_neg hlong]
        cases hnode : d.node? (l ++ [n]) with
        | none =>
            refine .inr (.inr (.inr
              ⟨?_, makeAlong_empty (node?_made hl hnode) (fun s hs => ?_) ns⟩))
            · cases ns with
              | nil => exact .inr ⟨by rw [List.append_nil]; rfl, by rwa [List.append_nil]⟩
              | cons m ms =>
                  refine .inl ?_
                  rw [List.foldlM_cons, enter, hnode]
                  rfl
            · rw [node?_put (free_of_none hl hnode), if_neg (by simpa using hs)]
              exact node?_append hnode s
        | some node =>
            cases node with
            | directory => exact ih hnode hrest
            | file c =>
                cases ns with
                | nil =>
                    exact .inr (.inl ⟨c, by rw [List.append_nil]; rfl, by rwa [List.append_nil],
                      rfl⟩)
                | cons m ms =>
                    refine .inr (.inr (.inl ⟨_, .inl rfl, ?_, rfl⟩))
                    rw [List.foldlM_cons, enter, hnode]
                    rfl

/-! ### Paths to new nodes -/

/-- A path that ends with a slash. -/
def slashed (p : Path) : Bool := p.allPieces.getLast? = some []

/-- Pieces from the last name back. -/
theorem exists_dropWhile {qs : List (List Char)} (h : Path.namesOf qs = ns ++ [n]) :
    ∃ last before, qs.reverse.dropWhile (· = []) = last :: before ∧ String.ofList last = n ∧
      Path.namesOf before.reverse = ns := by
  have hsplit : qs = (qs.reverse.dropWhile (· = [])).reverse ++
      (qs.reverse.takeWhile (· = [])).reverse := by
    rw [← List.reverse_append, List.takeWhile_append_dropWhile, List.reverse_reverse]
  have hvoid : Path.namesOf (qs.reverse.takeWhile (· = [])).reverse = [] := by
    rw [Path.namesOf, List.map_eq_nil_iff, List.filter_eq_nil_iff]
    intro q hq
    have hq := List.all_eq_true.mp List.all_takeWhile q (List.mem_reverse.mp hq)
    simpa using hq
  rw [hsplit, Path.namesOf_append, hvoid, List.append_nil] at h
  cases hdrop : qs.reverse.dropWhile (· = []) with
  | nil =>
      rw [hdrop] at h
      simp at h
  | cons last before =>
      have hlast : last ≠ [] := by
        have hnot := List.head?_dropWhile_not (· = []) qs.reverse
        rw [hdrop] at hnot
        simpa using hnot
      rw [hdrop, List.reverse_cons, Path.namesOf_append, Path.namesOf_cons hlast,
        Path.namesOf_nil] at h
      obtain ⟨hbefore, hn⟩ := List.append_inj' h rfl
      exact ⟨last, before, rfl, (List.cons.inj hn).1, hbefore⟩

theorem takeWhile_ne_nil_iff (qs : List (List Char)) :
    qs.reverse.takeWhile (· = []) ≠ [] ↔ qs.getLast? = some [] := by
  rw [← List.head?_reverse]
  cases qs.reverse with
  | nil => simp
  | cons q rs =>
      by_cases hq : q = [] <;> simp [hq]

/-- A plain path makes a new node in the directory before its last name. -/
theorem spot_eq (hp : p.Plain) (hc : checked p = .ok p) (hway : p.way = ns ++ [n]) :
    d.spot p = (ns.foldlM d.enter (d.base p) >>= fun l => d.enter l ".") >>= fun l =>
      .ok ⟨l, some n, slashed p⟩ := by
  obtain ⟨last, before, hdrop, rfl, rfl⟩ := exists_dropWhile hway
  have hname := hp.ordinaryName (n := String.ofList last) (by rw [hway]; simp)
  rw [← enter_pieces, spot, hc]
  change ((pure p : Except Fault Path) >>= _) = _
  rw [pure_bind, names, ← Path.allPieces, hdrop]
  simp only [bind_assoc]
  refine congrArg _ (funext fun l => congrArg _ (funext fun l => ?_))
  simp only [hname.2.1, hname.2.2, or_false, if_false, takeWhile_ne_nil_iff, slashed]

/-- Without a name there is no place for a new node. -/
theorem spot_eq_of_way_nil (hc : checked p = .ok p) (hway : p.way = []) :
    d.spot p = .ok ⟨[], none, true⟩ := by
  have hdrop : p.allPieces.reverse.dropWhile (· = []) = [] := by
    rw [List.dropWhile_eq_nil_iff]
    intro q hq
    rw [Path.way, Path.namesOf, List.map_eq_nil_iff, List.filter_eq_nil_iff] at hway
    simpa using hway q (List.mem_reverse.mp hq)
  rw [spot, hc]
  change ((pure p : Except Fault Path) >>= _) = _
  rw [pure_bind, names, ← Path.allPieces, hdrop]

/-- Where a plain path without a slash at its end leads. -/
theorem locate_eq (hc : checked p = .ok p) (hslash : slashed p = false)
    (hway : p.way = ns ++ [n]) :
    d.locate p = ns.foldlM d.enter (d.base p) >>= fun l => d.enter l n := by
  have hlast : p.allPieces.getLast? ≠ some [] := by simpa [slashed] using hslash
  obtain ⟨qs, q, hqs⟩ : ∃ qs q, p.allPieces = qs ++ [q] := by
    rcases List.eq_nil_or_concat' p.allPieces with h | h
    · exact absurd h (Path.pieces_ne_nil _)
    · exact h
  have hq : q ≠ [] := by
    rintro rfl
    exact hlast (by rw [hqs, List.getLast?_concat])
  rw [Path.way, hqs, Path.namesOf_append, Path.namesOf_cons hq, Path.namesOf_nil] at hway
  obtain ⟨rfl, hn⟩ := List.append_inj' hway rfl
  obtain rfl := (List.cons.inj hn).1
  rw [← enter_pieces, locate, hc]
  change ((p.allPieces.map String.ofList).foldlM d.enter _) = _
  rw [hqs, List.map_append, List.foldlM_append]
  refine congrArg _ (funext fun l => ?_)
  rw [List.map_singleton, List.foldlM_cons]
  cases d.enter l (String.ofList q) <;> rfl

/-! ### Making the directories of a path -/

theorem openNode_eq : d.openNode p = d.locate p >>= fun l =>
    match d.node? l with | some n => .ok n | none => .error .notFound := by
  rw [openNode, locate]
  exact (bind_assoc (checked p) _ _).symm

theorem makeDirectory_eq (hp : p.Plain) (hc : checked p = .ok p) (hway : p.way = ns ++ [n]) :
    d.makeDirectory p = ns.foldlM d.enter (d.base p) >>= fun l => d.enter l "." >>= fun l =>
      d.enter l n >>= fun l =>
        if (d.node? l).isSome then .error .exists else .ok (d.put l .directory) := by
  rw [makeDirectory, spot_eq hp hc hway]
  simp only [bind_assoc]
  rfl

theorem ensureDirectory_of_error {f g : Fault} (h : d.makeDirectory p = .error f)
    (hopen : d.openNode p = .error g) : d.ensureDirectory p = (d, .error f) := by
  rw [ensureDirectory, h, isDirectory, hopen]
  rfl

/-- With its parent there, a directory is made or not as the last name is. -/
theorem ensureDirectory_eq (hp : p.Plain) (hc : checked p = .ok p) (hslash : slashed p = false)
    (hway : p.way = ns ++ [n]) (hwalk : ns.foldlM d.enter (d.base p) = .ok l)
    (hl : d.node? l = some .directory) : d.ensureDirectory p = d.makeAlong l [n] := by
  have hname := hp.ordinaryName (n := n) (by rw [hway]; simp)
  have hmake : d.makeDirectory p = d.enter l n >>= fun l =>
      if (d.node? l).isSome then .error .exists else .ok (d.put l .directory) := by
    rw [makeDirectory_eq hp hc hway, hwalk]
    change (d.enter l "." >>= _) = _
    rw [enter_dot hl]
    rfl
  have hopen : d.openNode p = d.enter l n >>= fun l =>
      match d.node? l with | some n => .ok n | none => .error .notFound := by
    rw [openNode_eq, locate_eq hc hslash hway, hwalk]
    rfl
  rw [enter_name hname hl] at hmake hopen
  rw [makeAlong]
  by_cases hlong : nameLimit < n.utf8ByteSize
  · rw [if_pos hlong] at hmake hopen ⊢
    exact ensureDirectory_of_error hmake hopen
  · rw [if_neg hlong] at hmake hopen ⊢
    change d.makeDirectory p = if (d.node? (l ++ [n])).isSome then _ else _ at hmake
    change d.openNode p = match d.node? (l ++ [n]) with | some n => _ | none => _ at hopen
    cases hnode : d.node? (l ++ [n]) with
    | none =>
        rw [hnode] at hmake
        rw [ensureDirectory, hmake]
        rfl
    | some node =>
        rw [hnode] at hmake hopen
        rw [ensureDirectory, hmake, isDirectory, hopen]
        cases node <;> rfl

/-- The beginning of a path that can be passed on can be passed on, unless it is empty. -/
theorem checked_of_isPrefix {q : Path} (hc : checked p = .ok p) (hq : q.isEmpty = false)
    (h : q.text.toList <+: p.text.toList) : checked q = .ok q := by
  have hsize : q.text.utf8ByteSize ≤ p.text.utf8ByteSize := by
    obtain ⟨rest, hrest⟩ := h
    rw [← String.ofList_toList (s := p.text), ← hrest, String.ofList_append,
      String.ofList_toList, String.utf8ByteSize_append]
    exact Nat.le_add_right _ _
  have hempty : q.text ≠ "" := by simpa [Path.isEmpty] using hq
  rw [checked] at hc ⊢
  split at hc
  · cases hc
  · rename_i hnul
    rw [if_neg fun hmem => hnul (h.mem hmem), if_neg hempty]
    split at hc
    · cases hc
    · split at hc
      · cases hc
      · rename_i hlong
        rw [if_neg fun hq => hlong (Nat.le_trans hq hsize)]

/-- The root and the current directory are there. -/
theorem ensureChain_of_way_nil (hp : p.Plain) (hc : p.isEmpty = true ∨ checked p = .ok p)
    (hway : p.way = []) (k : Nat) :
    d.ensureChain (p.ancestorsWithin k) = d.makeAlong (d.base p) p.way := by
  have hchain : p.ancestorsWithin k = [p] := by
    cases k with
    | zero => rfl
    | succ k => rw [Path.ancestorsWithin, hp.parent?_eq_none hway]
  rw [hchain, hway, ensureChain, makeAlong]
  split
  · rfl
  · rename_i hempty
    have hc := hc.resolve_left hempty
    have hmake : d.makeDirectory p = .error .exists := by
      rw [makeDirectory, spot_eq_of_way_nil hc hway]
      rfl
    have hopen : d.openNode p = .ok .directory := by
      rw [openNode_eq, locate, hc]
      change ((p.allPieces.map String.ofList).foldlM d.enter (d.base p) >>= _) = _
      rw [foldlM_enter_void hway (d.node?_base p)]
      change (match d.node? (d.base p) with | some n => _ | none => _) = _
      rw [node?_base]
    rw [hmake]
    change d.ensureDirectory p = _
    rw [ensureDirectory, hmake, isDirectory, hopen]
    rfl

theorem ensureChain_of_ne (hp : p.isEmpty = false) (h : d.makeDirectory p ≠ .error .notFound)
    (above : List Path) : d.ensureChain (p :: above) = d.ensureDirectory p := by
  rw [ensureChain, hp, if_neg Bool.false_ne_true]
  split
  · exact absurd ‹_› h
  · rfl

theorem ensureChain_of_notFound (hp : p.isEmpty = false)
    (h : d.makeDirectory p = .error .notFound) (above : List Path) :
    d.ensureChain (p :: above) =
      match d.ensureChain above with
      | (d', .ok ()) => d'.ensureDirectory p
      | failed => failed := by
  rw [ensureChain, hp, h]
  rfl

theorem isEmpty_eq_false (hway : p.way = ns ++ [n]) : p.isEmpty = false := by
  rw [← Bool.not_eq_true, Path.isEmpty, decide_eq_true_eq]
  intro h
  rw [Path.way, Path.allPieces, h] at hway
  simp [Path.pieces, Path.namesOf] at hway

section Parent

variable (hp : p.Plain) (hc : checked p = .ok p) (hway : p.way = ns ++ [n])

include hp hc hway

/-- The parent is missing. -/
theorem makeDirectory_of_missing (h : ns.foldlM d.enter (d.base p) = .error .notFound ∨
    ns.foldlM d.enter (d.base p) = .ok l ∧ d.node? l = none) :
    d.makeDirectory p = .error .notFound := by
  rw [makeDirectory_eq hp hc hway]
  rcases h with hwalk | ⟨hwalk, hnone⟩
  · rw [hwalk]
    rfl
  · rw [hwalk]
    change (d.enter l "." >>= _) = _
    rw [enter, hnone]
    rfl

variable (hslash : slashed p = false)

include hslash

/-- The parent is there. -/
theorem ensureChain_of_parent (hwalk : ns.foldlM d.enter (d.base p) = .ok l)
    (hl : d.node? l = some .directory) (above : List Path) :
    d.ensureChain (p :: above) = d.makeAlong l [n] := by
  have hname := hp.ordinaryName (n := n) (by rw [hway]; simp)
  have hmake := makeDirectory_eq (d := d) hp hc hway
  rw [hwalk] at hmake
  change d.makeDirectory p = d.enter l "." >>= _ at hmake
  rw [enter_dot hl] at hmake
  change d.makeDirectory p = d.enter l n >>= _ at hmake
  rw [enter_name hname hl] at hmake
  have hne : d.makeDirectory p ≠ .error .notFound := by
    rw [hmake]
    split
    · exact fun h => nomatch h
    · change (if (d.node? (l ++ [n])).isSome then _ else _) ≠ _
      split <;> exact fun h => nomatch h
  rw [ensureChain_of_ne (isEmpty_eq_false hway) hne]
  exact ensureDirectory_eq hp hc hslash hway hwalk hl

/-- A file is where the parent should be. -/
theorem ensureChain_of_file {c : List UInt8} (hwalk : ns.foldlM d.enter (d.base p) = .ok l)
    (hl : d.node? l = some (.file c)) (above : List Path) :
    d.ensureChain (p :: above) = (d, .error .notDirectory) := by
  have henter : ∀ m, d.enter l m = .error .notDirectory := fun m => by rw [enter, hl]
  have hmake : d.makeDirectory p = .error .notDirectory := by
    rw [makeDirectory_eq hp hc hway, hwalk]
    change (d.enter l "." >>= _) = _
    rw [henter]
    rfl
  have hopen : d.openNode p = .error .notDirectory := by
    rw [openNode_eq, locate_eq hc hslash hway, hwalk]
    change (d.enter l n >>= _) = _
    rw [henter]
    rfl
  rw [ensureChain_of_ne (isEmpty_eq_false hway) (by simp [hmake])]
  exact ensureDirectory_of_error hmake hopen

/-- The way to the parent is barred. -/
theorem ensureChain_of_barred {f : Fault} (hwalk : ns.foldlM d.enter (d.base p) = .error f)
    (hf : f ≠ .notFound) (above : List Path) : d.ensureChain (p :: above) = (d, .error f) := by
  have hmake : d.makeDirectory p = .error f := by
    rw [makeDirectory_eq hp hc hway, hwalk]
    rfl
  have hopen : d.openNode p = .error f := by
    rw [openNode_eq, locate_eq hc hslash hway, hwalk]
    rfl
  rw [ensureChain_of_ne (isEmpty_eq_false hway) fun h => hf (Except.error.inj (hmake ▸ h))]
  exact ensureDirectory_of_error hmake hopen

/-- With the parent's directories made, or not, comes the last name. -/
theorem ensureChain_cons_eq {above : List Path}
    (habove : d.ensureChain above = d.makeAlong (d.base p) ns) :
    d.ensureChain (p :: above) = d.makeAlong (d.base p) p.way := by
  have hns : ∀ m ∈ ns, Path.OrdinaryName m := fun m hm =>
    hp.ordinaryName (by rw [hway]; exact List.mem_append_left _ hm)
  have hbase := d.node?_base p
  rw [hway, makeAlong_concat]
  rcases makeAlong_cases hbase hns with
    ⟨hwalk, hdir, hmade⟩ | ⟨c, hwalk, hfile, hmade⟩ | ⟨f, hf, hwalk, hmade⟩ | ⟨hwalk, hmade⟩
  · rw [hmade, ensureChain_of_parent hp hc hway hslash hwalk hdir]
  · rw [hmade, ensureChain_of_file hp hc hway hslash hwalk hfile]
  · rcases hf with rfl | rfl <;>
      rw [hmade, ensureChain_of_barred hp hc hway hslash hwalk (fun h => nomatch h)]
  · have hmissing := makeDirectory_of_missing hp hc hway hwalk
    rw [ensureChain_of_notFound (isEmpty_eq_false hway) hmissing, habove]
    rcases hr : d.makeAlong (d.base p) ns with ⟨d', r⟩
    rw [hr] at hmade
    rcases hmade with rfl | rfl
    · have hadds := makeAlong_adds hbase ns
      rw [hr] at hadds
      have hdir := node?_of_makeAlong hbase hr List.prefix_rfl
      have hwalk' := foldlM_enter_of_makeAlong hns hbase hr
      rw [← base_congr hadds.current] at hdir hwalk' ⊢
      exact ensureDirectory_eq hp hc hslash hway hwalk' hdir
    · rfl

end Parent

/-- **Asking for a directory makes what is missing on the way to it**, name by name. -/
theorem ensureChain_eq (hp : p.Plain) (hc : p.isEmpty = true ∨ checked p = .ok p)
    (hslash : p.way = [] ∨ slashed p = false) {k : Nat} (hk : p.way.length ≤ k) :
    d.ensureChain (p.ancestorsWithin k) = d.makeAlong (d.base p) p.way := by
  induction k generalizing p with
  | zero =>
      exact ensureChain_of_way_nil hp hc (List.length_eq_zero_iff.mp (Nat.le_zero.mp hk)) 0
  | succ k ih =>
      rcases List.eq_nil_or_concat' p.way with hway | ⟨ns, n, hway⟩
      · exact ensureChain_of_way_nil hp hc hway _
      have hslash : slashed p = false := hslash.resolve_left (by simp [hway])
      have hc : checked p = .ok p := hc.resolve_left (by simp [isEmpty_eq_false hway])
      obtain ⟨q, hparent, hq, hqway, habs, hprefix, hqslash⟩ := hp.exists_parent hway
      have hqbase : d.base q = d.base p := by rw [base, base, habs]
      have habove : d.ensureChain (q.ancestorsWithin k) = d.makeAlong (d.base p) ns := by
        rw [← hqbase, ← hqway]
        refine ih hq ?_ ?_ ?_
        · cases h : q.isEmpty
          · exact .inr (checked_of_isPrefix hc h hprefix)
          · exact .inl rfl
        · by_cases h : slashed q = true
          · exact .inl (hqway.trans (hqslash (by simpa [slashed] using h)))
          · exact .inr (by simpa using h)
        · rw [hqway]
          rw [hway, List.length_append] at hk
          exact Nat.le_of_succ_le_succ hk
      rw [Path.ancestorsWithin, hparent]
      exact ensureChain_cons_eq hp hc hway hslash habove

/-! ### Down the same names on a disk with more directories -/

/-- From `d` to `d'` changes what changes from `d₀` to `d₀'`, and in the same way. -/
def SameChange (d₀ d₀' d d' : Disk) : Prop :=
  ∀ x, d'.node? x = if d₀'.node? x = d₀.node? x then d.node? x else d₀'.node? x

theorem SameChange.refl (d₀ d : Disk) : SameChange d₀ d₀ d d := fun _ => (if_pos rfl).symm

/-- A change that starts with a new directory, which may be there already on the other side. -/
theorem SameChange.of_put {d₀' d₁ d₁' : Disk} (hfree : d₀.Free l) (hnone : d₀.node? l = none)
    (hdir : d₁.node? l = some .directory) (hother : ∀ x ≠ l, d₁.node? x = d.node? x)
    (hadds : (d₀.put l .directory).AddsDirectories d₀')
    (h : SameChange (d₀.put l .directory) d₀' d₁ d₁') : SameChange d₀ d₀' d d₁' := by
  intro x
  have hx := h x
  rw [node?_put hfree] at hx
  by_cases heq : x = l
  · subst heq
    have hnew : d₀'.node? x = some .directory := hadds.node (by rw [node?_put hfree, if_pos rfl])
    rw [if_pos rfl, if_pos hnew, hdir] at hx
    rw [hx, hnew, hnone, if_neg (fun h => nomatch h)]
  · rw [if_neg heq, hother x heq] at hx
    exact hx

/-- Going down names changes nothing but the places on the way. -/
theorem node?_makeAlong_of_ne {x : Location} (hl : d.node? l = some .directory)
    (hx : ∀ ms, ms <+: ns → x ≠ l ++ ms) :
    (d.makeAlong l ns).1.node? x = d.node? x := by
  induction ns generalizing d l with
  | nil => rfl
  | cons n ns ih =>
      have hrest : ∀ ms, ms <+: ns → x ≠ l ++ [n] ++ ms := fun ms hms => by
        rw [← List.append_cons]
        exact hx _ ((List.prefix_cons_inj n).mpr hms)
      have hhere : x ≠ l ++ [n] := by simpa using hrest [] List.nil_prefix
      rw [makeAlong]
      split
      · rfl
      · split
        · rename_i hnone
          rw [ih (node?_made hl hnone) hrest, node?_put (free_of_none hl hnone), if_neg hhere]
        · exact ih ‹_› hrest
        · rfl

/-- Down names from a location, directories have come to a disk, and nothing else. -/
def GrownAlong (d₀ d : Disk) (l : Location) (ns : List String) : Prop :=
  ∀ ms, ms <+: ns → ms ≠ [] → d.node? (l ++ ms) = d₀.node? (l ++ ms) ∨
    d₀.node? (l ++ ms) = none ∧ d.node? (l ++ ms) = some .directory

/-- **More directories on the way do not matter.**  Where a disk has directories that another one
lacks, going down the same names ends in the same way, and makes the same change. -/
theorem makeAlong_grown (hl₀ : d₀.node? l = some .directory) (hl : d.node? l = some .directory)
    (h : GrownAlong d₀ d l ns) :
    (d.makeAlong l ns).2 = (d₀.makeAlong l ns).2 ∧
      SameChange d₀ (d₀.makeAlong l ns).1 d (d.makeAlong l ns).1 := by
  induction ns generalizing d d₀ l with
  | nil => exact ⟨rfl, .refl d₀ d⟩
  | cons n ns ih =>
      have hhere := h [n] ((List.prefix_cons_inj n).mpr List.nil_prefix) (List.cons_ne_nil n [])
      have hrest : GrownAlong d₀ d (l ++ [n]) ns := by
        intro ms hms _
        rw [← List.append_cons]
        exact h _ ((List.prefix_cons_inj n).mpr hms) (List.cons_ne_nil n ms)
      -- A directory that is made on one side changes nothing below it.
      have hput (d : Disk) (hd : d.node? l = some .directory) (hnone : d.node? (l ++ [n]) = none)
          (ms : List String) (hms : ms ≠ []) :
          (d.put (l ++ [n]) .directory).node? (l ++ [n] ++ ms) = d.node? (l ++ [n] ++ ms) := by
        rw [node?_put (free_of_none hd hnone), if_neg (by simpa using hms)]
      rw [makeAlong, makeAlong]
      split
      · exact ⟨rfl, .refl d₀ d⟩
      · rcases hhere with hhere | ⟨hnone, hdir⟩
        · rw [hhere]
          split
          -- Both sides make the directory.
          · rename_i hnone
            have hnone' := hhere.trans hnone
            have hmade₀ := node?_made hl₀ hnone
            have hgrown : GrownAlong (d₀.put (l ++ [n]) .directory) (d.put (l ++ [n]) .directory)
                (l ++ [n]) ns := by
              intro ms hms hne
              rw [hput d hl hnone' ms hne, hput d₀ hl₀ hnone ms hne]
              exact hrest ms hms hne
            obtain ⟨hend, hsame⟩ := ih hmade₀ (node?_made hl hnone') hgrown
            refine ⟨hend, .of_put (free_of_none hl₀ hnone) hnone (node?_made hl hnone')
              (fun x hx => ?_) (makeAlong_adds hmade₀ ns) hsame⟩
            rw [node?_put (free_of_none hl hnone'), if_neg hx]
          · rename_i hdir
            exact ih hdir (hhere.trans hdir) hrest
          · exact ⟨rfl, .refl d₀ d⟩
        -- One side makes the directory, the other has it.
        · rw [hnone, hdir]
          have hmade₀ := node?_made hl₀ hnone
          have hgrown : GrownAlong (d₀.put (l ++ [n]) .directory) d (l ++ [n]) ns := by
            intro ms hms hne
            rw [hput d₀ hl₀ hnone ms hne]
            exact hrest ms hms hne
          obtain ⟨hend, hsame⟩ := ih hmade₀ hdir hgrown
          exact ⟨hend, .of_put (free_of_none hl₀ hnone) hnone hdir (fun x _ => rfl)
            (makeAlong_adds hmade₀ ns) hsame⟩

end Disk

end RowTypes
