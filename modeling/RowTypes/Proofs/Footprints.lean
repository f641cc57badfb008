import RowTypes.Proofs.Interleaving
import RowTypes.Proofs.MakingDirectories

/-!
# Footprints — what a job touches

Writing to a plain path goes down the names of its directory, and then looks at one place more, the
one of the file (`writeFile_plain`).  Reading looks at the places on the way only.

So what others do elsewhere does not matter.  Let a disk have grown from another on the way to a
place: directories have come there, and nothing else (`Disk.Grown`).  Then writing to that place
ends in the same way and makes the same change (**`writeFile_grown`**), and reading there gives the
same, with one exception: a name that is too long is found out only in a directory that exists, so
where that directory is new (`LateName`), "not found" becomes "too long" (**`openNode_grown`**).
-/

namespace RowTypes

namespace Disk

variable {d d₀ : Disk} {p : Path} {l : Location} {ns : List String} {n : String}

/-- Directories have come to a disk on the way to a place, and nothing else. -/
structure Grown (d₀ d : Disk) (l : Location) : Prop where
  current : d.current = d₀.current
  way : ∀ l', l' <+: l → l' ≠ l →
    d.node? l' = d₀.node? l' ∨ d₀.node? l' = none ∧ d.node? l' = some .directory
  here : d.node? l = d₀.node? l

/-- A name of the path is too long. -/
def HasLongName (p : Path) : Prop := ∃ n ∈ p.way, nameLimit < n.utf8ByteSize

/-- Of some names below a location, one is too long, and the directory for it has come. -/
def LateAlong (d₀ d : Disk) (l : Location) (way : List String) : Prop :=
  ∃ ns n, ns ++ [n] <+: way ∧ nameLimit < n.utf8ByteSize ∧
    d₀.node? (l ++ ns) = none ∧ d.node? (l ++ ns) = some .directory

/-- A name of the path is too long, and the directory in which it would lie has come. -/
def LateName (d₀ d : Disk) (p : Path) : Prop := LateAlong d₀ d (d₀.base p) p.way

theorem LateName.hasLongName (h : LateName d₀ d p) : HasLongName p := by
  obtain ⟨ns, n, hway, hlong, -⟩ := h
  exact ⟨n, hway.mem (by simp), hlong⟩

theorem place_eq (d : Disk) (hway : p.way = ns ++ [n]) :
    d.place p = d.base p ++ ns ++ [n] := by
  rw [place, hway, List.append_assoc]

/-- The names of the directory lead on the way to the file. -/
theorem isPrefix_place (d : Disk) (hway : p.way = ns ++ [n]) {ms : List String} (hms : ms <+: ns) :
    d.base p ++ ms <+: d.place p := by
  rw [place, hway]
  exact (List.prefix_append_right_inj _).mpr (hms.trans (List.prefix_append ns [n]))

theorem not_concat_isPrefix (ns : List String) (n : String) : ¬ ns ++ [n] <+: ns := by
  intro h
  have := h.length_le
  rw [List.length_append, List.length_singleton] at this
  omega

/-- The file is not on the way to its directory. -/
theorem place_ne (d : Disk) (hway : p.way = ns ++ [n]) {ms : List String} (hms : ms <+: ns) :
    d.place p ≠ d.base p ++ ms := by
  rw [place, hway]
  intro heq
  exact not_concat_isPrefix ns n (List.append_cancel_left heq ▸ hms)

/-! ### Writing -/

/-- A file is put where a plain path leads.  Whether it is refused is seen from the path and from
what is there. -/
theorem exists_write_eq (hp : p.Plain) (hway : p.way = ns ++ [n]) (content : List UInt8) :
    ∃ refused : Option Node → Option Fault, refused (some .directory) ≠ none ∧
      ∀ (d : Disk) (l : Location), ns.foldlM d.enter (d.base p) = .ok l →
        d.node? l = some .directory → d.write p content =
          match refused (d.node? (l ++ [n])) with
          | some f => .error f
          | none => .ok (d.put (l ++ [n]) (.file content)) := by
  cases hc : checked p with
  | error f =>
      refine ⟨fun _ => some f, fun h => (nomatch h), fun d l _ _ => ?_⟩
      rw [write, spot, hc]
      rfl
  | ok q =>
      obtain rfl := checked_eq_ok hc
      have hname := hp.ordinaryName (n := n) (by rw [hway]; simp)
      refine ⟨fun node => if slashed q then some .isDirectory
        else if nameLimit < n.utf8ByteSize then some .nameTooLong
        else if node = some .directory then some .isDirectory else none, ?_, fun d l hwalk hl => ?_⟩
      · split
        · simp
        · split <;> simp
      · have hspot : d.spot q = .ok ⟨l, some n, slashed q⟩ := by
          rw [spot_eq hp hc hway, hwalk]
          change (d.enter l "." >>= _) = _
          rw [enter_dot hl]
          rfl
        rw [write, hspot]
        change (if slashed q then _ else d.enter l n >>= _) = _
        rw [enter_name hname hl]
        split
        · rfl
        · split
          · rfl
          · change (if d.node? (l ++ [n]) = some .directory then _ else _) = _
            by_cases hdir : d.node? (l ++ [n]) = some .directory <;> simp [hdir]

/-- A path that cannot be passed on is refused at once. -/
theorem makeDirectories_of_checked {f : Fault} (hc : checked p = .error f)
    (hp : p.isEmpty = false) :
    d.makeDirectories p = (d, .error f) := by
  have hmake : d.makeDirectory p = .error f := by
    rw [makeDirectory, spot, hc]
    rfl
  have hopen : d.openNode p = .error f := by
    rw [openNode, hc]
    rfl
  have hne : f ≠ .notFound := by
    rintro rfl
    rw [checked] at hc
    split at hc
    · cases hc
    · split at hc
      · rename_i hempty
        rw [Path.isEmpty, decide_eq_false_iff_not] at hp
        exact hp hempty
      · split at hc <;> cases hc
  rw [makeDirectories, Path.ancestors]
  cases p.text.length <;>
    rw [Path.ancestorsWithin, ensureChain_of_ne hp (by rw [hmake]; simpa using hne),
      ensureDirectory_of_error hmake hopen]

theorem makeDirectories_eq (hp : p.Plain) (hc : p.isEmpty = true ∨ checked p = .ok p)
    (hslash : p.way = [] ∨ slashed p = false) :
    d.makeDirectories p = d.makeAlong (d.base p) p.way :=
  ensureChain_eq hp hc hslash p.length_way_le

/-- The directory of a plain path is made name by name, if it can be asked for at all. -/
theorem exists_ensureParent_eq (hp : p.Plain) (hway : p.way = ns ++ [n]) : ∃ barred : Fault → Error,
      (∃ f, ∀ d : Disk, ensureParent d p = (d, .error (barred f))) ∨
        ∀ d : Disk, ensureParent d p =
          match d.makeAlong (d.base p) ns with
          | (d', .ok ()) => (d', .ok ())
          | (d', .error f) => (d', .error (barred f)) := by
  obtain ⟨q, hparent, hq, rfl, habs, -, hslash⟩ := hp.exists_parent hway
  refine ⟨fun f => .output (.noDirectory q.text f), ?_⟩
  have hbase (d : Disk) : d.base q = d.base p := by rw [base, base, habs]
  have hslash : q.way = [] ∨ slashed q = false := by
    by_cases h : slashed q = true
    · exact .inl (hslash (by simpa [slashed] using h))
    · exact .inr (by simpa using h)
  cases hempty : q.isEmpty with
  | true =>
      refine .inr fun d => ?_
      have hmade := makeDirectories_eq (d := d) hq (.inl hempty) hslash
      rw [makeDirectories, Path.ancestors] at hmade
      cases hk : q.text.length <;>
        rw [hk, Path.ancestorsWithin, ensureChain, if_pos hempty, hbase] at hmade <;>
        rw [ensureParent, hparent, ← hmade] <;>
        simp [hempty]
  | false =>
      cases hc : checked q with
      | error f =>
          refine .inl ⟨f, fun d => ?_⟩
          rw [ensureParent, hparent]
          simp [hempty, makeDirectories_of_checked hc hempty]
      | ok r =>
          obtain rfl := checked_eq_ok hc
          refine .inr fun d => ?_
          rw [ensureParent, hparent, ← hbase, ← makeDirectories_eq hq (.inr hc) hslash]
          exact if_neg (by simp [hempty])

/-- **What writing to a plain path comes to**: the names of the directory, and then the place of
the file. -/
theorem writeFile_plain (hp : p.Plain) (source : String) :
    (∃ e, ∀ d : Disk, writeFile d p source = (d, .error e)) ∨
      ∃ ns n, p.way = ns ++ [n] ∧ ∃ (barred : Fault → Error) (refused : Option Node → Option Error),
        refused (some .directory) ≠ none ∧ ∀ d : Disk, writeFile d p source =
          match d.makeAlong (d.base p) ns with
          | (d', .error f) => (d', .error (barred f))
          | (d', .ok ()) =>
              match refused (d'.node? (d.place p)) with
              | some e => (d', .error e)
              | none => (d'.put (d.place p) (.file (Json.bytesOf source)), .ok ()) := by
  rcases List.eq_nil_or_concat' p.way with hway | ⟨ns, n, hway⟩
  -- The path has no name.
  · have hparent (d : Disk) : ensureParent d p = (d, .ok ()) := by
      rw [ensureParent, hp.parent?_eq_none hway]
    obtain ⟨f, hf⟩ : ∃ f, ∀ d : Disk, d.write p (Json.bytesOf source) = .error f := by
      cases hc : checked p with
      | error f => exact ⟨f, fun d => by rw [write, spot, hc]; rfl⟩
      | ok q =>
          obtain rfl := checked_eq_ok hc
          exact ⟨.isDirectory, fun d => by rw [write, spot_eq_of_way_nil hc hway]; rfl⟩
    exact .inl ⟨.disk f, fun d => by simp [writeFile, hparent, hf]⟩
  · obtain ⟨barred, ⟨f, hparent⟩ | hparent⟩ := exists_ensureParent_eq hp hway
    · exact .inl ⟨barred f, fun d => by simp [writeFile, hparent d]⟩
    obtain ⟨refused, hdir, hwrite⟩ := exists_write_eq hp hway (Json.bytesOf source)
    refine .inr ⟨ns, n, hway, barred, fun node => (refused node).map .disk, by simpa using hdir,
      fun d => ?_⟩
    rw [writeFile, hparent d]
    rcases hmade : d.makeAlong (d.base p) ns with ⟨d', f | _⟩
    · rfl
    · have hns : ∀ m ∈ ns, Path.OrdinaryName m := fun m hm =>
        hp.ordinaryName (by rw [hway]; exact List.mem_append_left _ hm)
      have hadds := makeAlong_adds (d.node?_base p) ns
      rw [hmade] at hadds
      have hl := node?_of_makeAlong (d.node?_base p) hmade List.prefix_rfl
      have hwalk := foldlM_enter_of_makeAlong hns (d.node?_base p) hmade
      rw [← base_congr hadds.current] at hl hwalk
      have hplace : d.place p = d'.base p ++ ns ++ [n] := by
        rw [d.place_eq hway, base_congr hadds.current]
      dsimp only
      rw [hwrite d' _ hwalk hl, hplace]
      cases refused (d'.node? (d'.base p ++ ns ++ [n])) <;> rfl

/-- The same node put at a place that is the same on both sides. -/
theorem SameChange.put {d₀' d' : Disk} (h : SameChange d₀ d₀' d d') (hfree₀ : d₀'.Free l)
    (hfree : d'.Free l) (hhere : d.node? l = d₀.node? l) (n : Node) :
    SameChange d₀ (d₀'.put l n) d (d'.put l n) := by
  intro x
  rw [node?_put hfree, node?_put hfree₀]
  by_cases hx : x = l
  · subst hx
    rw [if_pos rfl, if_pos rfl, hhere]
    split
    · assumption
    · rfl
  · rw [if_neg hx, if_neg hx]
    exact h x

/-- When the directories of a path are made, its file can be put, unless a directory is there. -/
theorem free_place (hway : p.way = ns ++ [n]) {d' : Disk}
    (hmade : d.makeAlong (d.base p) ns = (d', .ok ()))
    (hnode : d'.node? (d.place p) ≠ some .directory) : d'.Free (d.place p) := by
  refine ⟨?_, hnode⟩
  rw [d.place_eq hway, List.dropLast_concat]
  exact node?_of_makeAlong (d.node?_base p) hmade List.prefix_rfl

/-- **Writing where a disk has grown** ends in the same way and makes the same change. -/
theorem writeFile_grown (hp : p.Plain) (h : Grown d₀ d (d₀.place p)) (source : String) :
    (writeFile d p source).2 = (writeFile d₀ p source).2 ∧
      SameChange d₀ (writeFile d₀ p source).1 d (writeFile d p source).1 := by
  rcases writeFile_plain hp source with ⟨e, he⟩ | ⟨ns, n, hway, barred, refused, hdir, hwrite⟩
  · rw [he d, he d₀]
    exact ⟨rfl, .refl d₀ d⟩
  · have hbase₀ := d₀.node?_base p
    have hbase := d.node?_base p
    rw [base_congr h.current] at hbase
    have hgrown : GrownAlong d₀ d (d₀.base p) ns := fun ms hms _ =>
      h.way _ (d₀.isPrefix_place hway hms) (d₀.place_ne hway hms).symm
    obtain ⟨hend, hsame⟩ := makeAlong_grown hbase₀ hbase hgrown
    have hne : ∀ ms, ms <+: ns → d₀.place p ≠ d₀.base p ++ ms := fun ms hms =>
      d₀.place_ne hway hms
    have h₀ := node?_makeAlong_of_ne hbase₀ hne
    have h₁ := node?_makeAlong_of_ne hbase hne
    rw [h.here] at h₁
    rw [hwrite d, hwrite d₀, base_congr h.current, place_congr h.current]
    rcases hr : d.makeAlong (d₀.base p) ns with ⟨d₁, r⟩
    rcases hr₀ : d₀.makeAlong (d₀.base p) ns with ⟨d₁₀, r₀⟩
    rw [hr, hr₀] at hend hsame
    rw [hr] at h₁
    rw [hr₀] at h₀
    cases r₀ with
    | error f =>
        obtain rfl : r = .error f := hend
        exact ⟨rfl, hsame⟩
    | ok _ =>
        obtain rfl : r = .ok () := hend
        dsimp only
        rw [h₀, h₁]
        cases hrefused : refused (d₀.node? (d₀.place p)) with
        | some e => exact ⟨rfl, hsame⟩
        | none =>
            have hnode : d₀.node? (d₀.place p) ≠ some .directory := by
              intro heq
              rw [heq] at hrefused
              exact hdir hrefused
            have hfree₀ := free_place hway hr₀ (by rwa [h₀])
            have hfree := free_place (d := d) hway (by rwa [base_congr h.current])
              (by rwa [place_congr h.current, h₁])
            rw [place_congr h.current] at hfree
            exact ⟨rfl, hsame.put hfree₀ hfree h.here _⟩

/-- Going down names changes what is missing on the way, and makes it a directory. -/
theorem makeAlong_changes (hl : d.node? l = some .directory) {x : Location}
    (h : (d.makeAlong l ns).1.node? x ≠ d.node? x) :
    (∃ ms, ms <+: ns ∧ x = l ++ ms) ∧ d.node? x = none ∧
      (d.makeAlong l ns).1.node? x = some .directory := by
  refine ⟨?_, ((makeAlong_adds hl ns).nodes x).resolve_left h⟩
  by_contra hout
  exact h (node?_makeAlong_of_ne hl fun ms hms heq => hout ⟨ms, hms, heq⟩)

/-- What writing to a plain path leaves: directories on the way to the file, and then, if it goes
well, the file in the last of them. -/
theorem writeFile_cases (hp : p.Plain) (d : Disk) (source : String) :
    (writeFile d p source).1 = d ∨ ∃ ns n d', p.way = ns ++ [n] ∧
      d' = (d.makeAlong (d.base p) ns).1 ∧ ((writeFile d p source).1 = d' ∨
        d'.Free (d.place p) ∧
          (writeFile d p source).1 = d'.put (d.place p) (.file (Json.bytesOf source))) := by
  rcases writeFile_plain hp source with ⟨e, he⟩ | ⟨ns, n, hway, barred, refused, hdir, hwrite⟩
  · exact .inl (by rw [he d])
  · refine .inr ⟨ns, n, _, hway, rfl, ?_⟩
    rw [hwrite d]
    rcases hr : d.makeAlong (d.base p) ns with ⟨d', f | _⟩
    · exact .inl rfl
    · dsimp only
      cases hrefused : refused (d'.node? (d.place p)) with
      | some e => exact .inl rfl
      | none =>
          refine .inr ⟨free_place hway hr fun h => ?_, rfl⟩
          rw [h] at hrefused
          exact hdir hrefused

/-- What writing to a plain path changes: directories on the way, and the place itself. -/
theorem writeFile_changes (hp : p.Plain) {source : String} {x : Location}
    (h : (writeFile d p source).1.node? x ≠ d.node? x) :
    x <+: d.place p ∧ (x ≠ d.place p → d.node? x = none ∧
      (writeFile d p source).1.node? x = some .directory) := by
  rcases writeFile_cases hp d source with hsame | ⟨ns, n, d', hway, hd', hcases⟩
  · exact absurd (by rw [hsame]) h
  have hmade : d'.node? x ≠ d.node? x →
      x <+: d.place p ∧ d.node? x = none ∧ d'.node? x = some .directory := by
    subst hd'
    intro hx
    obtain ⟨⟨ms, hms, rfl⟩, hnew⟩ := makeAlong_changes (d.node?_base p) hx
    exact ⟨d.isPrefix_place hway hms, hnew⟩
  rcases hcases with heq | ⟨hfree, heq⟩
  · rw [heq] at h ⊢
    exact (hmade h).imp_right fun hnew _ => hnew
  · rw [heq, node?_put hfree] at h ⊢
    by_cases hx : x = d.place p
    · exact ⟨hx ▸ List.prefix_rfl, fun hne => absurd hx hne⟩
    · rw [if_neg hx] at h ⊢
      exact (hmade h).imp_right fun hnew _ => hnew

/-! ### Reading -/

/-- What pieces lead to from a location. -/
def nodeAlong (d : Disk) (l : Location) : List (List Char) → Except Fault Node
  | [] => match d.node? l with | some n => .ok n | none => .error .notFound
  | q :: qs => d.enter l (String.ofList q) >>= fun l => d.nodeAlong l qs

theorem openNode_eq_nodeAlong (d : Disk) (p : Path) :
    d.openNode p = checked p >>= fun p => d.nodeAlong (d.base p) p.allPieces := by
  have halong (l : Location) (qs : List (List Char)) : d.nodeAlong l qs =
      (qs.map String.ofList).foldlM d.enter l >>= fun l =>
        match d.node? l with | some n => .ok n | none => .error .notFound := by
    induction qs generalizing l with
    | nil => rfl
    | cons q qs ih =>
        rw [nodeAlong, List.map_cons, List.foldlM_cons, bind_assoc]
        exact congrArg _ (funext fun l => ih l)
  rw [openNode]
  exact congrArg _ (funext fun p => (halong _ _).symm)

theorem enter_congr (h : d.node? l = d₀.node? l) (n : String) : d.enter l n = d₀.enter l n := by
  rw [enter, enter, h]

/-- A piece of a plain path, entered in a directory. -/
theorem nodeAlong_cons {q : List Char} (hq : q = [] ∨ Path.Ordinary q)
    (hl : d.node? l = some .directory) (qs : List (List Char)) :
    d.nodeAlong l (q :: qs) =
      if q ≠ [] ∧ nameLimit < (String.ofList q).utf8ByteSize then .error .nameTooLong
      else d.nodeAlong (l ++ Path.namesOf [q]) qs := by
  rw [nodeAlong]
  rcases hq with rfl | hq
  · rw [show String.ofList [] = "" from rfl, enter_empty hl]
    simp
    rfl
  · have hne : q ≠ [] := hq.ne_nil
    rw [enter_name (Path.ordinaryName_ofList hq) hl, Path.namesOf_cons hne]
    by_cases hlong : nameLimit < (String.ofList q).utf8ByteSize
    · rw [if_pos hlong, if_pos ⟨hne, hlong⟩]
      rfl
    · rw [if_neg hlong, if_neg fun h => hlong h.2]
      rfl

theorem nodeAlong_of_none (hl : d.node? l = none) (qs : List (List Char)) :
    d.nodeAlong l qs = .error .notFound := by
  cases qs with
  | nil => rw [nodeAlong, hl]
  | cons q qs =>
      rw [nodeAlong, enter, hl]
      rfl

theorem namesOf_cons_eq (q : List Char) (qs : List (List Char)) :
    Path.namesOf (q :: qs) = Path.namesOf [q] ++ Path.namesOf qs :=
  Path.namesOf_append [q] qs

/-- Where something on the way is missing, nothing is found, and a name that is too long is met in a
directory. -/
theorem nodeAlong_missing {qs : List (List Char)} (hqs : ∀ q ∈ qs, q = [] ∨ Path.Ordinary q)
    (h : ∀ s, s <+: Path.namesOf qs → d.node? (l ++ s) = none ∨
      d.node? (l ++ s) = some .directory ∧ s ≠ Path.namesOf qs) :
    d.nodeAlong l qs = .error .notFound ∨
      d.nodeAlong l qs = .error .nameTooLong ∧ ∃ ns n, ns ++ [n] <+: Path.namesOf qs ∧
        nameLimit < n.utf8ByteSize ∧ d.node? (l ++ ns) = some .directory := by
  induction qs generalizing l with
  | nil =>
      have hnone := (h [] List.nil_prefix).resolve_right fun h => h.2 rfl
      rw [List.append_nil] at hnone
      exact .inl (nodeAlong_of_none hnone [])
  | cons q qs ih =>
      have hl := h [] List.nil_prefix
      rw [List.append_nil] at hl
      rcases hl with hnone | ⟨hdir, -⟩
      · exact .inl (nodeAlong_of_none hnone _)
      · rw [nodeAlong_cons (hqs q (.head _)) hdir]
        split
        · rename_i hlong
          refine .inr ⟨rfl, [], String.ofList q, ?_, hlong.2, by rwa [List.append_nil]⟩
          rw [Path.namesOf_cons hlong.1]
          exact List.prefix_append [_] _
        · have hrest : ∀ s, s <+: Path.namesOf qs → d.node? (l ++ Path.namesOf [q] ++ s) = none ∨
              d.node? (l ++ Path.namesOf [q] ++ s) = some .directory ∧ s ≠ Path.namesOf qs := by
            intro s hs
            have hs' := h (Path.namesOf [q] ++ s) <| by
              rw [namesOf_cons_eq q qs]
              exact (List.prefix_append_right_inj _).mpr hs
            rw [List.append_assoc]
            refine hs'.imp_right (And.imp_right fun hne heq => hne ?_)
            rw [heq, ← namesOf_cons_eq]
          rcases ih (fun r hr => hqs r (.tail _ hr)) hrest with
            hr | ⟨hr, ns, n, hns, hlong, hmade⟩
          · exact .inl hr
          · refine .inr ⟨hr, Path.namesOf [q] ++ ns, n, ?_, hlong, ?_⟩
            · rw [namesOf_cons_eq q qs, List.append_assoc]
              exact (List.prefix_append_right_inj _).mpr hns
            · rwa [← List.append_assoc]

/-- Directories have come on the way of pieces, and nothing else. -/
structure GrownPieces (d₀ d : Disk) (l : Location) (qs : List (List Char)) : Prop where
  way : ∀ s, s <+: Path.namesOf qs → s ≠ Path.namesOf qs →
    d.node? (l ++ s) = d₀.node? (l ++ s) ∨
      d₀.node? (l ++ s) = none ∧ d.node? (l ++ s) = some .directory
  here : d.node? (l ++ Path.namesOf qs) = d₀.node? (l ++ Path.namesOf qs)

section Pieces

variable {q : List Char} {qs : List (List Char)}

theorem GrownPieces.head (h : GrownPieces d₀ d l qs) :
    d.node? l = d₀.node? l ∨ d₀.node? l = none := by
  by_cases hnil : Path.namesOf qs = []
  · have hhere := h.here
    rw [hnil, List.append_nil] at hhere
    exact .inl hhere
  · have hl := h.way [] List.nil_prefix (Ne.symm hnil)
    rw [List.append_nil] at hl
    exact hl.imp_right And.left

theorem GrownPieces.tail (h : GrownPieces d₀ d l (q :: qs)) :
    GrownPieces d₀ d (l ++ Path.namesOf [q]) qs where
  way := fun s hs hne => by
    rw [List.append_assoc]
    refine h.way _ ?_ ?_
    · rw [namesOf_cons_eq q qs]
      exact (List.prefix_append_right_inj _).mpr hs
    · rw [namesOf_cons_eq q qs]
      exact fun heq => hne (List.append_cancel_left heq)
  here := by
    have hhere := h.here
    rwa [namesOf_cons_eq q qs, ← List.append_assoc] at hhere

/-- Where the way starts at nothing, nothing is found on the grown disk either. -/
theorem GrownPieces.nodeAlong_of_none (h : GrownPieces d₀ d l qs)
    (hqs : ∀ q ∈ qs, q = [] ∨ Path.Ordinary q) (hnone : d₀.node? l = none) :
    d.nodeAlong l qs = .error .notFound ∨
      d.nodeAlong l qs = .error .nameTooLong ∧ LateAlong d₀ d l (Path.namesOf qs) := by
  have hmissing := fun s => node?_append hnone s
  refine (nodeAlong_missing hqs fun s hs => ?_).imp_right (And.imp_right
    fun ⟨ns, n, hns, hlong, hmade⟩ => ⟨ns, n, hns, hlong, hmissing ns, hmade⟩)
  by_cases hend : s = Path.namesOf qs
  · exact .inl (by rw [hend, h.here, hmissing])
  · rcases h.way s hs hend with hsame | ⟨-, hdir⟩
    · exact .inl (by rw [hsame, hmissing])
    · exact .inr ⟨hdir, hend⟩

theorem LateAlong.below {above way : List String} (h : LateAlong d₀ d (l ++ above) way) :
    LateAlong d₀ d l (above ++ way) := by
  obtain ⟨ns, n, hway, hlong, hnone, hmade⟩ := h
  rw [List.append_assoc] at hnone hmade
  refine ⟨above ++ ns, n, ?_, hlong, hnone, hmade⟩
  rw [List.append_assoc]
  exact (List.prefix_append_right_inj above).mpr hway

/-- The way goes on behind a piece. -/
theorem nodeAlong_grown (hqs : ∀ q ∈ qs, q = [] ∨ Path.Ordinary q)
    (h : GrownPieces d₀ d l qs) :
    d.nodeAlong l qs = d₀.nodeAlong l qs ∨
      LateAlong d₀ d l (Path.namesOf qs) ∧
        d₀.nodeAlong l qs = .error .notFound ∧ d.nodeAlong l qs = .error .nameTooLong := by
  induction qs generalizing l with
  | nil =>
      have hhere := h.here
      rw [Path.namesOf_nil, List.append_nil] at hhere
      exact .inl (by rw [nodeAlong, nodeAlong, hhere])
  | cons q qs ih =>
      rcases h.head with hl | hnone
      · by_cases hdir : d₀.node? l = some .directory
        · have hq := hqs q (.head _)
          rw [nodeAlong_cons hq hdir, nodeAlong_cons hq (hl.trans hdir)]
          split
          · exact .inl rfl
          · rw [namesOf_cons_eq q qs]
            exact (ih (fun r hr => hqs r (.tail _ hr)) h.tail).imp_right
              (And.imp_left LateAlong.below)
        -- No piece can be entered, on either side.
        · obtain ⟨f, -, -, hf⟩ := enter_error hdir
          rw [nodeAlong, nodeAlong, enter_congr hl, hf]
          exact .inl rfl
      · rw [Disk.nodeAlong_of_none hnone]
        rcases h.nodeAlong_of_none hqs hnone with hr | ⟨hr, hlate⟩
        · exact .inl hr
        · exact .inr ⟨hlate, rfl, hr⟩

end Pieces

theorem openNode_of_checked (hc : checked p = .ok p) :
    d.openNode p = d.nodeAlong (d.base p) p.allPieces := by
  rw [openNode_eq_nodeAlong, hc]
  rfl

/-- **Reading where a disk has grown** gives the same, unless a directory has come in which a name
is too long. -/
theorem openNode_grown (hp : p.Plain) (h : Grown d₀ d (d₀.place p)) :
    d.openNode p = d₀.openNode p ∨
      LateName d₀ d p ∧ d₀.openNode p = .error .notFound ∧ d.openNode p = .error .nameTooLong := by
  cases hc : checked p with
  | error f =>
      rw [openNode_eq_nodeAlong, openNode_eq_nodeAlong, hc]
      exact .inl rfl
  | ok q =>
      obtain rfl := checked_eq_ok hc
      rw [openNode_of_checked hc, openNode_of_checked hc, base_congr h.current]
      refine nodeAlong_grown hp ⟨fun s hs hne => ?_, h.here⟩
      refine h.way _ ((List.prefix_append_right_inj _).mpr hs) fun heq => hne ?_
      exact List.append_cancel_left heq

end Disk

end RowTypes
