import RowTypes.Proofs.Skipping

/-!
# Records — objects with known keys

What an object has to say to describe a record is a list of clauses, one for each key: what may
stand under the key, and whether the key may be left out (`Clause`).  The members of an object
`Spell` the clauses when every known key occurs once, with a value that its clause allows, or does
not occur and may be left out.  Their order does not matter, and other keys may stand between them.

**An object that spells the clauses of a record is read as that record** (`record_reads`).

While the members are read, the fields that are still to come would complete the record
(`Progress`).  A member with a known key takes one of them away and fills it in, a member with an
unknown key changes nothing, and at the end only fields are left that are in place already.
-/

namespace RowTypes.Json

/-- What an object says under a key. -/
structure Clause where
  key : String
  omissible : Prop
  describes : Tree → Prop

/-- The key occurs once, with a value that the clause allows, or it may be left out and is. -/
def Clause.MetBy (c : Clause) (ms : List Member) : Prop :=
  (∃ m, c.describes m.value ∧ ms.filter (·.key = c.key) = [m]) ∨
    c.omissible ∧ ms.filter (·.key = c.key) = []

/-- An object with members that meet the clauses, among any others. -/
def Spells (clauses : List Clause) (v : Tree) : Prop :=
  ∃ ms, v = .ofMembers ms ∧ ∀ c ∈ clauses, c.MetBy ms

/-- Every key of an object is known. -/
def OnlyKeys (keys : List String) (v : Tree) : Prop :=
  ∀ ms, v = .ofMembers ms → ∀ m ∈ ms, m.key ∈ keys

theorem onlyKeys_ofMembers {keys : List String} {ms : List Member}
    (h : ∀ m ∈ ms, m.key ∈ keys) : OnlyKeys keys (.ofMembers ms) := by
  intro ms' hms
  rwa [← Tree.ofMembers_injective hms]

/-- A member says what its clause wants to hear. -/
def Clause.Says (c : Clause) (m : Member) : Prop := m.key = c.key ∧ c.describes m.value

/-- An object that says every key once, in the order of the clauses, spells them. -/
theorem spells_of_says {clauses : List Clause} {ms : List Member}
    (hdistinct : (clauses.map (·.key)).Nodup) (h : List.Forall₂ Clause.Says clauses ms) :
    Spells clauses (.ofMembers ms) := by
  refine ⟨ms, rfl, ?_⟩
  induction h with
  | nil => exact List.forall_mem_nil _
  | @cons c m clauses ms hm hms ih =>
      rw [List.map_cons, List.nodup_cons] at hdistinct
      obtain ⟨hc, hdistinct⟩ := hdistinct
      obtain ⟨hkey, hdescribes⟩ := hm
      have hkeys : ms.map (·.key) = clauses.map (·.key) := by
        rw [← List.forall₂_eq_eq_eq, List.forall₂_map_left_iff, List.forall₂_map_right_iff]
        exact hms.flip.imp fun m c h => h.1
      refine List.forall_mem_cons.mpr ⟨.inl ⟨m, hdescribes, ?_⟩, fun d hd => ?_⟩
      · have hrest : ms.filter (·.key = c.key) = [] := by
          rw [List.filter_eq_nil_iff]
          intro n hn hname
          refine hc (hkeys ▸ List.mem_map.mpr ⟨n, hn, ?_⟩)
          simpa using hname
        rw [List.filter_cons_of_pos (by simpa using hkey), hrest]
      · have hne : m.key ≠ d.key := by
          rw [hkey]
          exact fun h => hc (h ▸ List.mem_map_of_mem hd)
        rw [Clause.MetBy, List.filter_cons_of_neg (by simpa using hne)]
        exact ih hdistinct d hd

variable {σ : Type} {a s : σ} {seen : List String} {ms : List Member} {ts : List Token}

/-- How a field of a record is filled in: its clause, and the change to a record that reading it
makes. -/
structure Filling (σ : Type) where
  field : Field σ
  clause : Clause
  copy : σ → σ

namespace Filling

def key (x : Filling σ) : String := x.clause.key

/-- A filling does what its clause says, and has nothing to do where the key may be left out. -/
structure Sound (blank : σ) (x : Filling σ) : Prop where
  name : x.field.name = x.clause.key
  required : x.clause.omissible → x.field.required = false
  reads : ∀ v, x.clause.describes v → ReadsValue x.field.read v x.copy
  idle : x.clause.omissible → x.copy blank = blank

/-- All fillings, one after another. -/
def copyAll (xs : List (Filling σ)) (s : σ) : σ := xs.foldl (fun s x => x.copy s) s

end Filling

/-- Fillings make a record out of a blank one. -/
structure Fills (shape : Shape σ) (clauses : List Clause) (a : σ) (xs : List (Filling σ)) :
    Prop where
  fields : shape.fields = xs.map (·.field)
  clauses : clauses = xs.map (·.clause)
  sound : ∀ x ∈ xs, x.Sound shape.blank
  distinct : (xs.map Filling.key).Nodup
  commute : ∀ x ∈ xs, ∀ y ∈ xs, ∀ s, x.copy (y.copy s) = y.copy (x.copy s)
  complete : Filling.copyAll xs shape.blank = a

variable {xs : List (Filling σ)} {x : Filling σ} {shape : Shape σ} {clauses : List Clause}

theorem Fills.nodup_keys (h : Fills shape clauses a xs) : (clauses.map (·.key)).Nodup := by
  rw [h.clauses, List.map_map]
  exact h.distinct

theorem copyAll_of_idle (h : ∀ x ∈ xs, x.copy s = s) : Filling.copyAll xs s = s := by
  induction xs with
  | nil => rfl
  | cons x xs ih =>
      rw [Filling.copyAll, List.foldl_cons, h x (.head _)]
      exact ih fun y hy => h y (.tail _ hy)

/-- One of the fillings may go first. -/
theorem copyAll_eq_of_mem (hx : x ∈ xs) (hdistinct : (xs.map Filling.key).Nodup)
    (hcommute : ∀ y ∈ xs, ∀ s, x.copy (y.copy s) = y.copy (x.copy s)) :
    Filling.copyAll xs s = Filling.copyAll (xs.filter fun y => y.key ≠ x.key) (x.copy s) := by
  induction xs generalizing s with
  | nil => cases hx
  | cons y xs ih =>
      rw [List.map_cons, List.nodup_cons] at hdistinct
      obtain ⟨hy, hdistinct⟩ := hdistinct
      rcases List.mem_cons.mp hx with rfl | hx
      · have hrest : xs.filter (fun y => y.key ≠ x.key) = xs := by
          rw [List.filter_eq_self]
          intro z hz
          have hne : z.key ≠ x.key := fun h => hy (h ▸ List.mem_map_of_mem hz)
          simpa using hne
        rw [List.filter_cons_of_neg (by simp), hrest]
        rfl
      · have hne : y.key ≠ x.key := fun h => hy (h ▸ List.mem_map_of_mem hx)
        rw [List.filter_cons_of_pos (by simpa using hne)]
        have hrest := ih (s := y.copy s) hx hdistinct fun z hz => hcommute z (.tail _ hz)
        rw [hcommute y (.head _)] at hrest
        exact hrest

/-! ### Progress -/

/-- The fields to come complete the record, and those that may not come have nothing to do. -/
structure Progress (xs : List (Filling σ)) (a : σ) (seen : List String) (s : σ) : Prop where
  left : Filling.copyAll (xs.filter fun x => x.key ∉ seen) s = a
  idle : ∀ x ∈ xs, x.key ∉ seen → x.clause.omissible → x.copy s = s

theorem Progress.known (h : Progress xs a seen s) (hdistinct : (xs.map Filling.key).Nodup)
    (hcommute : ∀ x ∈ xs, ∀ y ∈ xs, ∀ s, x.copy (y.copy s) = y.copy (x.copy s))
    (hx : x ∈ xs) (hseen : x.key ∉ seen) : Progress xs a (x.key :: seen) (x.copy s) := by
  refine ⟨?_, fun y hy hys homit => ?_⟩
  · have hmem : x ∈ xs.filter fun y => y.key ∉ seen := by simp [hx, hseen]
    have hfirst := copyAll_eq_of_mem (s := s) hmem
      (hdistinct.sublist (List.filter_sublist.map _))
      fun y hy => hcommute x hx y (List.mem_of_mem_filter hy)
    rw [h.left, List.filter_filter] at hfirst
    rw [hfirst]
    refine congrArg (Filling.copyAll · (x.copy s)) (List.filter_congr fun y _ => ?_)
    simp [not_or]
  · rw [hcommute y hy x hx, h.idle y hy (fun h => hys (.tail _ h)) homit]

theorem Progress.unknown (h : Progress xs a seen s) {k : String} (hk : k ∉ xs.map Filling.key) :
    Progress xs a (k :: seen) s := by
  have hiff : ∀ x ∈ xs, x.key ∉ k :: seen ↔ x.key ∉ seen := by
    intro x hx
    have hne : x.key ≠ k := fun h => hk (h ▸ List.mem_map_of_mem hx)
    simp [hne]
  refine ⟨?_, fun x hx hseen => h.idle x hx ((hiff x hx).mp hseen)⟩
  rw [← h.left]
  refine congrArg (Filling.copyAll · s) (List.filter_congr fun x hx => ?_)
  rw [decide_eq_decide]
  exact hiff x hx

/-! ### Members -/

/-- The members to come hold the known keys that were not seen, once at most, with values that
their clauses allow. -/
def Fits (xs : List (Filling σ)) (seen : List String) (ms : List Member) : Prop :=
  ∀ x ∈ xs, (∃ m, x.clause.describes m.value ∧ x.key ∉ seen ∧
    ms.filter (·.key = x.key) = [m]) ∨ ms.filter (·.key = x.key) = []

variable {m : Member}

theorem Fits.head (h : Fits xs seen (m :: ms)) (hx : x ∈ xs) (hm : m.key = x.key) :
    x.clause.describes m.value ∧ x.key ∉ seen := by
  rcases h x hx with ⟨w, hw, hseen, hfilter⟩ | hfilter
  · rw [List.filter_cons_of_pos (by simpa using hm)] at hfilter
    obtain ⟨rfl, -⟩ := List.cons.inj hfilter
    exact ⟨hw, hseen⟩
  · rw [List.filter_cons_of_pos (by simpa using hm)] at hfilter
    cases hfilter

theorem Fits.tail (h : Fits xs seen (m :: ms)) : Fits xs (m.key :: seen) ms := by
  intro x hx
  by_cases hm : m.key = x.key
  · refine .inr ?_
    rcases h x hx with ⟨w, -, -, hfilter⟩ | hfilter
    · rw [List.filter_cons_of_pos (by simpa using hm)] at hfilter
      exact (List.cons.inj hfilter).2
    · rw [List.filter_cons_of_pos (by simpa using hm)] at hfilter
      cases hfilter
  · have hx := h x hx
    rw [List.filter_cons_of_neg (by simpa using hm)] at hx
    refine hx.imp_left fun ⟨w, hw, hseen, hfilter⟩ => ⟨w, hw, ?_, hfilter⟩
    simp [hseen, Ne.symm hm]

theorem find?_field (hname : ∀ x ∈ xs, x.field.name = x.key)
    (hdistinct : (xs.map Filling.key).Nodup) (hx : x ∈ xs) :
    (xs.map (·.field)).find? (·.name = x.key) = some x.field := by
  induction xs with
  | nil => cases hx
  | cons y ys ih =>
      rw [List.map_cons, List.nodup_cons] at hdistinct
      obtain ⟨hy, hdistinct⟩ := hdistinct
      rcases List.mem_cons.mp hx with rfl | hx
      · simp [hname x (.head _)]
      · have hne : y.field.name ≠ x.key := by
          rw [hname y (.head _)]
          exact fun h => hy (h ▸ List.mem_map_of_mem hx)
        rw [List.map_cons, List.find?_cons_of_neg (by simpa using hne)]
        exact ih (fun z hz => hname z (.tail _ hz)) hdistinct hx

theorem Fills.find?_eq_some (h : Fills shape clauses a xs) (hx : x ∈ xs) :
    shape.fields.find? (·.name = x.key) = some x.field := by
  rw [h.fields]
  exact find?_field (fun x hx => (h.sound x hx).name) h.distinct hx

theorem Fills.find?_eq_none (h : Fills shape clauses a xs) {k : String}
    (hk : k ∉ xs.map Filling.key) : shape.fields.find? (·.name = k) = none := by
  rw [h.fields, List.find?_eq_none]
  intro f hf hname
  obtain ⟨x, hx, rfl⟩ := List.mem_map.mp hf
  rw [decide_eq_true_eq, (h.sound x hx).name] at hname
  exact hk (hname ▸ List.mem_map_of_mem hx)

/-- A member, behind its key. -/
theorem member_reads (h : Fills shape clauses a xs) (hfits : Fits xs seen (m :: ms))
    (hopen : shape.closed = true → m.key ∈ xs.map Filling.key) (hp : Progress xs a seen s) :
    ∃ s', Progress xs a (m.key :: seen) s' ∧ ∀ ts, Ends ts →
      Reads (At [] ([Byte.colon] :: (m.value.tokens ++ ts))) (member shape seen m.key s) s'
        (At [] ts) := by
  by_cases hk : m.key ∈ xs.map Filling.key
  · obtain ⟨x, hx, hkey⟩ := List.mem_map.mp hk
    obtain ⟨hw, hseen⟩ := hfits.head hx hkey.symm
    rw [← hkey]
    refine ⟨x.copy s, hp.known h.distinct h.commute hx hseen, fun ts hts => ?_⟩
    rw [member, h.find?_eq_some hx]
    dsimp only
    rw [if_neg hseen]
    exact colon_reads.bind (((h.sound x hx).reads m.value hw ts hts).bind (.pure (x.copy s)))
  · have hclosed : shape.closed = false := by simpa using fun h => hk (hopen h)
    refine ⟨s, hp.unknown hk, fun ts hts => ?_⟩
    rw [member, h.find?_eq_none hk]
    dsimp only
    rw [hclosed]
    exact colon_reads.bind ((skipValue_reads m.value ts hts).bind (.pure s))

/-- A member, at whose key the input stands, and the members behind it. -/
theorem members_reads_cons {n : Nat} {s' : σ} {e : List String × σ} {Q : List UInt8 → Prop}
    (hm : ∀ ts, Ends ts → Reads (At [] ([Byte.colon] :: (m.value.tokens ++ ts)))
      (member shape seen m.key s) s' (At [] ts)) (hts : Ends ts)
    (hrest : Reads (At [] ts) (members shape n false (m.key :: seen) s') e Q) :
    Reads (At m.spelling.token ([Byte.colon] :: (m.value.tokens ++ ts)))
      (do
        let k ← string
        let s ← member shape seen k s
        members shape n false (k :: seen) s) e Q := by
  exact (string_reads m.spelled).bind ((hm ts hts).bind hrest)

/-- Members take the fields from one state of progress to another. -/
def Advances (xs : List (Filling σ)) (a : σ) (seen : List String) (ms : List Member)
    (e : List String × σ) : Prop :=
  Progress xs a e.1 e.2 ∧ ∀ k, k ∈ e.1 ↔ k ∈ seen ∨ k ∈ ms.map (·.key)

theorem Advances.cons {e : List String × σ} (h : Advances xs a (m.key :: seen) ms e) :
    Advances xs a seen (m :: ms) e := by
  refine ⟨h.1, fun k => ?_⟩
  rw [h.2, List.mem_cons, List.map_cons, List.mem_cons, or_assoc, or_left_comm]

theorem members_reads_behind (h : Fills shape clauses a xs) (hfits : Fits xs seen ms)
    (hopen : shape.closed = true → ∀ m ∈ ms, m.key ∈ xs.map Filling.key)
    (hp : Progress xs a seen s) {n : Nat} (hn : ms.length < n) :
    ∃ e, Advances xs a seen ms e ∧
      Reads (At [] (behind Byte.closeObject (ms.map Member.tokens) ++ ts))
        (members shape n false seen s) e (At [Byte.closeObject] ts) := by
  induction ms generalizing n seen s with
  | nil =>
      obtain ⟨n, rfl⟩ := Nat.exists_eq_succ_of_ne_zero (Nat.ne_zero_of_lt hn)
      exact ⟨(seen, s), ⟨hp, by simp⟩, (moreKeys_reads_end false).bind (.pure (seen, s))⟩
  | cons m ms ih =>
      obtain ⟨n, rfl⟩ := Nat.exists_eq_succ_of_ne_zero (Nat.ne_zero_of_lt hn)
      obtain ⟨s', hp', hm⟩ := member_reads h hfits (fun hc => hopen hc m (.head _)) hp
      obtain ⟨e, he, hrest⟩ := ih hfits.tail (fun hc m hm => hopen hc m (.tail _ hm)) hp'
        (Nat.lt_of_succ_lt_succ hn)
      have hcons := members_reads_cons hm
        (ends_behind (.inr rfl) (ms.map Member.tokens) ts) hrest
      refine ⟨e, he.cons, ?_⟩
      rw [List.map_cons, behind, Member.tokens]
      simp only [List.cons_append, List.append_assoc]
      exact moreKeys_reads_comma.bind hcons

theorem members_reads (h : Fills shape clauses a xs) (hfits : Fits xs seen ms)
    (hopen : shape.closed = true → ∀ m ∈ ms, m.key ∈ xs.map Filling.key)
    (hp : Progress xs a seen s) {n : Nat} (hn : ms.length < n) (ts : List Token) :
    ∃ e, Advances xs a seen ms e ∧
      Reads (At [] (separated Byte.closeObject (ms.map Member.tokens) ++ ts))
        (members shape n true seen s) e (At [Byte.closeObject] ts) := by
  obtain ⟨n, rfl⟩ := Nat.exists_eq_succ_of_ne_zero (Nat.ne_zero_of_lt hn)
  cases ms with
  | nil => exact ⟨(seen, s), ⟨hp, by simp⟩, (moreKeys_reads_end true).bind (.pure (seen, s))⟩
  | cons m ms =>
      obtain ⟨s', hp', hm⟩ := member_reads h hfits (fun hc => hopen hc m (.head _)) hp
      obtain ⟨e, he, hrest⟩ := members_reads_behind h hfits.tail
        (fun hc m hm => hopen hc m (.tail _ hm)) hp' (Nat.lt_of_succ_lt_succ hn)
      have hcons := members_reads_cons hm
        (ends_behind (.inr rfl) (ms.map Member.tokens) ts) hrest
      refine ⟨e, he.cons, ?_⟩
      rw [List.map_cons, separated, Member.tokens]
      simp only [List.cons_append, List.append_assoc]
      exact moreKeys_reads_first.bind hcons

/-! ### Records -/

/-- A known key occurs, or it may be left out. -/
theorem Fills.mem_or_omissible (h : Fills shape clauses a xs) (hms : ∀ c ∈ clauses, c.MetBy ms)
    (hx : x ∈ xs) : x.key ∈ ms.map (·.key) ∨ x.clause.omissible := by
  have hc : x.clause ∈ clauses := h.clauses ▸ List.mem_map_of_mem hx
  rcases hms _ hc with ⟨w, -, hfilter⟩ | ⟨homit, -⟩
  · have hmem : w ∈ ms.filter (·.key = x.clause.key) := hfilter ▸ .head _
    obtain ⟨hw, hkey⟩ := List.mem_filter.mp hmem
    exact .inl (List.mem_map.mpr ⟨w, hw, of_decide_eq_true hkey⟩)
  · exact .inr homit

/-- Nothing is missing behind the last member. -/
theorem Fills.find?_missing (h : Fills shape clauses a xs) (hms : ∀ c ∈ clauses, c.MetBy ms)
    (hseen : ∀ k, k ∈ seen ↔ k ∈ ms.map (·.key)) :
    (shape.fields.find? fun f => f.required && f.name ∉ seen) = none := by
  rw [h.fields, List.find?_eq_none]
  intro f hf
  obtain ⟨x, hx, rfl⟩ := List.mem_map.mp hf
  rcases h.mem_or_omissible hms hx with hmem | homit
  · have hname : x.field.name ∈ seen := (h.sound x hx).name ▸ (hseen x.key).mpr hmem
    simp [hname]
  · simp [(h.sound x hx).required homit]

/-- The record is complete behind the last member. -/
theorem Progress.complete (hp : Progress xs a seen s) (h : Fills shape clauses a xs)
    (hms : ∀ c ∈ clauses, c.MetBy ms) (hseen : ∀ k, k ∈ seen ↔ k ∈ ms.map (·.key)) : s = a := by
  rw [← hp.left, copyAll_of_idle]
  intro x hx
  obtain ⟨hx, hkey⟩ := List.mem_filter.mp hx
  have hkey : x.key ∉ seen := by simpa using hkey
  refine hp.idle x hx hkey ((h.mem_or_omissible hms hx).resolve_left fun hmem => ?_)
  exact hkey ((hseen x.key).mpr hmem)

theorem Fills.progress (h : Fills shape clauses a xs) : Progress xs a [] shape.blank := by
  refine ⟨?_, fun x hx _ homit => (h.sound x hx).idle homit⟩
  rw [List.filter_eq_self.mpr (by simp)]
  exact h.complete

theorem Fills.fits (h : Fills shape clauses a xs) (hms : ∀ c ∈ clauses, c.MetBy ms) :
    Fits xs [] ms := by
  intro x hx
  have hc : x.clause ∈ clauses := h.clauses ▸ List.mem_map_of_mem hx
  exact (hms _ hc).imp (fun ⟨w, hw, hfilter⟩ => ⟨w, hw, List.not_mem_nil, hfilter⟩) And.right

/-- **An object that spells the clauses of a record is read as that record.** -/
theorem record_reads (h : Fills shape clauses a xs) {v : Tree} (hv : Spells clauses v)
    (hopen : shape.closed = true → OnlyKeys (clauses.map (·.key)) v) :
    ReadsValue (record shape) v a := by
  obtain ⟨ms, rfl, hms⟩ := hv
  have hopen : shape.closed = true → ∀ m ∈ ms, m.key ∈ xs.map Filling.key := by
    intro hclosed m hm
    have hkey := hopen hclosed ms rfl m hm
    rwa [h.clauses, List.map_map] at hkey
  intro ts _
  rw [Tree.tokens_ofMembers, List.cons_append]
  refine (valueStart_reads rfl).bind (advance_reads.bind (reads_of_left fun bytes hc => ?_))
  obtain ⟨⟨seen, s⟩, ⟨hp, hseen⟩, hmembers⟩ :=
    members_reads h (h.fits hms) hopen h.progress hc.ofMembers_lt ts
  have hseen : ∀ k, k ∈ seen ↔ k ∈ ms.map (·.key) := fun k => by simpa using hseen k
  obtain rfl : s = a := hp.complete h hms hseen
  refine (hmembers.of_imp fun bs hbs => ?_).bind ?_
  · rw [hbs]
    exact hc
  · dsimp only
    rw [h.find?_missing hms hseen]
    exact advance_reads.bind (.pure s)

end RowTypes.Json
