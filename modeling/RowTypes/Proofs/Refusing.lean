import RowTypes.Proofs.Records

/-!
# Refusing — objects with unknown keys

A reader `Leaves` bytes of one kind when it does so wherever it gives a value at all.  The readers
of texts, flags, texts that may be null and lists of texts do this on every value, of their kind or
not: they stop behind it or fail (`text_leaves`, `flag_leaves`, `optional_text_leaves`,
`list_leaves`).

**So a closed record reads on to the first unknown key of an object, or fails before it**
(`record_fails`): whatever else the object says, it is refused.  A key that says nothing is unknown.
-/

namespace RowTypes.Json

variable {α β σ : Type} {P P' : List UInt8 → Prop} {Q Q' : α → List UInt8 → Prop}
  {R : β → List UInt8 → Prop} {S : List UInt8 → Prop} {r : Reader α} {a : α} {f : α → Reader β}

/-- From every input with bytes in `P` to come, the reader fails, or gives some `a` and leaves bytes
in `Q a`. -/
def Leaves (P : List UInt8 → Prop) (r : Reader α) (Q : α → List UInt8 → Prop) : Prop :=
  ∀ (ι : Type) [Input ι] (c : ι), P (Input.rest c) →
    ∀ a c', r.run c = .ok (a, c') → Q a (Input.rest c')

/-- From every input with bytes in `P` to come, the reader fails. -/
def Fails (P : List UInt8 → Prop) (r : Reader α) : Prop := Leaves P r fun _ _ => False

theorem Reads.leaves (h : Reads P r a S) : Leaves P r fun _ => S := by
  intro ι _ c hc b c' hr
  obtain ⟨c'', hr', hc''⟩ := h ι c hc
  rw [hr'] at hr
  cases hr
  exact hc''

theorem leaves_pure (a : α) (h : ∀ bs, P bs → Q a bs) : Leaves P (pure a) Q := by
  rintro ι _ c hc b c' ⟨⟩
  exact h _ hc

/-- What does not depend on the bytes may be taken out. -/
theorem leaves_of_and {p : Prop} (h : p → Leaves P r Q) : Leaves (fun bs => p ∧ P bs) r Q :=
  fun ι _ c hc => h hc.1 ι c hc.2

theorem leaves_true (P : List UInt8 → Prop) (r : Reader α) : Leaves P r fun _ _ => True :=
  fun _ _ _ _ _ _ _ => trivial

theorem Fails.leaves (h : Fails P r) : Leaves P r Q :=
  fun ι _ c hc a c' hr => (h ι c hc a c' hr).elim

theorem Leaves.of_imp (h : Leaves P' r Q) (hP : ∀ bs, P bs → P' bs) : Leaves P r Q :=
  fun ι _ c hc => h ι c (hP _ hc)

theorem Leaves.bind (h : Leaves P r Q) (h' : ∀ a, Leaves (Q a) (f a) R) :
    Leaves P (r >>= f) R := by
  intro ι _ c hc b c' hr
  rw [run_bind] at hr
  cases hc₁ : r.run c with
  | error e =>
      rw [hc₁] at hr
      cases hr
  | ok p =>
      rw [hc₁] at hr
      exact h' p.1 ι p.2 (h ι c hc p.1 p.2 hc₁) b c' hr

theorem Fails.bind (h : Fails P r) : Leaves P (r >>= f) R :=
  Leaves.bind h fun _ _ _ _ hc => hc.elim

theorem Reads.bind_leaves (h : Reads P r a S) (h' : Leaves S (f a) R) :
    Leaves P (r >>= f) R := by
  intro ι _ c hc b c' hr
  obtain ⟨c₁, hr₁, hc₁⟩ := h ι c hc
  rw [run_bind, hr₁] at hr
  exact h' ι c₁ hc₁ b c' hr

/-- A reader may ask how many bytes are to come. -/
theorem leaves_of_left {f : Nat → Reader α}
    (h : ∀ bs, P bs → Leaves (· = bs) (f bs.length) Q) : Leaves P (left >>= f) Q :=
  fun ι _ c hc => h _ hc ι c rfl

theorem failHere_fails (cause : Cause) : Fails P (.failHere cause : Reader α) :=
  fun _ _ _ _ _ _ h => nomatch h

theorem failNext_fails (cause : Cause) : Fails P (.failNext cause : Reader α) :=
  fun _ _ _ _ _ _ h => nomatch h

/-- A value of another kind is refused, well formed or not. -/
theorem refuse_fails (wanted : Wanted) (b : UInt8) : Fails P (refuse wanted b : Reader α) := by
  have hthen {γ : Type} (r : Reader γ) {f : γ → Reader α}
      (h : ∀ c, Fails (fun _ => True) (f c)) : Fails P (r >>= f) := (leaves_true P r).bind h
  have hhere (cause : Cause) : Fails (fun _ => True) (.failHere cause : Reader α) :=
    failHere_fails cause
  unfold refuse
  split_ifs
  · exact hthen _ fun _ => (leaves_true _ _).bind fun _ => hhere _
  · exact hthen _ fun _ => (leaves_true _ _).bind fun _ => hhere _
  · exact hthen _ fun _ => (leaves_true _ _).bind fun _ => hhere _
  · exact hthen _ fun _ => hhere _
  · exact hthen _ fun _ => hhere _
  · exact failHere_fails _
  · exact failHere_fails _
  · exact failNext_fails _

theorem rejectObject_fails (cause : Cause) : Fails P (rejectObject cause : Reader α) := by
  refine (leaves_true P skipBlank).bind fun b => ?_
  dsimp only
  split_ifs
  · exact (leaves_true _ _).bind fun _ => failHere_fails cause
  · exact failHere_fails cause

/-! ### Values of any kind -/

/-- A reader stops behind a value, or fails. -/
def LeavesValue (r : Reader α) (v : Tree) : Prop :=
  ∀ ts, Ends ts → Leaves (At [] (v.tokens ++ ts)) r fun _ => At [] ts

variable {v : Tree} {ts us : List Token}

theorem ReadsValue.leaves (h : ReadsValue r v a) : LeavesValue r v :=
  fun ts hts => (h ts hts).leaves

/-- A value that a reader sees to be of another kind than its own. -/
theorem leavesValue_of_refuse {b : UInt8} {t : Token} {us : List Token}
    (hv : v.tokens = (b :: t) :: us) (hb : v.BeginsWith b) {f : UInt8 → Reader α}
    {wanted : Wanted} (hf : f b = refuse wanted b) : LeavesValue (valueStart >>= f) v := by
  intro ts _
  rw [hv, List.cons_append]
  refine (valueStart_reads (Byte.opens_iff.mp hb.opens).1).bind_leaves ?_
  rw [hf]
  exact (refuse_fails wanted b).leaves

/-- A string gives its text and stops behind it, or fails. -/
theorem string_leaves (q : Quoted) :
    Leaves (At q.token ts) string fun s bs => q.text? = some s ∧ At [] ts bs := by
  rintro ι _ c ⟨rest, hc, hlaid⟩ s c' hr
  have hout := outcome_string hc
  rw [hr, outcome, eq_comm, Option.map_eq_some_iff] at hout
  obtain ⟨t, ht, hpair⟩ := hout
  obtain ⟨rfl, hrest⟩ := Prod.ext_iff.mp hpair
  exact ⟨ht, rest, hrest.symm, hlaid⟩

theorem text_leaves (v : Tree) : LeavesValue text v := by
  obtain ⟨b, t, us, hv, hb⟩ := v.exists_beginsWith
  rcases hb.text with ⟨q, rfl⟩ | hquote
  · intro ts _
    rw [Tree.tokens]
    refine (valueStart_reads rfl).bind_leaves fun ι _ c hc s c' hr => ?_
    exact (string_leaves q ι c hc s c' hr).2
  · exact leavesValue_of_refuse hv hb (if_neg hquote)

theorem flag_leaves (v : Tree) : LeavesValue flag v := by
  obtain ⟨b, t, us, hv, hb⟩ := v.exists_beginsWith
  rcases hb.flag with ⟨f, rfl⟩ | ⟨ht, hf⟩
  · exact (flag_reads f).leaves
  · exact leavesValue_of_refuse hv hb ((if_neg ht).trans (if_neg hf))

theorem optional_text_leaves (v : Tree) : LeavesValue (optional text) v := by
  obtain ⟨b, t, us, hv, hb⟩ := v.exists_beginsWith
  rcases hb.null with rfl | hletter
  · exact (optional_text_reads (o := none) rfl).leaves
  · intro ts hts
    have htext := text_leaves v ts hts
    rw [hv, List.cons_append] at htext ⊢
    refine (skipBlank_reads (Byte.opens_iff.mp hb.opens).1).bind_leaves ?_
    rw [if_neg (by simpa using hletter)]
    exact (htext.of_imp fun _ hc => hc.token).bind fun s => leaves_pure (some s) fun _ hc => hc

variable {xs : List UInt8}

theorem elements_leaves_behind {vs : List Tree} (h : ∀ v ∈ vs, LeavesValue r v) {n : Nat}
    (hn : vs.length < n) :
    Leaves (At [] (behind Byte.closeList (vs.map Tree.tokens) ++ ts)) (elements r n false)
      fun _ => At [Byte.closeList] ts := by
  induction vs generalizing n with
  | nil =>
      obtain ⟨n, rfl⟩ := Nat.exists_eq_succ_of_ne_zero (Nat.ne_zero_of_lt hn)
      exact (moreElements_reads_end false).bind_leaves (Reads.pure []).leaves
  | cons v vs ih =>
      obtain ⟨n, rfl⟩ := Nat.exists_eq_succ_of_ne_zero (Nat.ne_zero_of_lt hn)
      obtain ⟨x, xs, us, hus, hx⟩ := v.exists_tokens_eq
      have hv := h v (.head _) _ (ends_behind (.inl rfl) (vs.map Tree.tokens) ts)
      have hrest := ih (fun w hw => h w (.tail _ hw)) (Nat.lt_of_succ_lt_succ hn)
      rw [hus, List.cons_append] at hv
      rw [List.map_cons, behind, hus, List.cons_append, List.append_assoc, List.cons_append]
      exact (moreElements_reads_comma hx).bind_leaves
        ((hv.of_imp fun _ hc => hc.token).bind fun a =>
          hrest.bind fun as => (Reads.pure (a :: as)).leaves)

theorem elements_leaves {vs : List Tree} (h : ∀ v ∈ vs, LeavesValue r v) {n : Nat}
    (hn : vs.length < n) :
    Leaves (At [] (separated Byte.closeList (vs.map Tree.tokens) ++ ts)) (elements r n true)
      fun _ => At [Byte.closeList] ts := by
  obtain ⟨n, rfl⟩ := Nat.exists_eq_succ_of_ne_zero (Nat.ne_zero_of_lt hn)
  cases vs with
  | nil => exact (moreElements_reads_end true).bind_leaves (Reads.pure []).leaves
  | cons v vs =>
      obtain ⟨x, xs, us, hus, hx⟩ := v.exists_tokens_eq
      have hv := h v (.head _) _ (ends_behind (.inl rfl) (vs.map Tree.tokens) ts)
      have hrest : Leaves (At [] (behind Byte.closeList (vs.map Tree.tokens) ++ ts))
          (elements r n false) fun _ => At [Byte.closeList] ts :=
        elements_leaves_behind (fun w hw => h w (.tail _ hw)) (Nat.lt_of_succ_lt_succ hn)
      rw [hus, List.cons_append] at hv
      rw [List.map_cons, separated, hus, List.append_assoc, List.cons_append]
      exact (moreElements_reads_first hx).bind_leaves
        ((hv.of_imp fun _ hc => hc.token).bind fun a =>
          hrest.bind fun as => (Reads.pure (a :: as)).leaves)

theorem list_leaves (h : ∀ v, LeavesValue r v) (v : Tree) : LeavesValue (list r) v := by
  obtain ⟨b, t, us, hv, hb⟩ := v.exists_beginsWith
  rcases hb.list with ⟨vs, rfl⟩ | hopen
  · intro ts _
    rw [Tree.tokens_list, List.cons_append]
    refine (valueStart_reads rfl).bind_leaves
      (advance_reads.bind_leaves (leaves_of_left fun bytes hc => ?_))
    refine ((elements_leaves (fun v _ => h v) hc.elements_lt).of_imp fun bs hbs => ?_).bind
      fun as => advance_reads.bind_leaves (Reads.pure as).leaves
    rw [hbs]
    exact hc
  · exact leavesValue_of_refuse hv hb (if_neg hopen)

/-! ### Closed records -/

/-- A closed record all of whose fields leave what they are given, of their kind or not. -/
structure Shape.Strict (shape : Shape σ) : Prop where
  closed : shape.closed = true
  leaves : ∀ f ∈ shape.fields, ∀ v, LeavesValue f.read v

theorem Field.defaulted_leaves {name : String} {put : α → σ → σ} (h : ∀ v, LeavesValue r v)
    (v : Tree) : LeavesValue (Field.defaulted name r put).read v :=
  fun ts hts => (h v ts hts).bind fun a => (Reads.pure (put a)).leaves

variable {shape : Shape σ} {seen : List String} {s : σ} {m : Quoted × Tree}
  {ms : List (Quoted × Tree)}

/-- A member, behind its key. -/
theorem member_leaves (h : shape.Strict) (k : String) (v : Tree) (hts : Ends ts) :
    Leaves (At [] ([Byte.colon] :: (v.tokens ++ ts))) (member shape seen k s)
      fun _ => At [] ts := by
  unfold member
  cases hfind : shape.fields.find? (·.name = k) with
  | none =>
      dsimp only
      rw [h.closed]
      exact (rejectObject_fails _).leaves
  | some f =>
      dsimp only
      split_ifs
      · exact (rejectObject_fails _).leaves
      · have hread := h.leaves f (List.mem_of_find?_eq_some hfind) v ts hts
        exact colon_reads.bind_leaves (hread.bind fun put => (Reads.pure (put s)).leaves)

theorem member_fails (h : shape.Strict) {k : String} (hk : k ∉ shape.names) :
    Fails P (member shape seen k s) := by
  have hfind : shape.fields.find? (·.name = k) = none := by
    rw [List.find?_eq_none]
    intro f hf hname
    exact hk (List.mem_map.mpr ⟨f, hf, by simpa using hname⟩)
  rw [member, hfind]
  dsimp only
  rw [h.closed]
  exact rejectObject_fails _

/-- A key that says one of the words. -/
def Quoted.IsKnown (keys : List String) (q : Quoted) : Prop := ∃ k ∈ keys, q.text? = some k

/-- A member, at whose key the input stands, and the members behind it. -/
theorem members_fails_cons (h : shape.Strict) (seen : List String) (s : σ) {n : Nat}
    (hts : Ends ts)
    (hrest : m.1.IsKnown shape.names →
      ∀ k s, Fails (At [] ts) (members shape n false (k :: seen) s)) :
    Fails (At m.1.token ([Byte.colon] :: (m.2.tokens ++ ts)))
      (do
        let k ← string
        let s ← member shape seen k s
        members shape n false (k :: seen) s) := by
  refine (string_leaves m.1).bind fun k => leaves_of_and fun hkey => ?_
  by_cases hk : k ∈ shape.names
  · exact (member_leaves h k m.2 hts).bind fun s => hrest ⟨k, hk, hkey⟩ k s
  · exact (member_fails h hk).bind

/-- Some member has an unknown key. -/
def HasUnknown (keys : List String) (ms : List (Quoted × Tree)) : Prop :=
  ∃ m ∈ ms, ¬ m.1.IsKnown keys

theorem HasUnknown.tail {keys : List String} (h : HasUnknown keys (m :: ms))
    (hm : m.1.IsKnown keys) : HasUnknown keys ms := by
  obtain ⟨u, hu, hkey⟩ := h
  rcases List.mem_cons.mp hu with rfl | hu
  · exact absurd hm hkey
  · exact ⟨u, hu, hkey⟩

theorem members_fails_behind (h : shape.Strict) (hms : HasUnknown shape.names ms) {n : Nat}
    (hn : ms.length < n) :
    Fails (At [] (behind Byte.closeObject (ms.map Tree.tokensOfMember) ++ ts))
      (members shape n false seen s) := by
  induction ms generalizing n seen s with
  | nil =>
      obtain ⟨m, hm, -⟩ := hms
      cases hm
  | cons m ms ih =>
      obtain ⟨n, rfl⟩ := Nat.exists_eq_succ_of_ne_zero (Nat.ne_zero_of_lt hn)
      have hcons := members_fails_cons h seen s
        (ends_behind (.inr rfl) (ms.map Tree.tokensOfMember) ts)
        fun hm _ _ => ih (hms.tail hm) (Nat.lt_of_succ_lt_succ hn)
      rw [List.map_cons, behind, Tree.tokensOfMember]
      simp only [List.cons_append, List.append_assoc]
      exact moreKeys_reads_comma.bind_leaves hcons

theorem members_fails (h : shape.Strict) (hms : HasUnknown shape.names ms) {n : Nat}
    (hn : ms.length < n) (ts : List Token) :
    Fails (At [] (separated Byte.closeObject (ms.map Tree.tokensOfMember) ++ ts))
      (members shape n true seen s) := by
  obtain ⟨n, rfl⟩ := Nat.exists_eq_succ_of_ne_zero (Nat.ne_zero_of_lt hn)
  cases ms with
  | nil =>
      obtain ⟨m, hm, -⟩ := hms
      cases hm
  | cons m ms =>
      have hcons := members_fails_cons h seen s
        (ends_behind (.inr rfl) (ms.map Tree.tokensOfMember) ts)
        fun hm _ _ => members_fails_behind h (hms.tail hm) (Nat.lt_of_succ_lt_succ hn)
      rw [List.map_cons, separated, Tree.tokensOfMember]
      simp only [List.cons_append, List.append_assoc]
      exact moreKeys_reads_first.bind_leaves hcons

/-- **An object with an unknown key is no closed record.** -/
theorem record_fails (h : shape.Strict) (hms : HasUnknown shape.names ms) :
    Fails (At [] ((Tree.object ms).tokens ++ ts)) (record shape) := by
  rw [Tree.tokens_object, List.cons_append]
  refine (valueStart_reads rfl).bind_leaves
    (advance_reads.bind_leaves (leaves_of_left fun bytes hc => ?_))
  refine Fails.bind ((members_fails h hms hc.members_lt ts).of_imp fun bs hbs => ?_)
  rw [hbs]
  exact hc

/-- A document is refused when its value is. -/
theorem read_of_fails {v : Tree} (h : Fails (At [] v.tokens) r) (source : Source)
    {bytes : List UInt8} (hbytes : LaidOut v.tokens bytes) :
    ∃ complaint, read r source bytes = .error complaint := by
  have hdocument : Fails (At [] v.tokens) (document r) := Fails.bind h
  refine read_of_value (p := fun x => ∃ complaint, x = .error complaint) (fun ι _ => ?_) source
  rw [Reader.value]
  cases hread : (document r).run (Input.start bytes : ι) with
  | ok p => exact (hdocument ι _ (hbytes.at_start ι) p.1 p.2 hread).elim
  | error e => exact ⟨e, rfl⟩

end RowTypes.Json
