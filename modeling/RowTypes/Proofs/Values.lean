import Mathlib.Data.List.Forall2
import RowTypes.Proofs.Strings

/-!
# Values — texts, flags, lists and objects

**Every reader of a value reads the tokens of its value**: texts, however they are spelled
(`text_reads`), flags, texts that may be null, lists (`list_reads`), and objects whose keys are data
(`object_reads`).

A loop that reads a list or an object takes a byte in every round, and an entry has a byte at least,
so the rounds do not run out (`At.elements_lt`, `At.members_lt`).
-/

namespace RowTypes.Json

variable {α β : Type} {P Q R : List UInt8 → Prop} {r : Reader α} {a : α} {f : α → Reader β} {b : β}
  {x : UInt8} {xs bytes : List UInt8} {ts us : List Token} {v : Tree}

/-! ### Texts and flags -/

/-- A string that says `s`, in any spelling. -/
def Tree.Says (v : Tree) (s : String) : Prop := ∃ q, v = .text q ∧ q.text? = some s

def Tree.SaysOrNull (v : Tree) : Option String → Prop
  | some s => v.Says s
  | none => v = .null

theorem says_of (s : String) : (Tree.text (.of s)).Says s := ⟨_, rfl, Quoted.text?_of s⟩

theorem text_reads {s : String} (h : v.Says s) : ReadsValue text v s := by
  obtain ⟨q, rfl, hq⟩ := h
  intro ts _
  rw [Tree.tokens]
  exact (valueStart_reads rfl).bind (string_reads hq)

theorem flag_reads (b : Bool) : ReadsValue flag (.flag b) b := by
  intro ts _
  cases b with
  | true =>
      rw [Tree.tokens]
      exact (valueStart_reads rfl).bind (advance_reads.bind ((word_reads rfl).bind (.pure true)))
  | false =>
      rw [Tree.tokens]
      exact (valueStart_reads rfl).bind (advance_reads.bind ((word_reads rfl).bind (.pure false)))

theorem optional_text_reads {o : Option String} (h : v.SaysOrNull o) :
    ReadsValue (optional text) v o := by
  intro ts hts
  cases o with
  | none =>
      obtain rfl := h
      rw [Tree.tokens]
      exact (skipBlank_reads rfl).bind (advance_reads.bind ((word_reads rfl).bind (.pure none)))
  | some s =>
      have htext := text_reads h ts hts
      obtain ⟨q, rfl, -⟩ := h
      rw [Tree.tokens] at htext ⊢
      exact (skipBlank_reads rfl).bind (htext.at_token.bind (.pure (some s)))

/-! ### Lists -/

theorem At.length_le (h : At [] (ts ++ us) bytes) (hts : [] ∉ ts) :
    ts.length ≤ bytes.length := by
  obtain ⟨rest, hc, hlaid⟩ := h
  rw [hc, List.nil_append]
  exact hlaid.length_le hts

theorem length_lt_behind (closer : UInt8) (tss : List (List Token)) :
    tss.length < (behind closer tss).length := by
  induction tss with
  | nil => exact Nat.zero_lt_one
  | cons ts tss ih =>
      rw [behind, List.length_cons, List.length_cons, List.length_append]
      omega

theorem length_le_separated (closer : UInt8) (tss : List (List Token)) :
    tss.length ≤ (separated closer tss).length := by
  cases tss with
  | nil => exact Nat.zero_le _
  | cons ts tss =>
      have := length_lt_behind closer tss
      rw [separated, List.length_cons, List.length_append]
      omega

/-- There are at least as many bytes as entries. -/
theorem At.entries_le {closer : UInt8} {tss : List (List Token)}
    (h : At [] (separated closer tss ++ ts) bytes) (htss : ∀ us ∈ tss, [] ∉ us) :
    tss.length ≤ bytes.length :=
  (length_le_separated closer tss).trans (h.length_le (nil_not_mem_separated closer htss))

/-- There are fewer elements than rounds in which they are read. -/
theorem At.elements_lt {vs : List Tree}
    (h : At [] (separated Byte.closeList (vs.map Tree.tokens) ++ ts) bytes) :
    vs.length < bytes.length + 1 := by
  have hle := h.entries_le fun us hus => ?_
  · rw [List.length_map] at hle
    exact Nat.lt_succ_of_le hle
  · obtain ⟨v, -, rfl⟩ := List.mem_map.mp hus
    exact v.nil_not_mem_tokens

/-- There are fewer members than rounds in which they are read. -/
theorem At.members_lt {ms : List (Quoted × Tree)}
    (h : At [] (separated Byte.closeObject (ms.map Tree.tokensOfMember) ++ ts) bytes) :
    ms.length < bytes.length + 1 := by
  have hle := h.entries_le fun us hus => ?_
  · rw [List.length_map] at hle
    exact Nat.lt_succ_of_le hle
  · obtain ⟨m, -, rfl⟩ := List.mem_map.mp hus
    exact Tree.nil_not_mem_tokensOfMember m

theorem moreElements_reads_end (first : Bool) :
    Reads (At [] ([Byte.closeList] :: ts)) (moreElements first) false (At [Byte.closeList] ts) :=
  (skipBlank_reads rfl).bind (.pure false)

theorem moreElements_reads_first (hx : Byte.opens x = true) :
    Reads (At [] ((x :: xs) :: ts)) (moreElements true) true (At (x :: xs) ts) := by
  obtain ⟨hblank, -, hclose, -⟩ := Byte.opens_iff.mp hx
  refine (skipBlank_reads hblank).bind ?_
  change Reads _ (if x = Byte.closeList then _ else _) _ _
  rw [if_neg hclose]
  exact .pure true

theorem moreElements_reads_comma (hx : Byte.opens x = true) :
    Reads (At [] ([Byte.comma] :: (x :: xs) :: ts)) (moreElements false) true
      (At (x :: xs) ts) := by
  obtain ⟨hblank, -, hclose, -⟩ := Byte.opens_iff.mp hx
  refine (skipBlank_reads rfl).bind (advance_reads.bind ((skipBlank_reads hblank).bind ?_))
  change Reads _ (if x = Byte.closeList then _ else _) _ _
  rw [if_neg hclose]
  exact .pure true

theorem elements_reads_behind {vs : List Tree} {as : List α}
    (h : List.Forall₂ (ReadsValue r) vs as) {n : Nat} (hn : as.length < n) :
    Reads (At [] (behind Byte.closeList (vs.map Tree.tokens) ++ ts)) (elements r n false) as
      (At [Byte.closeList] ts) := by
  induction h generalizing n with
  | nil =>
      cases n with
      | zero => cases hn
      | succ n => exact (moreElements_reads_end false).bind (.pure [])
  | @cons v a vs as hv _ ih =>
      cases n with
      | zero => cases hn
      | succ n =>
          obtain ⟨x, xs, us, hus, hx⟩ := v.exists_tokens_eq
          have hread := hv _ (ends_behind (.inl rfl) (vs.map Tree.tokens) ts)
          have hrest := ih (Nat.lt_of_succ_lt_succ hn)
          rw [hus, List.cons_append] at hread
          rw [List.map_cons, behind, hus, List.cons_append, List.append_assoc, List.cons_append]
          exact (moreElements_reads_comma hx).bind
            (hread.at_token.bind (hrest.bind (.pure (a :: as))))

theorem elements_reads {vs : List Tree} {as : List α} (h : List.Forall₂ (ReadsValue r) vs as)
    {n : Nat} (hn : as.length < n) :
    Reads (At [] (separated Byte.closeList (vs.map Tree.tokens) ++ ts)) (elements r n true) as
      (At [Byte.closeList] ts) := by
  obtain ⟨n, rfl⟩ := Nat.exists_eq_succ_of_ne_zero (Nat.ne_zero_of_lt hn)
  cases h with
  | nil => exact (moreElements_reads_end true).bind (.pure [])
  | @cons v a vs as hv hvs =>
      obtain ⟨x, xs, us, hus, hx⟩ := v.exists_tokens_eq
      have hread := hv _ (ends_behind (.inl rfl) (vs.map Tree.tokens) ts)
      have hrest : Reads (At [] (behind Byte.closeList (vs.map Tree.tokens) ++ ts))
          (elements r n false) as (At [Byte.closeList] ts) :=
        elements_reads_behind hvs (Nat.lt_of_succ_lt_succ hn)
      rw [hus, List.cons_append] at hread
      rw [List.map_cons, separated, hus, List.append_assoc, List.cons_append]
      exact (moreElements_reads_first hx).bind (hread.at_token.bind (hrest.bind (.pure (a :: as))))

theorem list_reads {vs : List Tree} {as : List α} (h : List.Forall₂ (ReadsValue r) vs as) :
    ReadsValue (list r) (.list vs) as := by
  intro ts _
  rw [Tree.tokens_list, List.cons_append]
  refine (valueStart_reads rfl).bind (advance_reads.bind (reads_of_left fun bytes hc => ?_))
  have hn : as.length < bytes.length + 1 := h.length_eq ▸ hc.elements_lt
  refine ((elements_reads h hn).of_imp fun bs hbs => ?_).bind (advance_reads.bind (.pure as))
  rw [hbs]
  exact hc

/-! ### Objects -/

/-- A member of an object whose key says something. -/
structure Member where
  key : String
  spelling : Quoted
  spelled : spelling.text? = some key
  value : Tree

namespace Member

/-- A member whose key is spelled as it is written. -/
def of (key : String) (value : Tree) : Member := ⟨key, .of key, Quoted.text?_of key, value⟩

@[simp] theorem key_of (key : String) (value : Tree) : (of key value).key = key := rfl

@[simp] theorem value_of (key : String) (value : Tree) : (of key value).value = value := rfl

def pair (m : Member) : Quoted × Tree := (m.spelling, m.value)

/-- A spelling says one key only. -/
theorem pair_injective : Function.Injective pair := by
  rintro ⟨key, q, hq, v⟩ ⟨key', q', hq', v'⟩ h
  obtain ⟨rfl, rfl⟩ := Prod.ext_iff.mp h
  obtain rfl := Option.some.inj (hq.symm.trans hq')
  rfl

def tokens (m : Member) : List Token := m.spelling.token :: [Byte.colon] :: m.value.tokens

end Member

/-- An object whose keys all say something. -/
def Tree.ofMembers (ms : List Member) : Tree := .object (ms.map Member.pair)

theorem Tree.ofMembers_injective : Function.Injective ofMembers := by
  intro ms ms' h
  exact Member.pair_injective.list_map (Tree.object.inj h)

/-- The tree of an object that is written. -/
theorem tree_object_eq (ms : List (String × Value)) :
    (Value.object ms).tree = .ofMembers (ms.map fun m => .of m.1 m.2.tree) := by
  rw [Value.tree_object, Tree.ofMembers, List.map_map]
  rfl

theorem Tree.tokens_ofMembers (ms : List Member) : (ofMembers ms).tokens =
    [Byte.openObject] :: separated Byte.closeObject (ms.map Member.tokens) := by
  rw [ofMembers, tokens_object, List.map_map]
  rfl

theorem moreKeys_reads_end (first : Bool) :
    Reads (At [] ([Byte.closeObject] :: ts)) (moreKeys first) false (At [Byte.closeObject] ts) :=
  (skipBlank_reads rfl).bind (.pure false)

theorem moreKeys_reads_first :
    Reads (At [] ((Byte.quote :: xs) :: ts)) (moreKeys true) true (At (Byte.quote :: xs) ts) :=
  (skipBlank_reads rfl).bind (.pure true)

theorem moreKeys_reads_comma :
    Reads (At [] ([Byte.comma] :: (Byte.quote :: xs) :: ts)) (moreKeys false) true
      (At (Byte.quote :: xs) ts) :=
  (skipBlank_reads rfl).bind (advance_reads.bind ((skipBlank_reads rfl).bind (.pure true)))

theorem colon_reads : Reads (At [] ([Byte.colon] :: ts)) colon () (At [] ts) :=
  (skipBlank_reads rfl).bind advance_reads

/-- A member of an object is read as an entry. -/
def ReadsEntry (r : Reader α) (m : Member) (e : String × α) : Prop :=
  m.key = e.1 ∧ ReadsValue r m.value e.2

variable {m : Member} {ms : List Member} {e : String × α} {es : List (String × α)}

/-- There are fewer members than rounds in which they are read. -/
theorem At.ofMembers_lt
    (h : At [] (separated Byte.closeObject (ms.map Member.tokens) ++ ts) bytes) :
    ms.length < bytes.length + 1 := by
  have hpairs : At [] (separated Byte.closeObject
      ((ms.map Member.pair).map Tree.tokensOfMember) ++ ts) bytes := by
    rwa [List.map_map]
  simpa using hpairs.members_lt

/-- An entry, at whose key the input stands. -/
theorem entry_reads (h : ReadsEntry r m e) {n : Nat}
    (hrest : Reads (At [] ts) (entries r n false) es Q) (hts : Ends ts) :
    Reads (At m.spelling.token ([Byte.colon] :: (m.value.tokens ++ ts)))
      (do
        let k ← string
        colon
        let a ← r
        return (k, a) :: (← entries r n false)) (e :: es) Q := by
  obtain ⟨hk, hv⟩ := h
  have hkey : m.spelling.text? = some e.1 := hk ▸ m.spelled
  exact (string_reads hkey).bind
    (colon_reads.bind ((hv ts hts).bind (hrest.bind (.pure (e :: es)))))

theorem entries_reads_behind (h : List.Forall₂ (ReadsEntry r) ms es) {n : Nat}
    (hn : es.length < n) :
    Reads (At [] (behind Byte.closeObject (ms.map Member.tokens) ++ ts))
      (entries r n false) es (At [Byte.closeObject] ts) := by
  induction h generalizing n with
  | nil =>
      cases n with
      | zero => cases hn
      | succ n => exact (moreKeys_reads_end false).bind (.pure [])
  | @cons m e ms es hm _ ih =>
      cases n with
      | zero => cases hn
      | succ n =>
          have hentry := entry_reads hm (ih (Nat.lt_of_succ_lt_succ hn))
            (ends_behind (.inr rfl) (ms.map Member.tokens) ts)
          rw [List.map_cons, behind, Member.tokens]
          simp only [List.cons_append, List.append_assoc]
          exact moreKeys_reads_comma.bind hentry

theorem entries_reads (h : List.Forall₂ (ReadsEntry r) ms es) {n : Nat} (hn : es.length < n) :
    Reads (At [] (separated Byte.closeObject (ms.map Member.tokens) ++ ts))
      (entries r n true) es (At [Byte.closeObject] ts) := by
  obtain ⟨n, rfl⟩ := Nat.exists_eq_succ_of_ne_zero (Nat.ne_zero_of_lt hn)
  cases h with
  | nil => exact (moreKeys_reads_end true).bind (.pure [])
  | @cons m e ms es hm hms =>
      have hentry := entry_reads hm (entries_reads_behind hms (Nat.lt_of_succ_lt_succ hn))
        (ends_behind (.inr rfl) (ms.map Member.tokens) ts)
      rw [List.map_cons, separated, Member.tokens]
      simp only [List.cons_append, List.append_assoc]
      exact moreKeys_reads_first.bind hentry

/-- An object whose keys are data. -/
theorem object_reads (h : List.Forall₂ (ReadsEntry r) ms es) :
    ReadsValue (object r) (.ofMembers ms) es := by
  intro ts _
  rw [Tree.tokens_ofMembers, List.cons_append]
  refine (valueStart_reads rfl).bind (advance_reads.bind (reads_of_left fun bytes hc => ?_))
  have hn : es.length < bytes.length + 1 := h.length_eq ▸ hc.ofMembers_lt
  refine ((entries_reads h hn).of_imp fun bs hbs => ?_).bind (advance_reads.bind (.pure es))
  rw [hbs]
  exact hc

end RowTypes.Json
