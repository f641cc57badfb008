import Mathlib.Data.List.TakeWhile
import RowTypes.Proofs.Tokens

/-!
# Reading — what readers make of tokens

A reader `Reads` a value when, from every input with bytes of one kind to come, it gives that value
and leaves bytes of another kind.  So what is read does not depend on how the bytes are handed over,
and readers are put together by `Reads.bind`.

The bytes to come are some bytes, and then tokens in some layout (`At`).  The blanks of a layout are
seen once, where they are skipped (`skipBlank_reads`).  **A document is read, as a text and as a
stream, when its value is** (`read_of_readsValue`).
-/

namespace RowTypes.Json

variable {α β : Type} {P Q R : List UInt8 → Prop} {r : Reader α} {a : α} {f : α → Reader β} {b : β}

/-! ### Runs -/

theorem run_bind {ι : Type} [Input ι] (r : Reader α) (f : α → Reader β) (c : ι) :
    (r >>= f).run c = r.run c >>= fun p => (f p.1).run p.2 := by
  change (r.bind f).run c = _
  induction r generalizing c with
  | done a => rfl
  | failHere cause => rfl
  | failNext cause => rfl
  | peek goOn ih => exact ih _ _
  | take goOn ih => exact ih _ _
  | quoted goOn ih =>
      rw [Reader.bind, Reader.run, Reader.run]
      cases quoted? c with
      | error e => rfl
      | ok p => exact ih _ _
  | left goOn ih => exact ih _ _

/-- From every input with bytes in `P` to come, the reader gives `a` and leaves bytes in `Q`. -/
def Reads (P : List UInt8 → Prop) (r : Reader α) (a : α) (Q : List UInt8 → Prop) : Prop :=
  ∀ (ι : Type) [Input ι] (c : ι), P (Input.rest c) →
    ∃ c' : ι, r.run c = .ok (a, c') ∧ Q (Input.rest c')

theorem Reads.pure (a : α) : Reads P (Pure.pure a) a P :=
  fun _ _ c hc => ⟨c, rfl, hc⟩

theorem Reads.bind (h : Reads P r a Q) (h' : Reads Q (f a) b R) : Reads P (r >>= f) b R := by
  intro ι _ c hc
  obtain ⟨c₁, hr, hc₁⟩ := h ι c hc
  obtain ⟨c₂, hf, hc₂⟩ := h' ι c₁ hc₁
  refine ⟨c₂, ?_, hc₂⟩
  rw [run_bind, hr]
  exact hf

theorem Reads.of_imp (h : Reads Q r a R) (hP : ∀ bs, P bs → Q bs) : Reads P r a R :=
  fun ι _ c hc => h ι c (hP _ hc)

/-- A reader may ask how many bytes are to come. -/
theorem reads_of_left {f : Nat → Reader α}
    (h : ∀ bs, P bs → Reads (· = bs) (f bs.length) a Q) : Reads P (left >>= f) a Q :=
  fun ι _ c hc => h _ hc ι c rfl

/-- Bytes are to come, and then tokens. -/
def At (bs : List UInt8) (ts : List Token) (bytes : List UInt8) : Prop :=
  ∃ rest, bytes = bs ++ rest ∧ LaidOut ts rest

variable {x : UInt8} {xs t bytes : List UInt8} {ts us : List Token}

/-- At the bytes of a token. -/
theorem At.token (h : At t ts bytes) : At [] (t :: ts) bytes := by
  obtain ⟨rest, hrest, hts⟩ := h
  exact ⟨t ++ rest, hrest, .token (List.forall_mem_nil _) t hts⟩

/-- The first byte of a token may have been looked at. -/
theorem Reads.at_token (h : Reads (At [] (t :: ts)) r a Q) : Reads (At t ts) r a Q :=
  h.of_imp fun _ hc => hc.token

theorem LaidOut.at_start (h : LaidOut ts bytes) (ι : Type) [Input ι] :
    At [] ts (Input.rest (Input.start bytes : ι)) := by
  rw [Input.rest_start]
  exact ⟨bytes, rfl, h⟩

/-! ### Bytes -/

/-- At the next byte, an input answers with it and goes on behind it. -/
theorem exists_take_eq {ι : Type} [Input ι] {c : ι} (h : Input.rest c = x :: bytes) :
    ∃ c', Input.take c = (some x, c') ∧ Input.rest c' = bytes := by
  obtain ⟨hnext, hrest⟩ := Input.take_eq c
  rw [h] at hnext hrest
  exact ⟨_, Prod.ext hnext rfl, hrest⟩

theorem peek_reads (bytes : List UInt8) : Reads (· = bytes) peek bytes.head? (· = bytes) := by
  intro ι _ c hc
  obtain ⟨hnext, hrest⟩ := Input.peek_eq c
  refine ⟨_, ?_, hrest.trans hc⟩
  rw [← hc, ← hnext]
  rfl

theorem peek_reads_at : Reads (At (x :: xs) ts) peek (some x) (At (x :: xs) ts) := by
  rintro ι _ c ⟨rest, hc, hlaid⟩
  obtain ⟨c', hc', hrest⟩ := peek_reads _ ι c hc
  exact ⟨c', hc', rest, hrest, hlaid⟩

theorem take_reads : Reads (At (x :: xs) ts) take (some x) (At xs ts) := by
  rintro ι _ c ⟨rest, hc, hlaid⟩
  obtain ⟨c', htake, hrest⟩ := exists_take_eq hc
  exact ⟨c', congrArg Except.ok htake, rest, hrest, hlaid⟩

theorem advance_reads : Reads (At (x :: xs) ts) advance () (At xs ts) := by
  rintro ι _ c ⟨rest, hc, hlaid⟩
  obtain ⟨-, hrest⟩ := Input.take_eq c
  rw [hc] at hrest
  exact ⟨_, rfl, rest, hrest, hlaid⟩

theorem advance_reads_cons (x : UInt8) (xs : List UInt8) :
    Reads (· = x :: xs) advance () (· = xs) := by
  intro ι _ c hc
  obtain ⟨-, hrest⟩ := Input.take_eq c
  rw [hc] at hrest
  exact ⟨_, rfl, hrest⟩

theorem takeIf_reads (b : UInt8) : Reads (At (b :: xs) ts) (takeIf b) true (At xs ts) := by
  refine peek_reads_at.bind ?_
  rw [if_pos rfl]
  exact advance_reads.bind (.pure true)

theorem takeIf_reads_of_ne {b : UInt8} (h : x ≠ b) :
    Reads (At (x :: xs) ts) (takeIf b) false (At (x :: xs) ts) := by
  refine peek_reads_at.bind ?_
  rw [if_neg (by simpa using h)]
  exact .pure false

theorem bytesWhile_reads (p : UInt8 → Bool) {n : Nat} (h : bytes.length ≤ n) :
    Reads (· = bytes) (bytesWhile p n) (bytes.takeWhile p) (· = bytes.dropWhile p) := by
  induction n generalizing bytes with
  | zero =>
      rw [List.length_eq_zero_iff.mp (Nat.le_zero.mp h)]
      exact .pure []
  | succ n ih =>
      refine (peek_reads bytes).bind ?_
      cases bytes with
      | nil => exact .pure []
      | cons x xs =>
          change Reads _ (if p x then _ else _) _ _
          rw [List.takeWhile_cons, List.dropWhile_cons]
          split_ifs
          · exact (advance_reads_cons x xs).bind
              ((ih (Nat.le_of_succ_le_succ h)).bind (.pure (x :: xs.takeWhile p)))
          · exact .pure []

theorem takeWhile_reads (p : UInt8 → Bool) (bytes : List UInt8) :
    Reads (· = bytes) (takeWhile p) (bytes.takeWhile p) (· = bytes.dropWhile p) := by
  refine reads_of_left fun bs hbs => ?_
  subst hbs
  exact bytesWhile_reads p (Nat.le_refl _)

/-! ### Blanks -/

theorem Blanks.dropWhile_append {blanks : List UInt8} (h : Blanks blanks) (rest : List UInt8) :
    (blanks ++ rest).dropWhile Byte.isBlank = rest.dropWhile Byte.isBlank := by
  rw [List.dropWhile_append_of_pos]
  intro b hb
  rcases h b hb with rfl | rfl | rfl | rfl <;> rfl

theorem skipBlank_reads_eq (bytes : List UInt8) :
    Reads (· = bytes) skipBlank (bytes.dropWhile Byte.isBlank).head?
      (· = bytes.dropWhile Byte.isBlank) :=
  (takeWhile_reads Byte.isBlank bytes).bind (peek_reads _)

theorem skipBlank_reads (hx : Byte.isBlank x = false) :
    Reads (At [] ((x :: xs) :: ts)) skipBlank (some x) (At (x :: xs) ts) := by
  rintro ι _ c ⟨bytes, hc, hlaid⟩
  cases hlaid with
  | @token blanks hblanks t ts rest hrest =>
      obtain ⟨c', hread, hc'⟩ := skipBlank_reads_eq _ ι c hc
      have hdrop : ([] ++ (blanks ++ (x :: xs ++ rest))).dropWhile Byte.isBlank =
          x :: xs ++ rest := by
        rw [List.nil_append, hblanks.dropWhile_append, List.cons_append,
          List.dropWhile_cons_of_neg (by simp [hx])]
      rw [hdrop] at hread hc'
      exact ⟨c', hread, rest, hc', hrest⟩

/-- Behind the last token nothing is left. -/
theorem skipBlank_reads_end : Reads (At [] []) skipBlank none fun _ => True := by
  rintro ι _ c ⟨bytes, hc, hlaid⟩
  cases hlaid with
  | done hblanks =>
      obtain ⟨c', hread, -⟩ := skipBlank_reads_eq _ ι c hc
      rw [List.nil_append, ← List.append_nil bytes, hblanks.dropWhile_append] at hread
      exact ⟨c', hread, trivial⟩

theorem valueStart_reads (hx : Byte.isBlank x = false) :
    Reads (At [] ((x :: xs) :: ts)) valueStart x (At (x :: xs) ts) :=
  (skipBlank_reads hx).bind (.pure x)

/-! ### Words -/

/-- A word whose letters are bytes. -/
theorem word_reads {ws : List Char}
    (h : ws.map String.utf8EncodeChar = ws.map fun w => [w.toUInt8]) :
    Reads (At (encode ws) ts) (word ws) () (At [] ts) := by
  induction ws with
  | nil => exact .pure ()
  | cons w ws ih =>
      obtain ⟨hw, hws⟩ := List.cons.inj h
      rw [encode_cons, hw, word]
      refine take_reads.bind ?_
      change Reads _ (if w.toUInt8 = w.toUInt8 then word ws else _) _ _
      rw [if_pos rfl]
      exact ih hws

/-! ### Values and documents -/

/-- What may follow a value: a comma, a closing bracket or brace, or nothing. -/
def Ends (ts : List Token) : Prop :=
  ∀ t ∈ ts.head?, t = [Byte.comma] ∨ t = [Byte.closeList] ∨ t = [Byte.closeObject]

theorem ends_behind {closer : UInt8} (h : closer = Byte.closeList ∨ closer = Byte.closeObject)
    (tss : List (List Token)) (ts : List Token) : Ends (behind closer tss ++ ts) := by
  intro t ht
  cases tss with
  | nil =>
      cases ht
      rcases h with rfl | rfl
      · exact .inr (.inl rfl)
      · exact .inr (.inr rfl)
  | cons us tss =>
      cases ht
      exact .inl rfl

/-- A reader reads a value off its tokens. -/
def ReadsValue (r : Reader α) (v : Tree) (a : α) : Prop :=
  ∀ ts, Ends ts → Reads (At [] (v.tokens ++ ts)) r a (At [] ts)

theorem read_map (r : Reader α) (g : α → β) (source : Source) (bytes : List UInt8) :
    read (do return g (← r)) source bytes = (read r source bytes).map g := by
  have hvalue (ι : Type) [Input ι] : (document (do return g (← r))).value ι bytes =
      ((document r).value ι bytes).map g := by
    simp only [document, Reader.value, run_bind]
    cases r.run (Input.start bytes : ι) with
    | error e => rfl
    | ok p =>
        simp only [bind, Except.bind, Pure.pure, Reader.run]
        cases skipBlank.run p.2 with
        | error e => rfl
        | ok q =>
            dsimp only
            split_ifs <;> rfl
  cases source with
  | text => exact hvalue TextInput
  | stream => exact hvalue StreamInput

/-- What comes of a document read from every input comes of it from either source. -/
theorem read_of_value {p : Except Complaint α → Prop} {bytes : List UInt8}
    (h : ∀ (ι : Type) [Input ι], p ((document r).value ι bytes)) (source : Source) :
    p (read r source bytes) := by
  cases source with
  | text => exact h TextInput
  | stream => exact h StreamInput

/-- A document is read when its value is. -/
theorem read_of_readsValue {v : Tree} (h : ReadsValue r v a) (source : Source)
    {bytes : List UInt8} (hbytes : LaidOut v.tokens bytes) : read r source bytes = .ok a := by
  have hdocument : Reads (At [] v.tokens) (document r) a fun _ => True := by
    have hv := h [] (by intro t ht; cases ht)
    rw [List.append_nil] at hv
    exact hv.bind (skipBlank_reads_end.bind (.pure a))
  refine read_of_value (p := (· = .ok a)) (fun ι _ => ?_) source
  obtain ⟨c', hc', -⟩ := hdocument ι _ (hbytes.at_start ι)
  rw [Reader.value, hc']
  rfl

end RowTypes.Json
