import Mathlib.Tactic.SplitIfs
import RowTypes.Proofs.Reading

/-!
# Strings — piece by piece

What comes of reading a string hangs on its bytes alone: on `scan` where its text is wanted, and on
`pass` where it is skipped.

**A string that is read gives what its pieces say, and is refused if they say nothing**
(`Quoted.scan_pieces`, `outcome_string`).  **A string that is skipped may be any pieces at all**
(`skipString_reads`).
-/

namespace RowTypes.Json

variable {α ι : Type} [Input ι] {c : ι} {b : UInt8} {bytes rest value : List UInt8}
  {ts : List Token}

/-- What comes of reading, the place of a failure apart: a value, and the bytes that are left. -/
def outcome (x : Except Complaint (α × ι)) : Option (α × List UInt8) :=
  match x with
  | .ok (a, c) => some (a, Input.rest c)
  | .error _ => none

theorem outcome_eq_some {x : Except Complaint (α × ι)} {a : α} :
    outcome x = some (a, rest) ↔ ∃ c, x = .ok (a, c) ∧ Input.rest c = rest := by
  cases x with
  | error e => simp [outcome]
  | ok p => simp [outcome, Prod.ext_iff]

theorem outcome_eq_none {x : Except Complaint (α × ι)} :
    outcome x = none ↔ ∃ e, x = .error e := by
  cases x <;> simp [outcome]

/-! ### Strings that are read -/

/-- The bytes of a string up to its closing quote, behind those of `value`, latest first, and what
is left behind it. -/
def scan : Escape → List UInt8 → List UInt8 → Option (List UInt8 × List UInt8)
  | _, _, [] => none
  | state, value, b :: rest =>
      if state.isPlain && b = Byte.quote then some (value.reverse, rest)
      else match state.step b with
        | .ok (state, added) => scan state (added.reverse ++ value) rest
        | .error _ => none

theorem outcome_stringFrom {n : Nat} (h : (Input.rest c).length ≤ n) (state : Escape)
    (value : List UInt8) :
    outcome (stringFrom n state value c) = scan state value (Input.rest c) := by
  induction n generalizing c state value with
  | zero =>
      rw [List.length_eq_zero_iff.mp (Nat.le_zero.mp h)]
      rfl
  | succ n ih =>
      cases hc : Input.rest c with
      | nil =>
          obtain ⟨hnext, -⟩ := Input.take_eq c
          rw [hc] at hnext
          rw [stringFrom, show Input.take c = (none, (Input.take c).2) from Prod.ext hnext rfl]
          rfl
      | cons b rest =>
          obtain ⟨c', htake, hrest⟩ := exists_take_eq hc
          have hn : (Input.rest c').length ≤ n := by
            rw [hrest]
            rw [hc] at h
            exact Nat.le_of_succ_le_succ h
          rw [stringFrom, htake, scan]
          dsimp only
          split_ifs
          · rw [outcome, hrest]
          · cases state.step b with
            | error cause => rfl
            | ok p => exact (ih hn p.1 _).trans (by rw [hrest])

/-! ### Pieces -/

/-- A byte that stands for itself in a string. -/
def Byte.Harmless (b : UInt8) : Prop := b ≠ quote ∧ b ≠ backslash ∧ isControl b = false

theorem Byte.harmless_of_le {b : UInt8} (h : 0x20 ≤ b.toNat) (hq : b ≠ quote)
    (hs : b ≠ backslash) : Harmless b := by
  refine ⟨hq, hs, ?_⟩
  rw [isControl, decide_eq_false_iff_not, UInt8.lt_iff_toNat_lt]
  exact Nat.not_lt.mpr h

/-- A character is one byte below 128, or bytes from there on. -/
theorem utf8EncodeChar_cases (c : Char) :
    c.toNat < 0x80 ∧ String.utf8EncodeChar c = [UInt8.ofNat c.toNat] ∨
      ∀ b ∈ String.utf8EncodeChar c, 0x80 ≤ b.toNat := by
  have hhigh (n : Nat) (h : 0x80 ≤ n) (h' : n < 0x100) : 0x80 ≤ (UInt8.ofNat n).toNat := by
    rwa [UInt8.toNat_ofNat', Nat.mod_eq_of_lt h']
  simp only [String.utf8EncodeChar]
  split_ifs
  · exact .inl ⟨Nat.lt_succ_of_le ‹_›, rfl⟩
  all_goals
    simp only [List.forall_mem_cons, List.not_mem_nil, false_imp_iff, implies_true, and_true]
    refine .inr ?_
    and_intros <;> exact hhigh _ (by omega) (by omega)

theorem harmless_utf8EncodeChar {c : Char} (h : c ≠ '"' ∧ c ≠ '\x5c' ∧ ¬ c.toNat < 0x20) :
    ∀ b ∈ String.utf8EncodeChar c, Byte.Harmless b := by
  obtain ⟨hq, hs, hc⟩ := h
  intro b hb
  rcases utf8EncodeChar_cases c with ⟨hlow, heq⟩ | hhigh
  · rw [heq, List.mem_singleton] at hb
    have hn : b.toNat = c.toNat := by
      rw [hb, UInt8.toNat_ofNat', Nat.mod_eq_of_lt (by omega)]
    have hne (d : Char) (hd : c ≠ d) : b.toNat ≠ d.toNat := by
      rw [hn]
      exact fun h => hd (Char.toNat_inj.mp h)
    refine Byte.harmless_of_le (by omega) ?_ ?_
    · rintro rfl
      exact hne _ hq rfl
    · rintro rfl
      exact hne _ hs rfl
  · have hb := hhigh b hb
    refine Byte.harmless_of_le (by omega) ?_ ?_ <;>
    · rintro rfl
      exact absurd hb (by decide)

theorem utf8EncodeChar_ne_nil (c : Char) : String.utf8EncodeChar c ≠ [] := by
  simp only [String.utf8EncodeChar]
  split_ifs <;> exact List.cons_ne_nil _ _

theorem HexDigit.hexDigit?_byte (d : HexDigit) : Byte.hexDigit? d.byte = some d.value := by
  obtain ⟨value, capital⟩ := d
  revert value capital
  decide

theorem CodeUnit.hexNumber?_bytes (u : CodeUnit) :
    hexNumber? [u.fourth.byte, u.third.byte, u.second.byte, u.first.byte] = some u.value := by
  simp [hexNumber?, HexDigit.hexDigit?_byte, value]

theorem scan_harmless {bs : List UInt8} (h : ∀ b ∈ bs, Byte.Harmless b) (value rest : List UInt8) :
    scan .plain value (bs ++ rest) = scan .plain (bs.reverse ++ value) rest := by
  induction bs generalizing value with
  | nil => rfl
  | cons b bs ih =>
      obtain ⟨hq, hs, hcontrol⟩ := h b (.head _)
      have hstep : Escape.step .plain b = .ok (.plain, [b]) := by
        rw [Escape.step, if_neg hs, hcontrol]
        rfl
      have hone : scan .plain value (b :: (bs ++ rest)) =
          scan .plain (b :: value) (bs ++ rest) := by
        rw [scan, hstep]
        simp [hq]
      rw [List.cons_append, hone, ih fun x hx => h x (.tail _ hx)]
      simp

theorem scan_short (e : ShortEscape) (value rest : List UInt8) :
    scan .plain value ((Piece.short e).bytes ++ rest) =
      scan .plain ((String.utf8EncodeChar e.char).reverse ++ value) rest := by
  cases e <;> rfl

theorem scan_unit (u : CodeUnit) (value rest : List UInt8) :
    scan .plain value ((Piece.unit u).bytes ++ rest) =
      match Escape.ofUnit u.value with
      | .ok (state, added) => scan state (added.reverse ++ value) rest
      | .error _ => none := by
  have hlast : Escape.step (.unit [u.third.byte, u.second.byte, u.first.byte]) u.fourth.byte =
      Escape.ofUnit u.value := by
    rw [Escape.step, u.hexNumber?_bytes]
    rfl
  change (match Escape.step (.unit [u.third.byte, u.second.byte, u.first.byte]) u.fourth.byte with
    | .ok (state, added) => scan state (added.reverse ++ value) rest
    | .error _ => none) = _
  rw [hlast]

theorem scan_second (n : Nat) (u : CodeUnit) (value rest : List UInt8) :
    scan (.half n) value ((Piece.unit u).bytes ++ rest) =
      match Escape.ofPair n u.value with
      | .ok (state, added) => scan state (added.reverse ++ value) rest
      | .error _ => none := by
  have hlast : Escape.step (.second n [u.third.byte, u.second.byte, u.first.byte]) u.fourth.byte =
      Escape.ofPair n u.value := by
    rw [Escape.step, u.hexNumber?_bytes]
    rfl
  change (match Escape.step (.second n [u.third.byte, u.second.byte, u.first.byte])
      u.fourth.byte with
    | .ok (state, added) => scan state (added.reverse ++ value) rest
    | .error _ => none) = _
  rw [hlast]

/-- Behind the first half of a pair only a unit is read. -/
theorem scan_half (n : Nat) {p : Piece} (h : ∀ u, p ≠ .unit u) (value rest : List UInt8) :
    scan (.half n) value (p.bytes ++ rest) = none := by
  cases p with
  | plain c hc =>
      obtain ⟨b, bs, hbytes⟩ := List.exists_cons_of_ne_nil (utf8EncodeChar_ne_nil c)
      obtain ⟨-, hs, -⟩ := harmless_utf8EncodeChar hc b (by rw [hbytes]; exact .head _)
      have hstep : Escape.step (.half n) b = .error .halfPair := if_neg hs
      rw [Piece.bytes, hbytes, List.cons_append, scan, hstep]
      rfl
  | short e => cases e <;> rfl
  | unit u => exact absurd rfl (h u)

namespace Quoted

/-- The state behind the first half of a pair, if there is one. -/
def state : Option CodeUnit → Escape
  | none => .plain
  | some u => .half u.value

/-- The bytes of a character were added, and pieces follow. -/
theorem scan_behind_char (c : Char) {q : Quoted}
    (h : ∀ value, scan .plain value (q.bytes ++ Byte.quote :: rest) =
      (charsFrom? none q).map fun cs => (value.reverse ++ encode cs, rest)) (value : List UInt8) :
    scan .plain ((String.utf8EncodeChar c).reverse ++ value) (q.bytes ++ Byte.quote :: rest) =
      ((charsFrom? none q).map (c :: ·)).map fun cs => (value.reverse ++ encode cs, rest) := by
  rw [h, Option.map_map]
  refine congrArg (Option.map · (charsFrom? none q)) (funext fun cs => ?_)
  rw [Function.comp_apply, encode_cons, List.reverse_append, List.reverse_reverse,
    List.append_assoc]

/-- **Strings.**  The characters of the pieces are read, and refused where halves stand alone. -/
theorem scan_pieces (pending : Option CodeUnit) (q : Quoted) (value rest : List UInt8) :
    scan (state pending) value (q.bytes ++ Byte.quote :: rest) =
      (charsFrom? pending q).map fun cs => (value.reverse ++ encode cs, rest) := by
  induction q generalizing pending value with
  | nil =>
      cases pending with
      | none =>
          rw [charsFrom?, Option.map_some, encode_nil, List.append_nil]
          rfl
      | some u => rfl
  | cons p q ih =>
      have hadd (c : Char) := scan_behind_char c (ih none) value
      rw [bytes, List.flatMap_cons, List.append_assoc]
      change scan (state pending) value (p.bytes ++ (bytes q ++ Byte.quote :: rest)) = _
      cases pending with
      | none =>
          rw [state]
          cases p with
          | plain c hc =>
              rw [charsFrom?, Piece.bytes, scan_harmless (harmless_utf8EncodeChar hc), hadd]
          | short e => rw [charsFrom?, scan_short, hadd]
          | unit u =>
              rw [charsFrom?, scan_unit, Escape.ofUnit]
              split_ifs
              · rfl
              · exact ih (some u) value
              · exact hadd _
      | some u =>
          rw [state]
          cases p with
          | plain c hc =>
              rw [charsFrom?, scan_half _ (by simp)]
              · rfl
              · simp
          | short e =>
              rw [charsFrom?, scan_half _ (by simp)]
              · rfl
              · simp
          | unit v =>
              rw [charsFrom?, scan_second, Escape.ofPair]
              split_ifs
              · exact hadd _
              · rfl

/-- A whole string behind its opening quote. -/
theorem scan_string (q : Quoted) (rest : List UInt8) :
    scan .plain [] (q.bytes ++ Byte.quote :: rest) =
      (charsFrom? none q).map fun cs => (encode cs, rest) := scan_pieces none q [] rest

end Quoted

/-- A string whose opening quote is next. -/
theorem quoted?_eq {c' : ι} (hnext : (Input.peek c).1 = some Byte.quote)
    (htake : Input.take (Input.peek c).2 = (some Byte.quote, c')) :
    quoted? c = stringFrom (Input.rest c').length .plain [] c' >>= fun p =>
      Input.text p.1 p.2 >>= fun s => .ok (some s, p.2) := by
  rw [quoted?, show Input.peek c = (some Byte.quote, (Input.peek c).2) from Prod.ext hnext rfl]
  dsimp only
  rw [if_pos rfl, htake]
  rfl

/-- A string gives its text, or is refused if it has none. -/
theorem outcome_string {q : Quoted} (h : Input.rest c = q.token ++ rest) :
    outcome (string.run c) = q.text?.map fun s => (s, rest) := by
  rw [Quoted.token, List.cons_append, List.append_assoc, List.singleton_append] at h
  obtain ⟨hnext, hpeek⟩ := Input.peek_eq c
  rw [h] at hnext hpeek
  obtain ⟨c', htake, hrest⟩ := exists_take_eq hpeek
  have hscan := outcome_stringFrom (c := c') (Nat.le_refl _) .plain []
  rw [hrest, Quoted.scan_string] at hscan
  rw [string, Reader.run, quoted?_eq hnext htake, hrest, Quoted.text?]
  cases hchars : Quoted.charsFrom? none q with
  | none =>
      rw [hchars] at hscan
      obtain ⟨e, he⟩ := outcome_eq_none.mp hscan
      rw [he]
      rfl
  | some cs =>
      rw [hchars] at hscan
      obtain ⟨c'', hc'', hrest'⟩ := outcome_eq_some.mp hscan
      rw [hc'']
      simp only [bind, Except.bind, Input.text_eq _ _ c'' (decode?_encode cs), Reader.run,
        outcome, hrest', Option.map_some]

theorem string_reads {q : Quoted} {s : String} (h : q.text? = some s) :
    Reads (At q.token ts) string s (At [] ts) := by
  rintro ι _ c ⟨rest, hc, hlaid⟩
  have hout := outcome_string hc
  rw [h] at hout
  obtain ⟨c', hc', hrest⟩ := outcome_eq_some.mp hout
  exact ⟨c', hc', rest, hrest, hlaid⟩

/-! ### Strings that are skipped -/

/-- What is left behind the closing quote of a string that is skipped. -/
def pass : Escape → List UInt8 → Option (List UInt8)
  | _, [] => none
  | state, b :: rest =>
      if state.isPlain && b = Byte.quote then some rest
      else if state.isPlain && Byte.isControl b then none
      else match state.skip b with
        | .ok state => pass state rest
        | .error _ => none

theorem skipStringFrom_reads {state : Escape} (h : pass state bytes = some rest) {n : Nat}
    (hn : bytes.length ≤ n) : Reads (· = bytes) (skipStringFrom n state) () (· = rest) := by
  induction n generalizing bytes state with
  | zero =>
      rw [List.length_eq_zero_iff.mp (Nat.le_zero.mp hn)] at h
      cases h
  | succ n ih =>
      cases bytes with
      | nil => cases h
      | cons b bytes =>
          rw [pass] at h
          refine (peek_reads _).bind ?_
          dsimp only [List.head?_cons]
          split_ifs at h ⊢
          · cases h
            exact advance_reads_cons b _
          · refine (advance_reads_cons b bytes).bind ?_
            cases hs : state.skip b with
            | error cause =>
                rw [hs] at h
                cases h
            | ok state =>
                rw [hs] at h
                exact ih h (Nat.le_of_succ_le_succ hn)

theorem pass_harmless {bs : List UInt8} (h : ∀ b ∈ bs, Byte.Harmless b) (rest : List UInt8) :
    pass .plain (bs ++ rest) = pass .plain rest := by
  induction bs with
  | nil => rfl
  | cons b bs ih =>
      obtain ⟨hq, hs, hcontrol⟩ := h b (.head _)
      have hskip : Escape.skip .plain b = .ok .plain := if_neg hs
      rw [List.cons_append, pass, hskip, ← ih fun x hx => h x (.tail _ hx)]
      simp [hq, hcontrol]

theorem pass_piece (p : Piece) (rest : List UInt8) :
    pass .plain (p.bytes ++ rest) = pass .plain rest := by
  cases p with
  | plain c hc => exact pass_harmless (harmless_utf8EncodeChar hc) rest
  | short e => cases e <;> rfl
  | unit u =>
      have hlast : Escape.skip (.unit [u.third.byte, u.second.byte, u.first.byte])
          u.fourth.byte = .ok .plain := by
        rw [Escape.skip, u.hexNumber?_bytes]
        rfl
      change (match Escape.skip (.unit [u.third.byte, u.second.byte, u.first.byte])
          u.fourth.byte with
        | .ok state => pass state rest
        | .error _ => none) = _
      rw [hlast]

theorem pass_pieces (q : Quoted) (rest : List UInt8) :
    pass .plain (q.bytes ++ Byte.quote :: rest) = some rest := by
  induction q with
  | nil => rfl
  | cons p q ih =>
      rw [Quoted.bytes, List.flatMap_cons, List.append_assoc, pass_piece]
      exact ih

/-- What stands behind the opening quote of a string. -/
theorem skipString_reads (q : Quoted) :
    Reads (At (q.bytes ++ [Byte.quote]) ts) skipString () (At [] ts) := by
  rintro ι _ c ⟨rest, hc, hlaid⟩
  rw [List.append_assoc, List.singleton_append] at hc
  have hskip : Reads (· = Input.rest c) skipString () (· = rest) := by
    refine reads_of_left fun bs hbs => ?_
    subst hbs
    exact skipStringFrom_reads (by rw [hc, pass_pieces]) (Nat.le_refl _)
  obtain ⟨c', hc', hrest⟩ := hskip ι c rfl
  exact ⟨c', hc', rest, hrest, hlaid⟩

end RowTypes.Json
