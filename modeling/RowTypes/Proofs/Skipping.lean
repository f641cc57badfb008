import RowTypes.Proofs.Values

/-!
# Skipping — values of no interest

Whatever stands under an unknown key is skipped: any value at all, however its numbers and strings
are spelled, nested as deep as it likes (**`skipValue_reads`**).

The loop that skips keeps the open lists and objects on a stack.  A value takes it from a stage
before the value to the stage behind it, with the same stack, in as many rounds as the value has
tokens at most (`Tree.skips`).
-/

namespace RowTypes.Json

variable {α : Type} {Q : List UInt8 → Prop} {f : Option UInt8 → Reader α} {a : α}
  {x : UInt8} {xs : List UInt8} {ts us : List Token}

/-! ### Numbers -/

/-- A byte that does not belong to a number. -/
def Byte.EndsNumber (b : UInt8) : Prop :=
  isDigit b = false ∧ b ≠ point ∧ isExponentMark b = false

instance (b : UInt8) : Decidable (Byte.EndsNumber b) :=
  inferInstanceAs (Decidable (_ ∧ _))

theorem Blanks.endsNumber {bytes : List UInt8} (h : Blanks bytes) :
    ∀ b ∈ bytes.head?, Byte.EndsNumber b := by
  intro b hb
  rcases h b (List.mem_of_mem_head? hb) with rfl | rfl | rfl | rfl <;> decide

theorem endsNumber_of_ends (hts : Ends ts) {rest : List UInt8} (h : LaidOut ts rest) :
    ∀ b ∈ rest.head?, Byte.EndsNumber b := by
  intro b hb
  cases h with
  | done hblanks => exact hblanks.endsNumber b hb
  | @token blanks hblanks t ts rest hrest =>
      cases blanks with
      | cons x xs => exact hblanks.endsNumber b hb
      | nil =>
          rcases hts t rfl with rfl | rfl | rfl <;>
          · cases hb
            decide

/-- Behind a number, a reader sees nothing that belongs to it. -/
theorem reads_of_peek (hts : Ends ts)
    (h : ∀ b : Option UInt8, (∀ x ∈ b, Byte.EndsNumber x) → Reads (At [] ts) (f b) a Q) :
    Reads (At [] ts) (peek >>= f) a Q := by
  rintro ι _ c ⟨rest, hc, hlaid⟩
  have hread : Reads (· = Input.rest c) (peek >>= f) a Q := by
    refine (peek_reads _).bind ((h _ ?_).of_imp ?_)
    · rw [hc]
      exact endsNumber_of_ends hts hlaid
    · rintro bs rfl
      exact ⟨rest, hc, hlaid⟩
  exact hread ι c rfl

/-- No digit comes next. -/
def Stops (bs : List UInt8) (ts : List Token) : Prop :=
  ∀ rest, LaidOut ts rest → ∀ b ∈ (bs ++ rest).head?, Byte.isDigit b = false

theorem stops_nil (hts : Ends ts) : Stops [] ts :=
  fun _ h b hb => (endsNumber_of_ends hts h b hb).1

theorem stops_cons (hx : Byte.isDigit x = false) (xs : List UInt8) : Stops (x :: xs) ts := by
  intro rest _ b hb
  cases hb
  exact hx

theorem digits_reads (ds : List (Fin 10)) {tail : List UInt8} (htail : Stops tail ts) :
    ∃ read, Reads (At (ds.map digitByte ++ tail) ts) digits read (At tail ts) ∧
      read.length = ds.length := by
  refine ⟨(ds.map digitByte).map Byte.digit, ?_, by rw [List.length_map, List.length_map]⟩
  rintro ι _ c ⟨rest, hc, hlaid⟩
  rw [List.append_assoc] at hc
  obtain ⟨c', hread, hrest⟩ := takeWhile_reads Byte.isDigit _ ι c hc
  have hstop := htail rest hlaid
  have htake : (tail ++ rest).takeWhile Byte.isDigit = [] := by
    cases h : tail ++ rest with
    | nil => rfl
    | cons b bs => exact List.takeWhile_cons_of_neg (by simp [hstop b (by rw [h]; rfl)])
  have hdrop : (tail ++ rest).dropWhile Byte.isDigit = tail ++ rest := by
    cases h : tail ++ rest with
    | nil => rfl
    | cons b bs => exact List.dropWhile_cons_of_neg (by simp [hstop b (by rw [h]; rfl)])
  rw [List.takeWhile_append_of_pos (all_isDigit ds), htake, List.append_nil] at hread
  rw [List.dropWhile_append_of_pos (all_isDigit ds), hdrop] at hrest
  refine ⟨c', ?_, rest, hrest, hlaid⟩
  rw [digits, run_bind, hread]
  rfl

theorem noDigit_reads {tail : List UInt8} (htail : Stops tail ts) :
    Reads (At tail ts) noDigit () (At tail ts) := by
  rintro ι _ c ⟨rest, hc, hlaid⟩
  have hstop := htail rest hlaid
  have hread : Reads (· = tail ++ rest) noDigit () (· = tail ++ rest) := by
    refine (peek_reads _).bind ?_
    cases h : (tail ++ rest).head? with
    | none => exact .pure ()
    | some b =>
        change Reads _ (if Byte.isDigit b then _ else _) _ _
        rw [if_neg (by simp [hstop b h])]
        exact .pure ()
  obtain ⟨c', hc', hrest⟩ := hread ι c hc
  exact ⟨c', hc', rest, hrest, hlaid⟩

/-- The sign of an exponent, in front of its digits. -/
theorem exponentSign_reads (sign : Sign) {b : UInt8} (hb : Byte.isDigit b = true)
    (bs : List UInt8) :
    ∃ down, Reads (At (sign.bytes ++ b :: bs) ts) exponentSign down (At (b :: bs) ts) := by
  cases sign with
  | none =>
      exact ⟨false, (takeIf_reads_of_ne (ne_of_isDigit hb rfl)).bind
        (takeIf_reads_of_ne (ne_of_isDigit hb rfl))⟩
  | plus => exact ⟨false, (takeIf_reads Byte.plus).bind (.pure false)⟩
  | minus => exact ⟨true, (takeIf_reads_of_ne (by decide)).bind (takeIf_reads Byte.minus)⟩

/-- An exponent, at whose mark the input stands. -/
theorem skipExponent_reads (hts : Ends ts) (e : Exponent) :
    Reads (At e.bytes ts) skipExponent () (At [] ts) := by
  have hfirst := isDigit_digitByte e.digits.first
  obtain ⟨down, hdown⟩ := exponentSign_reads e.sign hfirst (e.digits.others.map digitByte)
  obtain ⟨read, hrest, -⟩ := digits_reads e.digits.others (stops_nil hts)
  rw [List.append_nil] at hrest
  rw [Exponent.bytes, Digits.bytes_eq]
  refine advance_reads.bind (hdown.bind (take_reads.bind ?_))
  change Reads _ (if Byte.isDigit _ then _ else _) _ _
  rw [if_pos hfirst]
  exact hrest.bind (.pure ())

theorem Exponent.isExponentMark_mark (e : Exponent) : Byte.isExponentMark e.mark = true := by
  rw [mark]
  cases e.capital <;> rfl

namespace Numeral

variable {n : Numeral}

theorem stops_exponentBytes (hts : Ends ts) (n : Numeral) : Stops n.exponentBytes ts := by
  unfold exponentBytes
  cases n.exponent with
  | none => exact stops_nil hts
  | some e =>
      refine stops_cons ?_ _
      rw [Exponent.mark]
      cases e.capital <;> rfl

theorem stops_fractionBytes (hts : Ends ts) (n : Numeral) :
    Stops (n.fractionBytes ++ n.exponentBytes) ts := by
  unfold fractionBytes
  cases n.fraction with
  | none => exact n.stops_exponentBytes hts
  | some ds => exact stops_cons rfl _

/-- An exponent, if the number has one, where only a point leads elsewhere. -/
theorem skipExponentIf_reads (hts : Ends ts) (n : Numeral) {f : Option UInt8 → Reader Unit}
    (hf : ∀ mark, mark ≠ some Byte.point → f mark = skipExponentIf mark) :
    Reads (At n.exponentBytes ts) (peek >>= f) () (At [] ts) := by
  unfold exponentBytes
  cases n.exponent with
  | none =>
      refine reads_of_peek hts fun b hb => ?_
      have hmark : b.any Byte.isExponentMark = false := by
        cases b with
        | none => rfl
        | some b => exact (hb b rfl).2.2
      rw [hf b fun h => (hb _ h).2.1 rfl, skipExponentIf, hmark]
      exact .pure ()
  | some e =>
      refine peek_reads_at.bind ?_
      have hpoint : some e.mark ≠ some Byte.point := by
        rw [Exponent.mark]
        cases e.capital <;> decide
      rw [hf _ hpoint, skipExponentIf, Option.any_some, e.isExponentMark_mark]
      exact skipExponent_reads hts e

/-- What stands behind the whole digits. -/
theorem skipTail_reads (hts : Ends ts) (n : Numeral) :
    Reads (At (n.fractionBytes ++ n.exponentBytes) ts)
      (do
        let mark ← peek
        if mark = some Byte.point then skipFraction else skipExponentIf mark) () (At [] ts) := by
  unfold fractionBytes
  cases n.fraction with
  | none => exact n.skipExponentIf_reads hts fun mark hmark => if_neg hmark
  | some ds =>
      obtain ⟨read, hread, hlength⟩ :=
        digits_reads (ds.first :: ds.others) (n.stops_exponentBytes hts)
      refine peek_reads_at.bind (advance_reads.bind (hread.bind ?_))
      have hne : read.isEmpty = false := by
        cases read with
        | nil => cases hlength
        | cons d read => rfl
      rw [hne]
      exact n.skipExponentIf_reads hts fun _ _ => rfl

/-- **Every number is skipped.** -/
theorem skipNumber_reads (hts : Ends ts) (n : Numeral) :
    Reads (At n.bytes ts) skipNumber () (At [] ts) := by
  have hfirst := isDigit_digitByte n.whole.first
  have htail := n.skipTail_reads hts
  have hstops := n.stops_fractionBytes hts
  have hminus (bs : List UInt8) : Reads (At (n.minusBytes ++ digitByte n.whole.first :: bs) ts)
      (takeIf Byte.minus) n.negative (At (digitByte n.whole.first :: bs) ts) := by
    rw [minusBytes]
    cases n.negative with
    | true => exact takeIf_reads Byte.minus
    | false => exact takeIf_reads_of_ne (ne_of_isDigit hfirst rfl)
  rw [bytes, Digits.bytes_eq, List.cons_append, skipNumber]
  refine (hminus _).bind (take_reads.bind ?_)
  dsimp only
  by_cases hzero : digitByte n.whole.first = Byte.zero
  · rw [if_pos hzero, n.noZero (digitByte_eq_zero hzero)]
    exact (noDigit_reads hstops).bind htail
  · obtain ⟨read, hread, -⟩ := digits_reads n.whole.others hstops
    rw [if_neg hzero, if_pos hfirst]
    exact hread.bind htail

end Numeral

/-! ### Lists and objects -/

/-- A value is skipped in as many rounds as it has tokens at most, whatever frames stand open. -/
def Skips (v : Tree) : Prop :=
  ∃ k ≤ v.tokens.length, ∀ n frames ts (Q : List UInt8 → Prop), Ends ts →
    Reads (At [] ts) (skipFrom n .behind frames) () Q →
      Reads (At [] (v.tokens ++ ts)) (skipFrom (k + n) .value frames) () Q

/-- The tokens of an entry: what stands before its value, and a value that is skipped. -/
structure SkipsEntry (f : Frame) (us : List Token) : Prop where
  opens : ∃ x xs vs, us = (x :: xs) :: vs ∧ Byte.opens x = true
  skips : ∃ key v, us = key ++ v.tokens ∧ Skips v ∧
    ∀ ts, Reads (At [] (key ++ ts)) (skipKey f) () (At [] ts)

variable {v : Tree} {frame : Frame} {tss : List (List Token)}

/-- A value that holds no other takes one round. -/
theorem skips_of_skipStart (ht : v.tokens ≠ [])
    (h : ∀ ts, Ends ts → Reads (At [] (v.tokens ++ ts)) skipStart none (At [] ts)) : Skips v := by
  refine ⟨1, List.length_pos_iff.mpr ht, fun n frames ts Q hts hrest => ?_⟩
  rw [Nat.add_comm]
  exact (h ts hts).bind hrest

/-- An entry, and what is behind it. -/
theorem skipsEntry_reads {us : List Token} (h : SkipsEntry frame us) :
    ∃ k ≤ us.length, ∀ n frames ts (Q : List UInt8 → Prop), Ends ts →
      Reads (At [] ts) (skipFrom n .behind frames) () Q →
        ∃ R, Reads (At [] (us ++ ts)) (skipKey frame) () R ∧
          Reads R (skipFrom (k + n) .value frames) () Q := by
  obtain ⟨key, v, rfl, ⟨k, hk, hskip⟩, hkey⟩ := h.skips
  refine ⟨k, ?_, fun n frames ts Q hts hrest => ⟨At [] (v.tokens ++ ts), ?_, ?_⟩⟩
  · rw [List.length_append]
    omega
  · rw [List.append_assoc]
    exact hkey (v.tokens ++ ts)
  · exact hskip n frames ts Q hts hrest

theorem Frame.closer_eq (f : Frame) :
    f.closer = Byte.closeList ∨ f.closer = Byte.closeObject := by
  cases f <;> simp [closer]

theorem skipBehind_reads_end (f : Frame) :
    Reads (At [] ([f.closer] :: ts)) (skipBehind f) .behind (At [] ts) := by
  cases f <;>
  · refine (skipBlank_reads rfl).bind ?_
    exact advance_reads.bind (.pure Stage.behind)

theorem skipBehind_reads_comma (h : Reads (At [] ts) (skipKey frame) () Q) :
    Reads (At [] ([Byte.comma] :: ts)) (skipBehind frame) .value Q := by
  refine (skipBlank_reads rfl).bind ?_
  exact advance_reads.bind (h.bind (.pure Stage.value))

/-- The entries that are left in a frame take as many rounds as they have tokens at most. -/
theorem skipFrom_reads_behind (h : ∀ us ∈ tss, SkipsEntry frame us) :
    ∃ k ≤ (behind frame.closer tss).length, ∀ n frames ts (Q : List UInt8 → Prop), Ends ts →
      Reads (At [] ts) (skipFrom n .behind frames) () Q →
        Reads (At [] (behind frame.closer tss ++ ts)) (skipFrom (k + n) .behind (frame :: frames))
          () Q := by
  induction tss with
  | nil =>
      refine ⟨1, Nat.le_refl 1, fun n frames ts Q hts hrest => ?_⟩
      rw [Nat.add_comm]
      exact (skipBehind_reads_end frame).bind hrest
  | cons us tss ih =>
      obtain ⟨k, hk, hentry⟩ := skipsEntry_reads (h us (.head _))
      obtain ⟨k', hk', hbehind⟩ := ih fun vs hvs => h vs (.tail _ hvs)
      refine ⟨k + k' + 1, ?_, fun n frames ts Q hts hrest => ?_⟩
      · rw [behind, List.length_cons, List.length_append]
        omega
      · obtain ⟨R, hkey, hvalue⟩ := hentry (k' + n) (frame :: frames) _ Q
          (ends_behind frame.closer_eq tss ts) (hbehind n frames ts Q hts hrest)
        rw [behind, List.cons_append, List.append_assoc,
          show k + k' + 1 + n = k + (k' + n) + 1 by omega]
        exact (skipBehind_reads_comma hkey).bind hvalue

def Frame.opener : Frame → UInt8
  | .list => Byte.openList
  | .object => Byte.openObject

theorem skipStart_reads_opener {o : Option Frame} (frame : Frame)
    (h : Reads (At [frame.opener] ts) (skipOpened frame) o Q) :
    Reads (At [] ([frame.opener] :: ts)) skipStart o Q := by
  cases frame <;> exact (skipBlank_reads rfl).bind h

theorem skipOpened_reads_end (f : Frame) :
    Reads (At [f.opener] ([f.closer] :: ts)) (skipOpened f) none (At [] ts) := by
  cases f <;>
  · refine advance_reads.bind ((skipBlank_reads rfl).bind ?_)
    exact advance_reads.bind (.pure none)

theorem skipOpened_reads_entry (hx : Byte.opens x = true)
    (h : Reads (At [] ((x :: xs) :: ts)) (skipKey frame) () Q) :
    Reads (At [frame.opener] ((x :: xs) :: ts)) (skipOpened frame) (some frame) Q := by
  obtain ⟨hblank, -, hlist, hobject⟩ := Byte.opens_iff.mp hx
  refine advance_reads.bind ((skipBlank_reads hblank).bind ?_)
  have hcloser : x ≠ frame.closer := by
    rcases frame.closer_eq with h | h <;> rw [h] <;> assumption
  dsimp only
  rw [if_neg hcloser]
  exact h.at_token.bind (.pure (some frame))

/-- A list or an object, and what it holds. -/
theorem skips_of_entries (frame : Frame)
    (hv : v.tokens = [frame.opener] :: separated frame.closer tss)
    (h : ∀ us ∈ tss, SkipsEntry frame us) : Skips v := by
  cases tss with
  | nil =>
      refine skips_of_skipStart (by simp [hv]) fun ts _ => ?_
      rw [hv]
      exact skipStart_reads_opener frame (skipOpened_reads_end frame)
  | cons us tss =>
      obtain ⟨k, hk, hentry⟩ := skipsEntry_reads (h us (.head _))
      obtain ⟨k', hk', hbehind⟩ := skipFrom_reads_behind fun vs hvs => h vs (.tail _ hvs)
      obtain ⟨x, xs, vs, hus, hx⟩ := (h us (.head _)).opens
      refine ⟨k + k' + 1, ?_, fun n frames ts Q hts hrest => ?_⟩
      · rw [hv, separated, List.length_cons, List.length_append]
        omega
      · obtain ⟨R, hkey, hvalue⟩ := hentry (k' + n) (frame :: frames) _ Q
          (ends_behind frame.closer_eq tss ts) (hbehind n frames ts Q hts hrest)
        rw [hus, List.cons_append] at hkey
        rw [hv, separated, List.cons_append, List.append_assoc, hus, List.cons_append,
          show k + k' + 1 + n = k + (k' + n) + 1 by omega]
        exact (skipStart_reads_opener frame (skipOpened_reads_entry hx hkey)).bind hvalue

theorem skipsEntry_of_value (h : Skips v) : SkipsEntry .list v.tokens where
  opens := v.exists_tokens_eq
  skips := ⟨[], v, rfl, h, fun _ => .pure ()⟩

theorem skipsEntry_of_member {m : Quoted × Tree} (h : Skips m.2) :
    SkipsEntry .object (Tree.tokensOfMember m) where
  opens := ⟨_, _, _, rfl, rfl⟩
  skips := by
    refine ⟨[m.1.token, [Byte.colon]], m.2, rfl, h, fun ts => ?_⟩
    exact (skipBlank_reads rfl).bind
      (advance_reads.bind ((skipString_reads m.1).bind colon_reads))

theorem skipStart_reads_number (hts : Ends ts) (n : Numeral) :
    Reads (At [] (n.bytes :: ts)) skipStart none (At [] ts) := by
  have hnumber : Reads (At n.bytes ts) (do skipNumber; return (none : Option Frame)) none
      (At [] ts) := (n.skipNumber_reads hts).bind (.pure none)
  obtain ⟨b, bs, hn, hb⟩ := n.exists_bytes_eq
  rw [hn] at hnumber ⊢
  rcases hb with rfl | hdigit
  · exact (skipBlank_reads rfl).bind hnumber
  · refine (skipBlank_reads (Byte.opens_iff.mp (Byte.opens_of_isDigit hdigit)).1).bind ?_
    dsimp only
    rw [if_neg (ne_of_isDigit hdigit rfl), if_neg (ne_of_isDigit hdigit rfl),
      if_neg (ne_of_isDigit hdigit rfl), if_pos (by simp [hdigit])]
    exact hnumber

namespace Tree

mutual

/-- **Every value is skipped.** -/
theorem skips : ∀ v : Tree, Skips v
  | .null | .flag true | .flag false => by
      refine skips_of_skipStart (by simp [tokens]) fun ts _ => ?_
      rw [tokens]
      exact (skipBlank_reads rfl).bind (advance_reads.bind ((word_reads rfl).bind (.pure none)))
  | .number n => by
      refine skips_of_skipStart (by simp [tokens]) fun ts hts => ?_
      rw [tokens]
      exact skipStart_reads_number hts n
  | .text q => by
      refine skips_of_skipStart (by simp [tokens]) fun ts _ => ?_
      rw [tokens]
      exact (skipBlank_reads rfl).bind (advance_reads.bind ((skipString_reads q).bind (.pure none)))
  | .list vs => by
      refine skips_of_entries .list (tokens_list vs) fun us hus => ?_
      obtain ⟨v, hv, rfl⟩ := List.mem_map.mp hus
      exact skipsEntry_of_value (skips_elements vs v hv)
  | .object ms => by
      refine skips_of_entries .object (tokens_object ms) fun us hus => ?_
      obtain ⟨m, hm, rfl⟩ := List.mem_map.mp hus
      exact skipsEntry_of_member (skips_members ms m hm)

theorem skips_elements : ∀ vs : List Tree, ∀ v ∈ vs, Skips v
  | [] => by simp
  | v :: vs => List.forall_mem_cons.mpr ⟨skips v, skips_elements vs⟩

theorem skips_members : ∀ ms : List (Quoted × Tree), ∀ m ∈ ms, Skips m.2
  | [] => by simp
  | (k, v) :: ms => List.forall_mem_cons.mpr ⟨skips v, skips_members ms⟩

end

end Tree

/-- **What is skipped may be any value.** -/
theorem skipValue_reads (v : Tree) : ReadsValue skipValue v () := by
  intro ts hts
  obtain ⟨k, hk, hskip⟩ := v.skips
  refine reads_of_left fun bytes hc => ?_
  obtain ⟨n, hn⟩ := Nat.exists_eq_add_of_le
    (hk.trans ((hc.length_le v.nil_not_mem_tokens).trans (Nat.le_succ _)))
  have hend : Reads (At [] ts) (skipFrom n .behind []) () (At [] ts) := by
    cases n <;> exact .pure ()
  have hloop := hskip n [] ts (At [] ts) hts hend
  rw [← hn] at hloop
  refine hloop.of_imp fun bs hbs => ?_
  rw [hbs]
  exact hc

end RowTypes.Json
