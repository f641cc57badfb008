import RowTypes.Proofs.Strings

/-!
# Characters — where a text may be cut

A character is one byte below 128, or several bytes from there on.  So a text may be cut at every
byte below 128, whatever stands before and behind it (`IsText.split`); all bytes that the grammar
tells apart are of this kind.

**Reading a string byte by byte cuts no character**: outside of escapes the value so far and the
bytes to come are a text together, and inside of them each is one by itself (`Escape.Sound.step`).
-/

namespace RowTypes.Json

variable {as bs cs value rest : List UInt8} {b : UInt8}

/-! ### Bytes of characters -/

/-- Bytes of whole characters. -/
def IsText (bs : List UInt8) : Prop := ∃ chars, bs = encode chars

theorem isText_nil : IsText [] := ⟨[], rfl⟩

theorem isText_char (c : Char) : IsText (String.utf8EncodeChar c) :=
  ⟨[c], (List.append_nil _).symm⟩

theorem isText_bytesOf (s : String) : IsText (bytesOf s) := ⟨s.toList, bytesOf_eq s⟩

theorem IsText.append (h : IsText as) (h' : IsText bs) : IsText (as ++ bs) := by
  obtain ⟨chars, rfl⟩ := h
  obtain ⟨chars', rfl⟩ := h'
  exact ⟨chars ++ chars', (encode_append chars chars').symm⟩

theorem IsText.decode? (h : IsText bs) : ∃ s, decode? bs = some s := by
  obtain ⟨chars, rfl⟩ := h
  exact ⟨_, by rw [← bytesOf_ofList, decode?_bytesOf]⟩

/-- A byte below 128 is a character, wherever it stands in a text. -/
theorem IsText.split (h : IsText (bs ++ b :: cs)) (hb : b.toNat < 0x80) :
    IsText bs ∧ IsText cs := by
  obtain ⟨chars, h⟩ := h
  induction chars generalizing bs with
  | nil => exact absurd h (by simp)
  | cons c chars ih =>
      rw [encode_cons] at h
      rcases List.append_eq_append_iff.mp h with ⟨ds, hc, hrest⟩ | ⟨ds, rfl, hrest⟩
      · cases ds with
        | nil =>
            rw [List.append_nil] at hc
            exact ⟨hc ▸ isText_char c, (@ih [] hrest).2⟩
        | cons d ds =>
            -- The byte is one of the character's, so it is the only one.
            obtain ⟨rfl, rfl⟩ := List.cons.inj hrest
            rcases utf8EncodeChar_cases c with ⟨-, heq⟩ | hhigh
            · obtain ⟨rfl, hds⟩ : bs = [] ∧ ds = [] := by
                have hlength := congrArg List.length (hc.symm.trans heq)
                rw [List.length_append, List.length_cons, List.length_singleton] at hlength
                exact ⟨List.length_eq_zero_iff.mp (by omega), List.length_eq_zero_iff.mp (by omega)⟩
              rw [hds]
              exact ⟨isText_nil, chars, rfl⟩
            · have hb' := hhigh b (by simp [hc])
              omega
      · obtain ⟨hds, hcs⟩ := ih hrest.symm
        exact ⟨(isText_char c).append hds, hcs⟩

/-- A byte below 128 at the start. -/
theorem IsText.tail (h : IsText (b :: cs)) (hb : b.toNat < 0x80) : IsText cs := by
  have hsplit : IsText ([] ++ b :: cs) := h
  exact (hsplit.split hb).2

/-! ### Strings -/

theorem toNat_lt_of_hexDigit? {d : Nat} (h : Byte.hexDigit? b = some d) : b.toNat < 0x80 := by
  simp only [Byte.hexDigit?, Byte.isDigit, Bool.and_eq_true, decide_eq_true_eq,
    UInt8.le_iff_toNat_le] at h
  split_ifs at h with hdigit hlower hupper
  · exact hdigit.2.trans_lt (by decide)
  · exact hlower.2.trans_lt (by decide)
  · exact hupper.2.trans_lt (by decide)

theorem of_escaped? {v : UInt8} (h : Byte.escaped? b = some v) : b.toNat < 0x80 ∧ IsText [v] := by
  simp only [Byte.escaped?] at h
  split_ifs at h with hself hb hb hb hb hb <;> obtain rfl := Option.some.inj h
  · rcases hself with rfl | rfl | rfl
    · exact ⟨by decide, ['"'], rfl⟩
    · exact ⟨by decide, ['\x5c'], rfl⟩
    · exact ⟨by decide, ['/'], rfl⟩
  · exact ⟨hb ▸ by decide, ['\x08'], rfl⟩
  · exact ⟨hb ▸ by decide, ['\x0c'], rfl⟩
  · exact ⟨hb ▸ by decide, ['\n'], rfl⟩
  · exact ⟨hb ▸ by decide, ['\r'], rfl⟩
  · exact ⟨hb ▸ by decide, ['\t'], rfl⟩

/-- The value so far, latest byte first, and the bytes to come.  Outside of escapes a character may
be cut in two between them. -/
def Escape.Sound (value rest : List UInt8) : Escape → Prop
  | .plain => IsText (value.reverse ++ rest)
  | .opened | .half _ | .halfOpened _ => IsText value.reverse ∧ IsText rest
  | .unit ds | .second _ ds => IsText value.reverse ∧ ((hexNumber? ds).isSome → IsText rest)

/-- What a step gives keeps the value and the bytes to come sound. -/
def Escape.Keeps (value rest : List UInt8) : Except Cause (Escape × List UInt8) → Prop
  | .ok (state, added) => state.Sound (added.reverse ++ value) rest
  | .error _ => True

theorem Escape.sound_plain (hvalue : IsText value.reverse) (has : IsText as)
    (hrest : IsText rest) : Escape.Sound (as.reverse ++ value) rest .plain := by
  rw [Sound, List.reverse_append, List.reverse_reverse]
  exact (hvalue.append has).append hrest

theorem Escape.keeps_ofUnit (hvalue : IsText value.reverse) (hrest : IsText rest) (n : Nat) :
    Keeps value rest (ofUnit n) := by
  unfold ofUnit
  split_ifs
  · trivial
  · exact ⟨hvalue, hrest⟩
  · exact sound_plain hvalue (isText_char _) hrest

theorem Escape.keeps_ofPair (hvalue : IsText value.reverse) (hrest : IsText rest) (n m : Nat) :
    Keeps value rest (ofPair n m) := by
  unfold ofPair
  split_ifs
  · exact sound_plain hvalue (isText_char _) hrest
  · trivial

/-- Bytes that are digits end where a character does. -/
theorem isText_of_hexNumber? {ds : List UInt8} (h : (hexNumber? (b :: ds)).isSome)
    (htext : (hexNumber? ds).isSome → IsText (b :: rest)) : IsText rest := by
  obtain ⟨n, hn⟩ := Option.isSome_iff_exists.mp h
  simp only [hexNumber?, Option.bind_eq_bind, Option.bind_eq_some_iff] at hn
  obtain ⟨m, hm, d, hd, -⟩ := hn
  exact (htext (by rw [hm]; rfl)).tail (toNat_lt_of_hexDigit? hd)

/-- A step takes its byte without cutting a character. -/
theorem Escape.Sound.step {state : Escape} (h : state.Sound value (b :: rest)) :
    Keeps value rest (state.step b) := by
  cases state with
  | plain =>
      rw [Escape.step]
      split_ifs with hslash
      · exact IsText.split h (by rw [hslash]; decide)
      · trivial
      · simp only [Keeps, Sound, List.reverse_append, List.reverse_reverse, List.append_assoc]
        exact h
  | opened =>
      obtain ⟨hvalue, htext⟩ := h
      rw [Escape.step]
      split_ifs with hu
      · exact ⟨hvalue, fun _ => htext.tail (by rw [hu]; decide)⟩
      · cases hb : Byte.escaped? b with
        | none => trivial
        | some v =>
            obtain ⟨hlow, hv⟩ := of_escaped? hb
            exact sound_plain hvalue hv (htext.tail hlow)
  | unit ds =>
      obtain ⟨hvalue, htext⟩ := h
      rw [Escape.step]
      split_ifs
      · exact ⟨hvalue, fun hn => isText_of_hexNumber? hn htext⟩
      · cases hn : hexNumber? (b :: ds) with
        | none => trivial
        | some n => exact keeps_ofUnit hvalue (isText_of_hexNumber? (by rw [hn]; rfl) htext) n
  | half n =>
      obtain ⟨hvalue, htext⟩ := h
      rw [Escape.step]
      split_ifs with hslash
      · exact ⟨hvalue, htext.tail (by rw [hslash]; decide)⟩
      · trivial
  | halfOpened n =>
      obtain ⟨hvalue, htext⟩ := h
      rw [Escape.step]
      split_ifs with hu
      · exact ⟨hvalue, fun _ => htext.tail (by rw [hu]; decide)⟩
      · trivial
  | second n ds =>
      obtain ⟨hvalue, htext⟩ := h
      rw [Escape.step]
      split_ifs
      · exact ⟨hvalue, fun hm => isText_of_hexNumber? hm htext⟩
      · cases hm : hexNumber? (b :: ds) with
        | none => trivial
        | some m =>
            exact keeps_ofPair hvalue (isText_of_hexNumber? (by rw [hm]; rfl) htext) n m

end RowTypes.Json
