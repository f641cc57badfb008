import RowTypes.Json.Reader
import RowTypes.Proofs.Characters

/-!
# Lookahead — reading a text and the stream of its bytes

A stream is ahead of a text by the byte that was looked at, if one was, and it checks every string.
A reader that reads a text and the stream of its bytes is followed step by step in both
(`Paired`).  Both give it the same answers: no string of a text fails its check, since the closing
quote cuts no character (`Paired.stringFrom_agree`, `Paired.quoted_agree`).

**So every reader gives the same value from both, or is refused for the same cause by both**
(`Paired.run_agree`, `read_sources`).  The places differ by one byte at most.
-/

namespace RowTypes.Json

variable {α β : Type} {P : α → Prop} {Q : β → Prop} {c : TextInput} {z : StreamInput}
  {value : List UInt8}

/-! ### Places -/

/-- A place, and the same one or the one behind one byte more. -/
def Place.Near (p q : Place) : Prop := q = p ∨ ∃ b, q = p.after b

theorem Place.near_refl (p : Place) : p.Near p := .inl rfl

theorem Place.behind_cons (b : UInt8) (taken : List UInt8) :
    behind (b :: taken) = (behind taken).after b := by
  by_cases hb : b = Byte.lineFeed <;> simp [behind, after, hb]

/-- Complaints about a document as a text and as a stream. -/
structure Complaint.Alike (c c' : Complaint) : Prop where
  reason : c'.reason = c.reason
  place : c.place.Near c'.place

/-! ### Inputs -/

/-- A text and a stream of which the same bytes were taken. -/
inductive Paired : TextInput → StreamInput → Prop where
  | level {taken rest : List UInt8} (h : IsText (taken.reverse ++ rest)) :
      Paired ⟨taken, rest⟩ ⟨.behind taken, none, rest⟩
  /-- The stream has given away the next byte too. -/
  | ahead {taken rest : List UInt8} {b : UInt8} (h : IsText (taken.reverse ++ b :: rest)) :
      Paired ⟨taken, b :: rest⟩ ⟨.behind (b :: taken), some b, rest⟩

namespace Paired

theorem start {bytes : List UInt8} (h : IsText bytes) :
    Paired (Input.start bytes) (Input.start bytes) := .level h

theorem text (h : Paired c z) : IsText (c.taken.reverse ++ c.rest) := by
  cases h with
  | level h => exact h
  | ahead h => exact h

theorem rest_eq (h : Paired c z) : Input.rest z = Input.rest c := by
  cases h <;> rfl

theorem near_here (h : Paired c z) : (Input.here c).Near (Input.here z) := by
  cases h with
  | level h => exact .inl rfl
  | @ahead taken rest b h => exact .inr ⟨b, Place.behind_cons b taken⟩

/-- Looking at the next byte. -/
theorem peek (h : Paired c z) :
    ∃ z', Input.peek z = ((Input.peek c).1, z') ∧ Paired (Input.peek c).2 z' ∧
      Input.next z' = Input.next (Input.peek c).2 := by
  cases h with
  | ahead h => exact ⟨_, rfl, .ahead h, rfl⟩
  | @level taken rest h =>
      cases rest with
      | nil => exact ⟨_, rfl, .level h, rfl⟩
      | cons b rest =>
          have hplace := Place.behind_cons b taken
          refine ⟨⟨.behind (b :: taken), some b, rest⟩, ?_, .ahead h, rfl⟩
          rw [hplace]
          rfl

/-- Taking the next byte. -/
theorem take (h : Paired c z) :
    (Input.take c = (none, c) ∧ Input.take z = (none, z)) ∨
      ∃ b c' z', Input.take c = (some b, c') ∧ Input.take z = (some b, z') ∧
        c.rest = b :: c'.rest ∧ Paired c' z' := by
  cases h with
  | @ahead taken rest b h =>
      exact .inr ⟨b, ⟨b :: taken, rest⟩, _, rfl, rfl, rfl, .level (by simpa using h)⟩
  | @level taken rest h =>
      cases rest with
      | nil => exact .inl ⟨rfl, rfl⟩
      | cons b rest =>
          refine .inr ⟨b, ⟨b :: taken, rest⟩, ⟨.behind (b :: taken), none, rest⟩, rfl, ?_, rfl,
            .level (by simpa using h)⟩
          rw [Place.behind_cons]
          rfl

end Paired

/-! ### Outcomes -/

/-- What comes of reading a text and the stream of its bytes: the same value, in `P`, and inputs
of which the same bytes were taken, or failures for the same cause. -/
inductive Agree (P : α → Prop) :
    Except Complaint (α × TextInput) → Except Complaint (α × StreamInput) → Prop where
  | ok {a : α} {c : TextInput} {z : StreamInput} (ha : P a) (h : Paired c z) :
      Agree P (.ok (a, c)) (.ok (a, z))
  | error {cause : Cause} {p q : Place} (h : p.Near q) :
      Agree P (.error ⟨.because cause, p⟩) (.error ⟨.because cause, q⟩)

theorem Agree.bind {x : Except Complaint (α × TextInput)} {y : Except Complaint (α × StreamInput)}
    {f : α × TextInput → Except Complaint (β × TextInput)}
    {g : α × StreamInput → Except Complaint (β × StreamInput)} (h : Agree P x y)
    (hfg : ∀ a c z, P a → Paired c z → Agree Q (f (a, c)) (g (a, z))) :
    Agree Q (x >>= f) (y >>= g) := by
  cases h with
  | ok ha h => exact hfg _ _ _ ha h
  | error h => exact .error h

/-! ### Strings -/

/-- The bytes of a string of a text are text. -/
theorem Paired.stringFrom_agree (n : Nat) {state : Escape} (h : Paired c z)
    (hsound : state.Sound value c.rest) :
    Agree IsText (stringFrom n state value c) (stringFrom n state value z) := by
  induction n generalizing state value c z with
  | zero => exact .error h.near_here
  | succ n ih =>
      rw [stringFrom, stringFrom]
      rcases h.take with ⟨hc, hz⟩ | ⟨b, c', z', hc, hz, hrest, h'⟩
      · rw [hc, hz]
        exact .error h.near_here
      rw [hc, hz]
      rw [hrest] at hsound
      dsimp only
      split_ifs with hquote
      · -- Only outside of escapes does a quote close the string, and there it cuts no character.
        simp only [Bool.and_eq_true, decide_eq_true_eq] at hquote
        obtain ⟨hplain, rfl⟩ := hquote
        cases state with
        | plain => exact .ok (IsText.split hsound (by decide)).1 h'
        | _ => cases hplain
      · have hkeeps := hsound.step
        cases hstep : state.step b with
        | error cause => exact .error h'.near_here
        | ok next =>
            rw [hstep] at hkeeps
            exact ih h' hkeeps

/-- Taking a quote, behind which a text is left. -/
theorem Paired.take_quote (h : Paired c z) (hnext : c.rest.head? = some Byte.quote) :
    ∃ c' z', Input.take c = (some Byte.quote, c') ∧ Input.take z = (some Byte.quote, z') ∧
      IsText c'.rest ∧ Paired c' z' := by
  rcases h.take with ⟨hc, -⟩ | ⟨b, c', z', hc, hz, hrest, h'⟩
  · have htake := (Input.take_eq c).1
    rw [hc] at htake
    exact absurd (htake.trans hnext) nofun
  · obtain rfl : b = Byte.quote := by
      rw [hrest] at hnext
      exact Option.some.inj hnext
    have htext := h.text
    rw [hrest] at htext
    exact ⟨c', z', hc, hz, (htext.split (by decide)).2, h'⟩

theorem Paired.quoted_agree (h : Paired c z) :
    Agree (fun _ => True) (quoted? c) (quoted? z) := by
  obtain ⟨z', hpeek, h', -⟩ := h.peek
  by_cases hnext : (Input.peek c).1 = some Byte.quote
  · obtain ⟨c₁, z₁, hc, hz, htext, h₁⟩ := h'.take_quote hnext
    have hstream : quoted? z = stringFrom (Input.rest z₁).length .plain [] z₁ >>= fun p =>
        Input.text p.1 p.2 >>= fun s => .ok (some s, p.2) :=
      quoted?_eq (by rw [hpeek, hnext]) (by rw [hpeek, hz])
    have hsound : Escape.plain.Sound [] c₁.rest := htext
    rw [quoted?_eq hnext hc, hstream, h₁.rest_eq]
    refine (h₁.stringFrom_agree _ hsound).bind fun bytes c₂ z₂ hbytes h₂ => ?_
    obtain ⟨s, hs⟩ := hbytes.decode?
    dsimp only
    rw [Input.text_eq bytes s c₂ hs, Input.text_eq bytes s z₂ hs]
    exact .ok trivial h₂
  · rw [quoted?, quoted?, hpeek]
    dsimp only
    rw [if_neg hnext, if_neg hnext]
    exact .ok trivial h'

/-! ### Readers -/

/-- **A reader follows a text and the stream of its bytes alike.** -/
theorem Paired.run_agree (r : Reader α) (h : Paired c z) :
    Agree (fun _ => True) (r.run c) (r.run z) := by
  induction r generalizing c z with
  | done a => exact .ok trivial h
  | failHere cause => exact .error h.near_here
  | failNext cause =>
      obtain ⟨z', hpeek, -, hnext⟩ := h.peek
      rw [Reader.run, Reader.run, hpeek, hnext]
      exact .error (Place.near_refl _)
  | peek goOn ih =>
      obtain ⟨z', hpeek, h', -⟩ := h.peek
      rw [Reader.run, Reader.run, hpeek]
      exact ih _ h'
  | take goOn ih =>
      rw [Reader.run, Reader.run]
      rcases h.take with ⟨hc, hz⟩ | ⟨b, c', z', hc, hz, -, h'⟩
      · rw [hc, hz]
        exact ih none h
      · rw [hc, hz]
        exact ih (some b) h'
  | quoted goOn ih => exact h.quoted_agree.bind fun s c z _ h => ih s h
  | left goOn ih =>
      rw [Reader.run, Reader.run, h.rest_eq]
      exact ih _ h

/-- **A text and the stream of its bytes are both read, or both refused.** -/
theorem read_sources (r : Reader α) (t : String) :
    (∃ a, read r .text (bytesOf t) = .ok a ∧ read r .stream (bytesOf t) = .ok a) ∨
      ∃ c c', read r .text (bytesOf t) = .error c ∧ read r .stream (bytesOf t) = .error c' ∧
        c.Alike c' ∧ c.reason ≠ .notText := by
  have hagree := (Paired.start (isText_bytesOf t)).run_agree (document r)
  rw [read, read, Reader.value, Reader.value]
  generalize (document r).run (Input.start (bytesOf t) : TextInput) = x at hagree ⊢
  generalize (document r).run (Input.start (bytesOf t) : StreamInput) = y at hagree ⊢
  cases hagree with
  | ok _ _ => exact .inl ⟨_, rfl, rfl⟩
  | error h =>
      refine .inr ⟨_, _, rfl, rfl, ⟨rfl, h⟩, ?_⟩
      intro hreason
      cases hreason

end RowTypes.Json
