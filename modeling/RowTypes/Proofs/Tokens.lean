import RowTypes.Proofs.Grammar

/-!
# Tokens — what a reader can tell from a byte

The first byte of a tree tells what kind of value it is (`Tree.BeginsWith`), and a number begins
with a minus or a digit (`Numeral.exists_bytes_eq`).  No token is empty, so a layout has as many
bytes as tokens at least (`LaidOut.length_le`).
-/

namespace RowTypes.Json

/-! ### Digits -/

theorem isDigit_digitByte (d : Fin 10) : Byte.isDigit (digitByte d) = true := by
  revert d
  decide

theorem digitByte_eq_zero {d : Fin 10} (h : digitByte d = Byte.zero) : d = 0 := by
  revert d
  decide

theorem Digits.bytes_eq (ds : Digits) :
    ds.bytes = digitByte ds.first :: ds.others.map digitByte := List.map_cons

theorem all_isDigit (ds : List (Fin 10)) : ∀ b ∈ ds.map digitByte, Byte.isDigit b = true := by
  intro b hb
  obtain ⟨d, -, rfl⟩ := List.mem_map.mp hb
  exact isDigit_digitByte d

/-- A number begins with a minus or a digit. -/
theorem Numeral.exists_bytes_eq (n : Numeral) :
    ∃ b bs, n.bytes = b :: bs ∧ (b = Byte.minus ∨ Byte.isDigit b = true) := by
  rw [bytes, minusBytes, Digits.bytes_eq]
  cases n.negative with
  | true => exact ⟨_, _, rfl, .inl rfl⟩
  | false => exact ⟨_, _, rfl, .inr (isDigit_digitByte n.whole.first)⟩

/-! ### Where a value begins -/

/-- A byte that may begin a value or a key. -/
def Byte.opens (b : UInt8) : Bool :=
  !isBlank b && b ≠ comma && b ≠ closeList && b ≠ closeObject

theorem Byte.opens_iff {b : UInt8} :
    opens b = true ↔ isBlank b = false ∧ b ≠ comma ∧ b ≠ closeList ∧ b ≠ closeObject := by
  simp only [opens, Bool.and_eq_true, Bool.not_eq_true', decide_eq_true_eq, and_assoc]

theorem ne_of_isDigit {b y : UInt8} (hb : Byte.isDigit b = true) (hy : Byte.isDigit y = false) :
    b ≠ y := by
  rintro rfl
  rw [hb] at hy
  cases hy

theorem Byte.opens_of_isDigit {b : UInt8} (h : isDigit b = true) : opens b = true := by
  have hblank : isBlank b = false := by
    simp [isBlank, ne_of_isDigit h (show isDigit 0x20 = false from rfl),
      ne_of_isDigit h (show isDigit 0x09 = false from rfl),
      ne_of_isDigit h (show isDigit 0x0A = false from rfl),
      ne_of_isDigit h (show isDigit 0x0D = false from rfl)]
  exact opens_iff.mpr ⟨hblank, ne_of_isDigit h rfl, ne_of_isDigit h rfl, ne_of_isDigit h rfl⟩

/-- The first byte of a value tells its kind. -/
structure Tree.BeginsWith (v : Tree) (b : UInt8) : Prop where
  opens : Byte.opens b = true
  text : (∃ q, v = .text q) ∨ b ≠ Byte.quote
  flag : (∃ f, v = .flag f) ∨ b ≠ Byte.letterT ∧ b ≠ Byte.letterF
  null : v = .null ∨ b ≠ Byte.letterN
  list : (∃ vs, v = .list vs) ∨ b ≠ Byte.openList

theorem Tree.beginsWith_digit {b : UInt8} (h : Byte.isDigit b = true) (v : Tree) :
    v.BeginsWith b where
  opens := Byte.opens_of_isDigit h
  text := .inr (ne_of_isDigit h rfl)
  flag := .inr ⟨ne_of_isDigit h rfl, ne_of_isDigit h rfl⟩
  null := .inr (ne_of_isDigit h rfl)
  list := .inr (ne_of_isDigit h rfl)

theorem Tree.exists_beginsWith (v : Tree) :
    ∃ b t ts, v.tokens = (b :: t) :: ts ∧ v.BeginsWith b := by
  cases v with
  | null =>
      exact ⟨_, _, _, rfl, rfl, .inr (by decide), .inr (by decide), .inl rfl, .inr (by decide)⟩
  | flag f =>
      cases f <;> exact ⟨_, _, _, rfl, rfl, .inr (by decide), .inl ⟨_, rfl⟩, .inr (by decide),
        .inr (by decide)⟩
  | number n =>
      obtain ⟨b, bs, hn, hb⟩ := n.exists_bytes_eq
      rw [tokens, hn]
      rcases hb with rfl | hdigit
      · exact ⟨_, _, _, rfl, rfl, .inr (by decide), .inr (by decide), .inr (by decide),
          .inr (by decide)⟩
      · exact ⟨b, bs, [], rfl, beginsWith_digit hdigit _⟩
  | text q =>
      rw [tokens]
      exact ⟨_, _, _, rfl, rfl, .inl ⟨q, rfl⟩, .inr (by decide), .inr (by decide),
        .inr (by decide)⟩
  | list vs =>
      rw [tokens]
      exact ⟨_, _, _, rfl, rfl, .inr (by decide), .inr (by decide), .inr (by decide),
        .inl ⟨vs, rfl⟩⟩
  | object ms =>
      rw [tokens]
      exact ⟨_, _, _, rfl, rfl, .inr (by decide), .inr (by decide), .inr (by decide),
        .inr (by decide)⟩

theorem Tree.exists_tokens_eq (v : Tree) :
    ∃ b t ts, v.tokens = (b :: t) :: ts ∧ Byte.opens b = true := by
  obtain ⟨b, t, ts, hv, hb⟩ := v.exists_beginsWith
  exact ⟨b, t, ts, hv, hb.opens⟩

/-! ### No token is empty -/

variable {ts us : List Token} {bytes : List UInt8}

theorem nil_not_mem_behind (closer : UInt8) {tss : List (List Token)}
    (h : ∀ ts ∈ tss, [] ∉ ts) : [] ∉ behind closer tss := by
  induction tss with
  | nil => simp [behind]
  | cons ts tss ih =>
      have hts := h ts (.head _)
      have hrest := ih fun us hus => h us (.tail _ hus)
      simp [behind, hts, hrest]

theorem nil_not_mem_separated (closer : UInt8) {tss : List (List Token)}
    (h : ∀ ts ∈ tss, [] ∉ ts) : [] ∉ separated closer tss := by
  cases tss with
  | nil => simp [separated]
  | cons ts tss =>
      have hts := h ts (.head _)
      have hrest := nil_not_mem_behind closer fun us hus => h us (.tail _ hus)
      simp [separated, hts, hrest]

namespace Tree

mutual

theorem nil_not_mem_tokens : ∀ v : Tree, [] ∉ v.tokens
  | .null | .flag true | .flag false => by simp [tokens, encode]
  | .number n => by
      obtain ⟨b, bs, hn, -⟩ := n.exists_bytes_eq
      simp [tokens, hn]
  | .text q => by simp [tokens, Quoted.token]
  | .list vs => by
      have h := nil_not_mem_separated Byte.closeList
        (nil_not_mem_elementTokens vs)
      simpa [tokens] using h
  | .object ms => by
      have h := nil_not_mem_separated Byte.closeObject
        (nil_not_mem_memberTokens ms)
      simpa [tokens] using h

theorem nil_not_mem_elementTokens : ∀ vs : List Tree, ∀ ts ∈ elementTokens vs, [] ∉ ts
  | [] => by simp [elementTokens]
  | v :: vs => by
      rw [elementTokens]
      exact List.forall_mem_cons.mpr ⟨nil_not_mem_tokens v, nil_not_mem_elementTokens vs⟩

theorem nil_not_mem_memberTokens : ∀ ms : List (Quoted × Tree), ∀ ts ∈ memberTokens ms, [] ∉ ts
  | [] => by simp [memberTokens]
  | (k, v) :: ms => by
      rw [memberTokens]
      refine List.forall_mem_cons.mpr ⟨?_, nil_not_mem_memberTokens ms⟩
      simp [nil_not_mem_tokens v, Quoted.token]

end

theorem nil_not_mem_tokensOfMember (m : Quoted × Tree) : [] ∉ tokensOfMember m :=
  nil_not_mem_memberTokens [m] _ (.head _)

end Tree

theorem LaidOut.length_le (h : LaidOut (ts ++ us) bytes) (hts : [] ∉ ts) :
    ts.length ≤ bytes.length := by
  induction ts generalizing bytes with
  | nil => exact Nat.zero_le _
  | cons t ts ih =>
      cases h with
      | token _ t hrest =>
          have hlength := ih hrest (fun h => hts (.tail _ h))
          have ht : 0 < t.length := List.length_pos_iff.mpr fun h => hts (h ▸ .head _)
          simp only [List.length_append, List.length_cons]
          omega

end RowTypes.Json
