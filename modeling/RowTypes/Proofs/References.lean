import RowTypes.Proofs.Resolution
import RowTypes.Proofs.Sorting
import RowTypes.Proofs.TitleWords
import RowTypes.Source

/-!
# References — the types that members name

A member names the type of its column.  That type is `Known` when it is a target of the mapping,
the unknown type, or an enum that the same source declares.

Not every reference is known.  The resolver reads all enums of the schema, while an excluded enum is
not declared; a column of its type still names it (`Dangles`).

**No other reference is unknown** (`memberLine_reference`).  A reference is known unless it dangles
in that way.
-/

namespace RowTypes

/-- A source declares an enum: that of the tables' names, or one whose block opens with its
name. -/
def DeclaresEnum (o : Options) (s : Schema) (name : String) : Prop :=
  (o.tableNames = true ∧ name = "Table") ∨
    ∃ block ∈ enumBlocks o s.enums, ∃ rest, block = "export enum " ++ name ++ " \x7b" ++ rest

/-- What a type of a source can refer to. -/
def Known (o : Options) (s : Schema) (name : String) : Prop :=
  name ∈ s.mapping.keys ∨ name = unknownType ∨ DeclaresEnum o s name

/-- The type that a column names, without the mark of an array. -/
def Schema.reference (s : Schema) (c : Column) : String :=
  (Resolver.of s.mapping s.enums).element (Resolver.bare c.type)

/-- A native is an excluded enum that nothing else hides: the mapping does not list it, and its
title is neither a target nor the title of an enum that is declared. -/
structure Dangles (o : Options) (s : Schema) (native : String) : Prop where
  unmapped : native ∉ s.mapping.natives
  isEnum : native ∈ s.enums.map (·.name)
  isExcluded : o.isExcluded native = true
  notTarget : titleWord native ∉ s.mapping.keys
  notTables : o.tableNames = true → titleWord native ≠ "Table"
  notShared : ∀ e ∈ s.enums, o.isExcluded e.name = false → titleWord e.name ≠ titleWord native

/-! ### Declared enums -/

theorem space_not_mem_titleWord (name : String) : ' ' ∉ (titleWord name).toList :=
  fun h => absurd (isSeparator_of_mem_titleWord h) (by decide +kernel)

theorem forall_ne_space {word : List Char} (h : ' ' ∉ word) :
    ∀ c ∈ word, decide (c ≠ ' ') = true := by
  intro c hc
  rw [decide_eq_true_eq]
  rintro rfl
  exact h hc

/-- A word ends at the first blank. -/
theorem eq_of_append_space {lead word word' rest rest' : List Char} (h : ' ' ∉ word)
    (h' : ' ' ∉ word') (heq : lead ++ word ++ ' ' :: rest = lead ++ word' ++ ' ' :: rest') :
    word = word' := by
  have htake : ∀ {w : List Char} (r : List Char), ' ' ∉ w →
      (w ++ ' ' :: r).takeWhile (· ≠ ' ') = w := by
    intro w r hw
    rw [List.takeWhile_append_of_pos (forall_ne_space hw),
      List.takeWhile_cons_of_neg (by decide), List.append_nil]
  rw [List.append_assoc, List.append_assoc] at heq
  rw [← htake rest h, List.append_cancel_left heq, htake rest' h']

/-- The opening of a block, and what is behind its brace. -/
theorem enumBlock_eq (o : Options) (e : Enum) :
    enumBlock o e = "export enum " ++ titleWord e.name ++ " \x7b" ++
      (body ((sortedByName id e.values).map (enumMember o)) ++ "\n") :=
  String.append_assoc

/-- The name of an enum can be read off its block. -/
theorem titleWord_of_enumBlock {o : Options} {e : Enum} {native rest : String}
    (h : enumBlock o e = "export enum " ++ titleWord native ++ " \x7b" ++ rest) :
    titleWord e.name = titleWord native := by
  have hsplit : ∀ lead word tail : String, (lead ++ word ++ " \x7b" ++ tail).toList =
      lead.toList ++ word.toList ++ ' ' :: '\x7b' :: tail.toList := by
    intro lead word tail
    rw [String.toList_append, String.toList_append, String.toList_append, List.append_assoc]
    rfl
  have hlist := congrArg String.toList ((enumBlock_eq o e).symm.trans h)
  rw [hsplit, hsplit] at hlist
  exact String.toList_injective
    (eq_of_append_space (space_not_mem_titleWord _) (space_not_mem_titleWord _) hlist)

theorem mem_enumBlocks {o : Options} {enums : List Enum} {block : String} :
    block ∈ enumBlocks o enums ↔
      ∃ e ∈ enums, o.isExcluded e.name = false ∧ enumBlock o e = block := by
  simp only [enumBlocks, List.mem_map, mem_sortedByName, List.mem_filter,
    Bool.not_eq_true', and_assoc]

/-- The declared names among the title words are those of the enums that are not excluded. -/
theorem declaresEnum_titleWord {o : Options} {s : Schema} {native : String} :
    DeclaresEnum o s (titleWord native) ↔
      (o.tableNames = true ∧ titleWord native = "Table") ∨
        ∃ e ∈ s.enums, o.isExcluded e.name = false ∧ titleWord e.name = titleWord native := by
  refine or_congr_right ⟨?_, ?_⟩
  · rintro ⟨block, hblock, rest, hrest⟩
    obtain ⟨e, he, hx, rfl⟩ := mem_enumBlocks.mp hblock
    exact ⟨e, he, hx, titleWord_of_enumBlock hrest⟩
  · rintro ⟨e, he, hx, hn⟩
    exact ⟨enumBlock o e, mem_enumBlocks.mpr ⟨e, he, hx, rfl⟩, _, hn ▸ enumBlock_eq o e⟩

/-! ### Known and dangling references -/

section Reference

variable {o : Options} {s : Schema} {c : Column}

theorem Schema.reference_eq : s.reference c =
    Resolver.typeOf (s.mapping.target? (Resolver.bare c.type)) s.enums (Resolver.bare c.type) :=
  Resolver.element_of s.mapping s.enums _

/-- The title of an enum is known if and only if it does not dangle. -/
theorem known_titleWord_iff {native : String} (hmap : native ∉ s.mapping.natives)
    (henum : native ∈ s.enums.map (·.name)) :
    Known o s (titleWord native) ↔ ¬ Dangles o s native := by
  have hany := titleWord_ne_unknownType native
  constructor
  · rintro (hk | hk | hk) hd
    · exact hd.notTarget hk
    · exact hany hk
    · rcases declaresEnum_titleWord.mp hk with ⟨ht, hn⟩ | ⟨e, he, hx, hn⟩
      · exact hd.notTables ht hn
      · exact hd.notShared e he hx hn
  -- A title that nothing makes known is that of an excluded enum: if it were declared, the
  -- declaration would make it known.
  · intro hd
    by_contra hk
    have hdecl : ¬ DeclaresEnum o s (titleWord native) := fun h => hk (.inr (.inr h))
    rw [declaresEnum_titleWord, not_or] at hdecl
    refine hd ⟨hmap, henum, ?_, fun h => hk (.inl h), fun ht hn => hdecl.1 ⟨ht, hn⟩,
      fun e he hx hn => hdecl.2 ⟨e, he, hx, hn⟩⟩
    obtain ⟨e, he, rfl⟩ := List.mem_map.mp henum
    by_contra hx
    exact hdecl.2 ⟨e, he, Bool.not_eq_true _ ▸ hx, rfl⟩

theorem Schema.known_reference_iff :
    Known o s (s.reference c) ↔ ¬ Dangles o s (Resolver.bare c.type) := by
  rw [Schema.reference_eq]
  cases ht : s.mapping.target? (Resolver.bare c.type) with
  | some target =>
      obtain ⟨e, he, hn, rfl⟩ := Mapping.exists_of_target?_eq_some ht
      exact iff_of_true (.inl (List.mem_map_of_mem he))
        fun hd => hd.unmapped (Mapping.mem_natives.mpr ⟨e, he, hn⟩)
  | none =>
      simp only [Resolver.typeOf]
      split
      · exact known_titleWord_iff (Mapping.not_mem_natives_of_target? ht) ‹_›
      · rename_i henum
        exact iff_of_true (.inr (.inl rfl)) fun hd => henum hd.isEnum

end Reference

/-- **References.**  Every member names the reference of its column, as an array if the column is
marked as one; and that reference is known if and only if it does not dangle. -/
theorem memberLine_reference (o : Options) (s : Schema) (role : Role) (c : Column) :
    memberLine o (.of s.mapping s.enums) role c =
        "  " ++ quoteIfNeeded c.name ++ (if role.isOptional o c then "?" else "") ++ ": " ++
          Resolver.wrapped (Resolver.isMarked c.type) (s.reference c) ++ nullUnion o c ++
          o.terminator ++ "\n" ∧
      (Known o s (s.reference c) ↔ ¬ Dangles o s (Resolver.bare c.type)) := by
  refine ⟨?_, Schema.known_reference_iff⟩
  rw [memberLine, Resolver.resolve_eq]
  rfl

/-- An excluded enum, and a table with a column of its type. -/
def moodSchema : Schema where
  tables := [{ name := "users", columns := [{ name := "m", type := "mood" }] }]
  enums := [{ name := "mood", values := ["ok"] }]

theorem dangles_moodSchema :
    (generate { exclude := ["mood"] } moodSchema).source =
        "export interface User \x7b\n  m: Mood\n\x7d\n" ∧
      ∃ t ∈ moodSchema.tables, Options.isExcluded { exclude := ["mood"] } t.name = false ∧
        ∃ c ∈ t.columns, ¬ Known { exclude := ["mood"] } moodSchema (moodSchema.reference c) := by
  refine ⟨by decide +kernel, moodSchema.tables[0], .head _, by decide, ⟨"m", "mood", _, _, _, _⟩,
    .head _, ?_⟩
  rintro (hk | hk | ⟨h, -⟩ | ⟨block, hblock, -⟩)
  · cases hk
  · exact absurd hk (by decide +kernel)
  · cases h
  · cases hblock

end RowTypes
