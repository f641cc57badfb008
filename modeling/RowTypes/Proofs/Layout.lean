import RowTypes.Proofs.Visibility

/-!
# Layout — what a source is made of

A source is its blocks and nothing else: the header, the names of the tables, a block for every
enum that is shown, and a block for every table that is shown, in the order of their names.  Every
block ends its last line (`EndsLine`), so the line feeds between blocks are empty lines.

The block of a table holds its row declaration, and may hold its insert declaration behind it
(`IsTwofold`).  The number of inserts is counted on the tables as the schema lists them, without a
look at any block; it comes to the number of blocks that hold two declarations
(`length_inserts_eq`).

**Layout** (`exists_layout`).  Every source is the concatenation of its blocks, and its counts are
the numbers of these blocks.
-/

namespace RowTypes

/-- The text ends with the end of a line. -/
def EndsLine (text : String) : Prop := ∃ before, text = before ++ "\n"

/-- The block of a table holds an insert declaration behind the row declaration. -/
def IsTwofold (o : Options) (r : Resolver) (t : Table) : Prop :=
  tableBlock o r t = declaration o r .row t ++ "\n" ++ declaration o r .insert t

instance (o : Options) (r : Resolver) : DecidablePred (IsTwofold o r) := fun _ =>
  inferInstanceAs (Decidable (_ = _))

section Blocks

variable (o : Options) (r : Resolver) (t : Table)

/-! ### Ends of blocks -/

theorem endsLine_append {text : String} (before : String) (h : EndsLine text) :
    EndsLine (before ++ text) := by
  obtain ⟨inner, rfl⟩ := h
  exact ⟨before ++ inner, String.append_assoc.symm⟩

theorem endsLine_enumBlock (e : Enum) : EndsLine (enumBlock o e) := ⟨_, rfl⟩

theorem endsLine_tableNames (tables : List Table) : EndsLine (tableNames o tables) := ⟨_, rfl⟩

theorem endsLine_declaration (role : Role) : EndsLine (declaration o r role t) := ⟨_, rfl⟩

theorem endsLine_tableBlock : EndsLine (tableBlock o r t) := by
  rw [tableBlock]
  split
  · exact endsLine_append _ (endsLine_append _ (endsLine_declaration o r t .insert))
  · rw [String.append_empty]
    exact endsLine_declaration o r t .row

/-! ### Blocks of tables -/

variable {o r t}

theorem isTwofold_of_hasInsert (h : hasInsert o t = true) : IsTwofold o r t := by
  rw [IsTwofold, tableBlock, if_pos h, String.append_assoc]

theorem tableBlock_of_not_hasInsert (h : hasInsert o t = false) :
    tableBlock o r t = declaration o r .row t := by
  rw [tableBlock, h, if_neg Bool.false_ne_true, String.append_empty]

theorem isTwofold_iff : IsTwofold o r t ↔ hasInsert o t = true := by
  refine ⟨fun h => ?_, isTwofold_of_hasInsert⟩
  by_contra hno
  -- A row declaration alone is shorter than one with something behind it.
  have hlen := congrArg String.length
    ((tableBlock_of_not_hasInsert (Bool.not_eq_true _ ▸ hno)).symm.trans h)
  rw [String.length_append, String.length_append] at hlen
  have hsep : "\n".length = 1 := rfl
  omega

end Blocks

/-! ### Joining and counting -/

/-- Behind every block comes a line feed, which is what joining leaves out at the end. -/
theorem joined_eq_join (blocks : List String) :
    (if blocks.isEmpty then "" else joined blocks ++ "\n") =
      String.join (blocks.map (· ++ "\n")) := by
  induction blocks with
  | nil => rfl
  | cons block blocks ih =>
      rw [List.map_cons, String.join_cons, ← ih]
      cases blocks with
      | nil =>
          rw [joined, String.intercalate_singleton]
          exact String.append_empty.symm
      | cons next rest =>
          change joined (block :: next :: rest) ++ "\n" =
            block ++ "\n" ++ (joined (next :: rest) ++ "\n")
          rw [joined, String.intercalate_cons_cons, String.append_assoc]
          rfl

/-- The inserts that are counted are those of the blocks that hold one. -/
theorem length_inserts_eq (o : Options) (r : Resolver) {tables arranged : List Table}
    (h : arranged.Perm (o.shown (·.name) tables)) :
    (tables.filter fun t => !o.isExcluded t.name && hasInsert o t).length =
      (arranged.filter (IsTwofold o r ·)).length := by
  have hfilter : (tables.filter fun t => !o.isExcluded t.name && hasInsert o t) =
      (o.shown (·.name) tables).filter (IsTwofold o r ·) := by
    rw [Options.shown, List.filter_filter]
    refine List.filter_congr fun t _ => ?_
    rw [Bool.and_comm, Bool.eq_iff_iff, Bool.and_eq_true, Bool.and_eq_true, decide_eq_true_iff,
      isTwofold_iff]
  rw [hfilter]
  exact (h.filter _).length_eq.symm

/-! ### The whole source -/

theorem source_eq_blocks (o : Options) (s : Schema) : (generate o s).source = headerText o ++
    (if o.tableNames then tableNames o s.tables ++ "\n" else "") ++
      String.join ((enumBlocks o s.enums).map (· ++ "\n")) ++
        joined (tableBlocks o (.of s.mapping s.enums) s.tables) := by
  rw [generate, ← joined_eq_join]

/-- What a source is made of, given the enums and the tables that are shown in their order. -/
structure Layout (o : Options) (s : Schema) (enums : List Enum) (tables : List Table) : Prop where
  enumOrder : Arranged (·.name) (o.shown (·.name) s.enums) enums
  tableOrder : Arranged (·.name) (o.shown (·.name) s.tables) tables
  source : (generate o s).source =
    (o.header.filter (· ≠ "")).elim "" (· ++ "\n\n") ++
      (if o.tableNames then tableNames o s.tables ++ "\n" else "") ++
      String.join (enums.map fun e => enumBlock o e ++ "\n") ++
      String.intercalate "\n" (tables.map (tableBlock o (.of s.mapping s.enums)))
  /-- A line feed behind a block is an empty line. -/
  endsLine : ∀ block ∈ tableNames o s.tables ::
    (enums.map (enumBlock o) ++ tables.map (tableBlock o (.of s.mapping s.enums))), EndsLine block
  enumCount : (generate o s).enumCount = enums.length
  tableCount : (generate o s).tableCount = tables.length
  insertCount : (generate o s).insertCount =
    (tables.filter (IsTwofold o (.of s.mapping s.enums) ·)).length
  /-- Views are never twofold. -/
  twofold : ∀ t ∈ tables, IsTwofold o (.of s.mapping s.enums) t ↔
    o.insertTypes = true ∧ t.isView = false
  /-- A block that is not twofold is a row declaration. -/
  single : ∀ t ∈ tables, ¬ IsTwofold o (.of s.mapping s.enums) t →
    tableBlock o (.of s.mapping s.enums) t = declaration o (.of s.mapping s.enums) .row t

/-- **Layout.**  Every source is its blocks, of which there are as many as its counts say. -/
theorem exists_layout (o : Options) (s : Schema) : ∃ enums tables, Layout o s enums tables := by
  have htables := arranged_sortedByName (·.name) (o.shown (·.name) s.tables)
  refine ⟨_, _, arranged_sortedByName (·.name) (o.shown (·.name) s.enums), htables, ?source,
    ?endsLine, List.length_map _, List.length_map _, length_inserts_eq o _ htables.perm,
    fun t _ => ?twofold, fun t _ h => ?single⟩
  case source =>
    have hheader : headerText o = (o.header.filter (· ≠ "")).elim "" (· ++ "\n\n") := by
      rw [headerText]
      cases o.header.filter (· ≠ "") <;> rfl
    rw [source_eq_blocks, hheader, enumBlocks, List.map_map]
    rfl
  case endsLine =>
    intro block hblock
    rw [List.mem_cons, List.mem_append] at hblock
    rcases hblock with rfl | henum | htable
    · exact endsLine_tableNames o s.tables
    · obtain ⟨e, -, rfl⟩ := List.mem_map.mp henum
      exact endsLine_enumBlock o e
    · obtain ⟨t, -, rfl⟩ := List.mem_map.mp htable
      exact endsLine_tableBlock o _ t
  case twofold =>
    rw [isTwofold_iff, hasInsert, Bool.and_eq_true, Bool.not_eq_true']
  case single =>
    rw [isTwofold_iff, Bool.not_eq_true] at h
    exact tableBlock_of_not_hasInsert h

end RowTypes
