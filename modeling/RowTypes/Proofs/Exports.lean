import RowTypes.Proofs.Layout
import RowTypes.Proofs.References

/-!
# Exports — the names that a source declares

Behind its header a source is a row of exported declarations (`source_eq_exports`): the union and
the enum of the tables' names, the enums, and one or two declarations for every table.  Their names
come from title words, from singulars with what `Role.nameEnd` puts behind them, and are fixed for
the first two.  Nothing compares them, so names that the schema tells apart can meet: `users` and
`user` are both declared as `User`.

What has to differ for the names to differ is `DistinctlyNamed`.  It is less than all pairs: a
suffix ends both names where two tables meet, two insert declarations meet only where the rows of
their tables do, and no insert declaration has one of the fixed names.

**Exports** (`exports_nodup_iff`).  In a schema that names its tables apart, and its enums, no two
exports have one name if and only if they are distinctly named; and the members of the enum of the
tables' names have distinct keys if and only if the singulars of these tables differ.
-/

namespace RowTypes

/-! ### Declarations with their names -/

/-- An exported declaration. -/
structure Export where
  /-- The doc comment, or nothing. -/
  comment : String := ""
  keyword : String
  name : String
  /-- What is behind the name. -/
  rest : String

def Export.text (x : Export) : String :=
  x.comment ++ "export " ++ x.keyword ++ " " ++ x.name ++ " " ++ x.rest

namespace Export

/-- The union of the tables' names. -/
def nameUnion (o : Options) (tables : List Table) : Export where
  keyword := "type"
  name := "Tables"
  rest := "= " ++ RowTypes.nameUnion ((namedTables o tables).map (·.name)) ++ o.terminator ++ "\n"

/-- The enum of the tables' names. -/
def nameEnum (o : Options) (tables : List Table) : Export where
  keyword := "enum"
  name := "Table"
  rest := "\x7b" ++ body ((namedTables o tables).map fun t =>
    "  " ++ singular t.name ++ " = " ++ stringLiteral t.name ++ ",\n") ++ "\n"

def ofEnum (o : Options) (e : Enum) : Export where
  keyword := "enum"
  name := titleWord e.name
  rest := "\x7b" ++ body ((sortedByName id e.values).map (enumMember o)) ++ "\n"

def ofTable (o : Options) (r : Resolver) (t : Table) (role : Role) : Export where
  comment := tableComment o t
  keyword := if o.typeAlias then "type" else "interface"
  name := declaredName o role t.name
  rest := (if o.typeAlias then "= \x7b" else "\x7b") ++
    body ((sortedByName (·.name) t.columns).map (memberBlock o r role)) ++ o.terminator ++ "\n"

end Export

/-- The declarations that a table has. -/
def Table.roles (o : Options) (t : Table) : List Role :=
  .row :: if hasInsert o t then [.insert] else []

section Exports

variable (o : Options) (s : Schema)

/-- The exports that an empty line follows in any case. -/
def leadExports : List Export :=
  (if o.tableNames then [.nameUnion o s.tables, .nameEnum o s.tables] else []) ++
    (sortedByName (·.name) (o.shown (·.name) s.enums)).map (.ofEnum o)

def rowExports : List Export :=
  (sortedByName (·.name) (o.shown (·.name) s.tables)).flatMap fun t =>
    (t.roles o).map (.ofTable o (.of s.mapping s.enums) t)

/-- All exports of a source in their order. -/
def exports : List Export := leadExports o s ++ rowExports o s

/-- The keys of the members of the enum of the tables' names. -/
def tableKeys : List String := (namedTables o s.tables).map fun t => singular t.name

/-! ### The source -/

theorem nameUnion_text (tables : List Table) : (Export.nameUnion o tables).text =
    "export type Tables = " ++ nameUnion ((namedTables o tables).map (·.name)) ++
      o.terminator ++ "\n" := by
  simp only [Export.text, Export.nameUnion, ← String.append_assoc]
  rfl

theorem nameEnum_text (tables : List Table) : (Export.nameEnum o tables).text =
    "export enum Table \x7b" ++
      body (((namedTables o tables).map (·.name)).map nameMember) ++ "\n" := by
  simp only [Export.text, Export.nameEnum, List.map_map, ← String.append_assoc]
  rfl

theorem tableNames_eq (tables : List Table) : tableNames o tables =
    (Export.nameUnion o tables).text ++ "\n" ++ (Export.nameEnum o tables).text := by
  have hblank (text : String) : text ++ "\n\n" = text ++ "\n" ++ "\n" := by
    rw [String.append_assoc]
    rfl
  rw [nameUnion_text, nameEnum_text, ← hblank, ← String.append_assoc, ← String.append_assoc]
  rfl

theorem enumBlock_eq_text (e : Enum) : enumBlock o e = (Export.ofEnum o e).text := by
  rw [enumBlock_eq]
  simp only [Export.text, Export.ofEnum, String.append_assoc]
  rfl

theorem declaration_eq_text (r : Resolver) (t : Table) (role : Role) :
    declaration o r role t = (Export.ofTable o r t role).text := by
  simp only [declaration, declarationHead, Export.text, Export.ofTable]
  split <;> simp only [String.append_assoc] <;> rfl

theorem tableBlock_eq_joined (r : Resolver) (t : Table) :
    tableBlock o r t = joined ((t.roles o).map fun role => (Export.ofTable o r t role).text) := by
  rw [tableBlock, Table.roles, declaration_eq_text, declaration_eq_text, joined]
  split
  · rw [List.map_cons, List.map_singleton, String.intercalate_cons_cons,
      String.intercalate_singleton, String.append_assoc]
  · rw [List.map_singleton, String.intercalate_singleton, String.append_empty]

/-- Joining blocks that are joined themselves is joining what they hold. -/
theorem joined_flatMap {α : Type} {f : α → List String} (hf : ∀ a, f a ≠ []) (l : List α) :
    joined (l.flatMap f) = joined (l.map fun a => joined (f a)) := by
  induction l with
  | nil => rfl
  | cons a l ih =>
      cases l with
      | nil =>
          rw [List.flatMap_singleton, List.map_singleton]
          exact String.intercalate_singleton.symm
      | cons b l =>
          have hne : (b :: l).flatMap f ≠ [] := by
            rw [List.flatMap_cons]
            exact List.append_ne_nil_of_left_ne_nil (hf b) _
          rw [List.flatMap_cons, joined, String.intercalate_append_of_ne_nil (hf a) hne]
          change joined (f a) ++ "\n" ++ joined ((b :: l).flatMap f) = _
          rw [ih]
          exact String.intercalate_cons_cons.symm

/-- A source is its header and its exports. -/
theorem source_eq_exports : (generate o s).source = headerText o ++
    String.join ((leadExports o s).map (·.text ++ "\n")) ++
      String.intercalate "\n" ((rowExports o s).map (·.text)) := by
  have hnames : (if o.tableNames then tableNames o s.tables ++ "\n" else "") =
      String.join ((if o.tableNames then
        [Export.nameUnion o s.tables, Export.nameEnum o s.tables]
          else []).map (·.text ++ "\n")) := by
    split
    · rw [tableNames_eq, List.map_cons, List.map_singleton, String.join_cons, String.join_cons,
        String.append_assoc, String.join_nil, String.append_empty]
    · rfl
  have hrows : joined (tableBlocks o (.of s.mapping s.enums) s.tables) =
      String.intercalate "\n" ((rowExports o s).map (·.text)) := by
    rw [tableBlocks, rowExports, List.map_flatMap]
    simp only [List.map_map]
    refine (congrArg joined (List.map_congr_left fun t _ => ?_)).trans
      (joined_flatMap (fun t => ?_) _).symm
    · exact tableBlock_eq_joined o _ t
    · exact List.cons_ne_nil _ _
  have henums : (· ++ "\n") ∘ enumBlock o = (·.text ++ "\n") ∘ Export.ofEnum o :=
    funext fun e => congrArg (· ++ "\n") (enumBlock_eq_text o e)
  rw [source_eq_blocks, hnames, hrows, leadExports, List.map_append, String.join_append,
    enumBlocks, List.map_map, List.map_map, henums, ← String.append_assoc]
  rfl

end Exports

/-! ### Names that meet -/

/-- The names that are declared whatever the schema is. -/
def fixedNames (o : Options) : List String := if o.tableNames then ["Tables", "Table"] else []

/-- Under the mapping, items of different names have different names again. -/
def KeepsApart {α : Type} (f : String → String) (name : α → String) (items : List α) : Prop :=
  ∀ a ∈ items, ∀ b ∈ items, f (name a) = f (name b) → name a = name b

/-- The names that the schema tells apart stay apart where they are declared. -/
structure DistinctlyNamed (o : Options) (s : Schema) : Prop where
  enums : KeepsApart titleWord (·.name) (o.shown (·.name) s.enums)
  tables : KeepsApart singular (·.name) (o.shown (·.name) s.tables)
  /-- A row does not meet the insert declaration of another table. -/
  inserts : ∀ t ∈ o.shown (·.name) s.tables, ∀ t' ∈ o.shown (·.name) s.tables,
    hasInsert o t' = true → singular t.name ≠ singular t'.name ++ "Insert"
  enumsAndTables : ∀ e ∈ o.shown (·.name) s.enums, ∀ t ∈ o.shown (·.name) s.tables,
    ∀ role ∈ t.roles o, titleWord e.name ≠ declaredName o role t.name
  fixedAndEnums : ∀ e ∈ o.shown (·.name) s.enums, titleWord e.name ∉ fixedNames o
  fixedAndTables : ∀ t ∈ o.shown (·.name) s.tables, declaredName o .row t.name ∉ fixedNames o

section Names

variable {o : Options} {s : Schema}

theorem nodup_map_sorted_iff {α : Type} {name : α → String} {l : List α} (h : (l.map name).Nodup)
    (f : String → String) :
    ((sortedByName name l).map fun a => f (name a)).Nodup ↔ KeepsApart f name l := by
  have hperm := (sortedByName_perm name l).map fun a => f (name a)
  rw [hperm.nodup_iff, List.nodup_map_iff_inj_on h.of_map]
  refine forall₄_congr fun a ha b hb => imp_congr_right fun _ => ?_
  exact ⟨congrArg name, fun hname => List.inj_on_of_nodup_map h ha hb hname⟩

theorem nodup_shown {α : Type} {name : α → String} {l : List α} (h : (l.map name).Nodup) :
    ((o.shown name l).map name).Nodup :=
  h.sublist (List.filter_sublist.map name)

/-! ### Fixed names -/

theorem mem_of_mem_fixedNames {name : String} (h : name ∈ fixedNames o) :
    name ∈ ["Tables", "Table"] := by
  rw [fixedNames] at h
  split at h
  · exact h
  · cases h

theorem nodup_fixedNames (o : Options) : (fixedNames o).Nodup := by
  rw [fixedNames]
  split <;> decide

/-- The fixed names hold no capital I, and inserts do. -/
theorem insert_not_mem_fixedNames (table : String) :
    declaredName o .insert table ∉ fixedNames o := by
  intro h
  have hmem : 'I' ∈ (declaredName o .insert table).toList := by
    rw [declaredName, Role.nameEnd, String.toList_append, String.toList_append]
    exact List.mem_append_right _ (List.mem_append_left _ (by decide))
  rcases List.mem_pair.mp (mem_of_mem_fixedNames h) with hfixed | hfixed
  · exact absurd (hfixed ▸ hmem) (by decide)
  · exact absurd (hfixed ▸ hmem) (by decide)

/-! ### Names of tables -/

theorem declaredName_inj {role : Role} {table table' : String} :
    declaredName o role table = declaredName o role table' ↔ singular table = singular table' :=
  String.append_left_inj _

theorem row_eq_insert_iff {table table' : String} :
    declaredName o .row table = declaredName o .insert table' ↔
      singular table = singular table' ++ "Insert" := by
  rw [declaredName, declaredName, Role.nameEnd, Role.nameEnd, ← String.append_assoc]
  exact String.append_left_inj _

theorem mem_roles {role : Role} {t : Table} :
    role ∈ t.roles o ↔ role = .row ∨ role = .insert ∧ hasInsert o t = true := by
  rw [Table.roles, List.mem_cons]
  split <;> simp [*]

theorem mem_names_rowExports {name : String} : name ∈ (rowExports o s).map (·.name) ↔
    ∃ t ∈ o.shown (·.name) s.tables, ∃ role ∈ t.roles o, declaredName o role t.name = name := by
  simp only [rowExports, List.map_flatMap, List.map_map, List.mem_flatMap, List.mem_map,
    mem_sortedByName]
  rfl

theorem flatMap_ite {α β : Type} {p : α → Bool} (f : α → β) (l : List α) :
    (l.flatMap fun a => if p a then [f a] else []) = (l.filter p).map f := by
  induction l with
  | nil => rfl
  | cons a l ih =>
      rw [List.flatMap_cons, ih, List.filter_cons]
      split <;> rfl

/-- The names of the rows, and behind them those of the inserts. -/
theorem names_rowExports_perm : ((rowExports o s).map (·.name)).Perm
    ((sortedByName (·.name) (o.shown (·.name) s.tables)).map (declaredName o .row ·.name) ++
      ((sortedByName (·.name) (o.shown (·.name) s.tables)).filter (hasInsert o)).map
        (declaredName o .insert ·.name)) := by
  have hroles : ∀ t : Table, ((t.roles o).map (Export.ofTable o (.of s.mapping s.enums) t)).map
      (·.name) = [declaredName o .row t.name] ++
        if hasInsert o t then [declaredName o .insert t.name] else [] := by
    intro t
    rw [Table.roles]
    split <;> rfl
  rw [rowExports, List.map_flatMap, List.map_eq_flatMap, ← flatMap_ite]
  simp only [hroles]
  exact (List.flatMap_append_perm _ _ _).symm

theorem nodup_names_rowExports_iff (hs : (s.tables.map (·.name)).Nodup) :
    ((rowExports o s).map (·.name)).Nodup ↔
      KeepsApart singular (·.name) (o.shown (·.name) s.tables) ∧
      ∀ t ∈ o.shown (·.name) s.tables, ∀ t' ∈ o.shown (·.name) s.tables,
        hasInsert o t' = true → singular t.name ≠ singular t'.name ++ "Insert" := by
  have hrole : ∀ role, ((sortedByName (·.name) (o.shown (·.name) s.tables)).map
      (declaredName o role ·.name)).Nodup ↔
        KeepsApart singular (·.name) (o.shown (·.name) s.tables) := by
    intro role
    rw [nodup_map_sorted_iff (nodup_shown hs) (declaredName o role)]
    simp only [KeepsApart, declaredName_inj]
  have hmem : ∀ t, t ∈ sortedByName (·.name) (o.shown (·.name) s.tables) ↔
      t ∈ o.shown (·.name) s.tables := fun _ => mem_sortedByName _
  rw [names_rowExports_perm.nodup_iff, List.nodup_append, hrole]
  refine and_congr_right fun htables => ⟨?_, fun hinserts => ⟨?_, ?_⟩⟩
  · rintro ⟨-, hdisjoint⟩ t ht t' ht' hinsert heq
    exact hdisjoint _ (List.mem_map_of_mem ((hmem t).mpr ht)) _
      (List.mem_map_of_mem (List.mem_filter.mpr ⟨(hmem t').mpr ht', hinsert⟩))
      (row_eq_insert_iff.mpr heq)
  -- Two inserts have one name only where their rows do.
  · exact ((hrole .insert).mpr htables).sublist (List.filter_sublist.map _)
  · intro name hname name' hname' heq
    obtain ⟨t, ht, rfl⟩ := List.mem_map.mp hname
    obtain ⟨t', ht', rfl⟩ := List.mem_map.mp hname'
    obtain ⟨ht', hinsert⟩ := List.mem_filter.mp ht'
    exact hinserts t ((hmem t).mp ht) t' ((hmem t').mp ht') hinsert (row_eq_insert_iff.mp heq)

/-! ### All names -/

theorem names_leadExports : (leadExports o s).map (·.name) = fixedNames o ++
    (sortedByName (·.name) (o.shown (·.name) s.enums)).map (titleWord ·.name) := by
  rw [leadExports, fixedNames, List.map_append, List.map_map]
  split <;> rfl

theorem nodup_names_exports_iff (ht : (s.tables.map (·.name)).Nodup)
    (he : (s.enums.map (·.name)).Nodup) :
    ((exports o s).map (·.name)).Nodup ↔ DistinctlyNamed o s := by
  have hmem : ∀ e, e ∈ sortedByName (·.name) (o.shown (·.name) s.enums) ↔
      e ∈ o.shown (·.name) s.enums := fun _ => mem_sortedByName _
  rw [exports, List.map_append, names_leadExports, List.nodup_append, List.nodup_append,
    nodup_map_sorted_iff (nodup_shown he) titleWord, nodup_names_rowExports_iff ht]
  constructor
  · rintro ⟨⟨-, henums, hfixed⟩, ⟨htables, hinserts⟩, hrows⟩
    refine ⟨henums, htables, hinserts, ?enumsAndTables, ?fixedAndEnums, ?fixedAndTables⟩
    case enumsAndTables =>
      intro e he t ht role hrole
      exact hrows _ (List.mem_append_right _ (List.mem_map_of_mem ((hmem e).mpr he))) _
        (mem_names_rowExports.mpr ⟨t, ht, role, hrole, rfl⟩)
    case fixedAndEnums =>
      intro e he hname
      exact hfixed _ hname _ (List.mem_map_of_mem ((hmem e).mpr he)) rfl
    case fixedAndTables =>
      intro t ht hname
      exact hrows _ (List.mem_append_left _ hname) _
        (mem_names_rowExports.mpr ⟨t, ht, .row, mem_roles.mpr (.inl rfl), rfl⟩) rfl
  · intro h
    refine ⟨⟨nodup_fixedNames o, h.enums, ?_⟩, ⟨h.tables, h.inserts⟩, ?_⟩
    · rintro name hfixed _ hname rfl
      obtain ⟨e, he, rfl⟩ := List.mem_map.mp hname
      exact h.fixedAndEnums e ((hmem e).mp he) hfixed
    · rintro name hname _ hrow rfl
      obtain ⟨t, ht, role, hrole, rfl⟩ := mem_names_rowExports.mp hrow
      rcases List.mem_append.mp hname with hfixed | henum
      · rcases mem_roles.mp hrole with rfl | ⟨rfl, -⟩
        · exact h.fixedAndTables t ht hfixed
        · exact insert_not_mem_fixedNames t.name hfixed
      · obtain ⟨e, he, heq⟩ := List.mem_map.mp henum
        exact h.enumsAndTables e ((hmem e).mp he) t ht role hrole heq

theorem nodup_tableKeys_iff (ht : (s.tables.map (·.name)).Nodup) :
    (tableKeys o s).Nodup ↔ KeepsApart singular (·.name) (namedTables o s.tables) := by
  rw [tableKeys, namedTables,
    nodup_map_sorted_iff (ht.sublist (List.filter_sublist.map _)) singular]
  simp only [KeepsApart, mem_sortedByName]

/-- **Exports.**  A source is its header and its exports, of which no two have one name if and only
if they are distinctly named. -/
theorem exports_nodup_iff (ht : (s.tables.map (·.name)).Nodup) (he : (s.enums.map (·.name)).Nodup) :
    (generate o s).source = headerText o ++
        String.join ((leadExports o s).map (·.text ++ "\n")) ++
          String.intercalate "\n" ((rowExports o s).map (·.text)) ∧
      (((exports o s).map (·.name)).Nodup ↔ DistinctlyNamed o s) ∧
      ((tableKeys o s).Nodup ↔ KeepsApart singular (·.name) (namedTables o s.tables)) :=
  ⟨source_eq_exports o s, nodup_names_exports_iff ht he, nodup_tableKeys_iff ht⟩

end Names

/-! ### Schemas with and without names that meet -/

/-- All names of the declarations, and inserts. -/
def namesOptions : Options := { tableNames := true, insertTypes := true, suffix := "Row" }

/-- A table, a view and an enum that are declared under names of their own. -/
def shopSchema : Schema where
  tables := [{ name := "users" }, { name := "user_totals", isView := true }]
  enums := [{ name := "user", values := ["guest"] }]

theorem distinctlyNamed_shopSchema :
    (exports namesOptions shopSchema).map (·.name) =
        ["Tables", "Table", "User", "UserTotalRow", "UserRow", "UserInsertRow"] ∧
      DistinctlyNamed namesOptions shopSchema := by
  have hnames : (exports namesOptions shopSchema).map (·.name) =
      ["Tables", "Table", "User", "UserTotalRow", "UserRow", "UserInsertRow"] := by
    decide +kernel
  refine ⟨hnames, (exports_nodup_iff (by decide) (by decide)).2.1.mp ?_⟩
  rw [hnames]
  decide

/-- A table under the plural of another's name. -/
def pluralSchema : Schema where
  tables := [{ name := "users" }, { name := "user" }]

theorem not_nodup_pluralSchema :
    ((pluralSchema.tables.map (·.name)).Nodup ∧ (pluralSchema.enums.map (·.name)).Nodup ∧
        List.Disjoint (pluralSchema.tables.map (·.name)) (pluralSchema.enums.map (·.name))) ∧
      ¬ ((exports { tableNames := true } pluralSchema).map (·.name)).Nodup ∧
      ¬ (tableKeys { tableNames := true } pluralSchema).Nodup ∧
      (generate { tableNames := true } pluralSchema).source =
        "export type Tables = 'user' | 'users'\n\n" ++
        "export enum Table \x7b\n  User = 'user',\n  User = 'users',\n\x7d\n\n" ++
        "export interface User \x7b\x7d\n\nexport interface User \x7b\x7d\n" := by
  refine ⟨⟨by decide, by decide, List.disjoint_nil_right _⟩, ?_, ?_, by decide +kernel⟩
  · decide +kernel
  · decide +kernel

end RowTypes
