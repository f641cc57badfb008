import Mathlib.Data.List.Perm.Basic
import RowTypes.Proofs.Resolution
import RowTypes.Proofs.Sorting
import RowTypes.Source

/-!
# Visibility — a source depends on what it shows

Two schemas show the same under some options when their tables and enums that are not excluded
agree up to the order in which tables, columns, indices, enums and values are listed
(`Schema.SameShown`).  Of an excluded enum only the name has to be the same, as a type may refer
to it; excluded tables may differ in every way.

**Visibility** (`generate_eq_of_sameShown`).  Where names are not ambiguous, schemas that show the
same have the same source with the same counts, also when the exclusions are listed differently.

Every list that reaches the source is sorted by names, so the proof follows the text from its
leaves upward: related columns have one member block, related tables one table block, and sorting
makes related items meet (`Matched.map_sorted`).
-/

namespace RowTypes

/-! ### Lists that match -/

section Matching

variable {α β γ : Type} {R S : α → β → Prop} {l : List α} {l' : List β}

theorem map_eq_of_forall₂ {f : α → γ} {g : β → γ} (h : List.Forall₂ R l l')
    (hfg : ∀ a b, R a b → f a = g b) : l.map f = l'.map g := by
  induction h with
  | nil => rfl
  | cons hab _ ih => rw [List.map_cons, List.map_cons, hfg _ _ hab, ih]

theorem Matched.imp (h : Matched R l l') (hRS : ∀ a ∈ l, ∀ b ∈ l', R a b → S a b) :
    Matched S l l' := by
  obtain ⟨m, hm, hml⟩ := h
  obtain ⟨hlen, hzip⟩ := List.forall₂_iff_zip.mp hml
  refine ⟨m, hm, List.forall₂_iff_zip.mpr ⟨hlen, fun {a b} hab => ?_⟩⟩
  obtain ⟨ha, hb⟩ := List.of_mem_zip hab
  exact hRS a (hm.mem_iff.mpr ha) b hb (hzip hab)

theorem Matched.filter {p : α → Bool} {q : β → Bool} (h : Matched R l l')
    (hpq : ∀ a b, R a b → p a = q b) : Matched R (l.filter p) (l'.filter q) := by
  obtain ⟨m, hm, hml⟩ := h
  exact ⟨m.filter p, hm.filter p, List.rel_filter (fun a b hab => by simp [hpq a b hab]) hml⟩

theorem Matched.length_eq (h : Matched R l l') : l.length = l'.length := by
  obtain ⟨m, hm, hml⟩ := h
  exact hm.length_eq.trans hml.length_eq

/-- Lists of the same names match, if no list repeats a name. -/
theorem matched_of_names {name : α → String} {name' : β → String} (hl : (l.map name).Nodup)
    (hl' : (l'.map name').Nodup) (h : ∀ n, n ∈ l.map name ↔ n ∈ l'.map name') :
    Matched (fun a b => name a = name' b) l l' := by
  have hp : (l.map name).Perm (l'.map name') := (List.perm_ext_iff_of_nodup hl hl').mpr h
  have hc : Relation.Comp (List.Forall₂ fun a n => name a = n) List.Perm l (l'.map name') :=
    ⟨l.map name, List.forall₂_map_right_iff.mpr (List.forall₂_same.mpr fun _ _ => rfl), hp⟩
  rw [List.forall₂_comp_perm_eq_perm_comp_forall₂] at hc
  obtain ⟨m, hm, hml⟩ := hc
  exact ⟨m, hm, List.forall₂_map_right_iff.mp hml⟩

/-- Items that match have the same texts in the order of their names. -/
theorem Matched.map_sorted {name : α → String} {name' : β → String} {f : α → γ} {g : β → γ}
    (h : Matched R l l') (hR : ∀ a b, R a b → name a = name' b) (hl : (l.map name).Nodup)
    (hfg : ∀ a ∈ l, ∀ b, R a b → f a = g b) :
    (sortedByName name l).map f = (sortedByName name' l').map g := by
  have hm : Matched (fun a b => R a b ∧ f a = g b) l l' :=
    h.imp fun a ha b _ hab => ⟨hab, hfg a ha b hab⟩
  exact map_eq_of_forall₂ (hm.sorted (fun a b hab => hR a b hab.1) hl) fun _ _ hab => hab.2

end Matching

/-! ### What is shown -/

/-- The items whose names are not excluded. -/
def Options.shown {α : Type} (o : Options) (name : α → String) (items : List α) : List α :=
  items.filter fun a => !o.isExcluded (name a)

/-- The same options, except that the exclusions may be listed in another order or repeated. -/
structure Options.SameExclusions (o o' : Options) : Prop where
  rest : o' = { o with exclude := o'.exclude }
  exclude : ∀ name, name ∈ o.exclude ↔ name ∈ o'.exclude

/-- The same column up to the order of its indices. -/
structure Column.Same (c c' : Column) : Prop where
  name : c.name = c'.name
  type : c.type = c'.type
  isNullable : c.isNullable = c'.isNullable
  hasDefault : c.hasDefault = c'.hasDefault
  comment : c.comment = c'.comment
  indices : c.indices.Perm c'.indices

/-- The same table up to the order of its columns and of their indices. -/
structure Table.Same (t t' : Table) : Prop where
  name : t.name = t'.name
  comment : t.comment = t'.comment
  isView : t.isView = t'.isView
  columns : Matched Column.Same t.columns t'.columns

/-- The schemas agree on what is shown under the options, up to order.  Excluded tables, and the
values of excluded enums, may be any. -/
structure Schema.SameShown (o : Options) (s s' : Schema) : Prop where
  mapping : s.mapping = s'.mapping
  tables : Matched Table.Same (o.shown (·.name) s.tables) (o.shown (·.name) s'.tables)
  enumNames : ∀ name, name ∈ s.enums.map (·.name) ↔ name ∈ s'.enums.map (·.name)
  enumValues : ∀ e ∈ s.enums, ∀ e' ∈ s'.enums, e.name = e'.name → o.isExcluded e.name = false →
    e.values.Perm e'.values

/-- Names tell apart the tables that are shown, the columns of each of them, and the enums. -/
structure Schema.Unambiguous (o : Options) (s : Schema) : Prop where
  tables : ((o.shown (·.name) s.tables).map (·.name)).Nodup
  columns : ∀ t ∈ o.shown (·.name) s.tables, (t.columns.map (·.name)).Nodup
  enums : (s.enums.map (·.name)).Nodup

/-! ### Exclusions count as a set -/

theorem isExcluded_congr {o : Options} {names : List String}
    (h : ∀ name, name ∈ o.exclude ↔ name ∈ names) :
    Options.isExcluded { o with exclude := names } = o.isExcluded := by
  funext name
  rw [Options.isExcluded, Options.isExcluded, Bool.eq_iff_iff, List.contains_iff_mem,
    List.contains_iff_mem]
  exact (h name).symm

/-- Only whether a name is excluded reaches the source. -/
theorem generate_exclude {o : Options} {names : List String}
    (h : ∀ name, name ∈ o.exclude ↔ name ∈ names) (s : Schema) :
    generate { o with exclude := names } s = generate o s := by
  unfold generate enumBlocks tableBlocks tableNames namedTables
  rw [isExcluded_congr h]
  rfl

/-! ### Blocks of what is the same -/

section Blocks

variable (o : Options)

theorem enumBlock_congr {e e' : Enum} (hn : e.name = e'.name) (hv : e.values.Perm e'.values) :
    enumBlock o e = enumBlock o e' := by
  have hvalues : sortedByName id e.values = sortedByName id e'.values :=
    sortedByName_eq_of_perm hv fun _ _ _ _ h => h
  unfold enumBlock
  rw [hn, hvalues]

theorem Column.Same.isPrimaryKey {c c' : Column} (h : c.Same c') :
    c.isPrimaryKey = c'.isPrimaryKey :=
  h.indices.any_eq

variable {r r' : Resolver} (hr : ∀ native, r.element native = r'.element native)
include hr

theorem memberBlock_congr (role : Role) {c c' : Column} (h : c.Same c') :
    memberBlock o r role c = memberBlock o r' role c' := by
  have hopt : role.isOptional o c = role.isOptional o c' := by
    cases role with
    | row => rw [Role.isOptional, Role.isOptional, h.isNullable]
    | insert => rw [Role.isOptional, Role.isOptional, h.isNullable, h.hasDefault]
  have hres : r.resolve c.type = r'.resolve c'.type := by
    rw [Resolver.resolve_eq, Resolver.resolve_eq, hr, h.type]
  simp only [memberBlock, columnComment, memberLine, nullUnion, hopt, hres, h.name, h.comment,
    h.isNullable, h.isPrimaryKey]

theorem declaration_congr (role : Role) {t t' : Table} (h : t.Same t')
    (ht : (t.columns.map (·.name)).Nodup) :
    declaration o r role t = declaration o r' role t' := by
  have hcols := h.columns.map_sorted (fun _ _ hc => hc.name) ht
    fun _ _ _ hc => memberBlock_congr o hr role hc
  rw [declaration, declaration, hcols, h.name, tableComment, tableComment, h.comment]

theorem tableBlock_congr {t t' : Table} (h : t.Same t') (ht : (t.columns.map (·.name)).Nodup) :
    tableBlock o r t = tableBlock o r' t' := by
  have hi : hasInsert o t = hasInsert o t' := by rw [hasInsert, hasInsert, h.isView]
  rw [tableBlock, tableBlock, declaration_congr o hr .row h ht,
    declaration_congr o hr .insert h ht, hi]

end Blocks

/-! ### Types of shown columns -/

theorem declaration_congr_types {o : Options} {r r' : Resolver} {t : Table}
    (h : ∀ c ∈ t.columns, r.resolve c.type = r'.resolve c.type) (role : Role) :
    declaration o r role t = declaration o r' role t := by
  have hmembers : (sortedByName (·.name) t.columns).map (memberBlock o r role) =
      (sortedByName (·.name) t.columns).map (memberBlock o r' role) := by
    refine List.map_congr_left fun c hc => ?_
    rw [memberBlock, memberBlock, memberLine, memberLine,
      h c ((mem_sortedByName _).mp hc)]
  rw [declaration, declaration, hmembers]

/-- Of a mapping, only the types of shown columns reach the source. -/
theorem generate_congr_types {o : Options} {tables : List Table} {enums : List Enum}
    {m m' : Mapping} (h : ∀ t ∈ o.shown (·.name) tables, ∀ c ∈ t.columns,
      (Resolver.of m enums).resolve c.type = (Resolver.of m' enums).resolve c.type) :
    generate o ⟨tables, enums, m⟩ = generate o ⟨tables, enums, m'⟩ := by
  have hblocks : tableBlocks o (.of m enums) tables = tableBlocks o (.of m' enums) tables := by
    refine List.map_congr_left fun t ht => ?_
    have htypes := h t ((mem_sortedByName _).mp ht)
    rw [tableBlock, tableBlock, declaration_congr_types htypes, declaration_congr_types htypes]
  unfold generate
  rw [hblocks]

/-! ### Parts of a source -/

section Parts

variable {o : Options} {s s' : Schema} (h : s.SameShown o s') (hs : s.Unambiguous o)
include h

/-- Types refer to the same enums, excluded ones among them. -/
theorem Schema.SameShown.element_eq (native : String) :
    (Resolver.of s.mapping s.enums).element native =
      (Resolver.of s'.mapping s'.enums).element native := by
  simp only [Resolver.element_of, Resolver.typeOf, h.mapping, h.enumNames]

include hs

theorem Schema.SameShown.tableBlocks_eq :
    tableBlocks o (.of s.mapping s.enums) s.tables =
      tableBlocks o (.of s'.mapping s'.enums) s'.tables :=
  h.tables.map_sorted (fun _ _ ht => ht.name) hs.tables
    fun t ht _ htt' => tableBlock_congr o h.element_eq htt' (hs.columns t ht)

theorem Schema.SameShown.enumBlocks_eq (hs' : s'.Unambiguous o) :
    enumBlocks o s.enums = enumBlocks o s'.enums := by
  have hsub : ∀ es : List Enum,
      ((o.shown (·.name) es).map (·.name)).Sublist (es.map (·.name)) := fun _ =>
    List.filter_sublist.map _
  have hnames : ∀ name, name ∈ (o.shown (·.name) s.enums).map (·.name) ↔
      name ∈ (o.shown (·.name) s'.enums).map (·.name) := fun name => by
    have he := h.enumNames name
    simp only [Options.shown, List.mem_map, List.mem_filter] at he ⊢
    constructor
    · rintro ⟨e, ⟨he₁, he₂⟩, rfl⟩
      obtain ⟨e', he₁', hee'⟩ := he.mp ⟨e, he₁, rfl⟩
      exact ⟨e', ⟨he₁', by rw [hee']; exact he₂⟩, hee'⟩
    · rintro ⟨e, ⟨he₁, he₂⟩, rfl⟩
      obtain ⟨e', he₁', hee'⟩ := he.mpr ⟨e, he₁, rfl⟩
      exact ⟨e', ⟨he₁', by rw [hee']; exact he₂⟩, hee'⟩
  -- Enums of one name match, whatever their order; only then do the values of shown ones count.
  have hm : Matched (fun e e' : Enum => e.name = e'.name ∧ enumBlock o e = enumBlock o e')
      (o.shown (·.name) s.enums) (o.shown (·.name) s'.enums) := by
    refine (matched_of_names (hs.enums.sublist (hsub _)) (hs'.enums.sublist (hsub _)) hnames).imp
      fun e he e' he' hn => ⟨hn, enumBlock_congr o hn ?_⟩
    obtain ⟨he, hx⟩ := List.mem_filter.mp he
    exact h.enumValues e he e' (List.mem_filter.mp he').1 hn (by simpa using hx)
  exact hm.map_sorted (fun _ _ he => he.1) (hs.enums.sublist (hsub _)) fun _ _ _ he => he.2

theorem Schema.SameShown.tableNames_eq : tableNames o s.tables = tableNames o s'.tables := by
  have hfilter : ∀ ts : List Table, (ts.filter fun t => !t.isView && !o.isExcluded t.name) =
      (o.shown (·.name) ts).filter fun t => !t.isView := fun ts => by
    rw [Options.shown, List.filter_filter]
  have hm := h.tables.filter (p := fun t => !t.isView) (q := fun t => !t.isView) fun t t' ht => by
    rw [ht.isView]
  have hnodup := hs.tables.sublist ((List.filter_sublist (p := fun t : Table => !t.isView)).map _)
  have hnames : (namedTables o s.tables).map (·.name) = (namedTables o s'.tables).map (·.name) := by
    rw [namedTables, namedTables, hfilter, hfilter]
    exact hm.map_sorted (fun _ _ ht => ht.name) hnodup fun _ _ _ ht => ht.name
  unfold tableNames
  rw [hnames]

omit hs in
theorem Schema.SameShown.insertCount_eq :
    (s.tables.filter fun t => !o.isExcluded t.name && hasInsert o t).length =
      (s'.tables.filter fun t => !o.isExcluded t.name && hasInsert o t).length := by
  have hfilter : ∀ ts : List Table, (ts.filter fun t => !o.isExcluded t.name && hasInsert o t) =
      (o.shown (·.name) ts).filter (hasInsert o) := fun ts => by
    rw [Options.shown, List.filter_filter]
    exact List.filter_congr fun t _ => Bool.and_comm _ _
  rw [hfilter, hfilter]
  refine (h.tables.filter fun t t' ht => ?_).length_eq
  rw [hasInsert, hasInsert, ht.isView]

end Parts

/-- **Visibility.**  A source and its counts depend only on what the options show of the schema. -/
theorem generate_eq_of_sameShown {o o' : Options} {s s' : Schema} (ho : o.SameExclusions o')
    (h : s.SameShown o s') (hs : s.Unambiguous o) (hs' : s'.Unambiguous o) :
    generate o s = generate o' s' := by
  rw [ho.rest, generate_exclude ho.exclude]
  simp only [generate, h.tableBlocks_eq hs, h.enumBlocks_eq hs hs', h.tableNames_eq hs,
    h.insertCount_eq]

/-- Two tables are shown, and a column refers to an excluded enum. -/
def orderSchema : Schema where
  tables :=
    [{ name := "orders"
       columns :=
         [{ name := "id", type := "int4", indices := [{ isPrimaryKey := true }, {}] },
           { name := "State", type := "_phase" }] },
      { name := "log", columns := [{ name := "line" }] },
      { name := "Orders", isView := true }]
  enums := [{ name := "phase", values := ["open"] }, { name := "mood", values := ["sad", "Sad"] }]

/-- `orderSchema` in another order, with another excluded table and other excluded values. -/
def shuffledSchema : Schema where
  tables :=
    [{ name := "Orders", isView := true },
      { name := "orders"
        columns :=
          [{ name := "State", type := "_phase" },
            { name := "id", type := "int4", indices := [{}, { isPrimaryKey := true }] }] },
      { name := "draft" }]
  enums := [{ name := "mood", values := ["Sad", "sad"] }, { name := "phase" }]

theorem generate_shuffledSchema :
    generate { exclude := ["log", "draft", "phase"] } orderSchema =
      generate { exclude := ["phase", "log", "phase", "draft"] } shuffledSchema := by
  refine generate_eq_of_sameShown ⟨rfl, fun name => ?_⟩ ⟨rfl, ?_, fun name => ?_, ?_⟩
    ⟨by decide, by decide, by decide⟩ ⟨by decide, by decide, by decide⟩
  · simp only [List.mem_cons, List.not_mem_nil]; tauto
  · refine ⟨[orderSchema.tables[2], orderSchema.tables[0]], by decide, ?_⟩
    refine .cons ⟨rfl, rfl, rfl, [], .nil, .nil⟩ (.cons ⟨rfl, rfl, rfl, ?_⟩ .nil)
    refine ⟨[orderSchema.tables[0].columns[1], orderSchema.tables[0].columns[0]], by decide, ?_⟩
    exact .cons ⟨rfl, rfl, rfl, rfl, rfl, by decide⟩
      (.cons ⟨rfl, rfl, rfl, rfl, rfl, by decide⟩ .nil)
  · simp only [orderSchema, shuffledSchema, List.map_cons, List.map_nil, List.mem_cons,
      List.not_mem_nil]; tauto
  · decide

end RowTypes
