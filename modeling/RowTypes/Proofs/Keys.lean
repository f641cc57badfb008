import RowTypes.Proofs.Exports
import RowTypes.Proofs.Literals

/-!
# Keys — raw names never meet

The key of a column is its name, and where title words are not asked for, so is the key of an
enum's value.  A name that needs quotes is put between them as it is.  It can hold quotes of its
own, so a key may be a name once more; but quotes do not change what a name needs
(`needsQuotes_quoteIfNeeded`), and that name gets another pair.  So the name can be told from its
key (`nameOfKey_quoteIfNeeded`), and two names never have one key.

A declaration is written from its members (`enumBlock_eq_members`, `declaration_eq_members`), each
with a key.

**Keys** (`memberKeys_nodup`).  An enum of distinct values has a member for each of them, and a
table of distinct columns has one for each of these in every declaration, and their keys differ.
-/

namespace RowTypes

/-! ### Names in quotes -/

theorem needsQuotes_quoteIfNeeded (name : String) :
    needsQuotes (quoteIfNeeded name) = needsQuotes name := by
  by_cases h : needsQuotes name = true
  · rw [quoteIfNeeded_eq h, h, needsQuotes, String.toList_ofList, List.any_append, List.any_append,
      ← needsQuotes, h, Bool.or_true, Bool.true_or]
  · rw [quoteIfNeeded, if_neg h]

/-- The name that a key stands for. -/
def nameOfKey (key : String) : String :=
  if needsQuotes key then String.ofList key.toList.tail.dropLast else key

/-- **The name of a key** is told from the key. -/
theorem nameOfKey_quoteIfNeeded (name : String) : nameOfKey (quoteIfNeeded name) = name := by
  rw [nameOfKey, needsQuotes_quoteIfNeeded]
  by_cases h : needsQuotes name = true
  · rw [if_pos h, quoteIfNeeded_eq h, String.toList_ofList, List.append_assoc,
      List.singleton_append, List.tail_cons, List.dropLast_concat, String.ofList_toList]
  · rw [if_neg h, quoteIfNeeded, if_neg h]

theorem quoteIfNeeded_injective : Function.Injective quoteIfNeeded :=
  Function.LeftInverse.injective nameOfKey_quoteIfNeeded

/-! ### Members -/

/-- A member of a declaration. -/
structure Member where
  /-- The doc comment and the indent. -/
  lead : String
  key : String
  /-- What is behind the key. -/
  rest : String

def Member.text (m : Member) : String := m.lead ++ m.key ++ m.rest

namespace Member

def ofValue (o : Options) (value : String) : Member where
  lead := "  "
  key := memberKey o value
  rest := " = " ++ stringLiteral value ++ ",\n"

def ofColumn (o : Options) (r : Resolver) (role : Role) (c : Column) : Member where
  lead := columnComment o c ++ "  "
  key := quoteIfNeeded c.name
  rest := (if role.isOptional o c then "?" else "") ++ ": " ++ r.resolve c.type ++ nullUnion o c ++
    o.terminator ++ "\n"

end Member

section Members

variable (o : Options) (r : Resolver) (role : Role)

def Enum.members (e : Enum) : List Member := (sortedByName id e.values).map (.ofValue o)

def Table.members (t : Table) : List Member :=
  (sortedByName (·.name) t.columns).map (.ofColumn o r role)

theorem enumBlock_eq_members (e : Enum) : enumBlock o e =
    "export enum " ++ titleWord e.name ++ " \x7b" ++ body ((e.members o).map (·.text)) ++ "\n" := by
  have hmember : enumMember o = fun value => (Member.ofValue o value).text := by
    funext value
    simp only [enumMember, Member.text, Member.ofValue, String.append_assoc]
  have hmembers : (sortedByName id e.values).map (enumMember o) = (e.members o).map (·.text) := by
    rw [hmember, Enum.members, List.map_map, Function.comp_def]
  rw [enumBlock, hmembers]

theorem declaration_eq_members (t : Table) : declaration o r role t =
    tableComment o t ++ declarationHead o role t.name ++
      body ((t.members o r role).map (·.text)) ++ o.terminator ++ "\n" := by
  have hmember : memberBlock o r role = fun c => (Member.ofColumn o r role c).text := by
    funext c
    simp only [memberBlock, memberLine, Member.text, Member.ofColumn, String.append_assoc]
  have hmembers : (sortedByName (·.name) t.columns).map (memberBlock o r role) =
      (t.members o r role).map (·.text) := by
    rw [hmember, Table.members, List.map_map, Function.comp_def]
  rw [declaration, hmembers]

end Members

/-! ### Keys -/

/-- The keys of items of distinct names are distinct. -/
theorem nodup_quoted {α : Type} {name : α → String} {items : List α}
    (h : (items.map name).Nodup) :
    ((sortedByName name items).map fun a => quoteIfNeeded (name a)).Nodup :=
  (nodup_map_sorted_iff h quoteIfNeeded).mpr fun _ _ _ _ heq => quoteIfNeeded_injective heq

/-- **Keys.**  Two names never have one raw key.  So an enum of distinct values has a member for
each of them, and a table of distinct columns has one for each of these in every declaration, all
with keys of their own. -/
theorem memberKeys_nodup :
    (∀ a b, quoteIfNeeded a = quoteIfNeeded b → a = b) ∧
    (∀ (o : Options) (e : Enum), o.pascalEnums = false → e.values.Nodup →
      enumBlock o e = "export enum " ++ titleWord e.name ++ " \x7b" ++
        body ((e.members o).map (·.text)) ++ "\n" ∧
      (e.members o).Perm (e.values.map (.ofValue o)) ∧ ((e.members o).map (·.key)).Nodup) ∧
    ∀ (o : Options) (r : Resolver) (t : Table), (t.columns.map (·.name)).Nodup → ∀ role : Role,
      declaration o r role t = tableComment o t ++ declarationHead o role t.name ++
        body ((t.members o r role).map (·.text)) ++ o.terminator ++ "\n" ∧
      (t.members o r role).Perm (t.columns.map (.ofColumn o r role)) ∧
      ((t.members o r role).map (·.key)).Nodup := by
  refine ⟨fun _ _ h => quoteIfNeeded_injective h, ?enum, ?table⟩
  case enum =>
    intro o e hraw hvalues
    refine ⟨enumBlock_eq_members o e, (sortedByName_perm id e.values).map _, ?_⟩
    have hkey : (fun value => (Member.ofValue o value).key) = fun value => quoteIfNeeded value := by
      funext value
      simp [Member.ofValue, memberKey, hraw]
    rw [Enum.members, List.map_map, Function.comp_def, hkey]
    exact nodup_quoted (by simpa using hvalues)
  case table =>
    intro o r t hcolumns role
    refine ⟨declaration_eq_members o r role t, (sortedByName_perm _ t.columns).map _, ?_⟩
    rw [Table.members, List.map_map]
    exact nodup_quoted hcolumns

/-- Values of which one is the other in quotes. -/
def quoteEnum : Enum where
  name := "Q"
  values := ["a b", "'a b'"]

def quoteTable : Table where
  name := "Q"
  columns := [{ name := "a b" }, { name := "'a b'" }]

/-- The keys of the values, and those of columns of the same names. -/
theorem memberKeys_nodup_quotes :
    quoteEnum.values.Nodup ∧ (quoteTable.columns.map (·.name)).Nodup ∧
      enumBlock {} quoteEnum =
        "export enum Q \x7b\n  ''a b'' = '\\'a b\\'',\n  'a b' = 'a b',\n\x7d\n" ∧
      ((quoteEnum.members {}).map (·.key)).Nodup ∧
      ((quoteTable.members {} ⟨[]⟩ .insert).map (·.key)) = ["''a b''", "'a b'"] ∧
      ((quoteTable.members {} ⟨[]⟩ .insert).map (·.key)).Nodup := by
  obtain ⟨-, henum, htable⟩ := memberKeys_nodup
  have hvalues : quoteEnum.values.Nodup := by simp [quoteEnum]
  have hcolumns : (quoteTable.columns.map (·.name)).Nodup := by simp [quoteTable]
  obtain ⟨htext, -, hkeys⟩ := henum {} quoteEnum rfl hvalues
  obtain ⟨-, -, hkeys'⟩ := htable {} ⟨[]⟩ quoteTable hcolumns .insert
  refine ⟨hvalues, hcolumns, ?_, hkeys, ?_, hkeys'⟩
  · rw [htext]
    decide +kernel
  · decide +kernel

end RowTypes
