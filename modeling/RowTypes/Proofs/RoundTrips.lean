import RowTypes.Proofs.Spellings

/-!
# RoundTrips — what is written is read back

The value that a record is written as says every key once, so it is one of the record's spellings.
**So the compact text of a schema is read as that schema, and the
compact text of options as these options** (`ofJson?_compact`), whatever characters their names,
comments and mapping keys hold.
-/

namespace RowTypes

open Json (Spells spells_of_says)

theorem lists_map {α : Type} {describes : α → Json.Tree → Prop} {f : α → Json.Value}
    (h : ∀ a, describes a (f a).tree) (as : List α) :
    Lists describes as (Json.Value.list (as.map f)).tree := by
  rw [Json.Value.tree_list, List.map_map]
  refine ⟨_, rfl, ?_⟩
  rw [List.forall₂_map_right_iff, List.forall₂_same]
  exact fun a _ => h a

theorem says_tree (s : String) : (Json.Value.text s).tree.Says s := Json.says_of s

theorem lists_texts (ss : List String) :
    Lists (fun s v => v.Says s) ss (Json.Value.list (ss.map .text)).tree :=
  lists_map says_tree ss

theorem saysOrNull_tree (o : Option String) : (textOrNull o).tree.SaysOrNull o := by
  cases o with
  | none => rfl
  | some s => exact says_tree s

theorem Index.spells_toJson (i : Index) : Spells i.clauses i.toJson.tree := by
  rw [toJson, Json.tree_object_eq]
  exact spells_of_says i.fills.nodup_keys
    (.cons ⟨rfl, saysOrNull_tree i.name⟩ (.cons ⟨rfl, rfl⟩ .nil))

theorem Column.spells_toJson (c : Column) : Spells c.clauses c.toJson.tree := by
  rw [toJson, Json.tree_object_eq]
  refine spells_of_says c.fills.nodup_keys ?_
  have hindices := lists_map Index.spells_toJson c.indices
  exact .cons ⟨rfl, says_tree c.name⟩ (.cons ⟨rfl, says_tree c.type⟩ (.cons ⟨rfl, rfl⟩
    (.cons ⟨rfl, rfl⟩ (.cons ⟨rfl, saysOrNull_tree c.comment⟩ (.cons ⟨rfl, hindices⟩ .nil)))))

theorem Table.spells_toJson (t : Table) : Spells t.clauses t.toJson.tree := by
  rw [toJson, Json.tree_object_eq]
  refine spells_of_says t.fills.nodup_keys ?_
  have hcolumns := lists_map Column.spells_toJson t.columns
  exact .cons ⟨rfl, says_tree t.name⟩ (.cons ⟨rfl, hcolumns⟩
    (.cons ⟨rfl, saysOrNull_tree t.comment⟩ (.cons ⟨rfl, rfl⟩ .nil)))

theorem Enum.spells_toJson (e : Enum) : Spells e.clauses e.toJson.tree := by
  rw [toJson, Json.tree_object_eq]
  exact spells_of_says e.fills.nodup_keys
    (.cons ⟨rfl, says_tree e.name⟩ (.cons ⟨rfl, lists_texts e.values⟩ .nil))

namespace Mapping

/-- Members as they are written, where a key may come again. -/
def membersJson (members : List (String × List String)) : Json.Value :=
  .object (members.map fun e => (e.1, .list (e.2.map .text)))

theorem listed_membersJson (members : List (String × List String)) :
    Listed members (membersJson members).tree := by
  rw [membersJson, Json.tree_object_eq, List.map_map]
  refine ⟨_, rfl, ?_⟩
  rw [List.forall₂_map_right_iff, List.forall₂_same]
  exact fun e _ => ⟨rfl, lists_texts e.2⟩

theorem listed_toJson (m : Mapping) : Listed m.entries m.toJson.tree :=
  listed_membersJson m.entries

end Mapping

theorem Schema.spells_toJson (s : Schema) : Spells s.clauses s.toJson.tree := by
  rw [toJson, Json.tree_object_eq]
  refine spells_of_says s.fills.nodup_keys ?_
  have htables := lists_map Table.spells_toJson s.tables
  have henums := lists_map Enum.spells_toJson s.enums
  exact .cons ⟨rfl, htables⟩ (.cons ⟨rfl, henums⟩ (.cons ⟨rfl, s.mapping.listed_toJson⟩ .nil))

theorem Options.spells_toJson (o : Options) : Spells o.clauses o.toJson.tree := by
  rw [toJson, Json.tree_object_eq]
  refine spells_of_says o.fills.nodup_keys ?_
  simp only [clauses, List.map_cons, List.map_nil, List.forall₂_cons, List.forall₂_nil_left_iff,
    and_true]
  exact ⟨⟨rfl, rfl⟩, ⟨rfl, rfl⟩, ⟨rfl, rfl⟩, ⟨rfl, rfl⟩, ⟨rfl, rfl⟩, ⟨rfl, rfl⟩, ⟨rfl, rfl⟩,
    ⟨rfl, says_tree o.suffix⟩, ⟨rfl, lists_texts o.exclude⟩, ⟨rfl, saysOrNull_tree o.header⟩⟩

theorem Options.onlyKeys_toJson (o : Options) : Json.OnlyKeys keys o.toJson.tree := by
  rw [toJson, Json.tree_object_eq]
  refine Json.onlyKeys_ofMembers ?_
  simp [keys]

/-- **What is written is read back.** -/
theorem ofJson?_compact :
    (∀ (s : Schema) (source : Json.Source),
      Schema.ofJson? source (Json.bytesOf s.toJson.compact) = .ok s) ∧
    ∀ o : Options, Options.ofJson? o.toJson.compact = .ok o := by
  refine ⟨fun s source => ?schema, fun o => ?options⟩
  case schema =>
    exact Json.read_of_readsValue (s.reads _ s.spells_toJson) source
      (Json.laidOut_compact s.toJson)
  case options =>
    exact Json.read_of_readsValue (Options.reads o.spells_toJson o.onlyKeys_toJson) .text
      (Json.laidOut_compact o.toJson)

/-- Names with a quote, a backslash, a control character and a letter of four bytes. -/
def oddNames : Schema where
  tables :=
    [{ name := "a\"b\x5c"
       comment := some "\x01\n"
       columns := [{ name := "", indices := [{ name := some "𝒳" }] }] }]
  mapping := { entries := [("z", ["b", "a"]), ("", [])] }

theorem ofJson?_compact_oddNames :
    Schema.ofJson? .stream (Json.bytesOf oddNames.toJson.compact) = .ok oddNames :=
  ofJson?_compact.1 oddNames .stream

end RowTypes
