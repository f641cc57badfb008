import RowTypes.Proofs.Layout
import RowTypes.Proofs.Sorting

/-!
# Inserts — one form, written twice

The declarations of a table are written from one form (`declarationForm`).  A form is a list of
parts: text that stands as it is, the place of the declared name, and for every column the place of
the mark that lets the member be missing.  Neither the form nor anything in it depends on which
declaration is written, or on whether inserts are asked for; the comments, the keys, the types and
the unions with `null` are all text of the form.  A role fills in its name and its marks, and no
more (`declaration_eq_written`).

**Inserts** (`tableBlock_insertTypes`).  Asking for inserts leaves the block of a view as it is, and
puts behind the block of any other table an empty line and the same form once more, with `Insert` in
the declared name, and with marks at the columns that are nullable or have a default.  So a column
that may be missing from a row may be missing from an insert.
-/

namespace RowTypes

/-! ### Forms -/

/-- A part of a form. -/
inductive Part where
  | text (s : String)
  /-- The place of the declared name. -/
  | name
  /-- The place of the mark of a column. -/
  | mark (column : Column)

def Part.written (name : String) (isOptional : Column → Bool) : Part → String
  | .text s => s
  | .name => name
  | .mark c => if isOptional c then "?" else ""

/-- The column whose mark a part is the place of. -/
def Part.column? : Part → Option Column
  | .mark c => some c
  | _ => none

/-- A form with a name in its place, and with marks at the columns that are optional. -/
def written (name : String) (isOptional : Column → Bool) (form : List Part) : String :=
  String.join (form.map (·.written name isOptional))

section Forms

variable (o : Options) (r : Resolver)

def memberForm (c : Column) : List Part :=
  [.text (columnComment o c), .text "  ", .text (quoteIfNeeded c.name), .mark c, .text ": ",
    .text (r.resolve c.type), .text (nullUnion o c), .text o.terminator, .text "\n"]

def declarationForm (t : Table) : List Part :=
  [.text (tableComment o t),
      .text (if o.typeAlias then "export type " else "export interface "), .name,
      .text (if o.typeAlias then " = \x7b" else " \x7b"),
      .text (if t.columns.isEmpty then "" else "\n")] ++
    (sortedByName (·.name) t.columns).flatMap (memberForm o r) ++
    [.text "\x7d", .text o.terminator, .text "\n"]

/-! ### Writing -/

variable {name : String} {isOptional : Column → Bool}

@[simp] theorem written_nil : written name isOptional [] = "" := rfl

@[simp] theorem written_cons (part : Part) (form : List Part) :
    written name isOptional (part :: form) =
      part.written name isOptional ++ written name isOptional form := by
  rw [written, List.map_cons, String.join_cons, written]

theorem written_append (form form' : List Part) : written name isOptional (form ++ form') =
    written name isOptional form ++ written name isOptional form' := by
  rw [written, List.map_append, String.join_append, written, written]

theorem written_flatMap {α : Type} (f : α → List Part) (l : List α) :
    written name isOptional (l.flatMap f) =
      String.join (l.map fun a => written name isOptional (f a)) := by
  induction l with
  | nil => rfl
  | cons a l ih => rw [List.flatMap_cons, written_append, ih, List.map_cons, String.join_cons]

theorem memberBlock_eq_written (role : Role) (c : Column) :
    memberBlock o r role c = written name (role.isOptional o) (memberForm o r c) := by
  simp only [memberBlock, memberLine, memberForm, written_cons, written_nil, Part.written,
    String.append_assoc, String.append_empty]

/-- **A declaration is its form**, with the name and the marks of its role. -/
theorem declaration_eq_written (role : Role) (t : Table) : declaration o r role t =
    written (declaredName o role t.name) (role.isOptional o) (declarationForm o r t) := by
  have hempty : ((sortedByName (·.name) t.columns).map (memberBlock o r role)).isEmpty =
      t.columns.isEmpty := by
    rw [List.isEmpty_map, (sortedByName_perm _ _).isEmpty_eq]
  have hmembers : (sortedByName (·.name) t.columns).map (memberBlock o r role) =
      (sortedByName (·.name) t.columns).map fun c =>
        written (declaredName o role t.name) (role.isOptional o) (memberForm o r c) :=
    List.map_congr_left fun c _ => memberBlock_eq_written o r role c
  rw [declaration, body, hempty, hmembers, declarationForm, written_append, written_append,
    written_flatMap, declarationHead]
  split <;>
    simp only [written_cons, written_nil, Part.written, String.append_assoc, String.append_empty]

/-- The marks of a form are those of the columns, in their order. -/
theorem columns_declarationForm (t : Table) :
    Arranged (·.name) t.columns ((declarationForm o r t).filterMap Part.column?) := by
  have hmember (c : Column) : (memberForm o r c).filterMap Part.column? = [c] := rfl
  have hcolumns : (declarationForm o r t).filterMap Part.column? =
      sortedByName (·.name) t.columns := by
    rw [declarationForm, List.filterMap_append, List.filterMap_append, List.filterMap_flatMap]
    simp only [hmember, List.flatMap_singleton']
    exact List.append_nil _
  rw [hcolumns]
  exact arranged_sortedByName _ _

end Forms

/-! ### Inserts -/

/-- What may be missing from a row may be missing from an insert. -/
theorem isOptional_insert_of_row {o : Options} {c : Column} (h : Role.row.isOptional o c = true) :
    Role.insert.isOptional o c = true := by
  rw [Role.isOptional, Bool.and_eq_true] at h
  rw [Role.isOptional, h.2, Bool.true_or]

/-- **Inserts.**  Asking for inserts leaves a view as it is, and adds to any other table its form
written once more, with `Insert` in the name and other marks.  A form does not depend on whether
inserts are asked for. -/
theorem tableBlock_insertTypes (o : Options) (r : Resolver) (t : Table) :
    (t.isView = true →
      tableBlock { o with insertTypes := true } r t =
        tableBlock { o with insertTypes := false } r t) ∧
    (t.isView = false →
      tableBlock { o with insertTypes := true } r t =
        tableBlock { o with insertTypes := false } r t ++ "\n" ++
          written (singular t.name ++ "Insert" ++ o.suffix)
            (fun c => c.isNullable || c.hasDefault) (declarationForm o r t)) ∧
    tableBlock { o with insertTypes := false } r t =
      written (singular t.name ++ o.suffix) (fun c => o.optionals && c.isNullable)
        (declarationForm o r t) ∧
    Arranged (·.name) t.columns ((declarationForm o r t).filterMap Part.column?) ∧
    ∀ c, Role.row.isOptional o c = true → Role.insert.isOptional o c = true := by
  have hoff : tableBlock { o with insertTypes := false } r t = declaration o r .row t :=
    tableBlock_of_not_hasInsert rfl
  refine ⟨fun hview => ?view, fun htable => ?table, ?row, columns_declarationForm o r t,
    fun c => isOptional_insert_of_row⟩
  case view =>
    have hnone : hasInsert { o with insertTypes := true } t = false := by
      rw [hasInsert, hview]
      rfl
    rw [hoff, tableBlock_of_not_hasInsert hnone]
    rfl
  case table =>
    have hsome : hasInsert { o with insertTypes := true } t = true := by
      rw [hasInsert, htable]
      rfl
    have htwo : tableBlock { o with insertTypes := true } r t =
        declaration o r .row t ++ "\n" ++ declaration o r .insert t :=
      isTwofold_of_hasInsert hsome
    have hname : declaredName o .insert t.name = singular t.name ++ "Insert" ++ o.suffix := by
      rw [declaredName, Role.nameEnd, String.append_assoc]
    rw [htwo, hoff, declaration_eq_written o r .insert, hname]
    rfl
  case row =>
    rw [hoff, declaration_eq_written]
    rfl

/-- A table with a column that the database fills in, and one that may be null. -/
def notesTable : Table where
  name := "notes"
  comment := some "Notes."
  columns := [{ name := "text", isNullable := true }, { name := "id", hasDefault := true }]

def notesView : Table := { notesTable with isView := true }

/-- The table gets a second declaration, and the view gets none. -/
theorem tableBlock_insertTypes_notesTable :
    notesTable.isView = false ∧ notesView.isView = true ∧
      tableBlock { comments := true, insertTypes := true } ⟨[]⟩ notesTable =
        "/**\n * Notes.\n*/\nexport interface Note \x7b\n  id: any\n  text: any | null\n\x7d\n" ++
          "\n/**\n * Notes.\n*/\nexport interface NoteInsert \x7b\n" ++
            "  id?: any\n  text?: any | null\n\x7d\n" ∧
      tableBlock { comments := true, insertTypes := true } ⟨[]⟩ notesView =
        tableBlock { comments := true } ⟨[]⟩ notesView := by
  obtain ⟨-, htable, hrow, -, -⟩ := tableBlock_insertTypes { comments := true } ⟨[]⟩ notesTable
  obtain ⟨hview, -⟩ := tableBlock_insertTypes { comments := true } ⟨[]⟩ notesView
  refine ⟨rfl, rfl, ?_, hview rfl⟩
  rw [htable rfl, hrow]
  decide +kernel

end RowTypes
