import RowTypes.Proofs.Literals
import RowTypes.Proofs.References

/-!
# Table names — reading the union and the enum back

The names of the tables are declared twice, as a union of literals and as an enum.  A reader of the
union (`readUnion`) takes a literal, and where a bar follows between blanks, another one.  A name
may hold the bar itself, and quotes in front of it: a literal ends at its own closing quote whatever
it holds, so no name is cut and no two names run together (`readUnion_nameUnion`), and two lists of
names have one union only if they are equal (`nameUnion_injective`).  A reader of the enum
(`readBody`) takes members, each on a line of its own with its key, up to the brace that closes it.

**Table names** (`tableNames_readBack`).  Behind the opening of the union the reader finds the names
of the tables that are neither views nor excluded, in their order and each as often as it occurs,
and stops in front of the terminator; the union is `never` if and only if there are none.  The
members of the enum have the same literals in the same order.
-/

namespace RowTypes

/-! ### Readers -/

/-- What follows an opening in a text that begins with it. -/
def after? (opening text : String) : Option String :=
  (text.toList.dropPrefix? opening.toList).map String.ofList

theorem after?_append (opening rest : String) : after? opening (opening ++ rest) = some rest := by
  rw [after?, String.toList_append, List.dropPrefix?_append_of_beq _ BEq.rfl, Option.map_some,
    String.ofList_toList]

theorem eq_append_of_after? {opening text rest : String} (h : after? opening text = some rest) :
    text = opening ++ rest := by
  obtain ⟨left, hleft, rfl⟩ := Option.map_eq_some_iff.mp h
  obtain ⟨lead, htext, hlead⟩ := List.dropPrefix?_eq_some_iff.mp hleft
  rw [eq_of_beq hlead] at htext
  rw [← String.toList_inj, htext, String.toList_append, String.toList_ofList]

theorem length_of_after? {opening text rest : String} (h : after? opening text = some rest) :
    rest.length ≤ text.length := by
  rw [eq_append_of_after? h, String.length_append]
  omega

theorem length_of_literal? {text value rest : String} (h : literal? text = some (value, rest)) :
    rest.length < text.length := by
  rw [literal?] at h
  split at h
  case h_1 cs htext =>
    obtain ⟨p, hscan, heq⟩ := Option.map_eq_some_iff.mp h
    cases heq
    have hlen := length_of_scanLiteral hscan
    rw [String.length_ofList, ← String.length_toList, htext, List.length_cons]
    omega
  case h_2 => cases h

/-- Reads the literals of a union, with a bar between any two, and gives what follows the last. -/
def readUnion (text : String) : Option (List String × String) :=
  match hliteral : literal? text with
  | none => none
  | some (value, rest) =>
      match hbar : after? " | " rest with
      | none => some ([value], rest)
      | some next =>
          have : next.length < text.length :=
            (length_of_after? hbar).trans_lt (length_of_literal? hliteral)
          (readUnion next).map fun p => (value :: p.1, p.2)
termination_by text.length

/-- The key and the literal of the member that a text opens with, and what follows its line. -/
def member? (text : String) : Option ((String × String) × String) := do
  let line ← after? "  " text
  let key := line.toList.takeWhile (· ≠ ' ')
  let value ← after? " = " (String.ofList (line.toList.dropWhile (· ≠ ' ')))
  let (value, rest) ← literal? value
  let rest ← after? ",\n" rest
  return ((String.ofList key, value), rest)

theorem length_of_member? {text rest : String} {member : String × String}
    (h : member? text = some (member, rest)) : rest.length < text.length := by
  simp only [member?, Option.bind_eq_bind, Option.bind_eq_some_iff] at h
  obtain ⟨line, hline, value, hvalue, ⟨name, behind⟩, hliteral, left, hleft, heq⟩ := h
  cases heq
  have hdrop : (String.ofList (line.toList.dropWhile (· ≠ ' '))).length ≤ line.length := by
    rw [String.length_ofList, ← String.length_toList]
    exact (List.dropWhile_sublist _).length_le
  calc rest.length ≤ behind.length := length_of_after? hleft
    _ < value.length := length_of_literal? hliteral
    _ ≤ (String.ofList (line.toList.dropWhile (· ≠ ' '))).length := length_of_after? hvalue
    _ ≤ line.length := hdrop
    _ ≤ text.length := length_of_after? hline

/-- Reads members up to the brace that closes an enum, and gives what follows it. -/
def readMembers (text : String) : Option (List (String × String) × String) :=
  match after? "\x7d" text with
  | some rest => some ([], rest)
  | none =>
      match hmember : member? text with
      | none => none
      | some (member, rest) =>
          have : rest.length < text.length := length_of_member? hmember
          (readMembers rest).map fun p => (member :: p.1, p.2)
termination_by text.length

/-- Reads what follows the opening brace of an enum, of which the first member is on a new line. -/
def readBody (text : String) : Option (List (String × String) × String) :=
  readMembers ((after? "\n" text).getD text)

/-! ### The union -/

section Union

variable {text value rest : String}

/-- Behind a literal, a bar calls for another one. -/
theorem readUnion_of_literal (h : literal? text = some (value, rest)) :
    readUnion text = match after? " | " rest with
      | none => some ([value], rest)
      | some next => (readUnion next).map fun p => (value :: p.1, p.2) := by
  rw [readUnion]
  split
  case h_1 hnone => cases h.symm.trans hnone
  case h_2 hsome =>
    cases h.symm.trans hsome
    split
    case h_1 hbar => rw [hbar]
    case h_2 next hbar => simp only [hbar]

/-- **The union of names is read back**, up to what is not another bar. -/
theorem readUnion_nameUnion {names : List String} (hnames : names ≠ [])
    (hrest : after? " | " rest = none) :
    readUnion (nameUnion names ++ rest) = some (names, rest) := by
  rw [nameUnion, if_neg (by simpa using hnames)]
  induction names with
  | nil => exact absurd rfl hnames
  | cons name names ih =>
      cases names with
      | nil =>
          rw [List.map_singleton, String.intercalate_singleton,
            readUnion_of_literal (literal?_stringLiteral name rest), hrest]
      | cons name' names =>
          rw [List.map_cons, List.map_cons, String.intercalate_cons_cons, ← List.map_cons,
            String.append_assoc, String.append_assoc,
            readUnion_of_literal (literal?_stringLiteral name _), after?_append]
          dsimp only
          rw [ih (List.cons_ne_nil _ _), Option.map_some]

end Union

/-- A union with nothing behind it is read to its end. -/
theorem readUnion_nameUnion_end {names : List String} (hnames : names ≠ []) :
    readUnion (nameUnion names) = some (names, "") := by
  have hread : readUnion (nameUnion names ++ "") = some (names, "") :=
    readUnion_nameUnion hnames rfl
  rwa [String.append_empty] at hread

theorem nameUnion_eq_never_iff {names : List String} : nameUnion names = "never" ↔ names = [] := by
  constructor
  · intro h
    by_contra hne
    have hread := readUnion_nameUnion_end hne
    rw [h, readUnion] at hread
    cases hread
  · rintro rfl
    rfl

/-- Two lists of names with one union are equal. -/
theorem nameUnion_injective {names names' : List String} (h : nameUnion names = nameUnion names') :
    names = names' := by
  by_cases hnames : names = []
  · rw [hnames] at h ⊢
    exact (nameUnion_eq_never_iff.mp h.symm).symm
  · have hnames' : names' ≠ [] := by
      rintro rfl
      exact hnames (nameUnion_eq_never_iff.mp h)
    have hread := readUnion_nameUnion_end hnames
    rw [h, readUnion_nameUnion_end hnames'] at hread
    cases hread
    rfl

/-! ### The enum -/

theorem mem_of_mem_singularReversed {c : Char} {cs : List Char} (h : c ∈ singularReversed cs) :
    c ∈ cs ∨ c = 'y' := by
  fun_cases singularReversed cs <;> grind [singularReversed]

theorem space_not_mem_singular (table : String) : ' ' ∉ (singular table).toList := by
  intro h
  rw [singular, String.toList_ofList, List.mem_reverse] at h
  rcases mem_of_mem_singularReversed h with h | h
  · exact space_not_mem_titleWord table (List.mem_reverse.mp h)
  · exact absurd h (by decide)

theorem member?_nameMember (name rest : String) :
    member? (nameMember name ++ rest) = some ((singular name, name), rest) := by
  have hkey := forall_ne_space (space_not_mem_singular name)
  have hline : nameMember name ++ rest =
      "  " ++ (singular name ++ (" = " ++ (stringLiteral name ++ (",\n" ++ rest)))) := by
    simp only [nameMember, String.append_assoc]
  have hcut (behind : String) :
      (singular name ++ (" = " ++ behind)).toList.takeWhile (· ≠ ' ') = (singular name).toList ∧
      (singular name ++ (" = " ++ behind)).toList.dropWhile (· ≠ ' ') =
        (" = " ++ behind).toList := by
    rw [String.toList_append, List.takeWhile_append_of_pos hkey, List.dropWhile_append_of_pos hkey,
      String.toList_append]
    exact ⟨List.append_nil _, rfl⟩
  simp only [member?, hline, after?_append, hcut, String.ofList_toList, literal?_stringLiteral,
    Option.bind_eq_bind, Option.bind_some, Option.pure_def]

theorem readMembers_brace (rest : String) : readMembers ("\x7d" ++ rest) = some ([], rest) := by
  rw [readMembers, after?_append]

theorem readMembers_next {text rest : String} {member : String × String}
    (hbrace : after? "\x7d" text = none) (hmember : member? text = some (member, rest)) :
    readMembers text = (readMembers rest).map fun p => (member :: p.1, p.2) := by
  rw [readMembers, hbrace]
  dsimp only
  split
  case h_1 hnone => cases hmember.symm.trans hnone
  case h_2 hsome =>
    cases hmember.symm.trans hsome
    rfl

theorem after?_brace_nameMember (name rest : String) :
    after? "\x7d" (nameMember name ++ rest) = none := by
  simp [after?, nameMember, List.dropPrefix?]

/-- **The members of the names are read back**, up to the brace. -/
theorem readMembers_nameMembers (names : List String) (rest : String) :
    readMembers (String.join (names.map nameMember) ++ "\x7d" ++ rest) =
      some (names.map fun name => (singular name, name), rest) := by
  induction names with
  | nil => exact readMembers_brace rest
  | cons name names ih =>
      rw [List.map_cons, String.join_cons, String.append_assoc, String.append_assoc,
        readMembers_next (after?_brace_nameMember name _) (member?_nameMember name _),
        ← String.append_assoc, ih]
      rfl

theorem readBody_nameMembers (names : List String) (rest : String) :
    readBody (body (names.map nameMember) ++ rest) =
      some (names.map fun name => (singular name, name), rest) := by
  have htext : (after? "\n" (body (names.map nameMember) ++ rest)).getD
      (body (names.map nameMember) ++ rest) =
        String.join (names.map nameMember) ++ "\x7d" ++ rest := by
    cases names with
    | nil => simp [body, after?, List.dropPrefix?]
    | cons name names =>
        rw [body, if_neg (by simp), String.append_assoc, String.append_assoc, after?_append,
          String.append_assoc, Option.getD_some]
  rw [readBody, htext, readMembers_nameMembers]

/-! ### The names of the tables -/

/-- What follows the union, up to the members of the enum. -/
def behindUnion (o : Options) (members : String) : String :=
  o.terminator ++ "\n\n" ++ "export enum Table \x7b" ++ members

/-- A text declares names as they are read back: in its union, and in the members of its enum. -/
structure DeclaresNames (o : Options) (names : List String) (text union members : String) :
    Prop where
  text_eq : text = "export type Tables = " ++ (union ++ behindUnion o members)
  never_iff : union = "never" ↔ names = []
  union_reads : names ≠ [] →
    readUnion (union ++ behindUnion o members) = some (names, behindUnion o members)
  members_read : readBody members = some (names.map fun name => (singular name, name), "\n")

theorem after?_bar_behindUnion (o : Options) (members : String) :
    after? " | " (behindUnion o members) = none := by
  rw [behindUnion, Options.terminator]
  split <;> simp [after?, List.dropPrefix?]

theorem tableNames_eq_behindUnion (o : Options) (tables : List Table) : tableNames o tables =
    "export type Tables = " ++ (nameUnion ((namedTables o tables).map (·.name)) ++
      behindUnion o (body (((namedTables o tables).map (·.name)).map nameMember) ++ "\n")) := by
  unfold tableNames behindUnion
  simp only [String.append_assoc]

/-- **Table names.**  The names of the tables that are neither views nor excluded stand in the union
and in the enum in their order, each as often as it occurs, and are read back. -/
theorem tableNames_readBack (o : Options) (tables : List Table) :
    Arranged (·.name) (tables.filter fun t => !t.isView && !o.isExcluded t.name)
        (namedTables o tables) ∧
      ∃ union members, DeclaresNames o ((namedTables o tables).map (·.name))
        (tableNames o tables) union members := by
  exact ⟨arranged_sortedByName _ _, _, _,
    { text_eq := tableNames_eq_behindUnion o tables
      never_iff := nameUnion_eq_never_iff
      union_reads := fun hnames => readUnion_nameUnion hnames (after?_bar_behindUnion o _)
      members_read := readBody_nameMembers _ "\n" }⟩

/-- A name that holds a bar between quotes, twice, one that ends in a backslash, and two tables
whose names are not declared. -/
def barTables : List Table :=
  [{ name := "c\\" }, { name := "a' | 'b" }, { name := "b", isView := true }, { name := "old" },
    { name := "a' | 'b" }]

theorem tableNames_readBack_barTables :
    tableNames { exclude := ["old"] } barTables =
        "export type Tables = 'a\\' | \\'b' | 'a\\' | \\'b' | 'c\\\\'\n\n" ++
          "export enum Table \x7b\n  A'|'b = 'a\\' | \\'b',\n  A'|'b = 'a\\' | \\'b',\n" ++
          "  C\\ = 'c\\\\',\n\x7d\n" ∧
      ∃ union members, DeclaresNames { exclude := ["old"] } ["a' | 'b", "a' | 'b", "c\\"]
          (tableNames { exclude := ["old"] } barTables) union members ∧
        readUnion (union ++ behindUnion { exclude := ["old"] } members) =
          some (["a' | 'b", "a' | 'b", "c\\"], behindUnion { exclude := ["old"] } members) := by
  obtain ⟨-, union, members, h⟩ := tableNames_readBack { exclude := ["old"] } barTables
  have hnames : (namedTables { exclude := ["old"] } barTables).map (·.name) =
      ["a' | 'b", "a' | 'b", "c\\"] := by
    decide +kernel
  rw [hnames] at h
  exact ⟨by decide +kernel, union, members, h, h.union_reads (List.cons_ne_nil _ _)⟩

end RowTypes
