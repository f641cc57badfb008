import Mathlib.Data.List.Infix
import RowTypes.Source

/-!
# Doc comments — where they end

A doc comment is a block of lines between an opening and a closing line.  A reader of the source
knows nothing of lines: for it the comment ends at the first closing mark behind the opening
(`behindDoc?`).  A block `IsComment` if that mark is the one of its own closing line, whatever
follows the block.

The text of a comment is written as it is, so a closing mark in it is the first one.  Nothing else
is: neither a line end nor the beginning of a line can make one out of its halves
(`closesComment_commentBody`).

**Doc comments** (`docComment_isComment_iff`).  With comments on, the block of a table or of a
column is a comment if and only if the text of the comment holds no closing mark.
-/

namespace RowTypes

/-- The text holds a mark that closes a comment. -/
def ClosesComment (cs : List Char) : Prop := ['*', '/'] <:+: cs

/-- What follows the first mark that closes a comment. -/
def afterComment? : List Char → Option (List Char)
  | [] => none
  | c :: cs => if c = '*' ∧ cs.head? = some '/' then some cs.tail else afterComment? cs

/-- What follows the doc comment that a text opens with, behind blanks at most. -/
def behindDoc? (text : String) : Option String :=
  match text.toList.dropWhile (· = ' ') with
  | '/' :: '*' :: '*' :: cs => (afterComment? cs).map String.ofList
  | _ => none

/-- A block that a reader takes for a comment from its beginning to the end of its last line. -/
def IsComment (block : String) : Prop :=
  ∀ rest : String, behindDoc? (block ++ rest) = some ("\n" ++ rest)

/-- A comment of the schema holds a closing mark. -/
def HoldsMark (comment : Option String) : Prop :=
  ∃ text, comment = some text ∧ ClosesComment text.toList

/-! ### Closing marks -/

theorem not_closesComment_nil : ¬ ClosesComment [] := fun h =>
  nomatch List.eq_nil_of_infix_nil h

theorem closesComment_cons {c : Char} {cs : List Char} :
    ClosesComment (c :: cs) ↔ (c = '*' ∧ cs.head? = some '/') ∨ ClosesComment cs := by
  rw [ClosesComment, List.infix_cons_iff, List.cons_prefix_cons, eq_comm]
  refine or_congr_left (and_congr_right fun _ => ?_)
  rw [List.head?_eq_some_iff]
  exact ⟨fun ⟨rest, h⟩ => ⟨rest, h.symm⟩, fun ⟨rest, h⟩ => ⟨rest, h.symm⟩⟩

/-- A character that is in no mark keeps marks apart. -/
theorem closesComment_append_cons {c : Char} (hstar : c ≠ '*') (hslash : c ≠ '/')
    (cs rest : List Char) :
    ClosesComment (cs ++ c :: rest) ↔ ClosesComment cs ∨ ClosesComment rest := by
  induction cs with
  | nil => simp [closesComment_cons, hstar, not_closesComment_nil]
  | cons d ds ih =>
      have hhead : (ds ++ c :: rest).head? = some '/' ↔ ds.head? = some '/' := by
        cases ds <;> simp [hslash]
      rw [List.cons_append, closesComment_cons, closesComment_cons, hhead, ih, or_assoc]

theorem closesComment_blank (cs : List Char) : ClosesComment (' ' :: cs) ↔ ClosesComment cs := by
  rw [closesComment_cons]
  exact or_iff_right fun h => absurd h.1 (by decide)

/-- Without a mark of its own, a text ends at the mark behind it. -/
theorem afterComment?_of_not {cs : List Char} (h : ¬ ClosesComment cs) (rest : List Char) :
    afterComment? (cs ++ '*' :: '/' :: rest) = some rest := by
  induction cs with
  | nil => rfl
  | cons c cs ih =>
      rw [closesComment_cons, not_or] at h
      rw [List.cons_append, afterComment?, if_neg, ih h.2]
      rintro ⟨hc, hhead⟩
      cases cs with
      | nil => exact absurd hhead (by simp)
      | cons d ds => exact h.1 ⟨hc, hhead⟩

/-- A text with a mark ends at it, and the reader finds what is left of the text. -/
theorem afterComment?_of_closes {cs : List Char} (h : ClosesComment cs) (rest : List Char) :
    ∃ left, afterComment? (cs ++ rest) = some (left ++ rest) := by
  induction cs with
  | nil => exact absurd h not_closesComment_nil
  | cons c cs ih =>
      rw [List.cons_append, afterComment?]
      rcases closesComment_cons.mp h with ⟨hc, hhead⟩ | hcs
      · obtain ⟨left, rfl⟩ := List.head?_eq_some_iff.mp hhead
        exact ⟨left, if_pos ⟨hc, rfl⟩⟩
      · split
        · cases cs with
          | nil => exact absurd hcs not_closesComment_nil
          | cons d ds => exact ⟨ds, rfl⟩
        · exact ih hcs

/-! ### Lines -/

/-- A mark does not reach over the end of a line, so it is in one of the lines. -/
theorem closesComment_linesFrom (current cs : List Char) :
    (∃ line ∈ Text.linesFrom current cs, ClosesComment line) ↔
      ClosesComment (current.reverse ++ cs) := by
  induction cs generalizing current with
  | nil =>
      rw [Text.linesFrom, List.append_nil]
      cases current with
      | nil => simp [not_closesComment_nil]
      | cons c cs => simp
  | cons c cs ih =>
      rw [Text.linesFrom]
      split
      · rename_i hc
        subst hc
        rw [closesComment_append_cons (by decide) (by decide)]
        simp only [List.mem_cons, exists_eq_or_imp, ih, List.reverse_nil, List.nil_append]
        refine or_congr_left ?_
        split
        · rename_i hreturn
          -- The carriage return that is dropped is in no mark either.
          obtain ⟨before, rfl⟩ := List.head?_eq_some_iff.mp hreturn
          rw [List.tail_cons, List.reverse_cons,
            closesComment_append_cons (by decide) (by decide) before.reverse []]
          exact (or_iff_left not_closesComment_nil).symm
        · rfl
      · rw [ih, List.reverse_cons, List.append_assoc, List.singleton_append]

theorem closesComment_lines (text : String) :
    (∃ line ∈ Text.lines text, ClosesComment line.toList) ↔ ClosesComment text.toList := by
  rw [← List.nil_append text.toList, ← List.reverse_nil, ← closesComment_linesFrom, Text.lines]
  simp only [List.mem_map, exists_exists_and_eq_and, String.toList_ofList]

/-! ### Blocks -/

/-- What stands between the marks of a block. -/
def commentBody (indent : String) (lines : List String) : List Char :=
  '\n' :: ((String.join (lines.map (commentLine indent))).toList ++ indent.toList)

/-- An indent is made of blanks. -/
def IsIndent (indent : String) : Prop := ∀ c ∈ indent.toList, c = ' '

variable {indent : String}

theorem closesComment_indent (h : IsIndent indent) (cs : List Char) :
    ClosesComment (indent.toList ++ cs) ↔ ClosesComment cs := by
  rw [IsIndent] at h
  generalize indent.toList = blanks at h
  induction blanks with
  | nil => rfl
  | cons c blanks ih =>
      rw [h c (.head _), List.cons_append, closesComment_blank]
      exact ih fun d hd => h d (.tail _ hd)

/-- A line of a block holds a mark if its text does: the star in front of it has a blank behind
it, and the line feed is no slash. -/
theorem closesComment_commentLine (h : IsIndent indent) (line : String) (rest : List Char) :
    ClosesComment ((commentLine indent line).toList ++ rest) ↔
      ClosesComment line.toList ∨ ClosesComment rest := by
  have hlist : (commentLine indent line).toList ++ rest =
      indent.toList ++ ' ' :: (['*'] ++ ' ' :: (line.toList ++ '\n' :: rest)) := by
    simp [commentLine]
  have hstar : ¬ ClosesComment ['*'] := by
    rw [closesComment_cons]
    simp [not_closesComment_nil]
  rw [hlist, closesComment_indent h, closesComment_blank,
    closesComment_append_cons (by decide) (by decide), or_iff_right hstar,
    closesComment_append_cons (by decide) (by decide)]

theorem closesComment_commentLines (h : IsIndent indent) (lines : List String)
    (rest : List Char) :
    ClosesComment ((String.join (lines.map (commentLine indent))).toList ++ rest) ↔
      (∃ line ∈ lines, ClosesComment line.toList) ∨ ClosesComment rest := by
  induction lines with
  | nil => simp
  | cons line lines ih =>
      rw [List.map_cons, String.join_cons, String.toList_append, List.append_assoc,
        closesComment_commentLine h, List.exists_mem_cons_iff, or_assoc]
      exact or_congr_right ih

/-- **The marks of a block are those of its lines.** -/
theorem closesComment_commentBody (h : IsIndent indent) (lines : List String) :
    ClosesComment (commentBody indent lines) ↔ ∃ line ∈ lines, ClosesComment line.toList := by
  have hindent : ¬ ClosesComment indent.toList := by
    rw [← List.append_nil indent.toList, closesComment_indent h]
    exact not_closesComment_nil
  rw [commentBody, ← List.nil_append ('\n' :: _),
    closesComment_append_cons (by decide) (by decide), or_iff_right not_closesComment_nil,
    closesComment_commentLines h, or_iff_left hindent]

/-- What a reader finds behind the first mark of a block. -/
theorem behindDoc?_commentBlock (h : IsIndent indent) (lines : List String) (rest : String) :
    behindDoc? (commentBlock indent lines ++ rest) =
      (afterComment? (commentBody indent lines ++ '*' :: '/' :: '\n' :: rest.toList)).map
        String.ofList := by
  have hlist : (commentBlock indent lines ++ rest).toList = indent.toList ++
      '/' :: '*' :: '*' :: (commentBody indent lines ++ '*' :: '/' :: '\n' :: rest.toList) := by
    simp [commentBlock, commentBody]
  rw [behindDoc?, hlist, List.dropWhile_append_of_pos fun c hc => by simp [h c hc]]
  rfl

theorem isComment_commentBlock_iff (h : IsIndent indent) (lines : List String) :
    IsComment (commentBlock indent lines) ↔ ∀ line ∈ lines, ¬ ClosesComment line.toList := by
  have hmarks := closesComment_commentBody h lines
  constructor
  · intro hblock line hline hcloses
    obtain ⟨left, hleft⟩ :=
      afterComment?_of_closes (hmarks.mpr ⟨line, hline, hcloses⟩) "*/\n".toList
    have hread := hblock ""
    rw [behindDoc?_commentBlock h] at hread
    change (afterComment? (commentBody indent lines ++ "*/\n".toList)).map String.ofList =
      some "\n" at hread
    -- The reader comes out of the comment in front of the closing line.
    rw [hleft, Option.map_some, Option.some.injEq] at hread
    have hlen := congrArg String.length hread
    rw [String.length_ofList, List.length_append] at hlen
    have hclose : "*/\n".toList.length = 3 := rfl
    have hfeed : "\n".length = 1 := rfl
    omega
  · intro hlines rest
    have hbody : ¬ ClosesComment (commentBody indent lines) := fun hc => by
      obtain ⟨line, hline, hcloses⟩ := hmarks.mp hc
      exact hlines line hline hcloses
    rw [behindDoc?_commentBlock h, afterComment?_of_not hbody, Option.map_some]
    simp

/-! ### Comments of tables and columns -/

theorem isIndent_empty : IsIndent "" := fun _ h => nomatch h

theorem isIndent_column : IsIndent "  " := by
  have hlist : "  ".toList = [' ', ' '] := rfl
  intro c hc
  rw [hlist, List.mem_pair] at hc
  exact hc.elim id id

/-- The lines of a comment hold a mark if the comment does. -/
theorem closesComment_commentLines? (comment : Option String) :
    (∃ line ∈ (commentLines? comment).getD [], ClosesComment line.toList) ↔ HoldsMark comment := by
  rw [commentLines?]
  constructor
  · rintro ⟨line, hline, hc⟩
    cases comment with
    | none => cases hline
    | some text =>
        refine ⟨text, rfl, ?_⟩
        by_cases htext : text = ""
        · rw [Option.filter_some_neg (by simp [htext])] at hline
          cases hline
        · rw [Option.filter_some_pos (by simp [htext])] at hline
          exact (closesComment_lines text).mp ⟨line, hline, hc⟩
  · rintro ⟨text, rfl, hc⟩
    have htext : text ≠ "" := by
      rintro rfl
      exact not_closesComment_nil hc
    rw [Option.filter_some_pos (by simp [htext])]
    exact (closesComment_lines text).mpr hc

/-- The line of a primary key holds no mark. -/
theorem closesComment_columnLines (c : Column) :
    (∃ line ∈ (commentLines? c.comment).getD [] ++ if c.isPrimaryKey then ["PRIMARY KEY"] else [],
      ClosesComment line.toList) ↔ HoldsMark c.comment := by
  have hkey : ¬ ClosesComment "PRIMARY KEY".toList := by
    rw [ClosesComment]
    decide
  rw [← closesComment_commentLines?]
  cases c.isPrimaryKey with
  | true => simp only [if_true, List.mem_append, List.mem_singleton, or_and_right, exists_or,
      exists_eq_left, or_iff_left hkey]
  | false => rw [if_neg Bool.false_ne_true, List.append_nil]

theorem commentBlock_ne_empty (lines : List String) : commentBlock indent lines ≠ "" := by
  intro h
  have hlen := congrArg String.length h
  rw [commentBlock, String.length_append] at hlen
  have hclose : "*/\n".length = 3 := rfl
  have hempty : "".length = 0 := rfl
  omega

/-- A block is a comment unless the comment that it is made of holds a mark. -/
theorem isComment_iff_of_lines (h : IsIndent indent) {lines : List String} {comment : Option String}
    (hlines : (∃ line ∈ lines, ClosesComment line.toList) ↔ HoldsMark comment) :
    (commentBlock indent lines ≠ "" → IsComment (commentBlock indent lines)) ↔
      ¬ HoldsMark comment := by
  rw [imp_iff_right (commentBlock_ne_empty lines), isComment_commentBlock_iff h, ← hlines]
  simp only [not_exists, not_and]

section Iff

variable {o : Options} (ho : o.comments = true)
include ho

theorem isComment_tableComment_iff (t : Table) :
    (tableComment o t ≠ "" → IsComment (tableComment o t)) ↔ ¬ HoldsMark t.comment := by
  have hlines := closesComment_commentLines? t.comment
  rw [tableComment]
  cases hcomment : commentLines? t.comment with
  | some lines =>
      rw [hcomment] at hlines
      dsimp only
      rw [if_pos ho]
      exact isComment_iff_of_lines isIndent_empty hlines
  | none =>
      rw [hcomment] at hlines
      exact iff_of_true (fun h => absurd rfl h) fun hmark => nomatch hlines.mpr hmark

theorem isComment_columnComment_iff (c : Column) :
    (columnComment o c ≠ "" → IsComment (columnComment o c)) ↔ ¬ HoldsMark c.comment := by
  have hlines := closesComment_columnLines c
  rw [columnComment]
  split
  · exact isComment_iff_of_lines isIndent_column hlines
  · rename_i hblock
    rw [ho, Bool.true_and, Bool.or_eq_true, not_or, Option.not_isSome_iff_eq_none] at hblock
    rw [hblock.1, if_neg hblock.2] at hlines
    exact iff_of_true (fun h => absurd rfl h) fun hmark => nomatch hlines.mpr hmark

/-- **Doc comments.**  The blocks of tables and columns are comments if and only if what they say
holds no closing mark.  What stands behind a block is what stands there without the comment. -/
theorem docComment_isComment_iff (r : Resolver) (role : Role) (t : Table) (c : Column) :
    ((tableComment o t ≠ "" → IsComment (tableComment o t)) ↔ ¬ HoldsMark t.comment) ∧
      ((columnComment o c ≠ "" → IsComment (columnComment o c)) ↔ ¬ HoldsMark c.comment) ∧
      declaration o r role t = tableComment o t ++ declaration o r role { t with comment := none } ∧
      memberBlock o r role c =
        columnComment o c ++ memberBlock { o with comments := false } r role c := by
  refine ⟨isComment_tableComment_iff ho t, isComment_columnComment_iff ho c, ?_, ?_⟩
  · have hnone : tableComment o { t with comment := none } = "" := rfl
    simp only [declaration, hnone, String.empty_append, String.append_assoc]
  · have hnone : columnComment { o with comments := false } c = "" := rfl
    rw [memberBlock, memberBlock, hnone, String.empty_append]
    rfl

omit ho in
/-- The halves of a mark on two lines do not make one. -/
theorem isComment_splitMark :
    tableComment { comments := true } { name := "users", comment := some "all *\r\n/ of them" } =
        "/**\n * all *\n * / of them\n*/\n" ∧
      IsComment "/**\n * all *\n * / of them\n*/\n" := by
  have htext : tableComment { comments := true }
      { name := "users", comment := some "all *\r\n/ of them" } =
        "/**\n * all *\n * / of them\n*/\n" := by decide +kernel
  refine ⟨htext, ?_⟩
  have hmark : ¬ HoldsMark (some "all *\r\n/ of them") := by
    rintro ⟨text, h, hc⟩
    obtain rfl := Option.some.inj h
    exact absurd hc (by rw [ClosesComment]; decide)
  have h := (docComment_isComment_iff (o := { comments := true }) rfl ⟨[]⟩ .row
    { name := "users", comment := some "all *\r\n/ of them" } {}).1.mpr hmark
  rw [htext] at h
  exact h (by decide)

end Iff

/-- A comment that holds a mark, and a table that is declared with it. -/
def globSchema : Schema where
  tables := [{ name := "users", comment := some "from src/*/users" }]

/-- The reader finds the end of the comment's text in the declaration. -/
theorem not_isComment_globSchema :
    (generate { comments := true } globSchema).source =
        "/**\n * from src/*/users\n*/\nexport interface User \x7b\x7d\n" ∧
      behindDoc? (generate { comments := true } globSchema).source =
        some "users\n*/\nexport interface User \x7b\x7d\n" ∧
      ∃ t ∈ globSchema.tables, tableComment { comments := true } t ≠ "" ∧
        ¬ IsComment (tableComment { comments := true } t) := by
  refine ⟨by decide +kernel, by decide +kernel, _, .head _, by decide +kernel, fun h => ?_⟩
  have hread := h ""
  revert hread
  decide +kernel

end RowTypes
