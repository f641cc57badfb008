import Mathlib.Data.List.Nodup
import RowTypes.Options
import RowTypes.Proofs.Refusing
import RowTypes.Schema

/-!
# Spellings — the ways to write a snapshot

What an object has to say to describe a record, key by key: `Index.clauses`, `Column.clauses`,
`Table.clauses`, `Enum.clauses`, `Schema.clauses` and `Options.clauses`.  A key may be left out
where the record has the default there, except the names of columns, tables and enums.

**Every object that spells the clauses of a schema is read as that schema, and every object that
spells those of options, and says nothing else, as these options; an object with any other key is
refused as options** (`ofJson?_of_spells`).
-/

namespace RowTypes

open Json (Clause Spells Filling Fills ReadsValue)

variable {α σ : Type}

/-! ### Fields -/

section Fields

variable {name : String} {r : Json.Reader α} {put : α → σ → σ} {a d : α} {blank : σ}
  {describes : Json.Tree → Prop}

/-- A field that may be left out where it has the value `d` that it has in the blank record. -/
theorem sound_defaulted (hreads : ∀ v, describes v → ReadsValue r v a)
    (hblank : put d blank = blank) :
    Filling.Sound blank ⟨.defaulted name r put, ⟨name, a = d, describes⟩, put a⟩ where
  name := rfl
  required := fun _ => rfl
  reads := fun v hv ts hts => (hreads v hv ts hts).bind (.pure (put a))
  idle := fun h => h ▸ hblank

theorem sound_mandatory (hreads : ∀ v, describes v → ReadsValue r v a) :
    Filling.Sound blank ⟨.mandatory name r put, ⟨name, False, describes⟩, put a⟩ where
  name := rfl
  required := False.elim
  reads := fun v hv ts hts => (hreads v hv ts hts).bind (.pure (put a))
  idle := False.elim

theorem reads_of_eq {w : Json.Tree} (h : ReadsValue r w a) :
    ∀ v, v = w → ReadsValue r v a := by
  rintro v rfl
  exact h

end Fields

/-- A list whose elements describe other things, one by one. -/
def Lists (describes : α → Json.Tree → Prop) (as : List α) (v : Json.Tree) : Prop :=
  ∃ vs, v = .list vs ∧ List.Forall₂ describes as vs

theorem Lists.reads {describes : α → Json.Tree → Prop} {r : Json.Reader α} {as : List α}
    {v : Json.Tree} (h : Lists describes as v)
    (hreads : ∀ a v, describes a v → ReadsValue r v a) : ReadsValue (Json.list r) v as := by
  obtain ⟨vs, rfl, hvs⟩ := h
  exact Json.list_reads (hvs.flip.imp fun v a => hreads a v)

theorem texts_reads {ss : List String} {v : Json.Tree} (h : Lists (fun s v => v.Says s) ss v) :
    ReadsValue (Json.list Json.text) v ss :=
  h.reads fun _ _ => Json.text_reads

/-! ### Indices -/

namespace Index

def clauses (i : Index) : List Clause :=
  [⟨"name", i.name = none, (·.SaysOrNull i.name)⟩,
    ⟨"isPrimaryKey", i.isPrimaryKey = false, (· = .flag i.isPrimaryKey)⟩]

def fillings (i : Index) : List (Filling Index) :=
  List.zipWith3 Filling.mk shape.fields i.clauses
    [fun s => { s with name := i.name }, fun s => { s with isPrimaryKey := i.isPrimaryKey }]

theorem fills (i : Index) : Fills shape i.clauses i i.fillings where
  fields := rfl
  clauses := rfl
  sound := by
    simp only [fillings, List.zipWith3, shape, clauses, List.forall_mem_cons]
    exact ⟨sound_defaulted (fun v => Json.optional_text_reads) rfl,
      sound_defaulted (reads_of_eq (Json.flag_reads i.isPrimaryKey)) rfl, List.forall_mem_nil _⟩
  distinct := by
    change ["name", "isPrimaryKey"].Nodup
    decide
  commute := by
    simp [fillings, List.zipWith3, shape, clauses]
  complete := rfl

theorem reads (i : Index) (v : Json.Tree) (h : Spells i.clauses v) :
    ReadsValue (Json.record shape) v i :=
  Json.record_reads i.fills h nofun

end Index

/-! ### Columns -/

namespace Column

def clauses (c : Column) : List Clause :=
  [⟨"name", False, (·.Says c.name)⟩,
    ⟨"type", c.type = "", (·.Says c.type)⟩,
    ⟨"isNullable", c.isNullable = false, (· = .flag c.isNullable)⟩,
    ⟨"hasDefault", c.hasDefault = false, (· = .flag c.hasDefault)⟩,
    ⟨"comment", c.comment = none, (·.SaysOrNull c.comment)⟩,
    ⟨"indices", c.indices = [], Lists (fun i => Spells i.clauses) c.indices⟩]

def fillings (c : Column) : List (Filling Column) :=
  List.zipWith3 Filling.mk shape.fields c.clauses
    [fun s => { s with name := c.name }, fun s => { s with type := c.type },
      fun s => { s with isNullable := c.isNullable },
      fun s => { s with hasDefault := c.hasDefault },
      fun s => { s with comment := c.comment }, fun s => { s with indices := c.indices }]

theorem fills (c : Column) : Fills shape c.clauses c c.fillings where
  fields := rfl
  clauses := rfl
  sound := by
    simp only [fillings, List.zipWith3, shape, clauses, List.forall_mem_cons]
    exact ⟨sound_mandatory (fun v => Json.text_reads),
      sound_defaulted (fun v => Json.text_reads) rfl,
      sound_defaulted (reads_of_eq (Json.flag_reads c.isNullable)) rfl,
      sound_defaulted (reads_of_eq (Json.flag_reads c.hasDefault)) rfl,
      sound_defaulted (fun v => Json.optional_text_reads) rfl,
      sound_defaulted (fun v h => h.reads Index.reads) rfl, List.forall_mem_nil _⟩
  distinct := by
    change ["name", "type", "isNullable", "hasDefault", "comment", "indices"].Nodup
    decide
  commute := by
    simp [fillings, List.zipWith3, shape, clauses]
  complete := rfl

theorem reads (c : Column) (v : Json.Tree) (h : Spells c.clauses v) :
    ReadsValue (Json.record shape) v c :=
  Json.record_reads c.fills h nofun

end Column

/-! ### Tables -/

namespace Table

def clauses (t : Table) : List Clause :=
  [⟨"name", False, (·.Says t.name)⟩,
    ⟨"columns", t.columns = [], Lists (fun c => Spells c.clauses) t.columns⟩,
    ⟨"comment", t.comment = none, (·.SaysOrNull t.comment)⟩,
    ⟨"isView", t.isView = false, (· = .flag t.isView)⟩]

def fillings (t : Table) : List (Filling Table) :=
  List.zipWith3 Filling.mk shape.fields t.clauses
    [fun s => { s with name := t.name }, fun s => { s with columns := t.columns },
      fun s => { s with comment := t.comment }, fun s => { s with isView := t.isView }]

theorem fills (t : Table) : Fills shape t.clauses t t.fillings where
  fields := rfl
  clauses := rfl
  sound := by
    simp only [fillings, List.zipWith3, shape, clauses, List.forall_mem_cons]
    exact ⟨sound_mandatory (fun v => Json.text_reads),
      sound_defaulted (fun v h => h.reads Column.reads) rfl,
      sound_defaulted (fun v => Json.optional_text_reads) rfl,
      sound_defaulted (reads_of_eq (Json.flag_reads t.isView)) rfl, List.forall_mem_nil _⟩
  distinct := by
    change ["name", "columns", "comment", "isView"].Nodup
    decide
  commute := by
    simp [fillings, List.zipWith3, shape, clauses]
  complete := rfl

theorem reads (t : Table) (v : Json.Tree) (h : Spells t.clauses v) :
    ReadsValue (Json.record shape) v t :=
  Json.record_reads t.fills h nofun

end Table

/-! ### Enums -/

namespace Enum

def clauses (e : Enum) : List Clause :=
  [⟨"name", False, (·.Says e.name)⟩,
    ⟨"values", e.values = [], (Lists (fun s v => v.Says s) e.values)⟩]

def fillings (e : Enum) : List (Filling Enum) :=
  List.zipWith3 Filling.mk shape.fields e.clauses
    [fun s => { s with name := e.name }, fun s => { s with values := e.values }]

theorem fills (e : Enum) : Fills shape e.clauses e e.fillings where
  fields := rfl
  clauses := rfl
  sound := by
    simp only [fillings, List.zipWith3, shape, clauses, List.forall_mem_cons]
    exact ⟨sound_mandatory (fun v => Json.text_reads),
      sound_defaulted (fun v => texts_reads) rfl, List.forall_mem_nil _⟩
  distinct := by
    change ["name", "values"].Nodup
    decide
  commute := by
    simp [fillings, List.zipWith3, shape, clauses]
  complete := rfl

theorem reads (e : Enum) (v : Json.Tree) (h : Spells e.clauses v) :
    ReadsValue (Json.record shape) v e :=
  Json.record_reads e.fills h nofun

end Enum

/-! ### Mappings -/

namespace Mapping

theorem alterEntry_of_not_mem {target : String} {f : List String → List String}
    {es : List (String × List String)} (h : target ∉ es.map (·.1)) :
    alterEntry target f es = es ++ [(target, f [])] := by
  induction es with
  | nil => rfl
  | cons e es ih =>
      obtain ⟨he, hes⟩ := not_or.mp (mt List.mem_cons.mpr h)
      rw [alterEntry, if_neg (Ne.symm he), ih hes, List.cons_append]

theorem entries_foldl_replace {es : List (String × List String)} {m : Mapping}
    (h : (m.entries ++ es).map (·.1) |>.Nodup) :
    (es.foldl (fun m e => m.replace e.1 e.2) m).entries = m.entries ++ es := by
  induction es generalizing m with
  | nil => rw [List.foldl_nil, List.append_nil]
  | cons e es ih =>
      have hnew : (m.replace e.1 e.2).entries = m.entries ++ [e] := by
        rw [List.map_append, List.map_cons, List.nodup_middle, List.nodup_cons] at h
        exact alterEntry_of_not_mem fun he => h.1 (List.mem_append_left _ he)
      rw [List.foldl_cons, ih (by rwa [hnew, List.append_assoc]), hnew, List.append_assoc]
      rfl

/-- The entries come back in their order. -/
theorem ofMembers_entries (m : Mapping) : ofMembers m.entries = m :=
  Mapping.ext (entries_foldl_replace (m := empty) m.distinct)

/-- A member with a list of texts as its value. -/
def IsEntry (e : String × List String) (m : Json.Member) : Prop :=
  m.key = e.1 ∧ Lists (fun s v => v.Says s) e.2 m.value

/-- An object whose members say the entries.  Nothing keeps it from repeating a key. -/
def Listed (entries : List (String × List String)) (v : Json.Tree) : Prop :=
  ∃ ms, v = .ofMembers ms ∧ List.Forall₂ IsEntry entries ms

theorem reads_of_listed {entries : List (String × List String)} {v : Json.Tree}
    (h : Listed entries v) : ReadsValue reader v (ofMembers entries) := by
  obtain ⟨ms, rfl, hms⟩ := h
  have hentries : List.Forall₂ (Json.ReadsEntry (Json.list Json.text)) ms entries :=
    hms.flip.imp fun m e h => ⟨h.1, texts_reads h.2⟩
  exact fun ts hts => (Json.object_reads hentries ts hts).bind (.pure (ofMembers entries))

theorem reads (m : Mapping) {v : Json.Tree} (h : Listed m.entries v) :
    ReadsValue reader v m := by
  have hentries := reads_of_listed h
  rwa [ofMembers_entries] at hentries

end Mapping

/-! ### Schemas -/

namespace Schema

def clauses (s : Schema) : List Clause :=
  [⟨"tables", s.tables = [], Lists (fun t => Spells t.clauses) s.tables⟩,
    ⟨"enums", s.enums = [], Lists (fun e => Spells e.clauses) s.enums⟩,
    ⟨"typeMapping", s.mapping = .empty, Mapping.Listed s.mapping.entries⟩]

def fillings (s : Schema) : List (Filling Schema) :=
  List.zipWith3 Filling.mk shape.fields s.clauses
    [fun x => { x with tables := s.tables }, fun x => { x with enums := s.enums },
      fun x => { x with mapping := s.mapping }]

theorem fills (s : Schema) : Fills shape s.clauses s s.fillings where
  fields := rfl
  clauses := rfl
  sound := by
    simp only [fillings, List.zipWith3, shape, clauses, List.forall_mem_cons]
    exact ⟨sound_defaulted (fun v h => h.reads Table.reads) rfl,
      sound_defaulted (fun v h => h.reads Enum.reads) rfl,
      sound_defaulted (fun v => s.mapping.reads) rfl, List.forall_mem_nil _⟩
  distinct := by
    change ["tables", "enums", "typeMapping"].Nodup
    decide
  commute := by
    simp [fillings, List.zipWith3, shape, clauses]
  complete := rfl

theorem reads (s : Schema) (v : Json.Tree) (h : Spells s.clauses v) :
    ReadsValue (Json.record shape) v s :=
  Json.record_reads s.fills h nofun

end Schema

/-! ### Options -/

namespace Options

/-- The keys of an options file. -/
def keys : List String :=
  ["type", "semicolons", "pascalEnums", "optionals", "comments", "insertTypes", "tableNames",
    "suffix", "exclude", "header"]

def clauses (o : Options) : List Clause :=
  [⟨"type", o.typeAlias = false, (· = .flag o.typeAlias)⟩,
    ⟨"semicolons", o.semicolons = false, (· = .flag o.semicolons)⟩,
    ⟨"pascalEnums", o.pascalEnums = false, (· = .flag o.pascalEnums)⟩,
    ⟨"optionals", o.optionals = false, (· = .flag o.optionals)⟩,
    ⟨"comments", o.comments = false, (· = .flag o.comments)⟩,
    ⟨"insertTypes", o.insertTypes = false, (· = .flag o.insertTypes)⟩,
    ⟨"tableNames", o.tableNames = false, (· = .flag o.tableNames)⟩,
    ⟨"suffix", o.suffix = "", (·.Says o.suffix)⟩,
    ⟨"exclude", o.exclude = [], (Lists (fun s v => v.Says s) o.exclude)⟩,
    ⟨"header", o.header = none, (·.SaysOrNull o.header)⟩]

def fillings (o : Options) : List (Filling Options) :=
  List.zipWith3 Filling.mk shape.fields o.clauses
    [fun s => { s with typeAlias := o.typeAlias }, fun s => { s with semicolons := o.semicolons },
      fun s => { s with pascalEnums := o.pascalEnums },
      fun s => { s with optionals := o.optionals }, fun s => { s with comments := o.comments },
      fun s => { s with insertTypes := o.insertTypes },
      fun s => { s with tableNames := o.tableNames }, fun s => { s with suffix := o.suffix },
      fun s => { s with exclude := o.exclude }, fun s => { s with header := o.header }]

theorem fills (o : Options) : Fills shape o.clauses o o.fillings where
  fields := rfl
  clauses := rfl
  sound := by
    simp only [fillings, List.zipWith3, shape, clauses, List.forall_mem_cons]
    exact ⟨sound_defaulted (reads_of_eq (Json.flag_reads o.typeAlias)) rfl,
      sound_defaulted (reads_of_eq (Json.flag_reads o.semicolons)) rfl,
      sound_defaulted (reads_of_eq (Json.flag_reads o.pascalEnums)) rfl,
      sound_defaulted (reads_of_eq (Json.flag_reads o.optionals)) rfl,
      sound_defaulted (reads_of_eq (Json.flag_reads o.comments)) rfl,
      sound_defaulted (reads_of_eq (Json.flag_reads o.insertTypes)) rfl,
      sound_defaulted (reads_of_eq (Json.flag_reads o.tableNames)) rfl,
      sound_defaulted (fun v => Json.text_reads) rfl,
      sound_defaulted (fun v => texts_reads) rfl,
      sound_defaulted (fun v => Json.optional_text_reads) rfl,
      List.forall_mem_nil _⟩
  distinct := by
    change keys.Nodup
    decide
  commute := by
    simp [fillings, List.zipWith3, shape, clauses]
  complete := rfl

theorem reads {o : Options} {v : Json.Tree} (h : Spells o.clauses v)
    (hkeys : Json.OnlyKeys keys v) : ReadsValue (Json.record shape) v o :=
  Json.record_reads o.fills h fun _ => hkeys

theorem strict_shape : shape.Strict where
  closed := rfl
  leaves := by
    have hflag {put : Bool → Options → Options} {name : String} (v : Json.Tree) :
        Json.LeavesValue (Json.Field.defaulted name Json.flag put).read v :=
      Json.Field.defaulted_leaves Json.flag_leaves v
    simp only [shape, List.forall_mem_cons]
    exact ⟨hflag, hflag, hflag, hflag, hflag, hflag, hflag,
      Json.Field.defaulted_leaves Json.text_leaves,
      Json.Field.defaulted_leaves (Json.list_leaves Json.text_leaves),
      Json.Field.defaulted_leaves Json.optional_text_leaves, List.forall_mem_nil _⟩

end Options

/-! ### Documents -/

/-- **Every spelling is read as what it describes.**  It may lie in the document with any blanks,
and its numbers and strings may be spelled in any way.  Unknown keys are passed over in a schema
with whatever stands under them, and refused in options whatever else stands there. -/
theorem ofJson?_of_spells :
    (∀ (s : Schema) (v : Json.Tree) (source : Json.Source) (bytes : List UInt8),
      Spells s.clauses v → Json.LaidOut v.tokens bytes →
        Schema.ofJson? source bytes = .ok s) ∧
    (∀ (o : Options) (v : Json.Tree) (text : String),
      Spells o.clauses v → Json.OnlyKeys Options.keys v →
        Json.LaidOut v.tokens (Json.bytesOf text) → Options.ofJson? text = .ok o) ∧
    ∀ (ms : List (Json.Quoted × Json.Tree)) (text : String),
      (∃ m ∈ ms, ¬ m.1.IsKnown Options.keys) →
        Json.LaidOut (Json.Tree.object ms).tokens (Json.bytesOf text) →
          ∃ complaint, Options.ofJson? text = .error complaint := by
  refine ⟨fun s v source bytes hv hbytes => ?schema, fun o v text hv hkeys htext => ?options,
    fun ms text hms htext => ?unknown⟩
  case schema => exact Json.read_of_readsValue (s.reads v hv) source hbytes
  case options => exact Json.read_of_readsValue (Options.reads hv hkeys) .text htext
  case unknown =>
    have hfails : Json.Fails (Json.At [] ((Json.Tree.object ms).tokens ++ []))
        (Json.record Options.shape) := Json.record_fails Options.strict_shape hms
    rw [List.append_nil] at hfails
    exact Json.read_of_fails hfails .text htext

section Example

/-- A schema with something in every record. -/
def visits : Schema where
  tables :=
    [{ name := "visits"
       columns := [{ name := "mood", type := "mood", isNullable := true, indices := [{}] }] }]
  enums := [{ name := "mood", values := ["a/b", "😀"] }]
  mapping := { entries := [("string", ["text"]), ("number", ["int4"])] }

/-- Its keys in another order and without most of the defaults, with keys that mean nothing, with
numbers of every form, and with strings that are not spelled as they would be written. -/
def visitsText : String :=
  "\x7b\"version\":1.50,\"typeMapping\":\x7b\"string\":[\"text\"],\"number\":[\"int4\"]\x7d," ++
    "\"version\":[null,-0,2E+7,\"\\ud800\"]," ++
    "\"enums\":[\x7b\"values\":[\"a\\/b\",\"\\uD83d\\ude00\"],\"name\":\"mood\"\x7d]," ++
    "\"\\u0074ables\":[\x7b\"is_view\":true,\"columns\":[" ++
    "\x7b\"indices\":[\x7b\"is_primary_key\":true\x7d],\"isNullable\":true," ++
    "\"type\":\"mood\",\"type_name\":3e-2,\"comment\":null,\"name\":\"mood\"\x7d]," ++
    "\"name\":\"visits\"\x7d]\x7d"

def plainText (s : String) : Json.Tree := .text (.of s)

/-- `\u0074` -/
def smallT : Json.CodeUnit := ⟨.of 0, .of 0, .of 7, .of 4⟩

/-- `\uD83d`, the first half of a pair -/
def grinningFirst : Json.CodeUnit := ⟨.of 0xD true, .of 8, .of 3, .of 0xD⟩

/-- `\ude00`, the other half -/
def grinningSecond : Json.CodeUnit := ⟨.of 0xD, .of 0xE, .of 0, .of 0⟩

/-- `\ud800`, a half that stands alone -/
def loneHalf : Json.CodeUnit := ⟨.of 0xD, .of 8, .of 0, .of 0⟩

def visitsNumbers : Json.Tree :=
  .list
    [.null, .number { negative := true, whole := ⟨0, []⟩ },
      .number { whole := ⟨2, []⟩, exponent := some ⟨true, .plus, ⟨7, []⟩⟩ },
      .text [.unit loneHalf]]

def visitsColumn : Json.Tree :=
  .ofMembers
    [.of "indices" (.list [.ofMembers [.of "is_primary_key" (.flag true)]]),
      .of "isNullable" (.flag true), .of "type" (plainText "mood"),
      .of "type_name" (.number { whole := ⟨3, []⟩, exponent := some ⟨false, .minus, ⟨2, []⟩⟩ }),
      .of "comment" .null, .of "name" (plainText "mood")]

def visitsTable : Json.Tree :=
  .ofMembers
    [.of "is_view" (.flag true), .of "columns" (.list [visitsColumn]),
      .of "name" (plainText "visits")]

def visitsEnum : Json.Tree :=
  .ofMembers
    [.of "values" (.list
        [.text (Json.Quoted.of "a" ++ .short .slash :: Json.Quoted.of "b"),
          .text [.unit grinningFirst, .unit grinningSecond]]),
      .of "name" (plainText "mood")]

def visitsMapping : Json.Tree :=
  .ofMembers
    [.of "string" (.list [plainText "text"]), .of "number" (.list [plainText "int4"])]

def visitsMembers : List Json.Member :=
  [.of "version" (.number { whole := ⟨1, []⟩, fraction := some ⟨5, [0]⟩ }),
    .of "typeMapping" visitsMapping, .of "version" visitsNumbers,
    .of "enums" (.list [visitsEnum]),
    ⟨"tables", .unit smallT :: Json.Quoted.of "ables", by decide, .list [visitsTable]⟩]

theorem laidOut_visitsText :
    Json.LaidOut (Json.Tree.ofMembers visitsMembers).tokens (Json.bytesOf visitsText) := by
  have hbytes : Json.bytesOf visitsText = (Json.Tree.ofMembers visitsMembers).tokens.flatten := by
    decide +kernel
  rw [hbytes]
  exact Json.laidOut_flatten _

theorem says_plainText (s : String) : (plainText s).Says s := Json.says_of s

theorem spells_visitsColumn :
    Spells (Column.clauses
      { name := "mood", type := "mood", isNullable := true, indices := [{}] }) visitsColumn := by
  have hindex : Spells (Index.clauses {}) (.ofMembers [.of "is_primary_key" (.flag true)]) :=
    ⟨_, rfl, by simp [Index.clauses, Clause.MetBy]⟩
  refine ⟨_, rfl, ?_⟩
  simp [Column.clauses, Clause.MetBy, says_plainText, Lists, hindex,
    Json.Tree.SaysOrNull]

theorem spells_visitsEnum :
    Spells (Enum.clauses { name := "mood", values := ["a/b", "😀"] }) visitsEnum := by
  refine ⟨_, rfl, ?_⟩
  have hslash : (Json.Tree.text
      (Json.Quoted.of "a" ++ .short .slash :: Json.Quoted.of "b")).Says "a/b" :=
    ⟨_, rfl, by decide⟩
  have hface : (Json.Tree.text [.unit grinningFirst, .unit grinningSecond]).Says "😀" :=
    ⟨_, rfl, by decide⟩
  simp [Enum.clauses, Clause.MetBy, says_plainText, Lists, hslash, hface]

theorem listed_visitsMapping : Mapping.Listed visits.mapping.entries visitsMapping := by
  refine ⟨_, rfl, ?_⟩
  simp [visits, Mapping.IsEntry, says_plainText, Lists]

theorem spells_visitsMembers : Spells visits.clauses (.ofMembers visitsMembers) := by
  have htable : Spells (Table.clauses (visits.tables.headD {})) visitsTable := by
    refine ⟨_, rfl, ?_⟩
    simp [visits, Table.clauses, Clause.MetBy, says_plainText, Lists,
      spells_visitsColumn]
  refine ⟨_, rfl, ?_⟩
  simp [Schema.clauses, visitsMembers, Clause.MetBy, Lists]
  exact ⟨.cons htable .nil, .cons spells_visitsEnum .nil, listed_visitsMapping⟩

def dashed : Options := { typeAlias := true, exclude := ["log"], header := some "// \"ok\"" }

/-- Options, and what is written behind them. -/
def dashedText (behind : String) : String :=
  "\x7b\"header\":\"/\\/ \\\"ok\\\"\",\"exclude\":[\"log\"],\"suffix\":\"\",\"\\u0074ype\":true" ++
    behind ++ "\x7d"

def dashedMembers : List Json.Member :=
  [.of "header" (.text (Json.Quoted.of "/" ++ .short .slash :: Json.Quoted.of " \"ok\"")),
    .of "exclude" (.list [plainText "log"]), .of "suffix" (plainText ""),
    ⟨"type", .unit smallT :: Json.Quoted.of "ype", by decide, .flag true⟩]

theorem spells_dashedMembers : Spells dashed.clauses (.ofMembers dashedMembers) := by
  have hheader : (Json.Tree.text
      (Json.Quoted.of "/" ++ .short .slash :: Json.Quoted.of " \"ok\"")).Says "// \"ok\"" :=
    ⟨_, rfl, by decide⟩
  refine ⟨_, rfl, ?_⟩
  simp [dashed, dashedMembers, Options.clauses, Clause.MetBy, Lists, says_plainText,
    Json.Tree.SaysOrNull, hheader]

theorem onlyKeys_dashedMembers :
    Json.OnlyKeys Options.keys (.ofMembers dashedMembers) := by
  refine Json.onlyKeys_ofMembers ?_
  simp [dashedMembers, Options.keys]

/-- The schema and the options are read, and with a key of tables the options are refused. -/
theorem ofJson?_visitsSpelling :
    Schema.ofJson? .stream (Json.bytesOf visitsText) = .ok visits ∧
      Options.ofJson? (dashedText "") = .ok dashed ∧
      ∃ complaint, Options.ofJson? (dashedText ",\"isView\":1e9") = .error complaint := by
  obtain ⟨hschema, hoptions, hunknown⟩ := ofJson?_of_spells
  refine ⟨hschema visits _ .stream _ spells_visitsMembers laidOut_visitsText,
    hoptions dashed _ _ spells_dashedMembers onlyKeys_dashedMembers ?_, ?_⟩
  · have hbytes : Json.bytesOf (dashedText "") =
        (Json.Tree.ofMembers dashedMembers).tokens.flatten := by decide +kernel
    rw [hbytes]
    exact Json.laidOut_flatten _
  · let isView : Json.Quoted × Json.Tree :=
      (.of "isView", .number { whole := ⟨1, []⟩, exponent := some ⟨false, .none, ⟨9, []⟩⟩ })
    refine hunknown (dashedMembers.map Json.Member.pair ++ [isView]) _ ⟨isView, by simp, ?_⟩ ?_
    · rintro ⟨k, hk, htext⟩
      rw [Json.Quoted.text?_of] at htext
      obtain rfl := Option.some.inj htext
      exact absurd hk (by decide)
    · have hbytes : Json.bytesOf (dashedText ",\"isView\":1e9") =
          (Json.Tree.object (dashedMembers.map Json.Member.pair ++ [isView])).tokens.flatten := by
        decide +kernel
      rw [hbytes]
      exact Json.laidOut_flatten _

end Example

end RowTypes
