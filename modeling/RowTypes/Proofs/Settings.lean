import RowTypes.Command.Run
import RowTypes.Proofs.Layout
import RowTypes.Proofs.RoundTrips
import RowTypes.Proofs.Visibility

/-!
# Settings — where a setting is written does not matter

The options of a request come from its config file and from its switches.  There are three ways to
lay the one over the other: a flag is set if either sets it, the exclusions of the two are listed
behind one another, and a suffix or a header of the request takes the place of the file's.  A header
may also stand in a file of its own, which ends in as many line feeds as an editor puts there.

`Split` says how the settings of some options are divided in this way between the two, where the
config file may be any document that spells its part.  What is built from a split are the options
themselves, except that the exclusions may be listed otherwise (`buildOptions_eq_of_split`).

**Settings** (`generate_of_split`).  However the settings of some options are divided, the options
of the request are built, and from them every schema has the source and the counts that it has from
the options that were divided.
-/

namespace RowTypes.Command

/-! ### Texts on a disk -/

theorem readText_of_read {d : Disk} {p : Path} {text : String}
    (h : d.read p = .ok (Json.bytesOf text)) : d.readText p = .ok text := by
  have hdecode := Json.decode?_bytesOf text
  rw [Json.decode?] at hdecode
  simp only [Disk.readText, h, bind, Except.bind, hdecode]

def lineFeeds (count : Nat) : String := String.ofList (List.replicate count '\n')

/-- Line feeds behind a text are dropped, and none of its own. -/
theorem dropFinalNewlines_append {text : String} (h : ¬ EndsLine text) (count : Nat) :
    dropFinalNewlines (text ++ lineFeeds count) = text := by
  have htext : text.toList.reverse.dropWhile (· = '\n') = text.toList.reverse := by
    cases hcs : text.toList.reverse with
    | nil => rfl
    | cons c cs =>
        refine List.dropWhile_cons_of_neg fun hc => h ⟨String.ofList cs.reverse, ?_⟩
        rw [← String.toList_inj, ← List.reverse_inj, hcs, of_decide_eq_true hc]
        simp
  have hfeeds : ∀ c ∈ List.replicate count '\n', decide (c = '\n') = true := by
    intro c hc
    rw [List.eq_of_mem_replicate hc]
    rfl
  rw [dropFinalNewlines, lineFeeds, String.toList_append, String.toList_ofList,
    List.reverse_append, List.reverse_replicate, List.dropWhile_append_of_pos hfeeds, htext,
    List.reverse_reverse, String.ofList_toList]

/-! ### Splits -/

/-- The config file of a request spells these options, or there is none and they are the default. -/
inductive Configures (r : GenerateRequest) (d : Disk) : Options → Prop
  | absent (h : r.config = none) : Configures r d {}
  | file {p : Path} {text : String} {v : Json.Tree} {o : Options} (hpath : r.config = some p)
      (hread : d.read p = .ok (Json.bytesOf text))
      (htext : Json.LaidOut v.tokens (Json.bytesOf text)) (hspells : Json.Spells o.clauses v)
      (hkeys : Json.OnlyKeys Options.keys v) : Configures r d o

/-- A header stands in the config file, or in the request, or in a file that the request names,
which may end in line feeds.  In the last two cases the config file may have any header. -/
inductive Heads (r : GenerateRequest) (d : Disk) (file : Option String) : Option String → Prop
  | config (hheader : r.header = none) (hfile : r.headerFile = none) : Heads r d file file
  | switch {text : String} (h : r.header = some text) : Heads r d file (some text)
  | file {p : Path} {text : String} {count : Nat} (hheader : r.header = none)
      (hfile : r.headerFile = some p)
      (hread : d.read p = .ok (Json.bytesOf (text ++ lineFeeds count)))
      (htext : ¬ EndsLine text) : Heads r d file (some text)

/-- The settings of options, divided between a config file with the options `file` and the switches
of a request. -/
structure Split (o file : Options) (r : GenerateRequest) (d : Disk) : Prop where
  config : Configures r d file
  typeAlias : o.typeAlias = (file.typeAlias || r.typeAlias)
  semicolons : o.semicolons = (file.semicolons || r.semicolons)
  pascalEnums : o.pascalEnums = (file.pascalEnums || r.pascalEnums)
  optionals : o.optionals = (file.optionals || r.optionals)
  comments : o.comments = (file.comments || r.comments)
  insertTypes : o.insertTypes = (file.insertTypes || r.insertTypes)
  tableNames : o.tableNames = (file.tableNames || r.tableNames)
  suffix : r.suffix = some o.suffix ∨ r.suffix = none ∧ file.suffix = o.suffix
  exclude : ∀ name, name ∈ o.exclude ↔ name ∈ file.exclude ∨ name ∈ r.exclude
  header : Heads r d file.header o.header

variable {o file : Options} {r : GenerateRequest} {d : Disk}

theorem configOptions_eq (h : Configures r d file) : configOptions r d = .ok file := by
  cases h with
  | absent hnone => rw [configOptions, hnone]
  | file hpath hread htext hspells hkeys =>
      have hjson : Options.ofJson? _ = .ok file :=
        Json.read_of_readsValue (Options.reads hspells hkeys) .text htext
      simp only [configOptions, hpath, Options.ofFile, readText_of_read hread, hjson]
      rfl

theorem requestedHeader_eq {header header' : Option String} (h : Heads r d header header') :
    ∃ asked, requestedHeader r d = .ok asked ∧ (asked <|> header) = header' := by
  cases h with
  | config hheader hfile => exact ⟨none, by rw [requestedHeader, hheader, hfile], rfl⟩
  | switch hheader => exact ⟨_, by rw [requestedHeader, hheader], rfl⟩
  | file hheader hfile hread htext =>
      refine ⟨some _, ?_, rfl⟩
      rw [requestedHeader, hheader, hfile]
      simp only [readText_of_read hread, dropFinalNewlines_append htext]

theorem Split.overlaid_suffix (h : Split o file r d) : (overlaid file r).suffix = o.suffix := by
  rcases h.suffix with hsuffix | ⟨hnone, hfile⟩
  · rw [overlaid, hsuffix, Option.getD_some]
  · rw [overlaid, hnone, hfile, Option.getD_none]

/-- What is built from a split are its options, with the exclusions of the file and then those of
the request. -/
theorem buildOptions_eq_of_split (h : Split o file r d) :
    buildOptions r d = .ok { o with exclude := file.exclude ++ r.exclude } := by
  obtain ⟨asked, hasked, hheader⟩ := requestedHeader_eq h.header
  have hbuilt : { overlaid file r with header := asked <|> (overlaid file r).header } =
      { o with exclude := file.exclude ++ r.exclude } := by
    rw [Options.mk.injEq]
    exact ⟨h.typeAlias.symm, h.semicolons.symm, h.pascalEnums.symm, h.optionals.symm,
      h.comments.symm, h.insertTypes.symm, h.tableNames.symm, h.overlaid_suffix, rfl, hheader⟩
  simp only [buildOptions, configOptions_eq h.config, hasked, ← hbuilt]
  rfl

/-- **Settings.**  However the settings of options are divided between a config file and switches,
they are put together again: every schema is generated as from the options that were divided. -/
theorem generate_of_split (h : Split o file r d) :
    ∃ built, buildOptions r d = .ok built ∧ ∀ s, generate built s = generate o s := by
  refine ⟨_, buildOptions_eq_of_split h, generate_exclude fun name => ?_⟩
  rw [List.mem_append]
  exact h.exclude name

/-- Options with something in every place. -/
def divided : Options where
  semicolons := true
  comments := true
  insertTypes := true
  suffix := "Row"
  exclude := ["log", "audit"]
  header := some "// rows"

/-- The part of them in the config file, with a suffix and a header that are replaced. -/
def dividedFile : Options where
  semicolons := true
  comments := true
  suffix := "Old"
  exclude := ["audit"]
  header := some "// old"

def dividedRequest : GenerateRequest where
  snapshots := [⟨"shop.json"⟩]
  config := some ⟨"options.json"⟩
  semicolons := true
  insertTypes := true
  suffix := some "Row"
  exclude := ["log", "audit", "log"]
  headerFile := some ⟨"header.txt"⟩

def dividedDisk : Disk where
  current := []
  nodes :=
    [(["options.json"], .file (Json.bytesOf dividedFile.toJson.compact)),
      (["header.txt"], .file (Json.bytesOf ("// rows" ++ lineFeeds 2)))]

theorem not_endsLine_rows : ¬ EndsLine "// rows" := by
  rintro ⟨before, h⟩
  have hlast := congrArg (·.toList.getLast?) h
  simp at hlast

theorem generate_of_split_divided : Split divided dividedFile dividedRequest dividedDisk ∧
    ∃ built, buildOptions dividedRequest dividedDisk = .ok built ∧
      ∀ s, generate built s = generate divided s := by
  have hsplit : Split divided dividedFile dividedRequest dividedDisk :=
    { config := .file rfl rfl (Json.laidOut_compact _) dividedFile.spells_toJson
        dividedFile.onlyKeys_toJson
      typeAlias := rfl
      semicolons := rfl
      pascalEnums := rfl
      optionals := rfl
      comments := rfl
      insertTypes := rfl
      tableNames := rfl
      suffix := .inl rfl
      exclude := fun name => by
        simp only [divided, dividedFile, dividedRequest, List.mem_cons, List.not_mem_nil, or_false]
        tauto
      header := .file rfl rfl rfl not_endsLine_rows }
  exact ⟨hsplit, generate_of_split hsplit⟩

end RowTypes.Command
