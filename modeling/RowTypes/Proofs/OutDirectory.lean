import RowTypes.Proofs.Interleaving

/-!
# Out directory — which outputs a successful run keeps

With a directory for its outputs, `generate` names each output after its snapshot.  Snapshots of
one name in different places are siblings: they share an output, every one of them writes to it, and
the run succeeds all the same.

A snapshot's output is `Kept` when it holds, after the run, the source of the snapshot as it was
before the run.

**Siblings are kept if they agree** (`kept_siblings_iff`).  After a successful run, in whatever
order the jobs took turns, all siblings of a snapshot are kept if and only if they had one and the
same source to begin with.  So a snapshot without siblings is kept if it could be loaded before the
run, and of siblings with different sources one at least is lost.
-/

namespace RowTypes

theorem Json.bytesOf_injective : Function.Injective Json.bytesOf := by
  intro s t h
  rw [Json.bytesOf, Json.bytesOf, Array.toList_inj] at h
  exact String.toByteArray_inj.mp (ByteArray.ext h)

/-- A snapshot that loads is a file whose bytes describe a schema. -/
theorem Loader.loadFile_eq_ok {l : Loader} {d : Disk} {p : Path} {s : Schema} :
    l.loadFile d p = .ok s ↔
      ∃ bytes s₀, d.read p = .ok bytes ∧ Schema.ofJson? .stream bytes = .ok s₀ ∧
        l.finish s₀ = s := by
  rw [loadFile, Disk.read]
  cases d.openNode p with
  | error fault =>
      constructor
      · intro h
        cases h
      · rintro ⟨bytes, s₀, h, -⟩
        cases h
  | ok n =>
      cases n with
      | directory =>
          constructor
          · intro h
            cases h
          · rintro ⟨bytes, s₀, h, -⟩
            cases h
      | file bytes =>
          constructor
          · intro h
            dsimp only at h
            split at h
            · rename_i s₀ hs
              exact ⟨bytes, s₀, rfl, hs, Except.ok.inj h⟩
            · cases h
          · rintro ⟨bytes', s₀, hbytes, hs, rfl⟩
            cases hbytes
            dsimp only
            rw [hs]

/-- A job prepares what it generates from a snapshot that loads. -/
theorem Job.prepare_eq_ok {j : Job} {l : Loader} {d : Disk} {g : Generated} :
    j.prepare l d = .ok g ↔
      ∃ s, l.loadFile d j.snapshot = .ok s ∧ generate j.options s = g := by
  rw [prepare]
  cases l.loadFile d j.snapshot <;> simp [Except.map]

namespace Command

section

variable (r : GenerateRequest) (o : Options)

/-- The source that is generated for a snapshot as it is on a disk, if it loads. -/
def sourceOf? (d : Disk) (p : Path) : Option String :=
  ((Loader.of r.dialect).loadFile d p).toOption.map fun s => (generate o s).source

/-- The snapshots that share an output with a snapshot, which is one of them. -/
def siblings (p : Path) : List Path := r.snapshots.filter fun q => q.outputName = p.outputName

/-- The output of a snapshot holds, on the disk `d'` after a run, the source of the snapshot on
the disk `d` before it. -/
def Kept (directory : Path) (d d' : Disk) (p : Path) : Prop :=
  ∃ source, sourceOf? r o d p = some source ∧
    d'.read (directory.outputIn p) = .ok (Json.bytesOf source)

/-- A source that can be loaded as a snapshot itself gives the same source again. -/
def Echoes (source : String) : Prop :=
  ∀ s, Schema.ofJson? .stream (Json.bytesOf source) = .ok s →
    (generate o ((Loader.of r.dialect).finish s)).source = source

/-- A snapshot has no siblings; or those of them that have the name of the output themselves, and so
may be written to before they are read, give the same source when that happens. -/
def Undisturbed (d : Disk) (p : Path) : Prop :=
  siblings r p = [p] ∨ ∀ q ∈ siblings r p, q.fileName? = some p.outputName →
    ∀ source, sourceOf? r o d q = some source → Echoes r o source

variable {r o}

theorem sourceOf?_eq_some {d : Disk} {p : Path} {source : String} :
    sourceOf? r o d p = some source ↔
      ∃ s, (Loader.of r.dialect).loadFile d p = .ok s ∧ (generate o s).source = source := by
  rw [sourceOf?]
  cases (Loader.of r.dialect).loadFile d p <;> simp [Except.toOption]

theorem mem_siblings {p q : Path} :
    q ∈ siblings r p ↔ q ∈ r.snapshots ∧ q.outputName = p.outputName := by
  rw [siblings, List.mem_filter, decide_eq_true_eq]

/-! ### The jobs of a run into a directory -/

variable {directory : Path}

theorem jobs_eq (hdir : r.directory = some directory) :
    jobs r o = r.snapshots.map fun p => ⟨p, .file (directory.outputIn p), o⟩ := by
  rw [jobs]
  refine List.map_congr_left fun p _ => ?_
  rw [destinationOf, hdir]
  rfl

/-- Outputs of different names lie at different locations. -/
theorem apart_jobs (hdir : r.directory = some directory) : Batch.Apart (jobs r o) := by
  rw [jobs_eq hdir]
  intro j hj j' hj' path path' hpath hpath' hne d l hl hl'
  obtain ⟨p, -, rfl⟩ := List.mem_map.mp hj
  obtain ⟨p', -, rfl⟩ := List.mem_map.mp hj'
  cases hpath
  cases hpath'
  have h := Disk.getLast?_of_locate p.ordinary_outputName (directory.getLast?_outputIn p) hl
  have h' := Disk.getLast?_of_locate p'.ordinary_outputName (directory.getLast?_outputIn p') hl'
  rw [h, Option.some.injEq, String.ofList_inj] at h'
  exact hne (Path.inside_inj.mpr h')

theorem traced_jobs (hdir : r.directory = some directory) {w : World} {b : Batch} {l : Loader}
    (hturns : Batch.Turns l (.start (jobs r o) w) b) : Batch.Traced w.disk b :=
  (Batch.traced_start (jobs r o) w).turns hturns
    ((Batch.jobs_start (jobs r o) w).symm ▸ apart_jobs hdir)

/-- A snapshot that lies where the output of a snapshot goes is a sibling of it, and has the name
of the output. -/
theorem fileName?_of_locate {d d' : Disk} {p q : Path} {l : Disk.Location}
    {bytes : List UInt8} (hq : d.locate q = .ok l) (hfile : d.node? l = some (.file bytes))
    (hp : d'.locate (directory.outputIn p) = .ok l) :
    q.fileName? = some p.outputName ∧ q.outputName = p.outputName := by
  obtain ⟨name, hname, hlast⟩ := Disk.exists_name_of_file hq hfile
  have h := Disk.getLast?_of_locate hname hlast hq
  rw [Disk.getLast?_of_locate p.ordinary_outputName (directory.getLast?_outputIn p) hp,
    Option.some.injEq, String.ofList_inj] at h
  have hfileName : q.fileName? = some p.outputName := h ▸ Path.fileName?_of_getLast? hname hlast
  exact ⟨hfileName, Path.outputName_of_fileName? hfileName⟩

/-! ### Siblings of one source -/

/-- The jobs that have come to a source for a path have come to this one. -/
def Agreed (path : Path) (source : String) (b : Batch) : Prop :=
  ∀ t ∈ b.tasks, t.job.destination = .file path →
    ∀ g, (t.stage = .prepared (.ok g) ∨ t.stage = .finished (.ok g)) → g.source = source

theorem mem_jobs (hdir : r.directory = some directory) {j : Job} :
    j ∈ jobs r o ↔ ∃ q ∈ r.snapshots, ⟨q, .file (directory.outputIn q), o⟩ = j := by
  rw [jobs_eq hdir, List.mem_map]

theorem outputIn_inj {p q : Path} :
    directory.outputIn q = directory.outputIn p ↔ q.outputName = p.outputName :=
  Path.inside_inj

/-- A snapshot without siblings has one job. -/
theorem not_mem_of_alone (hdir : r.directory = some directory) {p : Path} {b : Batch}
    (hjobs : b.tasks.map (·.job) = jobs r o) (halone : siblings r p = [p]) {t t' : Task}
    {before after : List Task} (hb : b.tasks = before ++ t :: after)
    (ht : t.job.destination = .file (directory.outputIn p))
    (ht' : t'.job.destination = .file (directory.outputIn p)) : t' ∉ before ++ after := by
  have hcount : (b.tasks.map (·.job)).countP
      (fun j => j.destination = .file (directory.outputIn p)) = 1 := by
    rw [hjobs, jobs_eq hdir, List.countP_map]
    simp only [Function.comp_def, Destination.file.injEq, outputIn_inj]
    rw [List.countP_eq_length_filter, ← siblings, halone]
    rfl
  rw [List.countP_map, hb, List.countP_append,
    List.countP_cons_of_pos (by simpa using ht)] at hcount
  have hzero : (before ++ after).countP
      ((fun j => decide (j.destination = .file (directory.outputIn p))) ∘ (·.job)) = 0 := by
    rw [List.countP_append]
    omega
  exact fun hmem => List.countP_eq_zero.mp hzero t' hmem (by simpa using ht')

section Agreement

variable {d : Disk} {p : Path} {source : String} {b b' : Batch}
  (hdir : r.directory = some directory) (hp : Undisturbed r o d p)
  (hsame : ∀ q ∈ siblings r p, sourceOf? r o d q = some source)

include hdir hp hsame

/-- **What is read is what was there**, or a source that gives itself again. -/
theorem read_sibling (hjobs : b.tasks.map (·.job) = jobs r o) (htraced : Batch.Traced d b)
    (hagreed : Agreed (directory.outputIn p) source b) {before after : List Task} {q : Path}
    (hb : b.tasks = before ++ ⟨⟨q, .file (directory.outputIn q), o⟩, .waiting⟩ :: after)
    (hq : q ∈ siblings r p) {bytes bytes' : List UInt8} (hread : d.read q = .ok bytes)
    (hread' : b.world.disk.read q = .ok bytes') :
    bytes' = bytes ∨ (Echoes r o source ∧ bytes' = Json.bytesOf source) := by
  obtain ⟨l, hl, hfile⟩ := Disk.read_eq_ok.mp hread
  obtain ⟨l', hl', hfile'⟩ := Disk.read_eq_ok.mp hread'
  rw [htraced.keeps.locate hl, Except.ok.injEq] at hl'
  subst hl'
  rcases htraced.files l bytes hfile with hold | ⟨path, g, hwrote, hpath⟩
  · rw [hfile', Option.some.injEq, Disk.Node.file.injEq] at hold
    exact .inl hold
  -- A job has written where the snapshot lies, so that job is one of a sibling.
  · obtain ⟨t, ht, htpath, htstage⟩ := hwrote
    obtain ⟨q', -, hq'⟩ := (mem_jobs hdir).mp (hjobs ▸ List.mem_map_of_mem ht)
    obtain rfl : directory.outputIn q' = path := by rwa [← hq', Destination.file.injEq] at htpath
    obtain ⟨hqfile, hqname⟩ := fileName?_of_locate hl hfile hpath
    have hname := (mem_siblings.mp hq).2
    have hout : directory.outputIn q' = directory.outputIn p :=
      outputIn_inj.mpr (hqname.symm.trans hname)
    rw [hout] at htpath hpath
    rcases hp with halone | hecho
    -- The only job of a snapshot without siblings is the one that reads.
    · have hnot := not_mem_of_alone hdir hjobs halone hb
        (congrArg Destination.file (outputIn_inj.mpr hname)) htpath
      rcases Batch.mem_tasks.mp (hb ▸ ht) with ht | rfl
      · exact absurd ht hnot
      · cases htstage
    -- What siblings have written so far is the common source.
    · obtain ⟨g', ⟨t', ht', htpath', htstage'⟩, hwritten⟩ :=
        htraced.outputs _ g ⟨t, ht, htpath, htstage⟩
      obtain ⟨l', hl', hwritten⟩ := Disk.read_eq_ok.mp hwritten
      rw [hpath, Except.ok.injEq] at hl'
      rw [← hl', hfile', Option.some.injEq, Disk.Node.file.injEq,
        hagreed t' ht' htpath' g' (.inr htstage')] at hwritten
      refine .inr ⟨hecho q hq ?_ source (hsame q hq), hwritten⟩
      rw [hqfile, ← hname, hqname]

/-- A job that reads in the middle of a run comes to the same source. -/
theorem source_of_prepare (hjobs : b.tasks.map (·.job) = jobs r o) (htraced : Batch.Traced d b)
    (hagreed : Agreed (directory.outputIn p) source b) {before after : List Task} {j : Job}
    (hb : b.tasks = before ++ ⟨j, .waiting⟩ :: after)
    (hj : j.destination = .file (directory.outputIn p)) {g : Generated}
    (hg : j.prepare (.of r.dialect) b.world.disk = .ok g) : g.source = source := by
  have hmem : j ∈ jobs r o := by
    rw [← hjobs, hb]
    simp
  obtain ⟨q, hq, rfl⟩ := (mem_jobs hdir).mp hmem
  have hsibling : q ∈ siblings r p :=
    mem_siblings.mpr ⟨hq, outputIn_inj.mp (Destination.file.inj hj)⟩
  obtain ⟨_, hload, hsource⟩ := sourceOf?_eq_some.mp (hsame q hsibling)
  obtain ⟨_, hload', rfl⟩ := Job.prepare_eq_ok.mp hg
  obtain ⟨bytes, s, hread, hs, rfl⟩ := Loader.loadFile_eq_ok.mp hload
  obtain ⟨bytes', s', hread', hs', rfl⟩ := Loader.loadFile_eq_ok.mp hload'
  rcases read_sibling hdir hp hsame hjobs htraced hagreed hb hsibling hread hread' with
    rfl | ⟨hecho, rfl⟩
  · rw [hs, Except.ok.injEq] at hs'
    rw [← hs', hsource]
  · exact hecho s' hs'

/-- A turn keeps the agreement. -/
theorem Agreed.turn (hagreed : Agreed (directory.outputIn p) source b)
    (hturn : Batch.Turn (.of r.dialect) b b') (hjobs : b.tasks.map (·.job) = jobs r o)
    (htraced : Batch.Traced d b) : Agreed (directory.outputIn p) source b' := by
  intro t ht htpath g hg
  cases hturn with
  | prepare w before after j =>
      rcases Batch.mem_tasks.mp ht with ht | rfl
      · exact hagreed t (Batch.mem_tasks.mpr (.inl ht)) htpath g hg
      · rcases hg with hg | hg
        · exact source_of_prepare hdir hp hsame hjobs htraced hagreed rfl htpath
            (Stage.prepared.inj hg)
        · cases hg
  | deliver w before after j prepared =>
      rcases Batch.mem_tasks.mp ht with ht | rfl
      · exact hagreed t (Batch.mem_tasks.mpr (.inl ht)) htpath g hg
      · rcases hg with hg | hg
        · cases hg
        · have hresult := Stage.finished.inj hg
          rcases j.deliver_cases prepared w with ⟨-, hno⟩ | ⟨_, g', _, hprepared, hg', -⟩
          · exact absurd hresult (hno _ g htpath)
          · rw [hg', Except.ok.injEq] at hresult
            exact hagreed ⟨j, .prepared prepared⟩ (Batch.mem_tasks.mpr (.inr rfl)) htpath g
              (.inl (by rw [hprepared, hresult]))

/-- **Every run is in agreement.** -/
theorem agreed_turns {w : World} (hw : w.disk = d)
    (hturns : Batch.Turns (.of r.dialect) (.start (jobs r o) w) b) :
    Agreed (directory.outputIn p) source b := by
  induction hturns with
  | refl =>
      intro t ht _ g hg
      obtain ⟨j, -, rfl⟩ := List.mem_map.mp ht
      rcases hg with hg | hg <;> cases hg
  | tail hturns hturn ih =>
      have hjobs := (Batch.Turns.jobs hturns).trans (Batch.jobs_start (jobs r o) w)
      exact ih.turn hdir hp hsame hturn hjobs (hw ▸ traced_jobs hdir hturns)

end Agreement

/-- A run that succeeds has only jobs that do. -/
theorem exists_ok_of_verdict {reports : List Report} (h : verdict reports = .ok ()) :
    ∀ report ∈ reports, ∃ g, report.result = .ok g := by
  intro report hreport
  have hnil : reports.filterMap Report.error? = [] := by
    rw [verdict] at h
    split at h
    · assumption
    · cases h
  have hnone := List.filterMap_eq_nil_iff.mp hnil report hreport
  rw [Report.error?] at hnone
  split at hnone
  · exact ⟨_, ‹_›⟩
  · cases hnone

/-- The job of every snapshot of a successful run has written to its output. -/
theorem exists_wrote (hdir : r.directory = some directory) {w : World} {b : Batch}
    {reports : List Report} (hturns : Batch.Turns (.of r.dialect) (.start (jobs r o) w) b)
    (hended : b.Ended reports) (hverdict : verdict reports = .ok ()) {p : Path}
    (hp : p ∈ r.snapshots) : ∃ g, b.Wrote (directory.outputIn p) g := by
  have hjob : (⟨p, .file (directory.outputIn p), o⟩ : Job) ∈ b.tasks.map (·.job) := by
    rw [hturns.jobs, Batch.jobs_start, mem_jobs hdir]
    exact ⟨p, hp, rfl⟩
  obtain ⟨t, ht, htjob⟩ := List.mem_map.mp hjob
  obtain ⟨report, hreport, hstage⟩ := hended.exists_report ht
  obtain ⟨g, hg⟩ := exists_ok_of_verdict hverdict report hreport
  exact ⟨g, t, ht, by rw [htjob], hg ▸ hstage⟩

/-- **Siblings are kept if they agree.**  However the jobs of a successful run took turns, the
siblings of an undisturbed snapshot are all kept if and only if they had one source. -/
theorem kept_siblings_iff {r : GenerateRequest} {w w' : World} {directory : Path}
    (hdir : r.directory = some directory) (h : MayEnd r w w' (.ok ())) :
    ∃ o, buildOptions r w.disk = .ok o ∧
      ∀ p ∈ r.snapshots, Undisturbed r o w.disk p →
        ((∀ q ∈ siblings r p, Kept r o directory w.disk w'.disk q) ↔
          ∃ source, ∀ q ∈ siblings r p, sourceOf? r o w.disk q = some source) := by
  obtain ⟨o, b, reports, ho, hturns, hended, hverdict, rfl⟩ := h.exists_batch
  refine ⟨o, ho, fun p hpmem hp => ⟨fun hkept => ?_, fun ⟨source, hsame⟩ q hq => ?_⟩⟩
  -- All siblings are kept in one file, so they had the source that it holds.
  · obtain ⟨source, -, hread⟩ := hkept p (mem_siblings.mpr ⟨hpmem, rfl⟩)
    refine ⟨source, fun q hq => ?_⟩
    obtain ⟨source', hsource', hread'⟩ := hkept q hq
    rw [outputIn_inj.mpr (mem_siblings.mp hq).2, hread, Except.ok.injEq] at hread'
    rw [hsource', Json.bytesOf_injective hread']
  -- Whichever sibling wrote last, it wrote the common source.
  · have hagreed := agreed_turns hdir hp hsame rfl hturns
    obtain ⟨hqmem, hqname⟩ := mem_siblings.mp hq
    obtain ⟨g, hwrote⟩ := exists_wrote hdir hturns hended hverdict hqmem
    obtain ⟨g', ⟨t, ht, htpath, htstage⟩, hread⟩ :=
      (traced_jobs hdir hturns).outputs _ g hwrote
    rw [outputIn_inj.mpr hqname] at htpath
    exact ⟨source, hsame q hq, hagreed t ht htpath g' (.inr htstage) ▸ hread⟩

end

/-! ### Two snapshots of one name -/

/-- Two snapshots of one name, in directories of their own. -/
def twinDisk (a b : String) : Disk where
  current := []
  nodes :=
    [(["a"], .directory), (["a", "x.json"], .file (Json.bytesOf a)),
      (["b"], .directory), (["b", "x.json"], .file (Json.bytesOf b))]

def twinRequest : GenerateRequest where
  snapshots := [⟨"a/x.json"⟩, ⟨"b/x.json"⟩]
  directory := some ⟨"out"⟩

/-- A snapshot with one table. -/
def usersText : String := "\x7b\"tables\":[\x7b\"name\":\"users\"\x7d]\x7d"

/-- Two snapshots of one source are kept. -/
theorem kept_twins :
    ∃ w', MayEnd twinRequest { disk := twinDisk usersText usersText } w' (.ok ()) ∧
      ∀ q ∈ twinRequest.snapshots,
        Kept twinRequest {} ⟨"out"⟩ (twinDisk usersText usersText) w'.disk q := by
  have hrun := mayEnd_of_isOk (r := twinRequest) (w := { disk := twinDisk usersText usersText })
    (by decide +kernel)
  refine ⟨_, hrun, ?_⟩
  obtain ⟨o, ho, hiff⟩ := kept_siblings_iff rfl hrun
  obtain rfl : {} = o := Except.ok.inj ho
  have hnames : ∀ q ∈ siblings twinRequest ⟨"a/x.json"⟩,
      q.fileName? ≠ some (Path.outputName ⟨"a/x.json"⟩) := by decide +kernel
  have hall : siblings twinRequest ⟨"a/x.json"⟩ = twinRequest.snapshots := by decide +kernel
  rw [← hall]
  refine (hiff ⟨"a/x.json"⟩ (.head _) (.inr fun q hq hname => absurd hname (hnames q hq))).mpr
    ⟨"export interface User \x7b\x7d\n", ?_⟩
  decide +kernel

/-- Of two snapshots with different sources the first is lost. -/
theorem not_kept_twins :
    twinRequest.snapshots.Nodup ∧
      buildOptions twinRequest (twinDisk usersText "\x7b\x7d") = .ok {} ∧
      ∃ w', MayEnd twinRequest { disk := twinDisk usersText "\x7b\x7d" } w' (.ok ()) ∧
        ¬ ∀ p ∈ twinRequest.snapshots,
          Kept twinRequest {} ⟨"out"⟩ (twinDisk usersText "\x7b\x7d") w'.disk p := by
  refine ⟨by decide, rfl, _, mayEnd_of_isOk (by decide +kernel), ?_⟩
  intro hkept
  obtain ⟨source, hsource, hread⟩ := hkept ⟨"a/x.json"⟩ (.head _)
  have hfirst : sourceOf? twinRequest {} (twinDisk usersText "\x7b\x7d") ⟨"a/x.json"⟩ =
      some "export interface User \x7b\x7d\n" := by decide +kernel
  have hlast : ((runGenerate twinRequest { disk := twinDisk usersText "\x7b\x7d" }).1.disk.read
      (Path.outputIn ⟨"out"⟩ ⟨"a/x.json"⟩)).toOption = some [] := by decide +kernel
  rw [hread] at hlast
  cases Option.some.inj (hfirst.symm.trans hsource)
  exact absurd hlast (by decide +kernel)

end Command

end RowTypes
