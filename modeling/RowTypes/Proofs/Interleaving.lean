import Mathlib.Logic.Relation
import Mathlib.Tactic.Tauto
import RowTypes.Command.Run
import RowTypes.Proofs.DiskChanges

/-!
# Interleaving — jobs that take turns

The jobs of a batch run in parallel.  A job has two steps, reading and writing, and the steps of
different jobs may come in any order: a `Turn` is one step of one job, and a run of the batch is any
sequence of turns that ends with every job finished.

Running the jobs one after another is one such run (`turns_runBatch`), so what holds after every
run holds after that one (`Command.runGenerate_mayEnd`).

What a run leaves behind comes from its finished jobs (`Batch.Traced`): a file that was there is as
it was, or a job has written to its location, and a file that jobs have written to holds the source
of one of them.  Every turn keeps this (`Traced.turns`), if the paths that are written to lead to
different locations.
-/

namespace RowTypes

/-- How far a job has come. -/
inductive Stage where
  | waiting
  | prepared (source : Except Error Generated)
  | finished (result : Except Error Generated)

/-- **What a delivery does.**  It writes the source that was prepared to the job's file, or it adds
directories at most and the job has not written to a file. -/
theorem Job.deliver_cases (j : Job) (source : Except Error Generated) (w : World) :
    (w.disk.AddsDirectories (j.deliver source w).1.disk ∧
        ∀ path g, j.destination = .file path → (j.deliver source w).2 ≠ .ok g) ∨
      ∃ path g, j.destination = .file path ∧ source = .ok g ∧ (j.deliver source w).2 = .ok g ∧
        ∃ d l, w.disk.AddsDirectories d ∧ d.locate path = .ok l ∧ d.Free l ∧
          (j.deliver source w).1.disk = d.put l (.file (Json.bytesOf g.source)) := by
  obtain ⟨snapshot, destination, o⟩ := j
  cases source with
  | error e => exact .inl ⟨.refl _, fun _ _ _ h => (nomatch h)⟩
  | ok g =>
      cases destination with
      | stdout => exact .inl ⟨.refl _, fun _ _ h => (nomatch h)⟩
      | file path =>
          simp only [Job.deliver, Destination.write]
          rcases writeFile_cases w.disk path g.source with ⟨e, d, h, hadds⟩ | ⟨d, l, h, hd⟩
          · rw [h]
            exact .inl ⟨hadds, fun _ _ _ h => (nomatch h)⟩
          · rw [h]
            exact .inr ⟨path, g, rfl, rfl, rfl, d, l, hd.1, hd.2.1, hd.2.2, rfl⟩

structure Task where
  job : Job
  stage : Stage := .waiting

/-- A batch in the middle of a run. -/
structure Batch where
  world : World
  tasks : List Task

namespace Batch

/-- No job has begun. -/
def start (jobs : List Job) (w : World) : Batch := ⟨w, jobs.map fun j => { job := j }⟩

/-- One step of one job. -/
inductive Turn (l : Loader) : Batch → Batch → Prop
  | prepare (w : World) (before after : List Task) (j : Job) :
      Turn l ⟨w, before ++ ⟨j, .waiting⟩ :: after⟩
        ⟨w, before ++ ⟨j, .prepared (j.prepare l w.disk)⟩ :: after⟩
  | deliver (w : World) (before after : List Task) (j : Job) (source : Except Error Generated) :
      Turn l ⟨w, before ++ ⟨j, .prepared source⟩ :: after⟩
        ⟨(j.deliver source w).1, before ++ ⟨j, .finished (j.deliver source w).2⟩ :: after⟩

abbrev Turns (l : Loader) : Batch → Batch → Prop := Relation.ReflTransGen (Turn l)

/-- Every job has finished, and these are the reports on them. -/
def Ended (b : Batch) (reports : List Report) : Prop :=
  b.tasks.map (fun t => (t.job.snapshot, t.job.destination, t.stage)) =
    reports.map fun r => (r.snapshot, r.destination, .finished r.result)

@[simp] theorem jobs_start (jobs : List Job) (w : World) :
    (start jobs w).tasks.map (·.job) = jobs := by
  simp [start, Function.comp_def]

variable {l : Loader} {b b' : Batch}

theorem Ended.exists_report {reports : List Report} (h : b.Ended reports) {t : Task}
    (ht : t ∈ b.tasks) : ∃ report ∈ reports, t.stage = .finished report.result := by
  have hmem := List.mem_map_of_mem
    (f := fun t : Task => (t.job.snapshot, t.job.destination, t.stage)) ht
  rw [h] at hmem
  obtain ⟨report, hreport, heq⟩ := List.mem_map.mp hmem
  exact ⟨report, hreport, (congrArg (fun x => x.2.2) heq).symm⟩

/-- A turn changes no job. -/
theorem Turn.jobs (h : Turn l b b') : b'.tasks.map (·.job) = b.tasks.map (·.job) := by
  cases h <;> simp only [List.map_append, List.map_cons]

/-- A run changes no job. -/
theorem Turns.jobs (h : Turns l b b') : b'.tasks.map (·.job) = b.tasks.map (·.job) := by
  induction h with
  | refl => rfl
  | tail _ hturn ih => exact hturn.jobs.trans ih

/-- A job that has its two turns in a row. -/
theorem turns_run (l : Loader) (w : World) (before after : List Task) (j : Job) :
    Turns l ⟨w, before ++ ⟨j, .waiting⟩ :: after⟩
      ⟨(j.run l w).1, before ++ ⟨j, .finished (j.run l w).2⟩ :: after⟩ :=
  .tail (.single (.prepare w before after j)) (.deliver w before after j _)

/-- The jobs one after another, behind others that have finished. -/
theorem turns_runBatch_from (l : Loader) (jobs : List Job) (before : List Task) (w : World) :
    ∃ tasks, Turns l ⟨w, before ++ (start jobs w).tasks⟩ ⟨(runBatch l jobs w).1, before ++ tasks⟩ ∧
      Ended ⟨w, tasks⟩ (runBatch l jobs w).2 := by
  induction jobs generalizing before w with
  | nil => exact ⟨[], .refl, rfl⟩
  | cons j js ih =>
      obtain ⟨tasks, hturns, hended⟩ :=
        ih (before ++ [⟨j, .finished (j.run l w).2⟩]) (j.run l w).1
      refine ⟨⟨j, .finished (j.run l w).2⟩ :: tasks, ?_, ?_⟩
      · refine (turns_run l w before (start js w).tasks j).trans ?_
        simpa [runBatch, start] using hturns
      · simpa [Ended, runBatch] using hended

/-- **Running the jobs one after another is a run.** -/
theorem turns_runBatch (l : Loader) (jobs : List Job) (w : World) :
    ∃ b, Turns l (start jobs w) b ∧ b.world = (runBatch l jobs w).1 ∧
      b.Ended (runBatch l jobs w).2 := by
  obtain ⟨tasks, hturns, hended⟩ := turns_runBatch_from l jobs [] w
  exact ⟨_, hturns, rfl, hended⟩

/-! ### What the jobs have written -/

/-- A job has finished and written to a path. -/
def Wrote (b : Batch) (path : Path) (g : Generated) : Prop :=
  ∃ t ∈ b.tasks, t.job.destination = .file path ∧ t.stage = .finished (.ok g)

/-- One of the tasks of a list is a certain one or one of the others. -/
theorem mem_tasks {before after : List Task} {t t' : Task} :
    t' ∈ before ++ t :: after ↔ t' ∈ before ++ after ∨ t' = t := by
  simp only [List.mem_append, List.mem_cons]
  tauto

theorem wrote_iff (w : World) (before after : List Task) (t : Task) (path : Path) (g : Generated) :
    Wrote ⟨w, before ++ t :: after⟩ path g ↔
      Wrote ⟨w, before ++ after⟩ path g ∨
        (t.job.destination = .file path ∧ t.stage = .finished (.ok g)) := by
  simp only [Wrote, mem_tasks, or_and_right, exists_or, exists_eq_left]

/-- Nothing is written to a path: at most directories come to the disk. -/
def Turn.Idle (b b' : Batch) : Prop :=
  b.world.disk.AddsDirectories b'.world.disk ∧ ∀ path g, b'.Wrote path g ↔ b.Wrote path g

/-- A job writes a source to a path. -/
def Turn.Writes (b b' : Batch) (path : Path) (g : Generated) : Prop :=
  (∃ d l, b.world.disk.AddsDirectories d ∧ d.locate path = .ok l ∧ d.Free l ∧
    b'.world.disk = d.put l (.file (Json.bytesOf g.source))) ∧
  ∀ path' g', b'.Wrote path' g' ↔ b.Wrote path' g' ∨ (path' = path ∧ g' = g)

/-- **What a turn can do.** -/
theorem Turn.cases (h : Turn l b b') :
    Turn.Idle b b' ∨ ∃ path g, Turn.Writes b b' path g ∧
      ∃ j ∈ b.tasks.map (·.job), j.destination = .file path := by
  cases h with
  | prepare w before after j =>
      refine .inl ⟨.refl _, fun path g => ?_⟩
      rw [wrote_iff, wrote_iff]
      exact or_congr_right ⟨fun h => (nomatch h.2), fun h => (nomatch h.2)⟩
  | deliver w before after j source =>
      rcases j.deliver_cases source w with ⟨hadds, hno⟩ | ⟨path, g, hpath, -, hg, hd⟩
      · refine .inl ⟨hadds, fun path g => ?_⟩
        rw [wrote_iff, wrote_iff]
        exact or_congr_right
          ⟨fun h => absurd (Stage.finished.inj h.2) (hno path g h.1), fun h => (nomatch h.2)⟩
      · refine .inr ⟨path, g, ⟨hd, fun path' g' => ?_⟩, j, by simp, hpath⟩
        rw [wrote_iff, wrote_iff, hpath, hg]
        constructor
        · rintro (h | ⟨hp, hs⟩)
          · exact .inl (.inl h)
          · cases hp
            cases hs
            exact .inr ⟨rfl, rfl⟩
        · rintro ((h | ⟨-, h⟩) | ⟨rfl, rfl⟩)
          · exact .inl h
          · cases h
          · exact .inr ⟨rfl, rfl⟩

/-! ### Where a disk comes from -/

/-- The paths that jobs write to lead to different locations, unless they are the same. -/
def Apart (jobs : List Job) : Prop :=
  ∀ j ∈ jobs, ∀ j' ∈ jobs, ∀ path path', j.destination = .file path → j'.destination = .file path' →
    path ≠ path' → ∀ (d : Disk) l, d.locate path = .ok l → d.locate path' ≠ .ok l

/-- The disk of a batch comes from a disk by what its jobs have written. -/
structure Traced (d : Disk) (b : Batch) : Prop where
  keeps : d.KeepsDirectories b.world.disk
  /-- A file is as it was, or a job has written to its location. -/
  files : ∀ l content, d.node? l = some (.file content) →
    b.world.disk.node? l = some (.file content) ∨
      ∃ path g, b.Wrote path g ∧ b.world.disk.locate path = .ok l
  /-- A path that jobs have written to holds the source of one of them. -/
  outputs : ∀ path g, b.Wrote path g →
    ∃ g', b.Wrote path g' ∧ b.world.disk.read path = .ok (Json.bytesOf g'.source)

theorem traced_start (jobs : List Job) (w : World) : Traced w.disk (start jobs w) where
  keeps := (Disk.AddsDirectories.refl _).keeps
  files _ _ h := .inl h
  outputs := by
    rintro path g ⟨t, ht, -, hstage⟩
    obtain ⟨j, -, rfl⟩ := List.mem_map.mp ht
    cases hstage

variable {d : Disk}

theorem Traced.idle (h : Traced d b) (hi : Turn.Idle b b') : Traced d b' := by
  obtain ⟨hadds, hwrote⟩ := hi
  refine ⟨h.keeps.trans hadds.keeps, fun l content hl => ?_, fun path g hg => ?_⟩
  · rcases h.files l content hl with hfile | ⟨path, g, hg, hpath⟩
    · exact .inl (hadds.node hfile)
    · exact .inr ⟨path, g, (hwrote path g).mpr hg, hadds.keeps.locate hpath⟩
  · obtain ⟨g', hg', hread⟩ := h.outputs path g ((hwrote path g).mp hg)
    obtain ⟨l, hl, hfile⟩ := Disk.read_eq_ok.mp hread
    exact ⟨g', (hwrote path g').mpr hg',
      Disk.read_eq_ok.mpr ⟨l, hadds.keeps.locate hl, hadds.node hfile⟩⟩

/-- A write takes the place of what was at its own location, and of nothing else. -/
theorem Traced.writes (h : Traced d b) {path : Path} {g : Generated}
    (hw : Turn.Writes b b' path g)
    (hapart : ∀ path' g', b.Wrote path' g' → path' ≠ path → ∀ (d : Disk) l,
      d.locate path' = .ok l → d.locate path ≠ .ok l) : Traced d b' := by
  obtain ⟨⟨d₁, l₁, hadds, hl₁, hfree, hput⟩, hwrote⟩ := hw
  have hkeeps : d₁.KeepsDirectories b'.world.disk := hput ▸ Disk.keepsDirectories_put hfree
  have hall := hadds.keeps.trans hkeeps
  have hnew : b'.Wrote path g := (hwrote path g).mpr (.inr ⟨rfl, rfl⟩)
  have hother : ∀ l, l ≠ l₁ → b'.world.disk.node? l = d₁.node? l := fun l hl => by
    rw [hput, Disk.node?_put hfree, if_neg hl]
  refine ⟨h.keeps.trans hall, fun l content hl => ?_, fun path' g' hg' => ?_⟩
  -- A file that was there: the new one took its place, or it is as the turn found it.
  · by_cases hll : l = l₁
    · exact .inr ⟨path, g, hnew, hll ▸ hkeeps.locate hl₁⟩
    · rcases h.files l content hl with hfile | ⟨path', g', hg', hpath'⟩
      · exact .inl ((hother l hll).trans (hadds.node hfile))
      · exact .inr ⟨path', g', (hwrote path' g').mpr (.inl hg'), hall.locate hpath'⟩
  -- A path that was written to: it is the one just written, or it leads elsewhere.
  · by_cases hpath : path' = path
    · rw [hpath]
      refine ⟨g, hnew, Disk.read_eq_ok.mpr ⟨l₁, hkeeps.locate hl₁, ?_⟩⟩
      rw [hput, Disk.node?_put hfree, if_pos rfl]
    · have hold : b.Wrote path' g' :=
        ((hwrote path' g').mp hg').resolve_right fun hsame => hpath hsame.1
      obtain ⟨g'', hg'', hread⟩ := h.outputs path' g' hold
      obtain ⟨l, hl, hfile⟩ := Disk.read_eq_ok.mp hread
      have hll : l ≠ l₁ := by
        rintro rfl
        exact hapart path' g' hold hpath d₁ l (hadds.keeps.locate hl) hl₁
      exact ⟨g'', (hwrote path' g'').mpr (.inl hg''), Disk.read_eq_ok.mpr
        ⟨l, hall.locate hl, (hother l hll).trans (hadds.node hfile)⟩⟩

theorem Traced.turn (h : Traced d b) (hturn : Turn l b b')
    (hapart : Apart (b.tasks.map (·.job))) : Traced d b' := by
  rcases hturn.cases with hi | ⟨path, g, hw, j, hj, hjpath⟩
  · exact h.idle hi
  · refine h.writes hw fun path' g' hg' hne => ?_
    obtain ⟨t, ht, htpath, -⟩ := hg'
    exact hapart t.job (List.mem_map_of_mem ht) j hj path' path htpath hjpath hne

/-- **Every run is traced.** -/
theorem Traced.turns (h : Traced d b) (hturns : Turns l b b')
    (hapart : Apart (b.tasks.map (·.job))) : Traced d b' := by
  induction hturns with
  | refl => exact h
  | tail hturns hturn ih => exact ih.turn hturn (Turns.jobs hturns ▸ hapart)

end Batch

namespace Command

/-- How `generate` may end when its jobs take turns in some order. -/
inductive MayEnd (r : GenerateRequest) (w : World) : World → Except Failure Unit → Prop
  | badOptions (failure : Failure) (h : buildOptions r w.disk = .error failure) :
      MayEnd r w w (.error failure)
  | directoryWanted (o : Options) (ho : buildOptions r w.disk = .ok o)
      (h : 1 < r.snapshots.length ∧ r.directory = none) : MayEnd r w w (.error .directoryWanted)
  | ran (o : Options) (ho : buildOptions r w.disk = .ok o)
      (h : ¬ (1 < r.snapshots.length ∧ r.directory = none)) (b : Batch) (reports : List Report)
      (hturns : Batch.Turns (.of r.dialect) (.start (jobs r o) w) b) (hended : b.Ended reports) :
      MayEnd r w b.world (verdict reports)

/-- A run that succeeds has run its jobs. -/
theorem MayEnd.exists_batch {r : GenerateRequest} {w w' : World} (h : MayEnd r w w' (.ok ())) :
    ∃ o b reports, buildOptions r w.disk = .ok o ∧
      Batch.Turns (.of r.dialect) (.start (jobs r o) w) b ∧ b.Ended reports ∧
      verdict reports = .ok () ∧ b.world = w' := by
  generalize hv : (Except.ok () : Except Failure Unit) = v at h
  cases h with
  | badOptions failure h => cases hv
  | directoryWanted o ho h => cases hv
  | ran o ho h b reports hturns hended => exact ⟨o, b, reports, ho, hturns, hended, rfl, rfl⟩

/-- The jobs in their order are one of the ways. -/
theorem runGenerate_mayEnd (r : GenerateRequest) (w : World) :
    MayEnd r w (runGenerate r w).1 (runGenerate r w).2 := by
  rw [runGenerate]
  split
  · exact .badOptions _ ‹_›
  · rename_i o ho
    split
    · exact .directoryWanted o ho ‹_›
    · obtain ⟨b, hturns, hworld, hended⟩ :=
        Batch.turns_runBatch (.of r.dialect) (jobs r o) w
      have hran := MayEnd.ran o ho ‹_› b _ hturns hended
      rw [hworld] at hran
      exact hran

theorem mayEnd_of_isOk {r : GenerateRequest} {w : World} (h : (runGenerate r w).2.isOk = true) :
    MayEnd r w (runGenerate r w).1 (.ok ()) := by
  have hend := runGenerate_mayEnd r w
  cases hresult : (runGenerate r w).2 with
  | error failure =>
      rw [hresult] at h
      cases h
  | ok _ =>
      rw [hresult] at hend
      exact hend

end Command

end RowTypes
