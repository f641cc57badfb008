import Mathlib.Algebra.GroupWithZero.Nat
import Mathlib.Data.List.Forall2
import RowTypes.Proofs.Footprints

/-!
# Separation — jobs that stay out of each other's way

Jobs are `Separate` when none of them writes where another one reads or writes, or above or below
such a place.  They may read the same snapshots, and their files may go into the same directories.

Such jobs do not disturb each other (**`Batch.turns_of_separate`**).  Whatever the order of their
turns, the batch ends with one report on each job, every job ends as it would have ended alone, and
the disk is left as if they had run one after another.

There is one exception, and the disk makes it.  A name that is too long is found out only in a
directory that exists, so a job that would have ended with "not found" ends with "too long" once
another job has made that directory (`Job.MayReport`, `Batch.report_ne_alone`).

What carries the proof is that the disk in the middle of a run is the initial one with the changes
that the finished jobs make alone (`Batch.Composed`), which every turn keeps (`Composed.turn`).
-/

namespace RowTypes

/-- One location is on the way to the other, or they are the same. -/
def Disk.Meets (x y : Disk.Location) : Prop := x <+: y ∨ y <+: x

instance (x y : Disk.Location) : Decidable (Disk.Meets x y) :=
  inferInstanceAs (Decidable (_ ∨ _))

namespace Job

/-- The files that a job writes. -/
def targets (j : Job) : List Path :=
  match j.destination with
  | .stdout => []
  | .file p => [p]

/-- The paths that a job uses. -/
def paths (j : Job) : List Path := j.snapshot :: j.targets

/-- A job does not write where another one reads or writes, nor above or below. -/
def Avoids (d : Disk) (j j' : Job) : Prop :=
  ∀ p ∈ j.targets, ∀ q ∈ j'.paths, ¬ Disk.Meets (d.place p) (d.place q)

instance (d : Disk) (j j' : Job) : Decidable (j.Avoids d j') :=
  inferInstanceAs (Decidable (∀ _ ∈ _, ∀ _ ∈ _, _))

/-- Plain paths that stay out of each other's way. -/
def Separate (d : Disk) (jobs : List Job) : Prop :=
  (∀ j ∈ jobs, ∀ p ∈ j.paths, p.Plain) ∧
    jobs.Pairwise fun j j' => j.Avoids d j' ∧ j'.Avoids d j

instance (d : Disk) (jobs : List Job) : Decidable (Separate d jobs) :=
  inferInstanceAs (Decidable (_ ∧ _))

instance (p : Path) : Decidable (Disk.HasLongName p) :=
  inferInstanceAs (Decidable (∃ n ∈ p.way, _))

/-- What a job may report that ends in a certain way alone: just that; or, where another of the jobs
makes the directory in which a name of its snapshot is too long, that the name is too long and not
that the snapshot was not found. -/
def MayReport (l : Loader) (w : World) (jobs : List Job) (j : Job)
    (alone result : Except Error Generated) : Prop :=
  result = alone ∨
    (∃ j' ∈ jobs, j' ≠ j ∧ Disk.LateName w.disk (j'.run l w).1.disk j.snapshot) ∧
      alone = .error (.disk .notFound) ∧ result = .error (.disk .nameTooLong)

variable {j j' : Job} {jobs : List Job} {l : Loader} {w w' : World} {d d₀ : Disk}

/-- A job that may report otherwise than alone has a name that is too long. -/
theorem MayReport.eq_of_short {alone result : Except Error Generated}
    (h : MayReport l w jobs j alone result) (hshort : ¬ Disk.HasLongName j.snapshot) :
    result = alone :=
  h.resolve_right fun ⟨⟨_, _, _, hlate⟩, _⟩ => hshort hlate.hasLongName

theorem mem_targets {p : Path} : p ∈ j.targets ↔ j.destination = .file p := by
  rw [targets]
  cases j.destination <;> simp [eq_comm]

/-! ### The steps of a job on a disk that has grown -/

theorem prepare_of_error {f : Disk.Fault} (h : d.openNode j.snapshot = .error f) :
    j.prepare l d = .error (.disk f) := by
  rw [prepare, Loader.loadFile, h]
  rfl

theorem run_of_error {f : Disk.Fault} (h : w.disk.openNode j.snapshot = .error f) :
    j.run l w = (w, .error (.disk f)) := by
  rw [run, prepare_of_error h]
  rfl

theorem prepare_grown (hj : ∀ p ∈ j.paths, p.Plain)
    (h : Disk.Grown d₀ d (d₀.place j.snapshot)) :
    j.prepare l d = j.prepare l d₀ ∨ Disk.LateName d₀ d j.snapshot ∧
      j.prepare l d₀ = .error (.disk .notFound) ∧ j.prepare l d = .error (.disk .nameTooLong) := by
  rcases Disk.openNode_grown (hj _ (.head _)) h with heq | ⟨hlate, hmissing, htoo⟩
  · refine .inl ?_
    rw [prepare, prepare, Loader.loadFile, Loader.loadFile, heq]
  · exact .inr ⟨hlate, prepare_of_error hmissing, prepare_of_error htoo⟩

/-- Delivering the same source ends in the same way and makes the same change. -/
theorem deliver_grown (hj : ∀ p ∈ j.paths, p.Plain)
    (h : ∀ p ∈ j.targets, Disk.Grown w.disk w'.disk (w.disk.place p))
    (source : Except Error Generated) :
    (j.deliver source w').2 = (j.deliver source w).2 ∧
      Disk.SameChange w.disk (j.deliver source w).1.disk w'.disk (j.deliver source w').1.disk := by
  cases source with
  | error e => exact ⟨rfl, .refl _ _⟩
  | ok g =>
      rw [deliver, deliver]
      cases hdest : j.destination with
      | stdout => exact ⟨rfl, .refl _ _⟩
      | file p =>
          have hp := mem_targets.mpr hdest
          obtain ⟨hend, hsame⟩ :=
            Disk.writeFile_grown (hj p (.tail _ hp)) (h p hp) g.source
          exact ⟨congrArg (Except.map fun () => g) hend, hsame⟩

/-- A job that has read what it would have read alone, or has missed its snapshot in the other way,
ends as it would have ended alone. -/
theorem deliver_prepared (hj : ∀ p ∈ j.paths, p.Plain)
    (h : ∀ p ∈ j.targets, Disk.Grown w.disk w'.disk (w.disk.place p))
    {source : Except Error Generated} (hs : MayReport l w jobs j (j.prepare l w.disk) source) :
    MayReport l w jobs j (j.run l w).2 (j.deliver source w').2 ∧
      Disk.SameChange w.disk (j.run l w).1.disk w'.disk (j.deliver source w').1.disk := by
  rw [run]
  rcases hs with rfl | ⟨hlate, hmissing, rfl⟩
  · exact (deliver_grown hj h _).imp_left .inl
  · rw [hmissing]
    exact ⟨.inr ⟨hlate, rfl, rfl⟩, .refl _ _⟩

/-- What a delivery changes: directories on the way to the job's file, and the file. -/
theorem deliver_changes (hj : ∀ p ∈ j.paths, p.Plain)
    {source : Except Error Generated} {x : Disk.Location}
    (hx : (j.deliver source w).1.disk.node? x ≠ w.disk.node? x) :
    ∃ p ∈ j.targets, x <+: w.disk.place p ∧ (x ≠ w.disk.place p →
      w.disk.node? x = none ∧ (j.deliver source w).1.disk.node? x = some .directory) := by
  cases source with
  | error e => exact absurd rfl hx
  | ok g =>
      rw [deliver] at hx ⊢
      cases hdest : j.destination with
      | stdout =>
          rw [hdest] at hx
          exact absurd rfl hx
      | file p =>
          rw [hdest] at hx
          have hp := mem_targets.mpr hdest
          exact ⟨p, hp, Disk.writeFile_changes (hj p (.tail _ hp)) hx⟩

theorem deliver_current (source : Except Error Generated) :
    (j.deliver source w).1.disk.current = w.disk.current := by
  rcases j.deliver_cases source w with ⟨hadds, -⟩ | ⟨_, _, -, -, -, d, l, hadds, -, -, hput⟩
  · exact hadds.current
  · rw [hput]
    exact hadds.current

/-- Jobs that avoid each other change nothing in common but directories that both would make. -/
theorem directory_of_both (hj : ∀ p ∈ j.paths, p.Plain) (hj' : ∀ p ∈ j'.paths, p.Plain)
    (h : j.Avoids w.disk j') {x : Disk.Location}
    (hx : (j.run l w).1.disk.node? x ≠ w.disk.node? x)
    (hx' : (j'.run l w).1.disk.node? x ≠ w.disk.node? x) :
    (j.run l w).1.disk.node? x = some .directory := by
  obtain ⟨p, hp, hin, hmade⟩ := deliver_changes hj hx
  obtain ⟨p', hp', hin', -⟩ := deliver_changes hj' hx'
  refine (hmade fun heq => ?_).2
  exact h p hp p' (.tail _ hp') (.inl (heq ▸ hin'))

end Job

namespace Batch

/-! ### The disk in the middle of a run -/

/-- A job has finished. -/
def Finished (b : Batch) (j : Job) : Prop :=
  ∃ t ∈ b.tasks, t.job = j ∧ ∃ result, t.stage = .finished result

/-- A task among some jobs has come to what its job comes to alone. -/
def AsAlone (l : Loader) (w : World) (jobs : List Job) (t : Task) : Prop :=
  match t.stage with
  | .waiting => True
  | .prepared source => Job.MayReport l w jobs t.job (t.job.prepare l w.disk) source
  | .finished result => Job.MayReport l w jobs t.job (t.job.run l w).2 result

/-- The disk is the one of a world with the changes that the finished jobs make alone. -/
structure Composed (l : Loader) (w : World) (b : Batch) : Prop where
  current : b.world.disk.current = w.disk.current
  tasks : ∀ t ∈ b.tasks, AsAlone l w (b.tasks.map (·.job)) t
  /-- What a finished job changes alone is changed in that way. -/
  changed : ∀ j, b.Finished j → ∀ x, (j.run l w).1.disk.node? x ≠ w.disk.node? x →
    b.world.disk.node? x = (j.run l w).1.disk.node? x
  /-- What no finished job changes alone is as it was. -/
  unchanged : ∀ x, (∀ j, b.Finished j → (j.run l w).1.disk.node? x = w.disk.node? x) →
    b.world.disk.node? x = w.disk.node? x

variable {l : Loader} {w : World} {b b' : Batch} {jobs : List Job}

theorem composed_start (jobs : List Job) : Composed l w (start jobs w) where
  current := rfl
  tasks := by
    intro t ht
    obtain ⟨j, -, rfl⟩ := List.mem_map.mp ht
    trivial
  changed := by
    rintro j ⟨t, ht, -, result, hstage⟩
    obtain ⟨j', -, rfl⟩ := List.mem_map.mp ht
    cases hstage
  unchanged _ _ := rfl

theorem finished_iff (v : World) (before after : List Task) (t : Task) (j : Job) :
    Finished ⟨v, before ++ t :: after⟩ j ↔
      Finished ⟨v, before ++ after⟩ j ∨ t.job = j ∧ ∃ result, t.stage = .finished result := by
  simp only [Finished, mem_tasks, or_and_right, exists_or, exists_eq_left]

/-- A job and those that have finished before its turn avoid each other. -/
theorem Finished.avoids {v : World} {before after : List Task} {t : Task} {d : Disk}
    (hsep : Job.Separate d ((before ++ t :: after).map (·.job))) {j : Job}
    (h : Finished ⟨v, before ++ after⟩ j) : j.Avoids d t.job ∧ t.job.Avoids d j := by
  obtain ⟨t', ht', rfl, -⟩ := h
  have hpair := hsep.2
  rw [List.map_append, List.map_cons, List.pairwise_append, List.pairwise_cons] at hpair
  obtain ⟨-, ⟨hafter, -⟩, hbefore⟩ := hpair
  rcases List.mem_append.mp ht' with ht' | ht'
  · exact hbefore _ (List.mem_map_of_mem ht') _ (.head _)
  · exact (hafter _ (List.mem_map_of_mem ht')).symm

/-- **Where a job reads and writes, the others have added directories at most.** -/
theorem Composed.grown (h : Composed l w b)
    (hplain : ∀ j, b.Finished j → ∀ p ∈ j.paths, p.Plain) {q : Path}
    (hq : ∀ j, b.Finished j → ∀ p ∈ j.targets, ¬ Disk.Meets (w.disk.place p) (w.disk.place q)) :
    Disk.Grown w.disk b.world.disk (w.disk.place q) := by
  refine ⟨h.current, fun x hx _ => ?_, h.unchanged _ fun j hj => ?_⟩
  · by_cases hnone : ∀ j, b.Finished j → (j.run l w).1.disk.node? x = w.disk.node? x
    · exact .inl (h.unchanged x hnone)
    · push Not at hnone
      obtain ⟨j, hj, hne⟩ := hnone
      obtain ⟨p, hp, -, hmade⟩ := Job.deliver_changes (hplain j hj) hne
      rw [h.changed j hj x hne]
      exact .inr (hmade fun heq => hq j hj p hp (.inl (heq ▸ hx)))
  · by_contra hne
    obtain ⟨p, hp, hin, -⟩ := Job.deliver_changes (hplain j hj) hne
    exact hq j hj p hp (.inr hin)

/-- A job that has not finished is not among those that have. -/
theorem finished_iff_of_ne (v : World) (before after : List Task) {t : Task}
    (ht : ∀ result, t.stage ≠ .finished result) (j : Job) :
    Finished ⟨v, before ++ t :: after⟩ j ↔ Finished ⟨v, before ++ after⟩ j := by
  rw [finished_iff]
  exact or_iff_left fun h => h.2.elim ht

theorem Finished.mem {j : Job} (h : b.Finished j) : j ∈ b.tasks.map (·.job) := by
  obtain ⟨t, ht, rfl, -⟩ := h
  exact List.mem_map_of_mem ht

section Turns

variable {v : World} {before after : List Task} {j : Job}

/-- Before its turn, a job finds the places of its paths as they were, or with directories more. -/
theorem Composed.grown_paths {t : Task} (h : Composed l w ⟨v, before ++ t :: after⟩)
    (hsep : Job.Separate w.disk ((before ++ t :: after).map (·.job)))
    (ht : ∀ result, t.stage ≠ .finished result) {q : Path} (hq : q ∈ t.job.paths) :
    Disk.Grown w.disk v.disk (w.disk.place q) := by
  refine h.grown (fun j hj => hsep.1 j hj.mem) fun j hj p hp => ?_
  rw [finished_iff_of_ne v before after ht] at hj
  exact (hj.avoids hsep).1 p hp q hq

/-- A job that avoids itself changes nothing. -/
theorem changes_of_avoids_self (hj : ∀ p ∈ j.paths, p.Plain) (h : j.Avoids w.disk j)
    (x : Disk.Location) : (j.run l w).1.disk.node? x = w.disk.node? x := by
  by_contra hne
  obtain ⟨p, hp, -⟩ := Job.deliver_changes hj hne
  exact h p hp p (.tail _ hp) (.inl List.prefix_rfl)

/-- A directory that has come before a job's turn was made by another job. -/
theorem Composed.exists_late {t : Task} (h : Composed l w ⟨v, before ++ t :: after⟩)
    (hsep : Job.Separate w.disk ((before ++ t :: after).map (·.job)))
    (ht : ∀ result, t.stage ≠ .finished result) {p : Path}
    (hlate : Disk.LateName w.disk v.disk p) :
    ∃ j ∈ (before ++ t :: after).map (·.job), j ≠ t.job ∧
      Disk.LateName w.disk (j.run l w).1.disk p := by
  obtain ⟨ns, n, hway, hlong, hnone, hmade⟩ := hlate
  obtain ⟨j, hj, hne⟩ : ∃ j, Finished ⟨v, before ++ t :: after⟩ j ∧
      (j.run l w).1.disk.node? (w.disk.base p ++ ns) ≠ w.disk.node? (w.disk.base p ++ ns) := by
    by_contra hno
    push Not at hno
    have hsame := h.unchanged _ hno
    rw [hnone, hmade] at hsame
    cases hsame
  refine ⟨j, hj.mem, ?_, ns, n, hway, hlong, hnone, (h.changed j hj _ hne).symm.trans hmade⟩
  rintro rfl
  have havoids := ((finished_iff_of_ne v before after ht _).mp hj).avoids hsep
  exact hne (changes_of_avoids_self (hsep.1 _ hj.mem) havoids.1 _)

/-- A job that reads finds what it would have found alone. -/
theorem Composed.prepare (h : Composed l w ⟨v, before ++ ⟨j, .waiting⟩ :: after⟩)
    (hsep : Job.Separate w.disk ((before ++ ⟨j, .waiting⟩ :: after).map (·.job))) :
    Composed l w ⟨v, before ++ ⟨j, .prepared (j.prepare l v.disk)⟩ :: after⟩ := by
  have hfinished (i : Job) :
      Finished ⟨v, before ++ ⟨j, .prepared (j.prepare l v.disk)⟩ :: after⟩ i ↔
        Finished ⟨v, before ++ ⟨j, .waiting⟩ :: after⟩ i :=
    (finished_iff_of_ne v before after (by simp) i).trans
      (finished_iff_of_ne v before after (by simp) i).symm
  have hjobs : (before ++ ⟨j, .prepared (j.prepare l v.disk)⟩ :: after).map (·.job) =
      (before ++ ⟨j, .waiting⟩ :: after).map (·.job) := by simp
  refine ⟨h.current, fun t ht => ?_, fun i hi => h.changed i ((hfinished i).mp hi),
    fun x hx => h.unchanged x fun i hi => hx i ((hfinished i).mpr hi)⟩
  rw [hjobs]
  rcases mem_tasks.mp ht with ht | rfl
  · exact h.tasks t (mem_tasks.mpr (.inl ht))
  · exact (Job.prepare_grown (hsep.1 j (by simp))
      (h.grown_paths hsep (fun _ h => nomatch h) (.head _))).imp_right
        (And.imp_left (h.exists_late hsep fun _ h => nomatch h))

/-- A job that delivers makes the changes that it would have made alone. -/
theorem Composed.deliver {source : Except Error Generated}
    (h : Composed l w ⟨v, before ++ ⟨j, .prepared source⟩ :: after⟩)
    (hsep : Job.Separate w.disk ((before ++ ⟨j, .prepared source⟩ :: after).map (·.job))) :
    Composed l w
      ⟨(j.deliver source v).1, before ++ ⟨j, .finished (j.deliver source v).2⟩ :: after⟩ := by
  have hj : ∀ p ∈ j.paths, p.Plain := hsep.1 j (by simp)
  obtain ⟨hreport, hsame⟩ := Job.deliver_prepared (l := l) hj
    (fun p hp => h.grown_paths hsep (fun _ h => nomatch h) (.tail _ hp))
    (h.tasks ⟨j, .prepared source⟩ (mem_tasks.mpr (.inr rfl)))
  have hold (i : Job) : Finished ⟨v, before ++ ⟨j, .prepared source⟩ :: after⟩ i ↔
      Finished ⟨v, before ++ after⟩ i :=
    finished_iff_of_ne v before after (by simp) i
  have hjobs : (before ++ ⟨j, .finished (j.deliver source v).2⟩ :: after).map (·.job) =
      (before ++ ⟨j, .prepared source⟩ :: after).map (·.job) := by simp
  refine ⟨?_, fun t ht => ?_, fun i hi x hx => ?_, fun x hx => ?_⟩
  · exact (Job.deliver_current source).trans h.current
  · rw [hjobs]
    rcases mem_tasks.mp ht with ht | rfl
    · exact h.tasks t (mem_tasks.mpr (.inl ht))
    · exact hreport
  · have hx' := hsame x
    rcases (finished_iff _ before after _ i).mp hi with hi | ⟨rfl, -⟩
    · split at hx'
      · exact hx'.trans (h.changed i ((hold i).mpr hi) x hx)
      -- Both jobs change the place, so both make a directory there.
      · rename_i hnew
        have havoids := Finished.avoids hsep hi
        have hplain := hsep.1 i ((hold i).mpr hi).mem
        rw [Job.directory_of_both hplain hj havoids.1 hx hnew]
        exact hx'.trans (Job.directory_of_both hj hplain havoids.2 hnew hx)
    · rwa [if_neg hx] at hx'
  · have hx' := hsame x
    rw [if_pos (hx j ((finished_iff _ before after _ j).mpr (.inr ⟨rfl, _, rfl⟩)))] at hx'
    exact hx'.trans (h.unchanged x fun i hi =>
      hx i ((finished_iff _ before after _ i).mpr (.inl ((hold i).mp hi))))

/-- Every turn keeps the disk composed. -/
theorem Composed.turn (h : Composed l w b) (hturn : Turn l b b')
    (hsep : Job.Separate w.disk (b.tasks.map (·.job))) : Composed l w b' := by
  cases hturn with
  | prepare v before after j => exact h.prepare hsep
  | deliver v before after j source => exact h.deliver hsep

/-- **In the middle of every run the disk is composed.** -/
theorem composed_turns (hsep : Job.Separate w.disk jobs) (hturns : Turns l (start jobs w) b) :
    Composed l w b := by
  induction hturns with
  | refl => exact composed_start jobs
  | tail hturns hturn ih =>
      refine ih.turn hturn ?_
      rwa [Turns.jobs hturns, jobs_start]

end Turns

/-! ### The end of a run -/

/-- Disks that are composed of the changes of the same jobs hold the same. -/
theorem Composed.node?_eq (h : Composed l w b) (h' : Composed l w b')
    (hjobs : ∀ j, b.Finished j ↔ b'.Finished j) (x : Disk.Location) :
    b.world.disk.node? x = b'.world.disk.node? x := by
  by_cases hnone : ∀ j, b.Finished j → (j.run l w).1.disk.node? x = w.disk.node? x
  · rw [h.unchanged x hnone, h'.unchanged x fun j hj => hnone j ((hjobs j).mpr hj)]
  · push Not at hnone
    obtain ⟨j, hj, hne⟩ := hnone
    rw [h.changed j hj x hne, h'.changed j ((hjobs j).mp hj) x hne]

theorem Ended.forall₂ {reports : List Report} (h : b.Ended reports) :
    List.Forall₂ (fun t r => r.snapshot = t.job.snapshot ∧ r.destination = t.job.destination ∧
      t.stage = .finished r.result) b.tasks reports := by
  rw [Ended, ← List.forall₂_eq_eq_eq, List.forall₂_map_left_iff, List.forall₂_map_right_iff] at h
  refine h.imp fun t r heq => ?_
  obtain ⟨hsnapshot, hrest⟩ := Prod.mk.inj heq
  obtain ⟨hdestination, hstage⟩ := Prod.mk.inj hrest
  exact ⟨hsnapshot.symm, hdestination.symm, hstage⟩

/-- At the end every job has its report, and has ended as it would have ended alone. -/
theorem Composed.reports (h : Composed l w b) {reports : List Report} (hended : b.Ended reports) :
    List.Forall₂ (fun j r => r.snapshot = j.snapshot ∧ r.destination = j.destination ∧
      Job.MayReport l w (b.tasks.map (·.job)) j (j.run l w).2 r.result)
      (b.tasks.map (·.job)) reports := by
  rw [List.forall₂_map_left_iff]
  refine ((List.forall₂_and_left _ _).mpr ⟨h.tasks, hended.forall₂⟩).imp ?_
  rintro t r ⟨halone, hsnapshot, hdestination, hstage⟩
  rw [AsAlone, hstage] at halone
  exact ⟨hsnapshot, hdestination, halone⟩

/-- When every job has finished, the jobs that have finished are all jobs. -/
theorem Ended.finished_iff {reports : List Report} (h : b.Ended reports) (j : Job) :
    b.Finished j ↔ j ∈ b.tasks.map (·.job) := by
  refine ⟨Finished.mem, fun hj => ?_⟩
  obtain ⟨t, ht, rfl⟩ := List.mem_map.mp hj
  obtain ⟨report, -, hstage⟩ := h.exists_report ht
  exact ⟨t, ht, rfl, _, hstage⟩

/-- Where no job can have a turn, every job has finished. -/
theorem exists_ended (h : ∀ b', ¬ Turn l b b') : ∃ reports, b.Ended reports := by
  obtain ⟨v, tasks⟩ := b
  have hall : ∀ t ∈ tasks, ∃ result, t.stage = .finished result := by
    intro t ht
    obtain ⟨before, after, rfl⟩ := List.append_of_mem ht
    obtain ⟨j, stage⟩ := t
    cases stage with
    | waiting => exact absurd (Turn.prepare v before after j) (h _)
    | prepared source => exact absurd (Turn.deliver v before after j source) (h _)
    | finished result => exact ⟨result, rfl⟩
  clear h
  induction tasks with
  | nil => exact ⟨[], rfl⟩
  | cons t tasks ih =>
      obtain ⟨result, hresult⟩ := hall t (.head _)
      obtain ⟨reports, hreports⟩ := ih fun t ht => hall t (.tail _ ht)
      refine ⟨⟨t.job.snapshot, t.job.destination, result⟩ :: reports, ?_⟩
      simpa [Ended, hresult] using hreports

/-- The turns that are left. -/
def turnsLeft (b : Batch) : Nat :=
  (b.tasks.map fun t => match t.stage with
    | .waiting => 2
    | .prepared _ => 1
    | .finished _ => 0).sum

theorem Turn.turnsLeft_lt (h : Turn l b b') : b'.turnsLeft < b.turnsLeft := by
  cases h <;> simp [turnsLeft]

/-- Jobs do not take turns forever. -/
theorem wellFounded_turn (l : Loader) : WellFounded fun b' b => Turn l b b' :=
  Subrelation.wf (fun h => Turn.turnsLeft_lt h) (measure turnsLeft).wf

/-- **Separate jobs do not disturb each other.**  However they take turns, the batch ends, with one
report on each job; every job ends as it would have ended alone, but for a name that is too long;
and the disk is as if they had run one after another. -/
theorem turns_of_separate {l : Loader} {w : World} {jobs : List Job}
    (hsep : Job.Separate w.disk jobs) :
    WellFounded (fun b' b => Turn l b b') ∧
      ∀ b, Turns l (start jobs w) b → (∀ b', ¬ Turn l b b') →
        ∃ reports, b.Ended reports ∧
          List.Forall₂ (fun j r => r.snapshot = j.snapshot ∧ r.destination = j.destination ∧
            Job.MayReport l w jobs j (j.run l w).2 r.result) jobs reports ∧
          ∀ x, b.world.disk.node? x = (runBatch l jobs w).1.disk.node? x := by
  refine ⟨wellFounded_turn l, fun b hturns hstuck => ?_⟩
  obtain ⟨reports, hended⟩ := exists_ended hstuck
  have hcomposed := composed_turns hsep hturns
  have hreports := hcomposed.reports hended
  rw [hturns.jobs, jobs_start] at hreports
  refine ⟨reports, hended, hreports, fun x => ?_⟩
  obtain ⟨b₀, hturns₀, hworld₀, hended₀⟩ := turns_runBatch l jobs w
  rw [← hworld₀]
  refine hcomposed.node?_eq (composed_turns hsep hturns₀) (fun j => ?_) x
  rw [hended.finished_iff, hended₀.finished_iff, hturns.jobs, hturns₀.jobs]

/-- Jobs whose snapshots have no name that is too long end as they would alone. -/
theorem results_eq {jobs' : List Job} {result : Job → Except Error Generated}
    {reports : List Report} (hshort : ∀ j ∈ jobs, ¬ Disk.HasLongName j.snapshot)
    (h : List.Forall₂ (fun j r => r.snapshot = j.snapshot ∧ r.destination = j.destination ∧
      Job.MayReport l w jobs' j (result j) r.result) jobs reports) :
    reports.map (·.result) = jobs.map result := by
  rw [eq_comm, ← List.forall₂_eq_eq_eq, List.forall₂_map_left_iff, List.forall₂_map_right_iff]
  refine ((List.forall₂_and_left _ _).mpr ⟨hshort, h⟩).imp ?_
  rintro j r ⟨hj, -, -, hr⟩
  exact (hr.eq_of_short hj).symm

/-! ### Jobs that share a directory -/

/-- A snapshot, and a file where one of the jobs wants a directory. -/
def sharedDisk : Disk where
  current := []
  nodes := [(["x.json"], .file (Json.bytesOf "\x7b\x7d")), (["c"], .file [])]

/-- Three jobs: two with one snapshot, two with one directory.  The last two fail. -/
def sharingJobs : List Job :=
  [⟨⟨"x.json"⟩, .file ⟨"out/a.ts"⟩, {}⟩, ⟨⟨"y.json"⟩, .file ⟨"out/b.ts"⟩, {}⟩,
    ⟨⟨"x.json"⟩, .file ⟨"c/d.ts"⟩, {}⟩]

theorem turns_of_sharingJobs :
    Job.Separate sharedDisk sharingJobs ∧
      ∀ b, Turns {} (start sharingJobs { disk := sharedDisk }) b → (∀ b', ¬ Turn {} b b') →
        (∃ reports, b.Ended reports ∧ reports.map (·.result) =
          [.ok ⟨"", 0, 0, 0⟩, .error (.disk .notFound),
            .error (.output (.noDirectory "c" .exists))]) ∧
        b.world.disk.node? ["out", "a.ts"] = some (.file []) := by
  have hsep : Job.Separate sharedDisk sharingJobs := by decide +kernel
  refine ⟨hsep, fun b hturns hstuck => ?_⟩
  obtain ⟨reports, hended, hreports, hdisk⟩ :=
    (turns_of_separate (l := {}) (w := { disk := sharedDisk }) hsep).2
      b hturns hstuck
  refine ⟨⟨reports, hended, ?_⟩, ?_⟩
  · have hshort : ∀ j ∈ sharingJobs, ¬ Disk.HasLongName j.snapshot := by decide +kernel
    exact (results_eq hshort hreports).trans (by decide +kernel)
  · rw [hdisk]
    decide +kernel

/-! ### A job that comes late -/

/-- A name that is too long. -/
@[irreducible]
def lateName : List Char := List.replicate 256 'a'

def lateSnapshot : Path := ⟨String.ofList ('s' :: '/' :: lateName)⟩

/-- A job that makes a directory. -/
def earlyJob : Job := ⟨⟨"x.json"⟩, .file ⟨"s/a.ts"⟩, {}⟩

/-- A job that misses its snapshot, in that directory. -/
def lateJob : Job := ⟨lateSnapshot, .file ⟨"b.ts"⟩, {}⟩

theorem toList_lateSnapshot : lateSnapshot.text.toList = 's' :: '/' :: lateName :=
  String.toList_ofList

theorem allPieces_lateSnapshot : lateSnapshot.allPieces = [['s'], lateName] := by
  rw [Path.allPieces, toList_lateSnapshot]
  decide +kernel

theorem checked_lateSnapshot : Disk.checked lateSnapshot = .ok lateSnapshot := by
  rw [Disk.checked, toList_lateSnapshot, if_neg (by decide +kernel), if_neg (by decide +kernel),
    if_neg (by decide +kernel)]

theorem openNode_lateSnapshot {d : Disk} (hd : d.current = []) :
    d.openNode lateSnapshot = d.nodeAlong [] [['s'], lateName] := by
  rw [Disk.openNode_of_checked checked_lateSnapshot, allPieces_lateSnapshot, Disk.base, hd,
    ite_self]

theorem separate_lateJob : Job.Separate sharedDisk [earlyJob, lateJob] := by
  have hplain : lateSnapshot.Plain := by
    rw [Path.Plain, allPieces_lateSnapshot]
    decide +kernel
  have hplace : sharedDisk.place lateJob.snapshot = ["s", String.ofList lateName] := by
    rw [lateJob, Disk.place, Path.way, allPieces_lateSnapshot, Disk.base]
    simp only [Path.namesOf, sharedDisk, ite_self]
    decide +kernel
  have hearly : sharedDisk.place ⟨"s/a.ts"⟩ = ["s", "a.ts"] := by decide +kernel
  have htarget : sharedDisk.place ⟨"b.ts"⟩ = ["b.ts"] := by decide +kernel
  have hsnapshot : sharedDisk.place earlyJob.snapshot = ["x.json"] := by decide +kernel
  have hpaths : ∀ p ∈ lateJob.paths, p.Plain :=
    List.forall_mem_cons.mpr ⟨hplain, List.forall_mem_singleton.mpr (by decide +kernel)⟩
  have hearlyAvoids : earlyJob.Avoids sharedDisk lateJob := by
    refine List.forall_mem_singleton.mpr
      (List.forall_mem_cons.mpr ⟨?_, List.forall_mem_singleton.mpr ?_⟩)
    · rw [hearly, hplace]
      decide +kernel
    · rw [hearly, htarget]
      decide
  have hlateAvoids : lateJob.Avoids sharedDisk earlyJob := by
    refine List.forall_mem_singleton.mpr
      (List.forall_mem_cons.mpr ⟨?_, List.forall_mem_singleton.mpr ?_⟩)
    · rw [hsnapshot, htarget]
      decide
    · rw [hearly, htarget]
      decide
  refine ⟨List.forall_mem_cons.mpr ⟨by decide +kernel, List.forall_mem_singleton.mpr hpaths⟩, ?_⟩
  exact List.pairwise_pair.mpr ⟨hearlyAvoids, hlateAvoids⟩

theorem results_pair (l : Loader) (w : World) (j j' : Job) :
    (runBatch l [j, j'] w).2.map (·.result) = [(j.run l w).2, (j'.run l (j.run l w).1).2] := rfl

/-- Separate jobs may end otherwise than alone. -/
theorem report_ne_alone :
    Job.Separate sharedDisk [earlyJob, lateJob] ∧
      ∃ b reports, Turns {} (start [earlyJob, lateJob] { disk := sharedDisk }) b ∧
        b.Ended reports ∧ reports.map (·.result) ≠
          [earlyJob, lateJob].map fun j => (j.run {} { disk := sharedDisk }).2 := by
  obtain ⟨b, hturns, -, hended⟩ := turns_runBatch {} [earlyJob, lateJob] { disk := sharedDisk }
  refine ⟨separate_lateJob, b, _, hturns, hended, fun h => ?_⟩
  have halone : sharedDisk.openNode lateSnapshot = .error .notFound := by
    rw [openNode_lateSnapshot rfl]
    decide +kernel
  have hlate : (earlyJob.run {} { disk := sharedDisk }).1.disk.openNode lateSnapshot =
      .error .nameTooLong := by
    rw [openNode_lateSnapshot (by decide +kernel)]
    decide +kernel
  have hmissing := Job.run_of_error (j := lateJob) (l := {}) (w := { disk := sharedDisk }) halone
  have htoo := Job.run_of_error (j := lateJob) (l := {}) hlate
  rw [results_pair, htoo, List.map_cons, List.map_singleton, hmissing] at h
  exact absurd (List.cons.inj (List.cons.inj h).2).1 (by decide)

end Batch

end RowTypes
