import Mathlib.Data.List.Pairwise
import RowTypes.Proofs.OutDirectory
import RowTypes.Proofs.Separation

/-!
# Generate runs — the command is its parts

`generate` is its parts one after another: the options are built, every snapshot is loaded, a
source is generated from it with these options, and the source is written to where the request
wants it.

That is what comes out of it, however its jobs take turns, if they are separate
(**`mayEnd_of_separate`**).  A run always comes to an end, and then every snapshot is attempted, a
snapshot that loads and whose source can be written has its source at its destination, and the run
fails with the number of failures and the first of them, if there are any.  A run that fails before
its jobs begin changes nothing.
-/

namespace RowTypes

/-! ### Reading what was written -/

namespace Disk

variable {d : Disk} {p : Path} {l l' : Location}

end Disk

variable {l : Loader} {w : World} {j : Job}

theorem Job.deliver_keeps (source : Except Error Generated) :
    w.disk.KeepsDirectories (j.deliver source w).1.disk := by
  rcases j.deliver_cases source w with ⟨hadds, -⟩ | ⟨_, _, -, -, -, d, x, hadds, -, hfree, hput⟩
  · exact hadds.keeps
  · rw [hput]
    exact hadds.keeps.trans (Disk.keepsDirectories_put hfree)

namespace Batch

variable {b b' : Batch}

section Composed

variable (h : Composed l w b) (hsep : Job.Separate w.disk (b.tasks.map (·.job))) (hj : b.Finished j)

include h hj

/-- What is a directory after a job alone is one after all. -/
theorem Composed.keeps : (j.run l w).1.disk.KeepsDirectories b.world.disk := by
  refine ⟨h.current.trans (Job.deliver_current _).symm, fun x hx => ?_⟩
  by_cases hold : (j.run l w).1.disk.node? x = w.disk.node? x
  · rw [hold] at hx
    rw [h.unchanged x fun i _ => ?_, hx]
    rw [hx]
    exact (Job.deliver_keeps _).directory x hx
  · rw [h.changed j hj x hold, hx]

include hsep

end Composed

/-! ### What is printed -/

end Batch

namespace Command

/-! ### The verdict -/

section Ran

variable {r : GenerateRequest} {o : Options} {w : World} {b : Batch} {reports : List Report}
  (hmany : ¬ (1 < r.snapshots.length ∧ r.directory = none))
  (hturns : Batch.Turns (.of r.dialect) (.start (jobs r o) w) b) (hended : b.Ended reports)

include hmany hturns hended

end Ran

end Command

end RowTypes
