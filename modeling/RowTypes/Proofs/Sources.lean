import RowTypes.Loader
import RowTypes.Proofs.DiskChanges
import RowTypes.Proofs.Lookahead
import RowTypes.Proofs.RoundTrips

/-!
# Sources — texts, streams and files

A snapshot comes as a text, as a stream of bytes, or in a file, which is read as a stream.  Only the
strings of a stream are checked to be text, and only a stream gives away a byte when it is looked
at, so that a complaint may name the place behind it.

**The text, the stream of its bytes and every file that holds them give the same schema or are
refused for the same cause** (`load_sources`), and the complaints differ in their places at most, by
one byte (`Complaint.Alike`).  What is written of a schema is among the texts that are not refused.
-/

namespace RowTypes

variable {l : Loader} {d : Disk} {p : Path} {bytes : List UInt8} {s : Schema}
  {source : Json.Source} {complaint : Json.Complaint}

theorem Loader.loadBytes_of_ok (h : Schema.ofJson? source bytes = .ok s) :
    l.loadBytes source bytes = .ok (l.finish s) := by
  rw [loadBytes, h]

theorem Loader.loadBytes_of_error (h : Schema.ofJson? source bytes = .error complaint) :
    l.loadBytes source bytes = .error (.json complaint) := by
  rw [loadBytes, h]

/-- What is written of a schema is loaded as the schema it is finished to. -/
theorem Loader.loadBytes_compact (l : Loader) (s : Schema) (source : Json.Source) :
    l.loadBytes source (Json.bytesOf s.toJson.compact) = .ok (l.finish s) :=
  loadBytes_of_ok (Json.read_of_readsValue (s.reads _ s.spells_toJson) source
    (Json.laidOut_compact s.toJson))

/-- A file is loaded as the stream of its bytes. -/
theorem Loader.loadFile_of_read (h : d.read p = .ok bytes) :
    l.loadFile d p = match l.loadBytes .stream bytes with
      | .error (.json complaint) => .error (.schema (.badSnapshot p.text (.refused complaint)))
      | outcome => outcome := by
  obtain ⟨loc, hloc, hnode⟩ := Disk.read_eq_ok.mp h
  have hopen : d.openNode p = .ok (.file bytes) := Disk.openNode_eq_ok.mpr ⟨loc, hloc, hnode⟩
  rw [loadFile, hopen, loadBytes]
  dsimp only
  cases Schema.ofJson? .stream bytes <;> rfl

/-- **A snapshot is loaded alike from a text, from a stream and from files.** -/
theorem load_sources (l : Loader) :
    (∀ t : String,
      (∃ s, l.loadText t = .ok s ∧ l.loadBytes .stream (Json.bytesOf t) = .ok s ∧
        ∀ d p, d.read p = .ok (Json.bytesOf t) → l.loadFile d p = .ok s) ∨
      ∃ c c', l.loadText t = .error (.json c) ∧
        l.loadBytes .stream (Json.bytesOf t) = .error (.json c') ∧
        c.Alike c' ∧ c.reason ≠ .notText ∧
        ∀ d p, d.read p = .ok (Json.bytesOf t) → ∃ cause,
          l.loadFile d p = .error (.schema cause) ∧
            cause.message = "invalid schema snapshot " ++ p.text ++ ": " ++ c'.message) ∧
    ∀ s : Schema, l.loadText s.toJson.compact = .ok (l.finish s) := by
  refine ⟨fun t => ?_, fun s => l.loadBytes_compact s .text⟩
  rcases Json.read_sources (Json.record Schema.shape) t with
    ⟨s, htext, hstream⟩ | ⟨c, c', htext, hstream, halike, hreason⟩
  · have hload := Loader.loadBytes_of_ok (l := l) hstream
    refine .inl ⟨l.finish s, Loader.loadBytes_of_ok htext, hload, fun d p hread => ?_⟩
    rw [Loader.loadFile_of_read hread, hload]
  · have hload := Loader.loadBytes_of_error (l := l) hstream
    refine .inr ⟨c, c', Loader.loadBytes_of_error htext, hload, halike, hreason,
      fun d p hread => ⟨.badSnapshot p.text (.refused c'), ?_, rfl⟩⟩
    rw [Loader.loadFile_of_read hread, hload]

section Example

/-- A number where a list should be. -/
def numberedTables : String := "\x7b\"tables\":12\x7d"

def numberedDisk : Disk where
  current := []
  nodes := [(["s.json"], .file (Json.bytesOf numberedTables))]

def numberedComplaint (column : Nat) : Json.Complaint :=
  ⟨.because (.wrongType (.number (.integer 12)) .list), ⟨1, column⟩⟩

/-- The stream has looked at the brace behind the number. -/
theorem load_sources_numberedTables :
    numberedDisk.read ⟨"s.json"⟩ = .ok (Json.bytesOf numberedTables) ∧
      Loader.loadText {} numberedTables = .error (.json (numberedComplaint 12)) ∧
      (∃ cause, Loader.loadFile {} numberedDisk ⟨"s.json"⟩ = .error (.schema cause) ∧
        cause.message = "invalid schema snapshot s.json: " ++ (numberedComplaint 13).message) ∧
      Loader.loadText {} oddNames.toJson.compact = .ok (Loader.finish {} oddNames) := by
  have hread : numberedDisk.read ⟨"s.json"⟩ = .ok (Json.bytesOf numberedTables) := by
    decide +kernel
  have htext : Loader.loadText {} numberedTables = .error (.json (numberedComplaint 12)) := by
    decide +kernel
  have hstream : Loader.loadBytes {} .stream (Json.bytesOf numberedTables) =
      .error (.json (numberedComplaint 13)) := by decide +kernel
  obtain ⟨hagree, hwritten⟩ := load_sources {}
  refine ⟨hread, htext, ?_, hwritten oddNames⟩
  rcases hagree numberedTables with ⟨s, hs, -⟩ | ⟨c, c', -, hc', -, -, hfile⟩
  · cases htext.symm.trans hs
  · obtain ⟨cause, hload, hmessage⟩ := hfile numberedDisk ⟨"s.json"⟩ hread
    cases hstream.symm.trans hc'
    exact ⟨cause, hload, hmessage⟩

end Example

end RowTypes
