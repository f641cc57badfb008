import Mathlib.Data.Finset.Card
import RowTypes.Proofs.EntryOrder
import RowTypes.Proofs.Overriding
import RowTypes.Proofs.RoundTrips

/-!
# Building — what a run of operations leaves in a mapping

A mapping comes about from the empty one: natives are inserted, a mapping is laid over another, a
dialect brings its own, and a mapping is read, as a document or in a snapshot.  No operation makes a
second entry for a target, which is why a mapping can carry the proof of it; so after any run a
lookup finds the one entry of its target, and finds nothing where there is none (`Mapping.Keyed`).

An insert and a member of a document alter the entry of a target, and make one at the end where
there is none (`Mapping.alter`).  They differ in what becomes of the natives that are there, so a
run of either is described by the same two lemmas (`keys_alterAll`, `get?_alterAll`): the targets
stand as they came up first, and the natives of a target depend on its own steps alone.

**Building** (`built_keyed`).  Every mapping is keyed, and an insert and a merge change the targets
and the lookups as they should.  After a run of inserts each target has all its natives in the order
of the calls; after reading an object, which may repeat a key, each has the natives that it was
given last.
-/

namespace RowTypes

namespace Mapping

variable {m a b : Mapping} {target key : String}

/-! ### Altering an entry -/

/-- A lookup takes the first entry of the target. -/
theorem lookup_cons_eq (e : String × List String) (es : List (String × List String)) :
    (e :: es).lookup key = if key = e.1 then some e.2 else es.lookup key := by
  rw [List.lookup_cons]
  by_cases hkey : key = e.1
  · rw [if_pos hkey, beq_iff_eq.mpr hkey]
  · rw [if_neg hkey, beq_eq_false_iff_ne.mpr hkey]

section Altering

variable {f : List String → List String}

theorem keys_alter_of_mem (h : target ∈ m.keys) : (m.alter target f).keys = m.keys :=
  keys_alterEntry.trans (if_pos h)

theorem keys_alter_of_not_mem (h : target ∉ m.keys) :
    (m.alter target f).keys = m.keys ++ [target] :=
  keys_alterEntry.trans (if_neg h)

theorem get?_eq_none_iff : m.get? key = none ↔ key ∉ m.keys := by
  rw [get?, List.lookup_eq_none_iff, keys, List.mem_map]
  simp only [bne_iff_ne, not_exists, not_and, ne_comm, ne_eq]

/-- A lookup sees the change at the target and nowhere else. -/
theorem get?_alter : (m.alter target f).get? key =
    if key = target then some (f ((m.get? target).getD [])) else m.get? key := by
  change (alterEntry target f m.entries).lookup key =
    if key = target then some (f ((m.entries.lookup target).getD [])) else m.entries.lookup key
  induction m.entries with
  | nil =>
      rw [alterEntry, lookup_cons_eq]
      rfl
  | cons e es ih =>
      rw [alterEntry]
      by_cases he : e.1 = target
      · rw [if_pos he, lookup_cons_eq, lookup_cons_eq, lookup_cons_eq, if_pos he.symm, he]
        split <;> rfl
      · rw [if_neg he, lookup_cons_eq, ih, lookup_cons_eq, lookup_cons_eq, if_neg (Ne.symm he)]
        by_cases hkey : key = e.1
        · rw [if_pos hkey, if_neg (hkey ▸ he), if_pos hkey]
        · rw [if_neg hkey, if_neg hkey]

end Altering

/-! ### Runs of alterations -/

/-- Alters the entries of the targets one after another, where `f` makes the new natives out of
those that come with the target and those that are there. -/
def alterAll (f : List String → List String → List String) (m : Mapping)
    (steps : List (String × List String)) : Mapping :=
  steps.foldl (fun m step => m.alter step.1 (f step.2)) m

section Runs

variable {f : List String → List String → List String} {steps : List (String × List String)}

/-- New targets stand behind the old ones, as they came up first. -/
theorem keys_alterAll : (alterAll f m steps).keys =
    m.keys ++ ((steps.map (·.1)).removeAll m.keys).eraseDups := by
  induction steps generalizing m with
  | nil => exact (List.append_nil _).symm
  | cons step steps ih =>
      refine ih.trans ?_
      rw [List.map_cons, List.cons_removeAll]
      by_cases h : step.1 ∈ m.keys
      · rw [keys_alter_of_mem h, if_neg (by simpa using h)]
      · rw [keys_alter_of_not_mem h, if_pos (by simpa using h), List.eraseDups_cons,
          List.append_assoc, List.singleton_append, List.removeAll, List.removeAll,
          List.filter_filter]
        -- What is removed with the new target is what is not repeated behind it.
        refine congrArg (fun rest => m.keys ++ step.1 :: List.eraseDups rest)
          (List.filter_congr fun k _ => ?_)
        change (!(m.keys ++ [step.1]).contains k) = (!(k == step.1) && !m.keys.contains k)
        rw [List.contains_append, Bool.not_or, Bool.and_comm, List.contains_cons,
          List.contains_nil, Bool.or_false]

theorem get?_alterAll : (alterAll f m steps).get? key =
    (steps.filter (·.1 = key)).foldl (fun found step => some (f step.2 (found.getD [])))
      (m.get? key) := by
  induction steps generalizing m with
  | nil => rfl
  | cons step steps ih =>
      refine ih.trans ?_
      rw [get?_alter]
      by_cases h : step.1 = key
      · rw [if_pos h.symm, List.filter_cons_of_pos (by simpa using h), List.foldl_cons, h]
      · rw [if_neg (Ne.symm h), List.filter_cons_of_neg (by simpa using h)]

variable (f steps)

/-- From the empty mapping on, the targets are those of the steps. -/
theorem keys_alterAll_empty :
    (alterAll f empty steps).keys = (steps.map (·.1)).eraseDups := by
  refine keys_alterAll.trans ?_
  rw [show empty.keys = [] from rfl, List.removeAll_nil, List.nil_append]

theorem get?_alterAll_empty (key : String) : (alterAll f empty steps).get? key =
    (steps.filter (·.1 = key)).foldl (fun found step => some (f step.2 (found.getD []))) none :=
  get?_alterAll

end Runs

/-! ### Inserts -/

/-- The targets stand as they were named first, each with all natives it was named with. -/
structure Gathers (m : Mapping) (calls : List (String × List String)) : Prop where
  keys : m.keys = (calls.map (·.1)).eraseDups
  get? : ∀ t, m.get? t =
    if t ∈ calls.map (·.1) then some ((calls.filter (·.1 = t)).flatMap (·.2)) else none

theorem foldl_gather (calls : List (String × List String)) (found : Option (List String)) :
    calls.foldl (fun found call => some (found.getD [] ++ call.2)) found =
      if calls = [] then found else some (found.getD [] ++ calls.flatMap (·.2)) := by
  induction calls generalizing found with
  | nil => rfl
  | cons call calls ih =>
      rw [List.foldl_cons, ih, if_neg (List.cons_ne_nil _ _), List.flatMap_cons]
      split
      · rename_i hcalls
        rw [hcalls, List.flatMap_nil, List.append_nil]
      · rw [Option.getD_some, List.append_assoc]

theorem ofList_gathers (calls : List (String × List String)) : (ofList calls).Gathers calls := by
  refine ⟨keys_alterAll_empty (fun natives old => old ++ natives) calls, fun t => ?_⟩
  have hget := get?_alterAll_empty (fun natives old => old ++ natives) calls t
  rw [foldl_gather] at hget
  have hnil : calls.filter (·.1 = t) = [] ↔ t ∉ calls.map (·.1) := by
    rw [List.filter_eq_nil_iff, List.mem_map]
    simp only [decide_eq_true_eq, not_exists, not_and]
  refine hget.trans ?_
  by_cases ht : t ∈ calls.map (·.1)
  · rw [if_pos ht, if_neg (fun h => hnil.mp h ht)]
    rfl
  · rw [if_neg ht, if_pos (hnil.mpr ht)]

/-! ### Members of an object -/

/-- The targets stand as they are named first, each with the natives it is named with last. -/
structure Recalls (m : Mapping) (members : List (String × List String)) : Prop where
  keys : m.keys = (members.map (·.1)).eraseDups
  get? : ∀ t, m.get? t = (members.filter (·.1 = t)).getLast?.map (·.2)

theorem foldl_recall (members : List (String × List String)) (found : Option (List String)) :
    members.foldl (fun _ member => some member.2) found =
      (members.getLast?.map (·.2)).or found := by
  induction members generalizing found with
  | nil => rfl
  | cons member members ih =>
      rw [List.foldl_cons, ih, List.getLast?_cons]
      cases members.getLast? <;> rfl

theorem ofMembers_recalls (members : List (String × List String)) :
    (ofMembers members).Recalls members := by
  refine ⟨keys_alterAll_empty (fun natives _ => natives) members, fun t => ?_⟩
  have hget := get?_alterAll_empty (fun natives _ => natives) members t
  rw [foldl_recall] at hget
  exact hget.trans Option.or_none

/-! ### Documents -/

variable {source : Json.Source} {bytes : List UInt8}

/-- A mapping is read from what is read as an object of lists. -/
theorem ofJson?_eq_ok : ofJson? source bytes = .ok m ↔
    ∃ members, Json.read (Json.object (Json.list Json.text)) source bytes = .ok members ∧
      m = ofMembers members := by
  rw [ofJson?, reader, Json.read_map]
  cases Json.read (Json.object (Json.list Json.text)) source bytes with
  | error complaint => simp [Except.map]
  | ok members => simp [Except.map, eq_comm]

theorem ofJson?_members {members : List (String × List String)} {v : Json.Tree}
    (h : Listed members v) (hbytes : Json.LaidOut v.tokens bytes) :
    ofJson? source bytes = .ok (ofMembers members) :=
  Json.read_of_readsValue (reads_of_listed h) source hbytes

/-! ### Every mapping -/

/-- Each target has one entry, which is what a lookup finds; no other entry is there to be found.
The size counts the entries, and so the targets. -/
structure Keyed (m : Mapping) : Prop where
  distinct : m.keys.Nodup
  size : m.size = m.entries.length ∧ m.size = m.keys.toFinset.card
  get? : ∀ t, m.entries.filter (·.1 = t) = ((m.get? t).map (t, ·)).toList

theorem filter_eq_lookup {es : List (String × List String)} (h : (es.map (·.1)).Nodup) :
    es.filter (·.1 = key) = ((es.lookup key).map (key, ·)).toList := by
  induction es with
  | nil => rfl
  | cons e es ih =>
      rw [List.map_cons, List.nodup_cons] at h
      obtain ⟨he, hes⟩ := h
      rw [lookup_cons_eq]
      by_cases hkey : key = e.1
      · have hrest : es.filter (·.1 = key) = [] := by
          rw [List.filter_eq_nil_iff]
          intro e' he' hname
          rw [decide_eq_true_eq, hkey] at hname
          exact he (hname ▸ List.mem_map_of_mem he')
        rw [List.filter_cons_of_pos (by simpa using hkey.symm), hrest, if_pos hkey, hkey]
        rfl
      · rw [List.filter_cons_of_neg (by simpa using Ne.symm hkey), ih hes, if_neg hkey]

theorem keyed (m : Mapping) : m.Keyed := by
  refine ⟨m.distinct, ⟨rfl, ?_⟩, fun t => filter_eq_lookup m.distinct⟩
  rw [keys, List.toFinset_card_of_nodup m.distinct, List.length_map, size]

/-- The targets of a merge are those that are left of the base, and behind them the overrides';
each lookup is answered by the overrides, if they have the target, and by what is left if not. -/
theorem mergedWith_lays (a b : Mapping) :
    (a.mergedWith b).keys = (a.remains b).keys ++ b.keys ∧
      ∀ t, (a.mergedWith b).get? t = (b.get? t).or ((a.remains b).get? t) := by
  refine ⟨List.map_append, fun t => ?_⟩
  rw [get?, entries_mergedWith, List.lookup_append]
  by_cases ht : t ∈ (a.remains b).keys
  · have hb : b.get? t = none := get?_eq_none_iff.mpr (not_mem_keys_of_mem_remains ht)
    rw [hb, Option.none_or, ← get?, ← get?, hb, Option.or_none]
  · rw [← get?, ← get?, get?_eq_none_iff.mpr ht, Option.none_or, Option.or_none]

/-- **Building.**  Every mapping is keyed, whatever it was built by.  An insert keeps the place of
the target or puts it at the end, and changes its natives only; a merge puts what is left of the
base in front of the overrides, which answer first.  Inserts gather natives under their targets; a
document with an object of lists is accepted, also with repeated keys, and of every document that
is accepted the last list of a key counts. -/
theorem built_keyed :
    (∀ m : Mapping, m.Keyed) ∧
    (∀ (m : Mapping) (target : String) (natives : List String),
      (m.insert target natives).keys =
        (if target ∈ m.keys then m.keys else m.keys ++ [target]) ∧
      ∀ t, (m.insert target natives).get? t =
        if t = target then some ((m.get? target).getD [] ++ natives) else m.get? t) ∧
    (∀ a b : Mapping,
      (a.mergedWith b).keys = (a.remains b).keys ++ b.keys ∧
      ∀ t, (a.mergedWith b).get? t = (b.get? t).or ((a.remains b).get? t)) ∧
    (∀ calls : List (String × List String), (ofList calls).Gathers calls) ∧
    (∀ (members : List (String × List String)) (v : Json.Tree) (source : Json.Source)
      (bytes : List UInt8), Listed members v → Json.LaidOut v.tokens bytes →
        ∃ m : Mapping, ofJson? source bytes = .ok m ∧ m.Recalls members) ∧
    ∀ (m : Mapping) (source : Json.Source) (bytes : List UInt8), ofJson? source bytes = .ok m →
      ∃ members, Json.read (Json.object (Json.list Json.text)) source bytes = .ok members ∧
        m.Recalls members := by
  refine ⟨keyed, fun m target natives => ⟨keys_alterEntry, fun t => get?_alter⟩, mergedWith_lays,
    ofList_gathers, fun members v source bytes h hbytes =>
      ⟨_, ofJson?_members h hbytes, ofMembers_recalls members⟩,
    fun m source bytes h => ?accepted⟩
  case accepted =>
    obtain ⟨members, hread, rfl⟩ := ofJson?_eq_ok.mp h
    exact ⟨members, hread, ofMembers_recalls members⟩

section Example

/-- An object that names a target again behind another, and one without natives. -/
def repeatedMembers : List (String × List String) :=
  [("string", ["numeric"]), ("number", ["int4"]), ("string", ["text"]), ("any", [])]

/-- The mapping that is read from it, with an insert, over that of a dialect. -/
theorem built_keyed_repeatedMembers :
    ∃ m : Mapping, ofJson? .stream (Json.bytesOf (membersJson repeatedMembers).compact) = .ok m ∧
      m.keys = ["string", "number", "any"] ∧ m.get? "string" = some ["text"] ∧
      (Dialect.sqlite.mapping.mergedWith (m.insert "string" ["uuid", "text"])).Keyed ∧
      (ofList repeatedMembers).get? "string" = some ["numeric", "text"] := by
  obtain ⟨hkeyed, -, -, hinserts, hdocument, -⟩ := built_keyed
  obtain ⟨m, hm, hrecalls⟩ := hdocument repeatedMembers _ .stream _
    (listed_membersJson repeatedMembers) (Json.laidOut_compact _)
  refine ⟨m, hm, hrecalls.keys.trans (by decide), (hrecalls.get? _).trans (by decide), ?_,
    ((hinserts repeatedMembers).get? _).trans (by decide)⟩
  exact hkeyed _

end Example

end Mapping

end RowTypes
