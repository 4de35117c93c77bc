import Kadalu.Data.RowTable
import Kadalu.Pool.Rebuild

/-!
# `stat.db` under several names

A `SizeAccounting` object has the name of its hosting volume, under which it writes the `summary`; a database that is opened under
several names has a row of each. `getStats` reads the first row of the table, whatever its name.

* `getStats_reports_iff`: the statistics are those of the own name exactly when the oldest of the last totals is as large as the
  own one.
* `freeSizeBytes_statDb`: a database that has only been opened under one name is the index of `Accounting.lean`.
-/

namespace Kadalu.StatDb

open Except RowTable

/-! ## The database -/

/-- The tables, `summary` in the order of its rows. -/
structure Db where
  summary : List (String × Int) := []
  pvStats : Rows := ∅

/-- `SizeAccounting`, as far as its statements use it -/
structure SizeAccounting where
  volname : String
  deriving DecidableEq, Repr

/-- What `get_stats` returns. -/
structure Stats where
  numberOfPvs : Nat
  totalSizeBytes : Int
  usedSizeBytes : Int
  freeSizeBytes : Int
  deriving DecidableEq, Repr

/-- `update_summary` -/
def SizeAccounting.updateSummary (acc : SizeAccounting) (size : Int) (db : Db) : Except Err Db := do
  let size ← validSize size
  pure { db with summary := insertOrReplace (acc.volname, size) db.summary }

/-- `update_pv_record` -/
def SizeAccounting.updatePvRecord (_ : SizeAccounting) (pvname : String) (size : Int) (db : Db) : Except Err Db := do
  let size ← validSize size
  pure { db with pvStats := db.pvStats.insert pvname size }

/-- `remove_pv_record` -/
def SizeAccounting.removePvRecord (_ : SizeAccounting) (pvname : String) (db : Db) : Except Err Db :=
  pure { db with pvStats := db.pvStats.erase pvname }

/-- `rename_pv_record` -/
def SizeAccounting.renamePvRecord (_ : SizeAccounting) (oldName newName : String) (size : Int) (db : Db) : Except Err Db := do
  let size ← validSize size
  pure { db with pvStats := ((db.pvStats.erase oldName).erase newName).insert newName size }

/-- `summary_record[1]` of the first row that `SELECT volname, size FROM summary` gives. -/
def summaryRecord (db : Db) : Except Err Int :=
  match db.summary.head? with
  | some record => validSize record.2
  | none => pure 0

/-- `get_stats` -/
def SizeAccounting.getStats (_ : SizeAccounting) (db : Db) : Except Err Stats := do
  if db.pvStats.entries.any (·.2 ≤ 0) then throw (.value "capacity accounting contains an invalid size")
  let totalSizeBytes ← summaryRecord db
  pure
    { numberOfPvs := db.pvStats.entries.length
      totalSizeBytes
      usedSizeBytes := db.pvStats.total
      freeSizeBytes := totalSizeBytes - db.pvStats.total }

/-! ## Operations -/

inductive Op where
  | updateSummary (size : Int)
  | updatePvRecord (pvname : String) (size : Int)
  | removePvRecord (pvname : String)
  | renamePvRecord (oldName newName : String) (size : Int)
  deriving DecidableEq, Repr

/-- An operation through an object. -/
def SizeAccounting.perform (acc : SizeAccounting) : Op → Db → Except Err Db
  | .updateSummary size => acc.updateSummary size
  | .updatePvRecord pvname size => acc.updatePvRecord pvname size
  | .removePvRecord pvname => acc.removePvRecord pvname
  | .renamePvRecord oldName newName size => acc.renamePvRecord oldName newName size

/-- An operation that raises leaves the database as it is. -/
def step (db : Db) (call : SizeAccounting × Op) : Db :=
  match call.1.perform call.2 db with
  | .ok db' => db'
  | .error _ => db

/-- A sequence of operations on a fresh database. -/
def run (calls : List (SizeAccounting × Op)) : Db := calls.foldl step {}

/-! ## What the operations have said -/

/-- The total that an operation gives to its name. -/
def written : SizeAccounting × Op → Option (String × Int)
  | (acc, .updateSummary size) => if 0 < size then some (acc.volname, size) else none
  | _ => none

/-- The total last given through an object. -/
def lastTotal (acc : SizeAccounting) (calls : List (SizeAccounting × Op)) : Option Int :=
  (calls.filterMap written).reverse.lookup acc.volname

/-- Of the totals last given to each name the one that was given first. -/
def oldestTotal (calls : List (SizeAccounting × Op)) : Option Int :=
  ((lastWrites (calls.filterMap written)).head?).map Prod.snd

/-- The size of a volume after an operation. -/
def recordedBy (pvname : String) (size : Option Int) : Op → Option Int
  | .updateSummary _ => size
  | .updatePvRecord name n => if 0 < n ∧ pvname = name then some n else size
  | .removePvRecord name => if pvname = name then none else size
  | .renamePvRecord oldName newName n =>
    if n ≤ 0 then size else if pvname = newName then some n else if pvname = oldName then none else size

/-- The size that the operations have left for a volume. -/
def recorded (pvname : String) (calls : List (SizeAccounting × Op)) : Option Int :=
  calls.foldl (fun size call => recordedBy pvname size call.2) none

/-- The statistics are those of the object: its own total, the sizes of all volumes, and their difference. -/
structure Reports (calls : List (SizeAccounting × Op)) (acc : SizeAccounting) (stats : Stats) : Prop where
  total : stats.totalSizeBytes = (lastTotal acc calls).getD 0
  used : ∃ rows : Rows, (∀ pvname, rows.lookup pvname = recorded pvname calls) ∧ stats.usedSizeBytes = rows.total
  free : stats.freeSizeBytes = stats.totalSizeBytes - stats.usedSizeBytes

/-! ## What a run leaves -/

variable {calls : List (SizeAccounting × Op)} {call : SizeAccounting × Op} {acc : SizeAccounting} {db : Db}

theorem run_append : run (calls ++ [call]) = step (run calls) call := by
  rw [run, List.foldl_append]
  rfl

/-- Each operation writes the row that it gives to `summary`, and nothing else there. -/
theorem step_summary : (step db call).summary = (written call).elim db.summary (insertOrReplace · db.summary) := by
  obtain ⟨acc, op⟩ := call
  cases op with
  | updateSummary size =>
    by_cases hsize : 0 < size
    · simp [step, SizeAccounting.perform, SizeAccounting.updateSummary, validSize, written, hsize, Int.not_le.mpr hsize]
    · simp [step, SizeAccounting.perform, SizeAccounting.updateSummary, validSize, written, hsize, Int.not_lt.mp hsize]
  | updatePvRecord pvname size =>
    by_cases hsize : size ≤ 0 <;> simp [step, SizeAccounting.perform, SizeAccounting.updatePvRecord, validSize, written, hsize]
  | removePvRecord pvname => rfl
  | renamePvRecord oldName newName size =>
    by_cases hsize : size ≤ 0 <;> simp [step, SizeAccounting.perform, SizeAccounting.renamePvRecord, validSize, written, hsize]

/-- Each operation changes the size of each volume as it says. -/
theorem step_pvStats {pvname : String} :
    (step db call).pvStats.lookup pvname = recordedBy pvname (db.pvStats.lookup pvname) call.2 := by
  obtain ⟨acc, op⟩ := call
  cases op with
  | updateSummary size =>
    by_cases hsize : size ≤ 0 <;>
      simp [step, SizeAccounting.perform, SizeAccounting.updateSummary, validSize, recordedBy, hsize]
  | updatePvRecord name size =>
    by_cases hsize : size ≤ 0
    · simp [step, SizeAccounting.perform, SizeAccounting.updatePvRecord, validSize, recordedBy, hsize, Int.not_lt.mpr hsize]
    · have hstep : (step db (acc, .updatePvRecord name size)).pvStats = db.pvStats.insert name size := by
        simp [step, SizeAccounting.perform, SizeAccounting.updatePvRecord, validSize, hsize]
      rw [hstep, recordedBy]
      by_cases hname : pvname = name
      · subst hname
        rw [AList.lookup_insert, if_pos ⟨Int.not_le.mp hsize, rfl⟩]
      · rw [AList.lookup_insert_ne hname, if_neg fun h => hname h.2]
  | removePvRecord name =>
    have hstep : (step db (acc, .removePvRecord name)).pvStats = db.pvStats.erase name := rfl
    rw [hstep, recordedBy]
    by_cases hname : pvname = name
    · subst hname
      rw [AList.lookup_erase, if_pos rfl]
    · rw [AList.lookup_erase_ne hname, if_neg hname]
  | renamePvRecord oldName newName size =>
    by_cases hsize : size ≤ 0
    · simp [step, SizeAccounting.perform, SizeAccounting.renamePvRecord, validSize, recordedBy, hsize]
    · have hstep : (step db (acc, .renamePvRecord oldName newName size)).pvStats =
          ((db.pvStats.erase oldName).erase newName).insert newName size := by
        simp [step, SizeAccounting.perform, SizeAccounting.renamePvRecord, validSize, hsize]
      rw [hstep, recordedBy, if_neg hsize]
      by_cases hnew : pvname = newName
      · subst hnew
        rw [AList.lookup_insert, if_pos rfl]
      · rw [AList.lookup_insert_ne hnew, AList.lookup_erase_ne hnew, if_neg hnew]
        by_cases hold : pvname = oldName
        · subst hold
          rw [AList.lookup_erase, if_pos rfl]
        · rw [AList.lookup_erase_ne hold, if_neg hold]

theorem run_summary : (run calls).summary = lastWrites (calls.filterMap written) := by
  induction calls using List.reverseRecOn with
  | nil => rfl
  | append_singleton calls call ih =>
    rw [run_append, step_summary, ih, List.filterMap_append]
    cases hcall : written call with
    | none => simp [hcall]
    | some row => simp [hcall, lastWrites_append]

theorem run_pvStats {pvname : String} : (run calls).pvStats.lookup pvname = recorded pvname calls := by
  induction calls using List.reverseRecOn with
  | nil => rfl
  | append_singleton calls call ih =>
    rw [run_append, step_pvStats, ih, recorded, recorded, List.foldl_append]
    rfl

/-- Every size of a run is positive. -/
theorem run_pvStats_pos {pvname : String} {n : Int} (h : (run calls).pvStats.lookup pvname = some n) : 0 < n := by
  induction calls using List.reverseRecOn generalizing pvname with
  | nil => cases h
  | append_singleton calls call ih =>
    rw [run_append, step_pvStats] at h
    unfold recordedBy at h
    split at h
    · exact ih h
    · split at h
      · rename_i hsize
        cases h
        exact hsize.1
      · exact ih h
    · split at h
      · cases h
      · exact ih h
    · split at h
      · exact ih h
      · rename_i hsize
        split at h
        · cases h
          exact Int.not_le.mp hsize
        · split at h
          · cases h
          · exact ih h

theorem written_pos {row : String × Int} (h : row ∈ calls.filterMap written) : 0 < row.2 := by
  obtain ⟨⟨acc, op⟩, -, hrow⟩ := List.mem_filterMap.mp h
  unfold written at hrow
  split at hrow
  · split at hrow
    · rename_i hsize
      cases hrow
      exact hsize
    · cases hrow
  · cases hrow

/-- `get_stats` never raises on what the operations have left, and its total is the oldest of the last ones. -/
theorem getStats_run : acc.getStats (run calls) = .ok
    { numberOfPvs := (run calls).pvStats.entries.length
      totalSizeBytes := (oldestTotal calls).getD 0
      usedSizeBytes := (run calls).pvStats.total
      freeSizeBytes := (oldestTotal calls).getD 0 - (run calls).pvStats.total } := by
  have hvalid : (run calls).pvStats.entries.any (·.2 ≤ 0) = false := by
    rw [List.any_eq_false]
    intro f hf
    have := run_pvStats_pos (AList.mem_lookup_iff.mpr hf)
    simpa using this
  have htotal : summaryRecord (run calls) = .ok ((oldestTotal calls).getD 0) := by
    rw [summaryRecord, oldestTotal, run_summary]
    cases hrows : lastWrites (calls.filterMap written) with
    | nil => rfl
    | cons row rows =>
      have hpos : 0 < row.2 := written_pos (lastWrites_subset (hrows ▸ List.mem_cons_self))
      exact validSize_ok.mpr ⟨hpos, rfl⟩
  rw [SizeAccounting.getStats, hvalid, if_neg Bool.false_ne_true, htotal]
  rfl

/-- The totals of an object are positive. -/
theorem lastTotal_pos {n : Int} (h : lastTotal acc calls = some n) : 0 < n :=
  written_pos (List.mem_reverse.mp (mem_of_lookup h))

theorem oldestTotal_pos {n : Int} (h : oldestTotal calls = some n) : 0 < n := by
  obtain ⟨row, hrow, rfl⟩ := Option.map_eq_some_iff.mp h
  exact written_pos (lastWrites_subset (List.mem_of_mem_head? hrow))

/-- **The statistics of a name.** They are right exactly when the oldest of the last totals is as large as the own one. -/
theorem getStats_reports_iff (calls : List (SizeAccounting × Op)) (acc : SizeAccounting) :
    (∃ stats, acc.getStats (run calls) = .ok stats ∧ Reports calls acc stats) ↔ oldestTotal calls = lastTotal acc calls := by
  constructor
  · rintro ⟨stats, hstats, hreports⟩
    rw [getStats_run] at hstats
    cases hstats
    have htotal : (oldestTotal calls).getD 0 = (lastTotal acc calls).getD 0 := hreports.total
    -- a total that has been given is not zero
    cases hold : oldestTotal calls with
    | none =>
      cases hown : lastTotal acc calls with
      | none => rfl
      | some n =>
        have := lastTotal_pos hown
        rw [hold, hown] at htotal
        simp at htotal
        omega
    | some m =>
      have := oldestTotal_pos hold
      cases hown : lastTotal acc calls with
      | none =>
        rw [hold, hown] at htotal
        simp at htotal
        omega
      | some n =>
        rw [hold, hown] at htotal
        exact congrArg some htotal
  · intro h
    exact ⟨_, getStats_run, by rw [h], ⟨(run calls).pvStats, fun _ => run_pvStats, rfl⟩, rfl⟩

/-- Two pools share a database, and the second one reports the total of the first. -/
theorem getStats_other_name :
    ¬∃ stats, (SizeAccounting.mk "b").getStats (run [(⟨"a"⟩, .updateSummary 100), (⟨"b"⟩, .updateSummary 200)]) = .ok stats ∧
      Reports [(⟨"a"⟩, .updateSummary 100), (⟨"b"⟩, .updateSummary 200)] ⟨"b"⟩ stats := by
  rintro ⟨stats, hstats, hreports⟩
  have htotal := hreports.total
  rw [getStats_run] at hstats
  cases hstats
  exact absurd htotal (by decide)

/-! ## One name -/

/-- The database of a pool that has only been opened under one name. -/
def statDb (volname : String) (s : Pool) : Db where
  summary := (s.summary.map (volname, ·)).toList
  pvStats := s.rows

/-- The free size of the index is that of its database. -/
theorem freeSizeBytes_statDb (s : Pool) (acc : SizeAccounting) :
    freeSizeBytes s = (acc.getStats (statDb acc.volname s)).map Stats.freeSizeBytes := by
  unfold freeSizeBytes SizeAccounting.getStats statDb summaryRecord
  split
  · rfl
  · cases s.summary with
    | none => rfl
    | some size =>
      simp only [Option.map_some, Option.toList_some, List.head?_cons]
      unfold validSize
      split <;> rfl

/-- A new total of the pool is one of its database. -/
theorem updateSummary_statDb (s : Pool) (acc : SizeAccounting) (size : Int) :
    (updateSummary s size).map (statDb acc.volname) = acc.updateSummary size (statDb acc.volname s) := by
  unfold updateSummary SizeAccounting.updateSummary validSize
  split
  · rfl
  · cases h : s.summary with
    | none => simp [statDb, h, insertOrReplace]; rfl
    | some k => simp [statDb, h, insertOrReplace]; rfl

end Kadalu.StatDb
