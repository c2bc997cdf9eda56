/-
AsioServer.Services.DBConnectionsTheorems — when the two back ends report alike.

`Reports` says what the JSON of a statement should hold: a result set exactly when the
statement has columns, and the numbers of the driver otherwise. MySQL tests for rows
where SQLite tests for columns, and both put 64-bit numbers into narrower ones;
`back_ends_report_iff` is the exact condition.
-/
import Mathlib.Tactic.Ring
import AsioServer.Services.DBConnections

namespace AsioServer.Services

open AsioServer.Core AsioServer.Infra

/-! ## Conversions -/

theorem signed_lt (w n : Nat) : signed (w + 1) n < 2 ^ w := by
  have hlt := @Int.bmod_lt n _ (Nat.two_pow_pos (w + 1))
  have hpow : ((2 ^ (w + 1) : Nat) : Int) = 2 * 2 ^ w := by push_cast; ring
  rw [hpow] at hlt
  unfold signed
  omega

/-- A conversion keeps exactly the numbers below half of the range. -/
theorem signed_eq_iff (w n : Nat) : signed (w + 1) n = n ↔ n < 2 ^ w := by
  have hcast : ((2 ^ w : Nat) : Int) = 2 ^ w := by push_cast; rfl
  constructor
  · intro h
    have hlt := signed_lt w n
    omega
  · intro h
    have hpow : ((2 ^ (w + 1) : Nat) : Int) = 2 * 2 ^ w := by push_cast; ring
    unfold signed
    apply Int.bmod_eq_of_le
    · omega
    · omega

/-- `sqlite3_changes` is exact as long as the count is an `int`. -/
def ChangesExact (changes : UInt64 → Int32) : Prop :=
  ∀ n, n.toNat < 2 ^ 31 → (changes n).toInt = n.toNat

theorem ChangesExact.eq_iff {changes : UInt64 → Int32} (h : ChangesExact changes) (n : UInt64) :
    (changes n).toInt = n.toNat ↔ n.toNat < 2 ^ 31 := by
  constructor
  · intro heq
    have hlt := (changes n).toInt_lt
    omega
  · exact h n

/-! ## The loop over `sqlite3_step` -/

theorem stepLoop_stepsOf (rows : List (List (Option Bytes))) (out : List (List Bytes)) :
    stepLoop out (stepsOf rows) = (out ++ rows.map fun row => row.map sqliteText, none) := by
  induction rows generalizing out with
  | nil => simp [stepsOf, stepLoop]
  | cons row rows ih => simp [stepsOf, stepLoop, ih]

/-! ## Reports -/

/-- The JSON of a result set: all column names, for every row one string per column, and
the number of rows. -/
structure IsResultSet {Id : Type} (o : StatementOutcome Id) (j : Json) : Prop where
  type : j.atKey (ascii "type") = some (.string (ascii "result_set"))
  columns : j.atKey (ascii "columns") = some (.array (o.columns.map .string))
  rows : ∃ rows : List (List Bytes),
    j.atKey (ascii "rows") = some (.array (rows.map fun row => .array (row.map .string))) ∧
      rows.length = o.rows.length ∧ ∀ row ∈ rows, row.length = o.columns.length
  rowCount : j.atKey (ascii "rowCount") = some (.integer o.rows.length)

/-- The JSON of any other statement: the numbers of the driver. -/
structure IsExecResult {Id : Type} (o : StatementOutcome Id) (id : Int) (j : Json) : Prop where
  type : j.atKey (ascii "type") = some (.string (ascii "exec_result"))
  affectedRows : j.atKey (ascii "affectedRows") = some (.integer o.affectedRows.toNat)
  lastInsertId : j.atKey (ascii "lastInsertId") = some (.integer id)

/-- What the JSON of a statement should be; `id` is the number that `lastInsertId` is. -/
def Reports {Id : Type} (o : StatementOutcome Id) (id : Int) (j : Json) : Prop :=
  (o.columns ≠ [] → IsResultSet o j) ∧ (o.columns = [] → IsExecResult o id j)

section Report

variable {Id : Type} {o : StatementOutcome Id} {id : Int}

/-- A result set with the texts of the rows, whatever a field's text is. -/
theorem isResultSet_makeResultJson (text : Option Bytes → Bytes) (r : DBResult)
    (hr : r.data = .resultSet o.columns (o.rows.map fun row => row.map text)) :
    IsResultSet o r.makeResultJson := by
  unfold DBResult.makeResultJson
  rw [hr]
  refine ⟨rfl, rfl, ⟨_, rfl, List.length_map .., ?_⟩, ?_⟩
  · intro row hrow
    obtain ⟨fields, hfields, rfl⟩ := List.mem_map.mp hrow
    rw [List.length_map, o.width fields hfields]
  · rw [← List.length_map (fun row => row.map text)]
    rfl

theorem isExecResult_makeResultJson_iff {affectedRows lastInsertId : Int} (r : DBResult)
    (hr : r.data = .execResult affectedRows lastInsertId) :
    IsExecResult o id r.makeResultJson ↔
      affectedRows = o.affectedRows.toNat ∧ lastInsertId = id := by
  unfold DBResult.makeResultJson
  rw [hr]
  constructor
  · intro h
    exact ⟨Json.integer.inj (Option.some.inj h.affectedRows),
      Json.integer.inj (Option.some.inj h.lastInsertId)⟩
  · rintro ⟨rfl, rfl⟩
    exact ⟨rfl, rfl, rfl⟩

theorem not_isResultSet_makeResultJson {affectedRows lastInsertId : Int} (r : DBResult)
    (hr : r.data = .execResult affectedRows lastInsertId) : ¬ IsResultSet o r.makeResultJson := by
  unfold DBResult.makeResultJson
  rw [hr]
  intro h
  exact absurd (Json.string.inj (Option.some.inj h.type)) (by decide)

end Report

/-! ## The two back ends -/

/-- MySQL reports a statement as it should exactly when a statement with columns has a
row, and one without has numbers that fit. -/
theorem mySQL_reports_iff (o : StatementOutcome UInt64) :
    Reports o o.lastInsertId.toNat (mySQLReport o) ↔
      (o.columns ≠ [] → o.rows ≠ []) ∧
      (o.columns = [] → o.affectedRows.toNat < 2 ^ 31 ∧ o.lastInsertId.toNat < 2 ^ 63) := by
  by_cases hrows : o.rows = []
  · have hdata : (mySQLExecute true (.results o)).2.data =
        .execResult (signed 32 o.affectedRows.toNat) (signed 64 o.lastInsertId.toNat) := by
      simp [mySQLExecute, hrows]
    have hexec : IsExecResult o o.lastInsertId.toNat (mySQLReport o) ↔
        o.affectedRows.toNat < 2 ^ 31 ∧ o.lastInsertId.toNat < 2 ^ 63 := by
      rw [mySQLReport, isExecResult_makeResultJson_iff _ hdata, signed_eq_iff 31, signed_eq_iff 63]
    have hset : ¬ IsResultSet o (mySQLReport o) := not_isResultSet_makeResultJson _ hdata
    unfold Reports
    rw [hexec]
    constructor
    · rintro ⟨hcolumns, hnone⟩
      exact ⟨fun hne => absurd (hcolumns hne) hset, hnone⟩
    · rintro ⟨hcolumns, hnone⟩
      exact ⟨fun hne => absurd hrows (hcolumns hne), hnone⟩
  · have hdata : (mySQLExecute true (.results o)).2.data =
        .resultSet o.columns (o.rows.map fun row => row.map mySQLText) := by
      simp [mySQLExecute, hrows]
    have hset : IsResultSet o (mySQLReport o) := isResultSet_makeResultJson mySQLText _ hdata
    have hne : o.columns ≠ [] := fun h => hrows (o.rows_nil h)
    constructor
    · exact fun _ => ⟨fun _ => hrows, fun h => absurd h hne⟩
    · exact fun _ => ⟨fun _ => hset, fun h => absurd h hne⟩

/-- SQLite reports a statement as it should exactly when the count of a statement without
columns is an `int`. -/
theorem sqlite_reports_iff {changes : UInt64 → Int32} (hchanges : ChangesExact changes)
    (o : StatementOutcome Int64) :
    Reports o o.lastInsertId.toInt (sqliteReport changes o) ↔
      (o.columns = [] → o.affectedRows.toNat < 2 ^ 31) := by
  by_cases hcolumns : o.columns = []
  · have hdata : (sqliteExecute changes o.sqliteAnswer).2.data =
        .execResult (changes o.affectedRows).toInt o.lastInsertId.toInt := by
      simp [sqliteExecute, StatementOutcome.sqliteAnswer, stepLoop_stepsOf, hcolumns]
    unfold Reports sqliteReport
    rw [isExecResult_makeResultJson_iff _ hdata, hchanges.eq_iff]
    simp [hcolumns]
  · have hdata : (sqliteExecute changes o.sqliteAnswer).2.data =
        .resultSet o.columns (o.rows.map fun row => row.map sqliteText) := by
      simp [sqliteExecute, StatementOutcome.sqliteAnswer, stepLoop_stepsOf,
        List.length_pos_iff.mpr hcolumns]
    have hset : IsResultSet o (sqliteReport changes o) :=
      isResultSet_makeResultJson sqliteText _ hdata
    constructor
    · exact fun _ h => absurd h hcolumns
    · exact fun _ => ⟨fun _ => hset, fun h => absurd h hcolumns⟩

/-- **The two back ends.** Both report a statement as they should exactly when a result set
of MySQL has a row, the counts of statements without columns are below 2^31, and the
insert id of MySQL is below 2^63. -/
theorem back_ends_report_iff {changes : UInt64 → Int32} (hchanges : ChangesExact changes)
    (m : StatementOutcome UInt64) (s : StatementOutcome Int64) :
    (Reports m m.lastInsertId.toNat (mySQLReport m) ∧
        Reports s s.lastInsertId.toInt (sqliteReport changes s)) ↔
      (m.columns ≠ [] → m.rows ≠ []) ∧
      (m.columns = [] → m.affectedRows.toNat < 2 ^ 31 ∧ m.lastInsertId.toNat < 2 ^ 63) ∧
      (s.columns = [] → s.affectedRows.toNat < 2 ^ 31) := by
  rw [mySQL_reports_iff, sqlite_reports_iff hchanges, and_assoc]

/-- `SELECT id FROM t` on an empty table. -/
def emptySelect {Id : Type} (lastInsertId : Id) : StatementOutcome Id where
  columns := [ascii "id"]
  rows := []
  affectedRows := 0
  lastInsertId := lastInsertId
  width := by simp
  rows_nil := by simp

/-- An `INSERT` of one row. -/
def oneInsert {Id : Type} (lastInsertId : Id) : StatementOutcome Id where
  columns := []
  rows := []
  affectedRows := 1
  lastInsertId := lastInsertId
  width := by simp
  rows_nil := by simp

theorem changesExact_ofInt : ChangesExact fun n => Int32.ofInt n.toNat := by
  intro n hn
  have hsize : Int32.size = 2 ^ 32 := rfl
  rw [Int32.toInt_ofInt]
  apply Int.bmod_eq_of_le
  · omega
  · omega

/-- An `INSERT` through MySQL, and an empty `SELECT` through SQLite. -/
theorem back_ends_report_iff_insert :
    Reports (oneInsert (7 : UInt64)) 7 (mySQLReport (oneInsert 7)) ∧
      Reports (emptySelect (0 : Int64)) 0
        (sqliteReport (fun n => Int32.ofInt n.toNat) (emptySelect 0)) := by
  have hm : (oneInsert (7 : UInt64)).columns ≠ [] → (oneInsert (7 : UInt64)).rows ≠ [] :=
    fun h => absurd rfl h
  have hcount : (oneInsert (7 : UInt64)).affectedRows.toNat < 2 ^ 31 ∧
      (oneInsert (7 : UInt64)).lastInsertId.toNat < 2 ^ 63 := by decide
  have hs : (emptySelect (0 : Int64)).columns = [] →
      (emptySelect (0 : Int64)).affectedRows.toNat < 2 ^ 31 := fun _ => by decide
  exact (back_ends_report_iff changesExact_ofInt (oneInsert 7) (emptySelect 0)).mpr
    ⟨hm, fun _ => hcount, hs⟩

/-- An empty `SELECT` is an `exec_result` for MySQL and a `result_set` for SQLite. -/
theorem empty_select_differs :
    ¬ Reports (emptySelect (0 : UInt64)) 0 (mySQLReport (emptySelect 0)) ∧
      (mySQLReport (emptySelect 0)).atKey (ascii "type") =
        some (.string (ascii "exec_result")) ∧
      (sqliteReport (fun n => Int32.ofInt n.toNat) (emptySelect 0)).atKey (ascii "type") =
        some (.string (ascii "result_set")) := by
  have htype : (mySQLReport (emptySelect 0)).atKey (ascii "type") =
      some (.string (ascii "exec_result")) := rfl
  refine ⟨fun h => ?_, htype, rfl⟩
  have hset := h.1 (by simp [emptySelect])
  exact absurd (Json.string.inj (Option.some.inj (htype.symm.trans hset.type))) (by decide)

end AsioServer.Services
