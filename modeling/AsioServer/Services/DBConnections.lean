/-
AsioServer.Services.DBConnections — how the two back ends report a statement.

Translated from `MySQLConnection::Execute` and `SqliteConnection::Execute`. The drivers
are outside: `MySQLAnswer` and `SqliteAnswer` are what they answer to one statement, and
`changes` is `sqlite3_changes`, an `int`, as a function of the true count. A field is
its text, or `none` for NULL.
-/
import AsioServer.Services.Handlers

namespace AsioServer.Services

open AsioServer.Core AsioServer.Infra

/-- What a statement produced, as the driver reports it. -/
structure StatementOutcome (Id : Type) where
  columns : List Bytes
  rows : List (List (Option Bytes))
  affectedRows : UInt64
  lastInsertId : Id
  /-- A row has one field for each column. -/
  width : ∀ row ∈ rows, row.length = columns.length
  rows_nil : columns = [] → rows = []

/-- The conversion of an unsigned number to a signed type of `w` bits. -/
def signed (w n : Nat) : Int := (n : Int).bmod (2 ^ w)

/-! ## MySQL -/

/-- What `async_execute` comes to. -/
inductive MySQLAnswer where
  /-- An exception with its text. -/
  | throws (what : Bytes)
  | results (result : StatementOutcome UInt64)

/-- A field, as it is written into a string stream. -/
def mySQLText : Option Bytes → Bytes
  | none => []
  | some text => text

/-- `MySQLConnection::Execute`, with what it leaves in `out`. -/
def mySQLExecute (isConnected : Bool) (answer : MySQLAnswer) : Bool × DBResult :=
  if !isConnected then (false, { errorMsg := ascii "MySQL Connection Not Valid" })
  else
    match answer with
    | .throws what => (false, { errorMsg := what })
    | .results result =>
        let affectedRows := signed 32 result.affectedRows.toNat
        let lastInsertId := signed 64 result.lastInsertId.toNat
        if !result.rows.isEmpty then
          (true, { data := .resultSet result.columns
                    (result.rows.map fun row => row.map mySQLText) })
        else (true, { data := .execResult affectedRows lastInsertId })

/-! ## SQLite -/

/-- What the calls of `sqlite3_step` answer, one after the other. -/
inductive SqliteSteps where
  | done
  | error (msg : Bytes)
  | row (fields : List (Option Bytes)) (rest : SqliteSteps)

/-- What `sqlite3_prepare_v2` and the statement come to. -/
inductive SqliteAnswer where
  | notPrepared (msg : Bytes)
  | prepared (columns : List Bytes) (steps : SqliteSteps) (affectedRows : UInt64)
      (lastInsertId : Int64)

/-- A field as a C string, which ends at the first NUL. -/
def sqliteText : Option Bytes → Bytes
  | none => []
  | some text => text.takeWhile (· ≠ 0)

/-- The loop over `sqlite3_step`: the rows in `out`, and the error if one ends it. -/
def stepLoop (out : List (List Bytes)) : SqliteSteps → List (List Bytes) × Option Bytes
  | .done => (out, none)
  | .error msg => (out, some msg)
  | .row fields rest => stepLoop (out ++ [fields.map sqliteText]) rest

/-- `SqliteConnection::Execute`, with what it leaves in `out`. -/
def sqliteExecute (changes : UInt64 → Int32) (answer : SqliteAnswer) : Bool × DBResult :=
  match answer with
  | .notPrepared msg => (false, { errorMsg := msg })
  | .prepared columns steps affectedRows lastInsertId =>
      let (rows, error) := stepLoop [] steps
      let data := if columns.length > 0 then ResultData.resultSet columns rows else .none
      match error with
      | some msg => (false, { errorMsg := msg, data })
      | none =>
          match data with
          | .resultSet .. => (true, { data })
          | _ => (true, { data := .execResult (changes affectedRows).toInt lastInsertId.toInt })

/-! ## Truthful drivers -/

/-- The steps that produce the rows. -/
def stepsOf : List (List (Option Bytes)) → SqliteSteps
  | [] => .done
  | row :: rows => .row row (stepsOf rows)

/-- What SQLite answers for the outcome. -/
def StatementOutcome.sqliteAnswer (o : StatementOutcome Int64) : SqliteAnswer :=
  .prepared o.columns (stepsOf o.rows) o.affectedRows o.lastInsertId

/-- The JSON of a statement that MySQL has executed. -/
def mySQLReport (o : StatementOutcome UInt64) : Json :=
  (mySQLExecute true (.results o)).2.makeResultJson

/-- The JSON of a statement that SQLite has executed. -/
def sqliteReport (changes : UInt64 → Int32) (o : StatementOutcome Int64) : Json :=
  (sqliteExecute changes o.sqliteAnswer).2.makeResultJson

end AsioServer.Services
