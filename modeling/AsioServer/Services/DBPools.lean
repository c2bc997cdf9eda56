/-
AsioServer.Services.DBPools — the table of pools with the pools in it.

Translated from `DBExecutor` in `services/DBService/DBExecutor.cpp`. `DBExecutor` keeps
of a pool its arguments only; here the table holds the pool that `Initialize` leaves
behind, and `ExecuteRequest` and `Shutdown` work on it. Calls come one after the other,
so an `Acquire` finds nobody who could release a connection while it waits.

`attempts` says which connection attempts succeed: the entry of the configuration by its
position, the arguments of its pool, the number of the attempt.
-/
import AsioServer.Lib.Table
import AsioServer.Services.DBConnectionPool
import AsioServer.Services.DBExecutor

namespace AsioServer.Services

open AsioServer.Core AsioServer.Infra AsioServer.Lib

/-- `DBConnectionPool::Acquire`, when nobody else uses the pool. `created` is what
`CreateConnection` would return. -/
def Pool.acquireAlone (created : Option Conn) (p : Pool) : Option Conn × Pool :=
  if p.closed then (none, p)
  else
    match p.pass with
    | (.take c, p) => (some c, p)
    | (.create, p) =>
        match created with
        | some c => (some c, p)
        | none => (none, p.rollback)
    | (.wait, p) => (none, p)

/-! ## Setting the pools up -/

/-- `_connPools`; a null pointer is `none`. -/
abbrev PoolTable := List (DBKey × Option Pool)

/-- The constructor of `MySQLConnectionPool`. -/
def createPool (attempts : Nat → Bool) (args : MySQLPool) : Pool :=
  (mySqlInitialize args.poolSize attempts).1

/-- Whether all connections that `Initialize` makes are valid. -/
def completes (attempts : MySQLPool → Nat → Bool) (args : MySQLPool) : Bool :=
  (mySqlInitialize args.poolSize (attempts args)).2

/-- One round of the loop: what is emplaced, if anything; `none` is an exception. -/
def setUpEntry (attempts : MySQLPool → Nat → Bool) (db : Json) :
    Option (Option (DBKey × Option Pool)) :=
  (readEntry (completes attempts) db).map fun entry =>
    entry.map fun (key, args) => (key, args.map fun args => createPool (attempts args) args)

/-- The loop over the entries, and whether it comes to its end. -/
def setUpEntries (attempts : Nat → MySQLPool → Nat → Bool) :
    List Json → PoolTable → Bool × PoolTable
  | [], table => (true, table)
  | db :: rest, table =>
      match setUpEntry (attempts 0) db with
      | none => (false, table)
      | some none => setUpEntries (fun i => attempts (i + 1)) rest table
      | some (some (key, pool)) =>
          setUpEntries (fun i => attempts (i + 1)) rest (Table.emplace table key pool)

/-- `InitializeFromConfig` on a configuration that was loaded, and whether it returns
true. -/
def setUpFromConfig (attempts : Nat → MySQLPool → Nat → Bool) (cfg : Json) : Bool × PoolTable :=
  match cfg.atKey (ascii "databases") with
  | none => (false, [])
  | some databases => setUpEntries attempts databases.elements []

/-! ## Requests -/

/-- What the database answers during one `ExecuteRequest`. -/
structure DBAnswer where
  /-- What `CreateConnection` returns. -/
  created : Option Conn
  /-- `Execute`: what it returns, and what it leaves in `out`. -/
  statement : Bytes → Bool × DBResult

/-- `DBExecutor::ExecuteRequest`. -/
def executeOn (answer : DBAnswer) (request : DBRequest) (table : PoolTable) :
    DBResult × PoolTable :=
  match table.lookup request.key with
  | some (some pool) =>
      if request.cmd = ascii "close" then
        -- the pool that `CloseAll` has emptied goes with its entry
        ({ success := true }, Table.erase table request.key)
      else
        match pool.acquireAlone answer.created with
        | (none, pool) =>
            ({ errorMsg := ascii "Acquire connection timeout" },
              Table.assign table request.key (some pool))
        | (some conn, pool) =>
            let res := answer.statement request.sql
            ({ res.2 with success := res.1 },
              Table.assign table request.key (some (pool.release conn)))
  | _ => ({ errorMsg := ascii "Connection pool not found" }, table)

/-- `DBExecutor` between two calls. -/
structure DBExecutor where
  connPools : PoolTable
  /-- `CloseAll` was called through a null pointer. -/
  nullCall : Bool := false

/-- The calls. -/
inductive DBCall where
  | executeRequest (answer : DBAnswer) (request : DBRequest)
  | shutdown

/-- One call. -/
def dbStep (s : DBExecutor) : DBCall → Option DBExecutor
  | .executeRequest answer request =>
      some { s with connPools := (executeOn answer request s.connPools).2 }
  | .shutdown =>
      some { connPools := [], nullCall := s.nullCall || s.connPools.any fun e => e.2.isNone }

end AsioServer.Services
