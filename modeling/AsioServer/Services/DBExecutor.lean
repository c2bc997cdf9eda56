/-
AsioServer.Services.DBExecutor — the pools that the database configuration sets up.

Translated from `DBExecutor::InitializeFromConfig` in `services/DBService/DBExecutor.cpp`,
`DBStruct.h` and `MySQLConnectionPool::Initialize`. The configuration is the JSON value
that `ConfigReader` has loaded. An exception of the JSON library ends the loop and leaves
the pools that it has set up; `valid` says for which pools the connections that
`Initialize` makes are valid.
-/
import AsioServer.Services.Handlers

namespace AsioServer.Services

open AsioServer.Core AsioServer.Infra

/-- The arguments of `MySQLConnectionPool`. -/
structure MySQLPool where
  poolSize : Nat
  host : Bytes
  port : Int
  user : Bytes
  pwd : Bytes
  database : Bytes
  deriving DecidableEq, Repr

/-- `GetConnectionCount` after `Initialize`, which makes half of the connections and
keeps them only if all are valid. -/
def MySQLPool.getConnectionCount (valid : MySQLPool → Bool) (pool : MySQLPool) : Nat :=
  if valid pool then pool.poolSize / 2 else 0

/-- `_connPools`. The pool of a `sqlite` entry is a null pointer. -/
abbrev ConnPools := List (DBKey × Option MySQLPool)

/-- `_connPools.emplace`, which keeps the pool that is there. -/
def ConnPools.emplace (pools : ConnPools) (key : DBKey) (pool : Option MySQLPool) : ConnPools :=
  if (pools.lookup key).isSome then pools else pools ++ [(key, pool)]

/-- `poolSize`: 1, or what the `pool` member says when it is enabled. -/
def readPoolSize (db : Json) : Option Nat := do
  if db.contains (ascii "pool") then
    let pool ← db.atKey (ascii "pool")
    if ← pool.value Json.getBool false (ascii "enable") then
      let size ← pool.value Json.getInt 4 (ascii "size")
      -- an `int` becomes a `size_t`
      return (size % 2 ^ 64).toNat
    else return 1
  else return 1

/-- The pool of a `mysql` entry, with the identifier under which it is kept. -/
def readMySQL (db : Json) : Option (Bytes × MySQLPool) := do
  let host ← (← db.atKey (ascii "host")).getString
  let port ← (← db.atKey (ascii "port")).getUInt16
  let user ← (← db.atKey (ascii "user")).getString
  let pwd ← (← db.atKey (ascii "password")).getString
  let database ← (← db.atKey (ascii "database")).getString
  let ident := host ++ ascii ":" ++ integerText port ++ ascii "/" ++ database
  let poolSize ← readPoolSize db
  return (ident, { poolSize, host, port, user, pwd, database })

/-- One round of the loop: what is emplaced, if anything; `none` is an exception. -/
def readEntry (valid : MySQLPool → Bool) (db : Json) :
    Option (Option (DBKey × Option MySQLPool)) := do
  let type ← (← db.atKey (ascii "type")).getString
  if type = ascii "mysql" then
    let (ident, pool) ← readMySQL db
    if pool.getConnectionCount valid = 0 then return none
    else return some ({ type, ident }, some pool)
  else if type = ascii "sqlite" then return some ({ type }, none)
  else return none

/-- The loop over the entries, and whether it comes to its end. -/
def readEntries (valid : MySQLPool → Bool) : List Json → ConnPools → Bool × ConnPools
  | [], pools => (true, pools)
  | db :: rest, pools =>
      match readEntry valid db with
      | none => (false, pools)
      | some none => readEntries valid rest pools
      | some (some (key, pool)) => readEntries valid rest (pools.emplace key pool)

/-- `InitializeFromConfig` on a configuration that was loaded, and whether it returns
true. -/
def initializeFromConfig (valid : MySQLPool → Bool) (cfg : Json) (pools : ConnPools) :
    Bool × ConnPools :=
  match cfg.atKey (ascii "databases") with
  | none => (false, pools)
  | some databases => readEntries valid databases.elements pools

end AsioServer.Services
