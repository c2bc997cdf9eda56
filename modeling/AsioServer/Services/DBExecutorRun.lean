/-
AsioServer.Services.DBExecutorRun — `DBExecutor` with many calls at a time.

Translated from `ExecuteRequest` and `Shutdown` in `services/DBService/DBExecutor.cpp`.
`DBPools` takes one call after the other; here every call is at a place of its own
(`CallPlace`), and an event lets one of them take its next step. A step is what the
source does under `_mutex`, under the mutex of one pool, or without a lock. From
`Acquire` on a call is a request of its pool, which steps by `poolStep`.

A pool that has lost its entry lives on for the calls that have found it before, so the
pools stand in a list of their own and the table holds their places; a null pointer is
`none`. `Shutdown` keeps `_mutex` while it closes one pool after the other, in the order
of the label, as the table is unordered. `CloseAll` through a null pointer ends the run.
-/
import AsioServer.Services.DBPools

namespace AsioServer.Services

open AsioServer.Core AsioServer.Infra AsioServer.Lib

/-- Where an `ExecuteRequest` is. -/
inductive CallPlace where
  /-- Before the lookup. -/
  | entering
  /-- The pool is to be closed next. -/
  | closing (pool : Nat)
  /-- The pool is closed, its entry is to be erased next. -/
  | erasing (pool : Nat)
  /-- From `Acquire` on: a request of the pool. -/
  | atPool (pool : Nat) (request : Nat)
  /-- "Connection pool not found" is returned. -/
  | notFound
  /-- The success of a `close` is returned. -/
  | closed
  deriving DecidableEq, Repr

/-- The pool that the call has found and still has to do with. -/
def CallPlace.pool : CallPlace → Option Nat
  | .closing p | .erasing p | .atPool p _ => some p
  | .entering | .notFound | .closed => none

/-- An `ExecuteRequest`. -/
structure Call where
  request : DBRequest
  place : CallPlace := .entering
  deriving DecidableEq, Repr

/-- `DBExecutor` with the calls on it. -/
structure Executor where
  connPools : List (DBKey × Option Nat)
  pools : List PoolState
  calls : List Call := []
  /-- The entries whose pools the `Shutdown` that holds `_mutex` has still to close. -/
  shutdown : Option (List (DBKey × Option Nat)) := none
  /-- `CloseAll` was called through a null pointer. -/
  nullCall : Bool := false
  deriving DecidableEq, Repr

/-- The steps. -/
inductive ExecutorEvent where
  /-- `ExecuteRequest` is called. -/
  | executeRequest (request : DBRequest)
  /-- Call `i` looks its pool up. -/
  | find (i : Nat)
  /-- A request of the pool takes a step. -/
  | request (pool : Nat) (event : PoolEvent)
  /-- Call `i` closes its pool. -/
  | closeAll (i : Nat)
  /-- Call `i` erases the entry. -/
  | erase (i : Nat)
  /-- `Shutdown` takes `_mutex`. -/
  | lock
  /-- `Shutdown` closes the pool of an entry. -/
  | closeEntry (entry : DBKey × Option Nat)
  /-- `Shutdown` clears the table and returns. -/
  | clear
  deriving DecidableEq, Repr

namespace Executor

/-- The table with its pools numbered, from `n` on. -/
def number : Nat → PoolTable → List (DBKey × Option Nat)
  | _, [] => []
  | n, (key, none) :: rest => (key, none) :: number n rest
  | n, (key, some _) :: rest => (key, some n) :: number (n + 1) rest

/-- The pools of the table, before the first request. -/
def started : PoolTable → List PoolState
  | [] => []
  | (_, none) :: rest => started rest
  | (_, some pool) :: rest => { pool, nextConn := pool.idle.length } :: started rest

/-- The executor after `InitializeFromConfig`. -/
def ofTable (table : PoolTable) : Executor :=
  { connPools := number 0 table, pools := started table }

/-- Call `i` goes on at another place. -/
def put (s : Executor) (i : Nat) (c : Call) (place : CallPlace) : Executor :=
  { s with calls := s.calls.set i { c with place } }

/-- A pool takes a step. -/
def stepPool (s : Executor) (p : Nat) (event : PoolEvent) : Option Executor :=
  (s.pools[p]?).bind fun pool =>
    (poolStep pool event).map fun pool => { s with pools := s.pools.set p pool }

/-- The lookup of call `i`, and what it leads to. -/
def findBy (s : Executor) (i : Nat) (c : Call) : Option Executor :=
  match s.connPools.lookup c.request.key with
  | some (some p) =>
      if c.request.cmd = ascii "close" then some (s.put i c (.closing p))
      else
        (s.pools[p]?).bind fun pool =>
          (s.stepPool p (.arrive i)).map fun s => s.put i c (.atPool p pool.requests.length)
  | _ => some (s.put i c .notFound)

end Executor

/-- One step of a call, from the place it has reached. -/
def callStep (s : Executor) (i : Nat) (c : Call) : ExecutorEvent → Option Executor
  | .find _ =>
      match c.place with
      | .entering => if s.shutdown.isSome then none else s.findBy i c
      | _ => none
  | .closeAll _ =>
      match c.place with
      | .closing p => (s.stepPool p .closeAll).map fun s => s.put i c (.erasing p)
      | _ => none
  | .erase _ =>
      match c.place with
      | .erasing _ =>
          if s.shutdown.isSome then none
          else
            some ({ s with connPools := Table.erase s.connPools c.request.key }.put i c .closed)
      | _ => none
  | _ => none

/-- One step of the executor. -/
def executorStep (s : Executor) (a : ExecutorEvent) : Option Executor :=
  if s.nullCall then none
  else
    match a with
    | .executeRequest request => some { s with calls := s.calls ++ [{ request }] }
    | .find i | .closeAll i | .erase i => (s.calls[i]?).bind fun c => callStep s i c a
    | .request p event => if event.actor.isSome then s.stepPool p event else none
    | .lock => if s.shutdown.isSome then none else some { s with shutdown := some s.connPools }
    | .closeEntry entry =>
        match s.shutdown with
        | some entries =>
            if entry ∈ entries then
              let s := { s with shutdown := some (entries.erase entry) }
              match entry.2 with
              | some p => s.stepPool p .closeAll
              | none => some { s with nullCall := true }
            else none
        | none => none
    | .clear =>
        match s.shutdown with
        | some [] => some { s with connPools := [], shutdown := none }
        | _ => none

end AsioServer.Services
