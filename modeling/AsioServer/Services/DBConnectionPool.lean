/-
AsioServer.Services.DBConnectionPool — the database connection pool and the
requests that share it.

Translated from `services/DBService/DBConnectionPool.{h,cpp}`,
`MySQLConnectionPool.cpp` (`Initialize`) and the part of
`DBExecutor::ExecuteRequest` that acquires, uses and releases a connection.

`Pool` holds the fields of `DBConnectionPool`; its functions are the critical
sections the source runs under `_mutex`. `PoolState` adds the requests in
flight, each with the place its coroutine has reached (`Place`), and
`poolStep` lets one of them take its next step. A step is one critical section
or one call made without the lock, so every interleaving of the source is a
run. What the environment decides is in the event: whether `CreateConnection`
and `Execute` succeed, whether `wait_until` returns by a wake-up or by its
deadline (a wake-up may also be spurious), and whom `notify_one` wakes.
-/
import Mathlib.Algebra.Group.Nat.Defs
import AsioServer.Lib.Monitor
import AsioServer.Lib.Transition

namespace AsioServer.Services

open AsioServer.Lib

/-- A `std::shared_ptr<DBConnection>`: the object it points to. -/
abbrev Conn := Nat

/-- `size_t` decrement, which wraps below zero. -/
def sizeDecr (n : Nat) : Nat := if n = 0 then 2 ^ 64 - 1 else n - 1

/-! ## DBConnectionPool -/

/-- The fields of `DBConnectionPool`. -/
structure Pool where
  idle : List Conn
  max : Nat
  created : Nat
  closed : Bool
  deriving DecidableEq, Repr

/-- What one pass through the loop of `Acquire` comes to. -/
inductive Pass where
  /-- An idle connection is taken and returned. -/
  | take (c : Conn)
  /-- The counter was raised and the lock is released to create a connection. -/
  | create
  /-- The pass ends in `wait_until`. -/
  | wait
  deriving DecidableEq, Repr

namespace Pool

/-- One pass through the loop of `DBConnectionPool::Acquire`, under the lock. -/
def pass (p : Pool) : Pass × Pool :=
  match p.idle with
  | c :: rest => (.take c, { p with idle := rest })
  | [] =>
      -- the test keeps `_created` below `_max`, so the increment does not wrap
      if p.created < p.max then (.create, { p with created := p.created + 1 })
      else (.wait, p)

/-- The roll-back of `Acquire` after `CreateConnection` returned null. -/
def rollback (p : Pool) : Pool := { p with created := sizeDecr p.created }

/-- `DBConnectionPool::Release`: a closed pool lets the connection go. -/
def release (p : Pool) (c : Conn) : Pool :=
  if p.closed then p else { p with idle := p.idle ++ [c] }

/-- `DBConnectionPool::CloseAll`. -/
def closeAll (p : Pool) : Pool := { p with closed := true, idle := [] }

end Pool

/-- The loop of `MySQLConnectionPool::Initialize`: `n` more connections, each
pushed when it is valid. `false` is the exception of the first that is not. -/
def initLoop (valid : Nat → Bool) : Nat → List Conn → List Conn × Bool
  | 0, idle => (idle, true)
  | n + 1, idle =>
      if valid idle.length then initLoop valid n (idle ++ [idle.length]) else (idle, false)

/-- `MySQLConnectionPool::Initialize` on a new pool: half of the connections are
made in advance. The flag says whether it completed normally; the counter is
set only then. -/
def mySqlInitialize (max : Nat) (valid : Nat → Bool) : Pool × Bool :=
  let r := initLoop valid (max / 2) []
  ({ idle := r.1, max, created := if r.2 then r.1.length else 0, closed := false }, r.2)

/-! ## Requests -/

/-- How an `ExecuteRequest` that asks for a statement ended. -/
inductive Outcome where
  /-- `Acquire` found the pool closed. -/
  | refused
  /-- `wait_until` reported the deadline. -/
  | timedOut
  /-- `CreateConnection` returned null. -/
  | notCreated
  /-- The statement was executed and the connection released. -/
  | executed (ok : Bool)
  deriving DecidableEq, Repr

/-- Where the coroutine of a request is. -/
inductive Place where
  /-- Before `Acquire`. -/
  | entering
  /-- In `wait_until`, no wake-up pending. -/
  | parked
  /-- In `wait_until`, woken and about to take the lock again. -/
  | notified
  /-- In `CreateConnection`, without the lock. -/
  | creating
  /-- `CreateConnection` returned null; the lock is not taken again yet. -/
  | failed
  /-- `Acquire` returned the connection; `Execute` is awaited. -/
  | executing (c : Conn)
  /-- `Execute` returned; `Release` comes next. -/
  | releasing (c : Conn) (ok : Bool)
  /-- `ExecuteRequest` returned. -/
  | finished (o : Outcome)
  deriving DecidableEq, Repr

namespace Place

/-- The connection that is lent to the request. -/
def lent : Place → Option Conn
  | executing c => some c
  | releasing c _ => some c
  | _ => none

/-- `Acquire` is between its increment of `_created` and the roll-back or return. -/
def isCreating : Place → Bool
  | creating => true
  | failed => true
  | _ => false

/-- The request waits in `wait_until`. -/
def isWaiting : Place → Bool
  | parked => true
  | notified => true
  | _ => false

/-- The request is inside `Acquire`, past its first critical section. -/
def inAcquire (p : Place) : Bool := p.isWaiting || p.isCreating

end Place

/-- A request for a statement: its session, the place it has reached, and how
often `Acquire` gave it a connection and it called `Release`. -/
structure Request where
  session : Nat
  place : Place := .entering
  acquired : Nat := 0
  released : Nat := 0
  deriving DecidableEq, Repr

namespace Request

/-- `Acquire` returns a connection to the request. -/
def receive (r : Request) (c : Conn) : Request :=
  { r with place := .executing c, acquired := r.acquired + 1 }

/-- The request calls `Release` and returns its result. -/
def giveBack (r : Request) (ok : Bool) : Request :=
  { r with place := .finished (.executed ok), released := r.released + 1 }

def holds (r : Request) : Bool := r.place.lent.isSome

def holdsConn (c : Conn) (r : Request) : Bool := r.place.lent == some c

def isCreating (r : Request) : Bool := r.place.isCreating

def isParked (r : Request) : Bool := r.place == .parked

def isWaiting (r : Request) : Bool := r.place.isWaiting

def wake (r : Request) : Request := { r with place := .notified }

end Request

/-- The pool with its requests; `nextConn` names the next connection object. -/
structure PoolState where
  pool : Pool
  nextConn : Conn
  requests : List Request := []
  deriving DecidableEq, Repr

/-- The steps of the requests and of `CloseAll`. -/
inductive PoolEvent where
  /-- A request of the session is about to call `Acquire`. -/
  | arrive (session : Nat)
  /-- Request `i` runs the first critical section of `Acquire`. -/
  | enter (i : Nat)
  /-- `wait_until` returns to request `i`, by its deadline or not. -/
  | resume (i : Nat) (timedOut : Bool)
  /-- `CreateConnection` returns to request `i`, with a connection or null. -/
  | create (i : Nat) (ok : Bool)
  /-- Request `i` undoes its increment and notifies. -/
  | rollback (i : Nat) (woken : Option Nat)
  /-- `Execute` returns to request `i`. -/
  | execute (i : Nat) (ok : Bool)
  /-- Request `i` releases its connection and notifies. -/
  | release (i : Nat) (woken : Option Nat)
  | closeAll
  deriving DecidableEq, Repr

namespace PoolState

/-- Request `i` becomes `r`. -/
def put (s : PoolState) (i : Nat) (r : Request) : PoolState :=
  { s with requests := s.requests.set i r }

/-- One pass through the loop of `Acquire` by request `i`. -/
def passBy (s : PoolState) (i : Nat) (r : Request) : PoolState :=
  match s.pool.pass with
  | (.take c, p) => { s with pool := p }.put i (r.receive c)
  | (.create, p) => { s with pool := p }.put i { r with place := .creating }
  | (.wait, p) => { s with pool := p }.put i { r with place := .parked }

/-- `notify_one` on the pool's condition variable. -/
def notify (s : PoolState) (woken : Option Nat) : Option PoolState :=
  (notifyOne Request.isParked Request.wake s.requests woken).map fun rs =>
    { s with requests := rs }

end PoolState

/-- One step of a request, from the place it has reached. -/
def requestStep (s : PoolState) (i : Nat) (r : Request) : PoolEvent → Option PoolState
  | .enter _ =>
      match r.place with
      | .entering =>
          if s.pool.closed then some (s.put i { r with place := .finished .refused })
          else some (s.passBy i r)
      | _ => none
  | .resume _ timedOut =>
      if r.isWaiting then
        if timedOut then some (s.put i { r with place := .finished .timedOut })
        else some (s.passBy i r)
      else none
  | .create _ ok =>
      match r.place with
      | .creating =>
          if ok then
            some ({ s with nextConn := s.nextConn + 1 }.put i (r.receive s.nextConn))
          else some (s.put i { r with place := .failed })
      | _ => none
  | .rollback _ woken =>
      match r.place with
      | .failed =>
          ({ s with pool := s.pool.rollback }.put i
            { r with place := .finished .notCreated }).notify woken
      | _ => none
  | .execute _ ok =>
      match r.place with
      | .executing c => some (s.put i { r with place := .releasing c ok })
      | _ => none
  | .release _ woken =>
      match r.place with
      | .releasing c ok =>
          let t := { s with pool := s.pool.release c }.put i (r.giveBack ok)
          -- a closed pool returns before it notifies
          if s.pool.closed then some t else t.notify woken
      | _ => none
  | _ => none

/-- The request that takes the step. -/
def PoolEvent.actor : PoolEvent → Option Nat
  | .arrive _ | .closeAll => none
  | .enter i | .resume i _ | .create i _ | .rollback i _ | .execute i _ | .release i _ => some i

/-- One step of the pool with its requests. -/
def poolStep (s : PoolState) (a : PoolEvent) : Option PoolState :=
  match a with
  | .arrive session => some { s with requests := s.requests ++ [{ session }] }
  | .closeAll =>
      some { s with
        pool := s.pool.closeAll
        requests := notifyAll Request.isParked Request.wake s.requests }
  | a =>
      match a.actor with
      | some i =>
          match s.requests[i]? with
          | some r => requestStep s i r a
          | none => none
      | none => none

/-- A pool whose `Initialize` completed normally, before the first request. -/
def PoolInit (s : PoolState) : Prop :=
  ∃ max valid, mySqlInitialize max valid = (s.pool, true) ∧ s.nextConn = s.pool.idle.length ∧
    s.requests = []

/-- A pool after `Initialize`, whether it completed or not, before the first request. -/
def initialized (max : Nat) (valid : Nat → Bool) : PoolState :=
  let pool := (mySqlInitialize max valid).1
  { pool, nextConn := pool.idle.length }

end AsioServer.Services
