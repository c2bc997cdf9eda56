/-
AsioServer.Services.IOThreads — the connection pool under the IO threads that
run the requests.

Translated from the threads of `core/session/AsioIOServicePool.cpp`, the
`co_spawn` in `net/coroutine/CoroutineSession.cpp` and the blocking wait in
`DBConnectionPool::Acquire`. The coroutines of a session all run on the thread
of its `io_context`; `assign` gives the thread of each session. A thread runs
one coroutine until it suspends, and `Acquire` does not suspend: while a
request waits on the condition variable its thread runs nothing else.
-/
import AsioServer.Services.DBConnectionPool

namespace AsioServer.Services

variable {T : Type*} [DecidableEq T]

/-- The coroutine of the request occupies its thread: it is inside `Acquire`, or
`Execute` has resumed it and `Release` comes next. -/
def Place.running : Place → Bool
  | .releasing _ _ => true
  | p => p.inAcquire

/-- No other request of the thread of request `i` is running. -/
def threadFree (assign : Nat → T) (s : PoolState) (i : Nat) (r : Request) : Bool :=
  (s.requests.eraseIdx i).all fun q =>
    !(decide (assign q.session = assign r.session) && q.place.running)

/-- One step of the pool with its requests on their threads. -/
def threadStep (assign : Nat → T) (s : PoolState) (a : PoolEvent) : Option PoolState :=
  match a.actor with
  | none => poolStep s a
  | some i =>
      match s.requests[i]? with
      | some r => if threadFree assign s i r then poolStep s a else none
      | none => none

/-- The thread is blocked in `wait_until`. -/
def Blocked (assign : Nat → T) (s : PoolState) (th : T) : Prop :=
  ∃ r ∈ s.requests, assign r.session = th ∧ r.isWaiting = true

instance (assign : Nat → T) (s : PoolState) (th : T) : Decidable (Blocked assign s th) :=
  inferInstanceAs (Decidable (∃ r ∈ s.requests, assign r.session = th ∧ r.isWaiting = true))

end AsioServer.Services
