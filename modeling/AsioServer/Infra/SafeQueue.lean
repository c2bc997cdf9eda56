/-
AsioServer.Infra.SafeQueue — the bounded queue of the logger, and the threads
that call it.

Translated from `infra/log/SafeQueue.h`. `SafeQueue` holds the fields of the
class, with the thread that owns `_mutex`. `QueuePoint` is a place inside one of
the calls, and `SafeQueue.step` what a thread does there. `wait(lock, pred)` is
the loop it stands for: test the predicate under the lock, else block, which
gives the lock back, and take it again after a wake-up. Everything that touches
`_isRunning` or a condition variable is a step of its own, because `Stop` does
both without the lock; the last stretch of `Push` and of `Pop` reads no flag and
is one step.

`QueueState` adds any number of threads, and what the calls have returned so
far. `queueStep` lets one thread take its next step; the label holds the choice
of `notify_one`, and a wake-up may also be spurious.
-/
import AsioServer.Lib.Lock
import AsioServer.Lib.Transition

namespace AsioServer.Infra

open AsioServer.Lib

variable {α : Type*}

/-! ## SafeQueue -/

/-- The fields of `SafeQueue`; `owner` is the thread that holds `_mutex`. -/
structure SafeQueue (α : Type*) where
  queue : List α := []
  maxSize : Nat := 10000
  isRunning : Bool := true
  owner : Option Nat := none
  deriving DecidableEq, Repr

/-- A place inside a call. -/
inductive QueuePoint (α : Type*) where
  /-- `Push` is about to take the lock, at first or after a wake-up. -/
  | pushEnter (data : α)
  /-- The predicate of `_notFullCond.wait` is tested next. -/
  | pushTest (data : α)
  /-- The predicate was false: the thread blocks next. -/
  | pushBlock (data : α)
  | pushParked (data : α)
  /-- After the wait: `_isRunning` is tested again. -/
  | pushCheck (data : α)
  /-- `_queue.push` comes next. -/
  | pushing (data : α)
  /-- `Pop`, in the same order. -/
  | popEnter
  | popTest
  | popBlock
  | popParked
  | popCheck
  | popping
  /-- `Stop`: the store, and the two `notify_all`. -/
  | stopStore
  | stopNotifyEmpty
  | stopNotifyFull
  /-- `Size`. -/
  | sizeEnter
  | sizeRead
  deriving DecidableEq, Repr

/-- What a call returns. -/
inductive QueueReturn (α : Type*) where
  | push (data : α) (ok : Bool)
  /-- `none` is `false`. -/
  | pop (data : Option α)
  | stop
  | size (n : Nat)
  deriving DecidableEq, Repr

/-- Where a step leads: to another place in the call, or out of it. -/
inductive QueueNext (α : Type*) where
  | point (p : QueuePoint α)
  | returned (r : QueueReturn α)
  deriving DecidableEq, Repr

/-- The value that a `Push` which returns true puts in. -/
def QueueNext.taken : QueueNext α → List α
  | returned (.push data true) => [data]
  | _ => []

/-- Whom a step notifies. -/
inductive Notify where
  | nobody
  | oneNotEmpty
  | oneNotFull
  | allNotEmpty
  | allNotFull
  deriving DecidableEq, Repr

/-- The outcome of a step. -/
structure QueueStep (α : Type*) where
  que : SafeQueue α
  next : QueueNext α
  notify : Notify := .nobody
  deriving DecidableEq, Repr

namespace QueuePoint

/-- The thread holds `_mutex`. -/
def locked : QueuePoint α → Bool
  | pushTest _ | pushBlock _ | pushCheck _ | pushing _ => true
  | popTest | popBlock | popCheck | popping => true
  | sizeRead => true
  | _ => false

/-- Blocked on `_notFullCond`. -/
def isPushParked : QueuePoint α → Bool
  | pushParked _ => true
  | _ => false

/-- Blocked on `_notEmptyCond`. -/
def isPopParked : QueuePoint α → Bool
  | popParked => true
  | _ => false

/-- A wake-up: the lock is to be taken again. -/
def wake : QueuePoint α → QueuePoint α
  | pushParked data => pushEnter data
  | popParked => popEnter
  | p => p

end QueuePoint

namespace SafeQueue

/-- Take `_mutex`, when it is free, and go on at `p`. -/
def lock (q : SafeQueue α) (i : Nat) (p : QueuePoint α) : Option (QueueStep α) :=
  if q.owner = none then some { que := { q with owner := some i }, next := .point p } else none

/-- The predicate of the wait in `Push`. -/
def notFull (q : SafeQueue α) : Bool := !q.isRunning || decide (q.queue.length < q.maxSize)

/-- The predicate of the wait in `Pop`. -/
def notEmpty (q : SafeQueue α) : Bool := !q.isRunning || !q.queue.isEmpty

/-- What thread `i` does at a place inside a call. -/
def step (q : SafeQueue α) (i : Nat) : QueuePoint α → Option (QueueStep α)
  | .pushEnter data => q.lock i (.pushTest data)
  | .pushTest data =>
      some { que := q, next := .point (if q.notFull then .pushCheck data else .pushBlock data) }
  | .pushBlock data => some { que := { q with owner := none }, next := .point (.pushParked data) }
  | .pushParked _ => none
  | .pushCheck data =>
      if q.isRunning then some { que := q, next := .point (.pushing data) }
      else some { que := { q with owner := none }, next := .returned (.push data false) }
  | .pushing data =>
      some { que := { q with queue := q.queue ++ [data], owner := none }
             next := .returned (.push data true)
             notify := .oneNotEmpty }
  | .popEnter => q.lock i .popTest
  | .popTest => some { que := q, next := .point (if q.notEmpty then .popCheck else .popBlock) }
  | .popBlock => some { que := { q with owner := none }, next := .point .popParked }
  | .popParked => none
  | .popCheck =>
      if !q.isRunning && q.queue.isEmpty then
        some { que := { q with owner := none }, next := .returned (.pop none) }
      else some { que := q, next := .point .popping }
  | .popping =>
      match q.queue with
      | data :: rest =>
          some { que := { q with queue := rest, owner := none }
                 next := .returned (.pop (some data))
                 notify := .oneNotFull }
      -- `front()` of an empty queue
      | [] => none
  | .stopStore => some { que := { q with isRunning := false }, next := .point .stopNotifyEmpty }
  | .stopNotifyEmpty => some { que := q, next := .point .stopNotifyFull, notify := .allNotEmpty }
  | .stopNotifyFull => some { que := q, next := .returned .stop, notify := .allNotFull }
  | .sizeEnter => q.lock i .sizeRead
  | .sizeRead =>
      some { que := { q with owner := none }, next := .returned (.size q.queue.length) }

end SafeQueue

/-- A notification among threads of any kind. -/
def Notify.apply {τ : Type*} (pushParked popParked : τ → Bool) (wake : τ → τ) (ts : List τ)
    (woken : Option Nat) : Notify → Option (List τ)
  | nobody => some ts
  | oneNotEmpty => notifyOne popParked wake ts woken
  | oneNotFull => notifyOne pushParked wake ts woken
  | allNotEmpty => some (notifyAll popParked wake ts)
  | allNotFull => some (notifyAll pushParked wake ts)

/-! ## The threads -/

/-- A thread: inside a call, or in none. -/
abbrev QueueThread (α : Type*) := Option (QueuePoint α)

namespace QueueThread

def locked (x : QueueThread α) : Bool := x.any QueuePoint.locked

def isPushParked (x : QueueThread α) : Bool := x.any QueuePoint.isPushParked

def isPopParked (x : QueueThread α) : Bool := x.any QueuePoint.isPopParked

def wake (x : QueueThread α) : QueueThread α := x.map QueuePoint.wake

end QueueThread

/-- The calls. -/
inductive QueueCall (α : Type*) where
  | push (data : α)
  | pop
  | stop
  | size
  deriving DecidableEq, Repr

/-- The place where a call begins. -/
def QueueCall.entry : QueueCall α → QueuePoint α
  | push data => .pushEnter data
  | pop => .popEnter
  | stop => .stopStore
  | size => .sizeEnter

def QueueCall.isStop : QueueCall α → Bool
  | stop => true
  | _ => false

/-- The queue with its threads. -/
structure QueueState (α : Type*) where
  que : SafeQueue α
  threads : List (QueueThread α)
  /-- The values of the `Push` calls that returned true, in the order in which they
  held the lock. -/
  pushed : List α := []
  /-- The values that `Pop` returned, in that order. -/
  popped : List α := []
  /-- Some `Stop` was called. -/
  stopped : Bool := false
  /-- Some `Pop` returned false. -/
  drained : Bool := false
  deriving DecidableEq, Repr

/-- The steps of the threads. -/
inductive QueueEvent (α : Type*) where
  /-- Thread `i` begins a call. -/
  | call (i : Nat) (c : QueueCall α)
  /-- Thread `i` takes its next step. -/
  | step (i : Nat) (woken : Option Nat)
  /-- Thread `i` wakes up without a notification. -/
  | wake (i : Nat)
  deriving DecidableEq, Repr

namespace QueueState

/-- What is recorded when a call returns. -/
def record (s : QueueState α) : QueueNext α → QueueState α
  | .returned (.push data true) => { s with pushed := s.pushed ++ [data] }
  | .returned (.pop (some data)) => { s with popped := s.popped ++ [data] }
  | .returned (.pop none) => { s with drained := true }
  | _ => s

end QueueState

/-- The thread after a step. -/
def QueueNext.thread : QueueNext α → QueueThread α
  | point p => some p
  | returned _ => none

/-- One step of a thread. -/
def queueStep (s : QueueState α) : QueueEvent α → Option (QueueState α)
  | .call i c =>
      match s.threads[i]? with
      | some none =>
          some { s with
            threads := s.threads.set i (some c.entry)
            stopped := s.stopped || c.isStop }
      | _ => none
  | .step i woken =>
      match s.threads[i]? with
      | some (some p) => do
          let r ← s.que.step i p
          let threads ← r.notify.apply QueueThread.isPushParked QueueThread.isPopParked
            QueueThread.wake (s.threads.set i r.next.thread) woken
          return { s with que := r.que, threads }.record r.next
      | _ => none
  | .wake i =>
      match s.threads[i]? with
      | some (some p) =>
          if p.isPushParked || p.isPopParked then
            some { s with threads := s.threads.set i (some p.wake) }
          else none
      | _ => none

/-- What the call that a step ends returns. -/
def QueueState.returned (s : QueueState α) : QueueEvent α → Option (QueueReturn α)
  | .step i _ =>
      match s.threads[i]? with
      | some (some p) =>
          match (s.que.step i p).map QueueStep.next with
          | some (.returned r) => some r
          | _ => none
      | _ => none
  | _ => none

/-- A new queue, and threads that have not called it yet. -/
def QueueInit (s : QueueState α) : Prop :=
  ∃ maxSize n, s = { que := { maxSize }, threads := List.replicate n none }

end AsioServer.Infra
