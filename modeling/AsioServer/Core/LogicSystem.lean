/-
AsioServer.Core.LogicSystem — the message queue of the threaded sessions and the
worker that empties it.

Translated from `core/logic/LogicSystem.{h,cpp}` and `LogicNode.h`. The IO threads
post messages, each in a call of `PostMsgToQue`; one worker runs `ProcessMsg`.
Both take `_queMutex`. The wait of the worker is the loop of the source: test
under the lock, block, which gives the lock back, and take it again after a
wake-up. The destructor sets `_isStoped` and notifies without the lock.

`AssistProcessMsg` runs under the lock from its first line to its last and is
one step; its label says whether `remote_endpoint()` returns. `registered` are
the service ids for which `GetServiceById` finds a service.
-/
import AsioServer.Core.Message
import AsioServer.Lib.Lock
import AsioServer.Lib.Transition

namespace AsioServer.Core

open AsioServer.Lib

/-- `LogicNode`: a session, by its number, and a message it received. -/
structure LogicNode where
  session : Nat
  msg : MsgNode
  deriving DecidableEq, Repr

/-- The place that an IO thread has reached in `PostMsgToQue`. -/
inductive PosterPoint where
  /-- In no call. -/
  | idle
  /-- About to take the lock. -/
  | entering (node : LogicNode)
  /-- `_msgQue.push` comes next. -/
  | pushing (node : LogicNode)
  /-- `_msgQue.size() == 1` is tested next. -/
  | testing
  /-- `notify_one` comes next. -/
  | notifying
  /-- The lock is given back next. -/
  | leaving
  deriving DecidableEq, Repr

/-- The place that the worker has reached in `ProcessMsg`. -/
inductive WorkerPoint where
  /-- At the top of the loop: about to take the lock. -/
  | entering
  /-- `_msgQue.empty() && !_isStoped` is tested next. -/
  | testing
  /-- The test was true: the worker blocks next. -/
  | blocking
  | parked
  /-- Woken, and about to take the lock again. -/
  | woken
  /-- Past the wait: `_isStoped` is tested next. -/
  | working
  /-- `AssistProcessMsg` comes next. -/
  | assisting
  /-- At the end of the loop: the lock is given back next. -/
  | leaving
  /-- In the loop that empties the queue after the stop. -/
  | draining
  /-- `ProcessMsg` has returned. -/
  | ended
  /-- An exception has left `ProcessMsg`, which terminates the program. -/
  | terminated
  deriving DecidableEq, Repr

/-- The place that the destructor has reached. -/
inductive DestructorPoint where
  | notCalled
  /-- `_isStoped` is set; `notify_one` comes next. -/
  | stored
  /-- `join` comes next. -/
  | notified
  | joined
  deriving DecidableEq, Repr

/-- The thread holds `_queMutex`. -/
def PosterPoint.locked : PosterPoint → Bool
  | pushing _ | testing | notifying | leaving => true
  | _ => false

/-- The thread will notify the worker, when the queue has so many elements. -/
def PosterPoint.willNotify (size : Nat) : PosterPoint → Bool
  | testing => size == 1
  | notifying => true
  | _ => false

/-- The worker holds `_queMutex`. -/
def WorkerPoint.locked : WorkerPoint → Bool
  | testing | blocking | working | assisting | leaving | draining => true
  | _ => false

/-- A notification, or a spurious wake-up, of the worker. -/
def WorkerPoint.wake : WorkerPoint → WorkerPoint
  | parked => woken
  | w => w

/-- `LogicSystem` with the threads that call it. The owner of `_queMutex` is the
worker (0) or the IO thread `i` (`i + 1`). -/
structure LogicSystem where
  msgQue : List LogicNode := []
  isStoped : Bool := false
  owner : Option Nat := none
  worker : WorkerPoint := .entering
  posters : List PosterPoint
  destructor : DestructorPoint := .notCalled
  /-- The messages posted, in the order of the pushes. -/
  posted : List LogicNode := []
  /-- The messages that the worker has taken off the queue. -/
  taken : List LogicNode := []
  /-- The messages for which `IService::Handle` was started. -/
  handled : List LogicNode := []
  deriving DecidableEq, Repr

/-- The steps of the threads. -/
inductive LogicEvent where
  /-- IO thread `i` calls `PostMsgToQue`. -/
  | post (i : Nat) (node : LogicNode)
  /-- IO thread `i` takes its next step. -/
  | poster (i : Nat)
  /-- The worker takes its next step. -/
  | worker (endpointOk : Bool)
  /-- The worker wakes up without a notification. -/
  | wake
  /-- The destructor takes its next step. -/
  | destructor
  deriving DecidableEq, Repr

namespace LogicSystem

/-- IO thread `i` is at `p`. -/
def setPoster (s : LogicSystem) (i : Nat) (p : PosterPoint) : LogicSystem :=
  { s with posters := s.posters.set i p }

/-- `_workCond.notify_one()`; only the worker waits on it. -/
def notify (s : LogicSystem) : LogicSystem := { s with worker := s.worker.wake }

/-- One step of `PostMsgToQue`. -/
def posterStep (s : LogicSystem) (i : Nat) : PosterPoint → Option LogicSystem
  | .idle => none
  | .entering node =>
      if s.owner = none then some ({ s with owner := some (i + 1) }.setPoster i (.pushing node))
      else none
  | .pushing node =>
      some ({ s with msgQue := s.msgQue ++ [node], posted := s.posted ++ [node] }.setPoster i
        .testing)
  | .testing => some (s.setPoster i (if s.msgQue.length = 1 then .notifying else .leaving))
  | .notifying => some (s.notify.setPoster i .leaving)
  | .leaving => some ({ s with owner := none }.setPoster i .idle)

/-- `AssistProcessMsg`, with what it returns; `none` is `front()` of an empty queue. -/
def assistProcessMsg (registered : UInt16 → Bool) (endpointOk : Bool) (s : LogicSystem) :
    Option (LogicSystem × Except Unit Bool) :=
  match s.msgQue with
  | [] => none
  | node :: rest =>
      let s := { s with msgQue := rest, taken := s.taken ++ [node] }
      if !registered node.msg.header.serviceId then some (s, .ok false)
      -- the log line asks for the endpoint
      else if !endpointOk then some (s, .error ())
      else some ({ s with handled := s.handled ++ [node] }, .ok true)

/-- One step of `ProcessMsg`. -/
def workerStep (registered : UInt16 → Bool) (endpointOk : Bool) (s : LogicSystem) :
    WorkerPoint → Option LogicSystem
  | .entering | .woken =>
      if s.owner = none then some { s with owner := some 0, worker := .testing } else none
  | .testing =>
      some { s with
        worker := if s.msgQue.isEmpty && !s.isStoped then .blocking else .working }
  | .blocking => some { s with owner := none, worker := .parked }
  | .working => some { s with worker := if s.isStoped then .draining else .assisting }
  | .assisting =>
      (s.assistProcessMsg registered endpointOk).map fun r =>
        match r.2 with
        | .ok _ => { r.1 with worker := .leaving }
        | .error _ => { r.1 with worker := .terminated, owner := none }
  | .leaving => some { s with owner := none, worker := .entering }
  | .draining =>
      if s.msgQue.isEmpty then some { s with owner := none, worker := .ended }
      else
        (s.assistProcessMsg registered endpointOk).map fun r =>
          match r.2 with
          | .ok _ => r.1
          | .error _ => { r.1 with worker := .terminated, owner := none }
  | .parked | .ended | .terminated => none

/-- One step of `~LogicSystem`. -/
def destructorStep (s : LogicSystem) : DestructorPoint → Option LogicSystem
  | .notCalled => some { s with isStoped := true, destructor := .stored }
  | .stored => some { s.notify with destructor := .notified }
  | .notified => if s.worker = .ended then some { s with destructor := .joined } else none
  | .joined => none

/-- A wake-up of the worker is under way: an IO thread has pushed the first
message and its `notify_one` is still to come. -/
def wakePending (s : LogicSystem) : Bool :=
  s.posters.any (PosterPoint.willNotify s.msgQue.length)

end LogicSystem

/-- One step of the threads. -/
def logicStep (registered : UInt16 → Bool) (s : LogicSystem) : LogicEvent → Option LogicSystem
  | .post i node =>
      match s.posters[i]? with
      | some .idle => some (s.setPoster i (.entering node))
      | _ => none
  | .poster i =>
      match s.posters[i]? with
      | some p => s.posterStep i p
      | none => none
  | .worker endpointOk => s.workerStep registered endpointOk s.worker
  | .wake => if s.worker = .parked then some s.notify else none
  | .destructor => s.destructorStep s.destructor

/-- The constructor has started the worker, and nobody has posted yet. -/
def LogicInit (s : LogicSystem) : Prop :=
  ∃ n, s = { posters := List.replicate n .idle }

end AsioServer.Core
