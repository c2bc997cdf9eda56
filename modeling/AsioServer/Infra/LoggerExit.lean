/-
AsioServer.Infra.LoggerExit — the end of a logger in asynchronous mode.

Translated from `Logger::~Logger` and `Logger::AsyncLogThread` in `infra/log/Logger.cpp`.
`~Logger` takes no lock: it stops the queue and joins the consumer. So `DispatchLog` is one
step here, and the rest is the queue with its threads. Thread 0 runs `AsyncLogThread` and
thread 1 `~Logger`; the others may call the queue as they like, and stop it too.
-/
import AsioServer.Infra.SafeQueue
import AsioServer.Infra.FileAppender

namespace AsioServer.Infra

open AsioServer.Lib

/-- A place in `AsyncLogThread`, which may be inside the call that it makes there. -/
inductive AsyncPoint where
  /-- `Pop` in the first loop. -/
  | first
  | dispatch (draining : Bool) (event : LogEvent)
  /-- `Size`, the test of the second loop. -/
  | testSize
  /-- `Pop` in the second loop. -/
  | second
  | ended
  deriving DecidableEq, Repr

/-- A place in `~Logger`. -/
inductive DestroyPoint where
  /-- The logger is in use. -/
  | used
  /-- `Stop`. -/
  | stopping
  | joining
  | destroyed
  deriving DecidableEq, Repr

namespace AsyncPoint

/-- The call that is made at a place. -/
def calls : AsyncPoint → Option (QueueCall LogEvent)
  | first | second => some .pop
  | testSize => some .size
  | dispatch _ _ | ended => none

/-- The place after the call has returned. -/
def afterCall : AsyncPoint → QueueReturn LogEvent → AsyncPoint
  | first, .pop (some event) => dispatch false event
  | first, .pop none => testSize
  | testSize, .size n => if 0 < n then second else ended
  | second, .pop (some event) => dispatch true event
  | second, .pop none => testSize
  | p, _ => p

end AsyncPoint

def DestroyPoint.afterCall : DestroyPoint → QueueReturn LogEvent → DestroyPoint
  | stopping, .stop => joining
  | p, _ => p

/-- The queue with its threads, and how far the two programs are. -/
structure LoggerExit where
  que : QueueState LogEvent
  consumer : AsyncPoint := .first
  destroyer : DestroyPoint := .used
  deriving DecidableEq, Repr

/-- The steps. -/
inductive ExitEvent where
  | queue (event : QueueEvent LogEvent)
  /-- The consumer's `DispatchLog` returns. -/
  | dispatched
  /-- `~Logger` begins. -/
  | destroy
  /-- `join` returns. -/
  | join
  deriving DecidableEq, Repr

namespace LoggerExit

/-- A thread with a program makes the calls of its program. -/
def allows (s : LoggerExit) : QueueEvent LogEvent → Bool
  | .call 0 c => s.consumer.calls == some c
  | .call 1 c => s.destroyer == .stopping && c.isStop
  | _ => true

/-- The programs go on when a call returns. -/
def returns (s : LoggerExit) (event : QueueEvent LogEvent) : LoggerExit :=
  match event, s.que.returned event with
  | .step 0 _, some r => { s with consumer := s.consumer.afterCall r }
  | .step 1 _, some r => { s with destroyer := s.destroyer.afterCall r }
  | _, _ => s

end LoggerExit

/-- One step. -/
def exitStep (s : LoggerExit) : ExitEvent → Option LoggerExit
  | .queue event =>
      if s.allows event then
        (queueStep s.que event).map fun que => { s.returns event with que }
      else none
  | .dispatched =>
      match s.consumer with
      | .dispatch draining _ => some { s with consumer := if draining then .testSize else .first }
      | _ => none
  | .destroy => if s.destroyer = .used then some { s with destroyer := .stopping } else none
  | .join =>
      if s.destroyer = .joining ∧ s.consumer = .ended then
        some { s with destroyer := .destroyed }
      else none

/-- A logger in asynchronous mode: a new queue, and the two threads among the others. -/
def ExitInit (s : LoggerExit) : Prop :=
  ∃ maxSize n, s = { que := { que := { maxSize }, threads := List.replicate (n + 2) none } }

end AsioServer.Infra
