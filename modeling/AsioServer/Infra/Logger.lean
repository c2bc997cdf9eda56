/-
AsioServer.Infra.Logger — the logger, its two modes, and the threads that use it.

Translated from `Logger` in `infra/log/Logger.{h,cpp}`. The threads are a list: the
first is the one that `_logThread` may stand for, the others call `log` and
`SetAsyncMode`. `LogPoint` is a place in the code of a thread; inside a call of
`_logQue` it carries the place of `SafeQueue`, whose step is taken over as it is.

`_isAsync` and `_logQue` are read without a lock, so each read is a step of its own.
What an appender does is open, but it may log itself, as `FileAppender::OpenFile`
does, and then the log call is nested in the `DispatchLog` that holds `_mutex`.

`status` records the two ways in which `SetAsyncMode` can end the program: a thread
assigned over one that is joinable, and a queue destroyed while a call is inside.
-/
import AsioServer.Infra.FileAppender
import AsioServer.Infra.SafeQueue

namespace AsioServer.Infra

open AsioServer.Lib

/-! ## Places in the code -/

/-- A place inside `DispatchLog`. -/
inductive DispatchPoint where
  /-- `_mutex` is taken next. -/
  | lock
  /-- In the loop over the appenders. -/
  | appending
  /-- An appender logs: `_isAsync` is tested next. -/
  | nestedAsync (inner : LogEvent)
  /-- `_logQue` is tested next. -/
  | nestedQueue (inner : LogEvent)
  | nestedPush (p : QueuePoint LogEvent)
  /-- The `DispatchLog` of the appender's event is about to take `_mutex`. -/
  | nestedLock (inner : LogEvent)
  deriving DecidableEq, Repr

/-- Who called `DispatchLog`. -/
inductive DispatchCaller where
  | log
  /-- `AsyncLogThread`; `draining` says that it is in its second loop. -/
  | consumer (draining : Bool)
  deriving DecidableEq, Repr

/-- A place inside `SetAsyncMode`. -/
inductive SwitchPoint where
  | lock (async : Bool) (queueSize : Nat)
  /-- `_isAsync` is written next. -/
  | store (async : Bool) (queueSize : Nat)
  /-- `make_unique` comes next. -/
  | makeQueue (queueSize : Nat)
  /-- The new thread is assigned to `_logThread` next. -/
  | startThread
  | testQueue
  | stopping (p : QueuePoint LogEvent)
  | testJoinable
  | joining
  /-- `_logQue.reset()` comes next. -/
  | reset
  | unlock (async : Bool)
  deriving DecidableEq, Repr

/-- A place in the code of a thread. -/
inductive LogPoint where
  /-- In no call. -/
  | idle
  /-- `log`: `_isAsync` is tested next. -/
  | testAsync (event : LogEvent)
  /-- `_logQue` is tested next. -/
  | testQueue (event : LogEvent)
  | push (p : QueuePoint LogEvent)
  | dispatch (caller : DispatchCaller) (event : LogEvent) (p : DispatchPoint)
  | switch (p : SwitchPoint)
  /-- `_logThread` stands for no thread. -/
  | absent
  /-- `AsyncLogThread` calls `Pop` next. -/
  | callPop (draining : Bool)
  | pop (draining : Bool) (p : QueuePoint LogEvent)
  /-- It calls `Size` next. -/
  | callSize
  | size (p : QueuePoint LogEvent)
  /-- It has returned and is still joinable. -/
  | ended
  deriving DecidableEq, Repr

namespace LogPoint

/-- The place inside a call of `_logQue`. -/
def quePoint : LogPoint → Option (QueuePoint LogEvent)
  | push p | dispatch _ _ (.nestedPush p) | switch (.stopping p) | pop _ p | size p => some p
  | _ => none

/-- The thread goes on at another place of the call of `_logQue`. -/
def atQueue (p : QueuePoint LogEvent) : LogPoint → LogPoint
  | push _ => push p
  | dispatch caller event (.nestedPush _) => dispatch caller event (.nestedPush p)
  | switch (.stopping _) => switch (.stopping p)
  | pop draining _ => pop draining p
  | size _ => size p
  | x => x

/-- The thread after its call of `_logQue` has returned. -/
def afterCall : LogPoint → QueueReturn LogEvent → LogPoint
  | push _, _ => idle
  | dispatch caller event (.nestedPush _), _ => dispatch caller event .appending
  | switch (.stopping _), _ => switch .testJoinable
  | pop draining _, .pop (some event) => dispatch (.consumer draining) event .lock
  | pop _ _, _ => callSize
  | size _, .size n => if 0 < n then callPop true else ended
  | x, _ => x

/-- The thread after a step of its call of `_logQue`. -/
def inQueue (x : LogPoint) : QueueNext LogEvent → LogPoint
  | .point p => x.atQueue p
  | .returned r => x.afterCall r

/-- The thread holds `_mutex`. -/
def locked : LogPoint → Bool
  | dispatch _ _ p => p != .lock
  | switch (.lock _ _) => false
  | switch _ => true
  | _ => false

def isPushParked (x : LogPoint) : Bool := QueueThread.isPushParked x.quePoint

def isPopParked (x : LogPoint) : Bool := QueueThread.isPopParked x.quePoint

def wake (x : LogPoint) : LogPoint := x.quePoint.elim x fun p => x.atQueue p.wake

/-- The event that the consumer has popped and not yet dispatched. -/
def hand : LogPoint → List LogEvent
  | dispatch (.consumer _) event _ => [event]
  | _ => []

end LogPoint

namespace DispatchCaller

/-- The caller after `DispatchLog`. -/
def next : DispatchCaller → LogPoint
  | log => .idle
  | consumer false => .callPop false
  | consumer true => .callSize

/-- The event, when it came from the queue. -/
def fromQueue (event : LogEvent) : DispatchCaller → List LogEvent
  | log => []
  | consumer _ => [event]

end DispatchCaller

/-! ## The state -/

/-- What has become of the program. -/
inductive LoggerStatus where
  | running
  /-- `std::terminate` in the assignment to a joinable thread. -/
  | terminated
  /-- A queue was destroyed with a call inside. -/
  | undefined
  deriving DecidableEq, Repr

/-- The logger with its threads. -/
structure LoggerState where
  level : LogLevel := .info
  isAsync : Bool := false
  logQue : Option (SafeQueue LogEvent) := none
  /-- The thread that holds `_mutex`. -/
  mutex : Option Nat := none
  threads : List LogPoint
  status : LoggerStatus := .running
  /-- The events that the queue has accepted, in that order. -/
  accepted : List LogEvent := []
  /-- The events of the queue that `DispatchLog` has given to all appenders. -/
  dispatched : List LogEvent := []
  deriving DecidableEq, Repr

namespace LoggerState

/-- A new logger, with callers that have not called it yet. -/
def make (level : LogLevel) (callers : Nat) : LoggerState :=
  { level, threads := .absent :: List.replicate callers .idle }

/-- What `_logThread` stands for. -/
def consumer (s : LoggerState) : LogPoint := s.threads[0]?.getD .absent

/-- `_logThread.joinable()`. -/
def joinable (s : LoggerState) : Bool := s.consumer != .absent

/-- The events in the queue. -/
def queued (s : LoggerState) : List LogEvent := (s.logQue.map SafeQueue.queue).getD []

/-- The accepted events that are still to be dispatched. -/
def pending (s : LoggerState) : List LogEvent := s.consumer.hand ++ s.queued

/-- A thread is inside a call of the queue. -/
def queueInUse (s : LoggerState) : Bool := s.threads.any fun x => x.quePoint.isSome

end LoggerState

/-- The outcome of a step, before the thread has moved. -/
structure LogStep where
  state : LoggerState
  next : LogPoint
  notify : Notify := .nobody
  deriving DecidableEq, Repr

/-! ## The steps -/

namespace LoggerState

/-- A step inside a call of `_logQue`. -/
def callStep (s : LoggerState) (i : Nat) (x : LogPoint) (p : QueuePoint LogEvent) :
    Option LogStep := do
  let que ← s.logQue
  let r ← que.step i p
  return {
    state := { s with logQue := some r.que, accepted := s.accepted ++ r.next.taken }
    next := x.inQueue r.next
    notify := r.notify }

/-- Take `_mutex`, when it is free. -/
def lock (s : LoggerState) (i : Nat) (next : LogPoint) : Option LogStep :=
  if s.mutex = none then some { state := { s with mutex := some i }, next } else none

/-- `DispatchLog`. -/
def dispatchStep (s : LoggerState) (i : Nat) (caller : DispatchCaller) (event : LogEvent) :
    DispatchPoint → Option LogStep
  | .lock => s.lock i (.dispatch caller event .appending)
  -- the last appender returns
  | .appending =>
      some {
        state := { s with
          mutex := none
          dispatched := s.dispatched ++ caller.fromQueue event }
        next := caller.next }
  | .nestedAsync inner =>
      some {
        state := s
        next := .dispatch caller event
          (if s.isAsync then .nestedQueue inner else .nestedLock inner) }
  | .nestedQueue inner =>
      some {
        state := s
        next := .dispatch caller event
          (if s.logQue.isSome then .nestedPush (.pushEnter inner) else .nestedLock inner) }
  | .nestedPush p => s.callStep i (.dispatch caller event (.nestedPush p)) p
  -- the thread holds `_mutex` already, and a `std::mutex` is not recursive
  | .nestedLock _ => none

/-- `SetAsyncMode`. -/
def switchStep (s : LoggerState) (i : Nat) : SwitchPoint → Option LogStep
  | .lock async queueSize => s.lock i (.switch (.store async queueSize))
  | .store async queueSize =>
      some {
        state := { s with isAsync := async }
        next := .switch (if async then .makeQueue queueSize else .testQueue) }
  -- the queue that `_logQue` held before is destroyed
  | .makeQueue queueSize =>
      some {
        state := { s with
          logQue := some { maxSize := queueSize }
          status := if s.queueInUse then .undefined else s.status }
        next := .switch .startThread }
  | .startThread =>
      some {
        state :=
          if s.joinable then { s with status := .terminated }
          else { s with threads := s.threads.set 0 (.callPop false) }
        next := .switch (.unlock true) }
  | .testQueue =>
      some {
        state := s
        next := .switch (if s.logQue.isSome then .stopping .stopStore else .unlock false) }
  | .stopping p => s.callStep i (.switch (.stopping p)) p
  | .testJoinable =>
      some { state := s, next := .switch (if s.joinable then .joining else .reset) }
  | .joining =>
      if s.consumer = .ended then
        some { state := { s with threads := s.threads.set 0 .absent }, next := .switch .reset }
      else none
  | .reset =>
      some {
        state := { s with
          logQue := none
          status := if s.queueInUse then .undefined else s.status }
        next := .switch (.unlock false) }
  | .unlock _ => some { state := { s with mutex := none }, next := .idle }

/-- `AsyncLogThread` calls a method of `*_logQue`. -/
def enter (s : LoggerState) (next : LogPoint) : LogStep :=
  { state := if s.logQue.isSome then s else { s with status := .undefined }, next }

/-- What thread `i` does at a place of its code. -/
def step (s : LoggerState) (i : Nat) : LogPoint → Option LogStep
  | .idle | .absent | .ended => none
  | .testAsync event =>
      some {
        state := s
        next := if s.isAsync then .testQueue event else .dispatch .log event .lock }
  | .testQueue event =>
      some {
        state := s
        next := if s.logQue.isSome then .push (.pushEnter event) else .dispatch .log event .lock }
  | .push p => s.callStep i (.push p) p
  | .dispatch caller event p => s.dispatchStep i caller event p
  | .switch p => s.switchStep i p
  | .callPop draining => some (s.enter (.pop draining .popEnter))
  | .pop draining p => s.callStep i (.pop draining p) p
  | .callSize => some (s.enter (.size .sizeEnter))
  | .size p => s.callStep i (.size p) p

end LoggerState

/-- The calls. -/
inductive LogCall where
  | log (event : LogEvent)
  | setAsyncMode (async : Bool) (queueSize : Nat)
  deriving DecidableEq, Repr

/-- The place where a call begins; an event below the level is dropped at once. -/
def LogCall.entry (level : LogLevel) : LogCall → LogPoint
  | log event => if event.level.toNat < level.toNat then .idle else .testAsync event
  | setAsyncMode async queueSize => .switch (.lock async queueSize)

/-- The steps of the threads. -/
inductive LoggerEvent where
  /-- Thread `i` begins a call. -/
  | call (i : Nat) (c : LogCall)
  /-- Thread `i` takes its next step. -/
  | step (i : Nat) (woken : Option Nat)
  /-- An appender that thread `i` runs logs. -/
  | append (i : Nat) (inner : LogEvent)
  /-- Thread `i` wakes up without a notification. -/
  | wake (i : Nat)
  deriving DecidableEq, Repr

/-- One step of a thread; none after the end of the program. -/
def loggerStep (s : LoggerState) (event : LoggerEvent) : Option LoggerState :=
  if s.status ≠ .running then none
  else
    match event with
    | .call i c =>
        match s.threads[i]? with
        | some .idle => some { s with threads := s.threads.set i (c.entry s.level) }
        | _ => none
    | .step i woken =>
        match s.threads[i]? with
        | some x => do
            let r ← s.step i x
            let threads ← r.notify.apply LogPoint.isPushParked LogPoint.isPopParked LogPoint.wake
              (r.state.threads.set i r.next) woken
            return { r.state with threads }
        | none => none
    | .append i inner =>
        match s.threads[i]? with
        | some (.dispatch caller outer .appending) =>
            let p := if inner.level.toNat < s.level.toNat then .appending else .nestedAsync inner
            some { s with threads := s.threads.set i (.dispatch caller outer p) }
        | _ => none
    | .wake i =>
        match s.threads[i]? with
        | some x =>
            if x.isPushParked || x.isPopParked then
              some { s with threads := s.threads.set i x.wake }
            else none
        | none => none

end AsioServer.Infra
