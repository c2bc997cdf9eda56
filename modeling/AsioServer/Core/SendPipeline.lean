/-
AsioServer.Core.SendPipeline — the send path of one session: `Send`, `DoSend`,
`DoWrite`, `HandleWrite` and `Close`.

Translated from `core/session/CSession.cpp`. Every call runs as a `Task`, which
stands at the next point where it reads or writes what the session shares:
`_bStop`, the queue under `_mutex`, the closures posted to the `io_context`, the
socket. `pipeStep` lets one task pass such a point, runs the next posted closure
or completes a write, so calls interleave freely, also those of one
`io_context` thread.

`accepted`, `passed` and `failed` record the frames that `DoSend` pushed, the
frames handed to `async_write` and whether a write has completed with an error;
no branch reads them.
-/
import AsioServer.Core.Message
import AsioServer.Lib.Monitor
import AsioServer.Lib.Transition

namespace AsioServer.Core

open AsioServer.Lib

/-- `MAX_SENDQUE_LEN`. -/
def maxSendQueLen : Nat := 1000

/-- A `std::shared_ptr<MsgNode>` made by `Send`. -/
structure Frame where
  addr : Nat
  node : MsgNode
  deriving DecidableEq, Repr

/-- A closure posted to the `io_context`. -/
inductive Posted where
  | doSend (f : Frame)
  | closeSocket
  deriving DecidableEq, Repr

/-- A call that is under way, by the point it has reached. -/
inductive Task where
  /-- `Send`, past its test of `_bStop`: the node is to be posted. -/
  | posting (f : Frame)
  /-- `DoSend`, past its test of `_bStop`: the lock is to be taken. -/
  | doSend (f : Frame)
  /-- `DoWrite`: the lock is to be taken. -/
  | doWrite
  /-- `async_write` is to be called on the node. -/
  | asyncWrite (f : Frame)
  /-- `HandleWrite` with the error code it was given. -/
  | handleWrite (error : Bool)
  | ended
  deriving DecidableEq, Repr

/-- The shared data of the send path and the calls that are under way. -/
structure Pipeline where
  bStop : Bool := false
  sendQue : List Frame := []
  posted : List Posted := []
  tasks : List Task := []
  /-- The `async_write` operations that have not completed. -/
  inFlight : List Frame := []
  nextAddr : Nat := 0
  accepted : List Frame := []
  passed : List Frame := []
  failed : Bool := false
  deriving DecidableEq, Repr

/-- The steps of the send path. -/
inductive PipeEvent where
  /-- Some thread calls `Send`. -/
  | send (header : MessageHeader) (body : Bytes)
  /-- Task `i` goes on to its next point. -/
  | task (i : Nat)
  /-- The `io_context` runs the next posted closure. -/
  | runPosted
  /-- The write `i` completes, with an error or with the whole buffer written. -/
  | complete (i : Nat) (error : Bool)
  /-- Some thread calls `Close`. -/
  | close
  deriving DecidableEq, Repr

namespace Pipeline

/-- Task `i` becomes `k`. -/
def put (p : Pipeline) (i : Nat) (k : Task) : Pipeline := { p with tasks := p.tasks.set i k }

/-- A new call. -/
def spawn (p : Pipeline) (k : Task) : Pipeline := { p with tasks := p.tasks ++ [k] }

/-- `CSession::Close`. -/
def close (p : Pipeline) : Pipeline :=
  if p.bStop then p else { p with bStop := true, posted := p.posted ++ [Posted.closeSocket] }

/-- `CSession::Send` up to the hand-over of the node. -/
def send (e : Endian) (header : MessageHeader) (body : Bytes) (p : Pipeline) :
    Option Pipeline :=
  if p.bStop then some p
  else
    (sendNode e header body).map fun node =>
      { p with nextAddr := p.nextAddr + 1 }.spawn (.posting ⟨p.nextAddr, node⟩)

/-- The critical section of `CSession::DoSend`, and the call of `DoWrite` when
the queue was empty. -/
def doSend (p : Pipeline) (i : Nat) (f : Frame) : Pipeline :=
  if maxSendQueLen ≤ p.sendQue.length then p.put i .ended
  else
    let writing := !p.sendQue.isEmpty
    { p with sendQue := p.sendQue ++ [f], accepted := p.accepted ++ [f] }.put i
      (if writing then .ended else .doWrite)

/-- The critical section of `CSession::DoWrite`. -/
def doWrite (p : Pipeline) (i : Nat) : Pipeline :=
  match p.sendQue with
  | [] => p.put i .ended
  | f :: _ => p.put i (.asyncWrite f)

/-- The critical section of `CSession::HandleWrite` without an error: pop the
node that was written and take the next one. -/
def handleWrite (p : Pipeline) (i : Nat) : Pipeline :=
  match p.sendQue.tail with
  | [] => { p with sendQue := [] }.put i .ended
  | f :: rest => { p with sendQue := f :: rest }.put i (.asyncWrite f)

/-- One step of task `i`. -/
def taskStep (p : Pipeline) (i : Nat) : Task → Option Pipeline
  | .posting f => some ({ p with posted := p.posted ++ [Posted.doSend f] }.put i .ended)
  | .doSend f => some (p.doSend i f)
  | .doWrite => some (p.doWrite i)
  | .asyncWrite f =>
      some ({ p with inFlight := p.inFlight ++ [f], passed := p.passed ++ [f] }.put i .ended)
  | .handleWrite false => some (p.handleWrite i)
  -- the frame that failed stays at the front of the queue
  | .handleWrite true => some (p.close.put i .ended)
  | .ended => none

/-- The next posted closure runs; `DoSend` begins with its test of `_bStop`. -/
def runPosted (p : Pipeline) : Option Pipeline :=
  match p.posted with
  | [] => none
  | .closeSocket :: rest => some { p with posted := rest }
  | .doSend f :: rest =>
      if p.bStop then some { p with posted := rest }
      else some ({ p with posted := rest }.spawn (.doSend f))

end Pipeline

/-- One step of the send path. -/
def pipeStep (e : Endian) (p : Pipeline) : PipeEvent → Option Pipeline
  | .send header body => p.send e header body
  | .task i => p.tasks[i]?.bind fun k => p.taskStep i k
  | .runPosted => p.runPosted
  | .complete i error =>
      p.inFlight[i]?.map fun _ =>
        { p with inFlight := p.inFlight.eraseIdx i, failed := p.failed || error }.spawn
          (.handleWrite error)
  | .close => some p.close

/-- A new session. -/
def PipeInit (p : Pipeline) : Prop := p = {}

end AsioServer.Core
