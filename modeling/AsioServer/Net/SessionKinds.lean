/-
AsioServer.Net.SessionKinds — the readers of the two session kinds, with the calls
they make.

Translated from `net/coroutine/CoroutineSession.cpp` and
`net/threaded/AsyncSession.cpp`. A reader makes its calls (`ReaderCall`) in one
order: the reads it starts, the service calls or posts, `Close` and
`DelSessionByUuid`. The peer sends a stream and ends it; `asyncRead` completes
with the whole buffer or fails, and a read of no bytes completes at once with none.

`coroutineStart` is `CoroutineSession::Start`. `AsyncSession` is the pair of
callbacks `HandleHeadRead` and `HandleMsgRead`; the messages it posts go through
`LogicSystem`, which `ThreadedServer` puts next to any number of sessions. Each
session has a place of its own in `PostMsgToQue`, so that the handlers of two
sessions interleave also where one IO thread would run them one after the other.

The sessions are not closed from outside: no `ClientClose`, no watchdog time-out.
-/
import AsioServer.Core.LogicSystem
import AsioServer.Net.ReadLoop

namespace AsioServer.Net

open AsioServer.Lib AsioServer.Core

/-- The calls a reader makes. -/
inductive ReaderCall where
  /-- `async_read` into a buffer of `size` bytes. -/
  | asyncRead (size : Nat)
  /-- `IService::Handle`, started for a header and a body. -/
  | handle (message : MessageHeader × Bytes)
  /-- `LogicSystem::PostMsgToQue`. -/
  | post (message : MessageHeader × Bytes)
  | close
  | delSessionByUuid
  deriving DecidableEq, Repr

/-- `Close(); _server->DelSessionByUuid(_uuid);` -/
def leave : List ReaderCall := [.close, .delSessionByUuid]

/-! ## CoroutineSession -/

/-- What a round of the loop does after the message was read. -/
def dispatch (found : UInt16 → Bool) (node : MsgNode) : List ReaderCall :=
  if found node.header.serviceId then [.handle (node.header, node.text)] else []

/-- What the session waits for. -/
inductive AsyncPoint where
  /-- The read that completes with `HandleHeadRead`. -/
  | headRead
  /-- The read that completes with `HandleMsgRead`. -/
  | msgRead
  /-- The return of `PostMsgToQue`, which `HandleMsgRead` has called. -/
  | posting (msg : MsgNode)
  /-- Nothing: no read is outstanding. -/
  | ended
  deriving DecidableEq, Repr

/-- `AsyncSession`, with the bytes that its peer has still to send. -/
structure AsyncSession where
  recvNode : MsgNode := {}
  point : AsyncPoint
  stream : Bytes
  calls : List ReaderCall
  deriving DecidableEq, Repr

namespace AsyncSession

def call (self : AsyncSession) (calls : List ReaderCall) : AsyncSession :=
  { self with calls := self.calls ++ calls }

/-- `async_read`, with the callback it is bound to. -/
def startRead (self : AsyncSession) (callback : AsyncPoint) (size : Nat) : AsyncSession :=
  { self.call [.asyncRead size] with point := callback }

/-- `AsyncSession::Start`, for a session whose peer sends `stream`. -/
def start (stream : Bytes) : AsyncSession :=
  startRead { point := .ended, stream := stream, calls := [] } .headRead MessageHeader.size

/-- `HandleHeadRead`, with the bytes transferred or an error; `none` is the write
of `Allocate` outside its buffer. -/
def handleHeadRead (e : Endian) (self : AsyncSession) : Option Bytes → Option AsyncSession
  | none => some { self.call leave with point := .ended }
  | some head =>
      -- neither of the two tests returns
      let self := if head.length = 0 then self.call leave else self
      let self := if head.length < MessageHeader.size then self.call leave else self
      let node := { self.recvNode with header := MessageHeader.ofMemory e head }.toHost e
      match node.allocate node.header.length with
      | none => none
      | some node =>
          some ({ self with recvNode := node }.startRead .msgRead node.getBodyLen.toNat)

/-- `HandleMsgRead` up to the call of `PostMsgToQue`. -/
def handleMsgRead (self : AsyncSession) : Option Bytes → AsyncSession
  | none => { self.call leave with point := .ended }
  | some body =>
      let self :=
        if body.length < self.recvNode.getBodyLen.toNat then self.call leave else self
      let msg := self.recvNode.fillBody body
      { self.call [.post (msg.header, msg.text)] with recvNode := {}, point := .posting msg }

/-- `HandleMsgRead` after `PostMsgToQue` has returned. -/
def resume (self : AsyncSession) : AsyncSession :=
  { self with recvNode := self.recvNode.clear }.startRead .headRead MessageHeader.size

/-- The outstanding read completes, and its callback runs. -/
def completed (e : Endian) (self : AsyncSession) : Option AsyncSession :=
  match self.point with
  | .headRead =>
      match asyncRead MessageHeader.size self.stream with
      | some (head, rest) => { self with stream := rest }.handleHeadRead e (some head)
      | none => self.handleHeadRead e none
  | .msgRead =>
      match asyncRead self.recvNode.getBodyLen.toNat self.stream with
      | some (body, rest) => some ({ self with stream := rest }.handleMsgRead (some body))
      | none => some (self.handleMsgRead none)
  | .posting _ | .ended => none

end AsyncSession

/-! ## The sessions and the LogicSystem -/

/-- The threaded sessions and the queue they post to. -/
structure ThreadedServer where
  logic : LogicSystem
  sessions : List AsyncSession
  deriving DecidableEq, Repr

/-- The steps of the threaded server. -/
inductive ThreadedEvent where
  /-- A read of session `k` completes. -/
  | completed (k : Nat)
  /-- `PostMsgToQue` has returned to session `k`. -/
  | resumed (k : Nat)
  /-- A step inside `LogicSystem`. -/
  | logic (event : LogicEvent)
  deriving DecidableEq, Repr

/-- One step of the threaded server. -/
def threadedStep (e : Endian) (found : UInt16 → Bool) (s : ThreadedServer) :
    ThreadedEvent → Option ThreadedServer
  | .completed k =>
      match s.sessions[k]? with
      | none => none
      | some self =>
          match self.completed e with
          | none => none
          | some self =>
              match self.point with
              | .posting msg =>
                  (logicStep found s.logic (.post k ⟨k, msg⟩)).map fun logic =>
                    { logic := logic, sessions := s.sessions.set k self }
              | _ => some { s with sessions := s.sessions.set k self }
  | .resumed k =>
      match s.sessions[k]?, s.logic.posters[k]? with
      | some self, some .idle =>
          match self.point with
          | .posting _ => some { s with sessions := s.sessions.set k self.resume }
          | _ => none
      | _, _ => none
  -- the sessions alone post
  | .logic (.post _ _) => none
  | .logic event => (logicStep found s.logic event).map fun logic => { s with logic := logic }

/-- The step is not the stop of the server, and `remote_endpoint()` returns. -/
def ThreadedEvent.calm : ThreadedEvent → Bool
  | logic (.worker false) | logic .destructor => false
  | _ => true

/-- The worker wakes up without a notification. -/
def ThreadedEvent.spurious : ThreadedEvent → Bool
  | logic .wake => true
  | _ => false

/-- Nothing moves any more: no read completes and no thread takes a step, spurious
wake-ups apart. -/
def Settled (e : Endian) (found : UInt16 → Bool) (s : ThreadedServer) : Prop :=
  ∀ event : ThreadedEvent, event.calm = true → event.spurious = false →
    threadedStep e found s event = none

/-- The messages of session `k` among the nodes. -/
def messagesFor (k : Nat) (nodes : List LogicNode) : List (MessageHeader × Bytes) :=
  (nodes.filter fun node => node.session == k).map fun node => (node.msg.header, node.msg.text)

end AsioServer.Net
