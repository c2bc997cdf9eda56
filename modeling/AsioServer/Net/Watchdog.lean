/-
AsioServer.Net.Watchdog — a session with its clock: the bytes that come from the peer,
the read coroutine and the watchdog.

Translated from the constructor, `StartHeartbeatCheck` and `Start` of `CoroutineSession`
(`net/coroutine/CoroutineSession.cpp`).

The points of the coroutines are those of `Net.SessionRegistry` and move by its
`localStep`; here the steps also have the bytes they read and the time at which they
happen. Time is `steady_clock`, in nanoseconds. The environment says when time passes,
when bytes come and when a coroutine is resumed: a read that has its bytes and a timer that
has expired may both wait for their thread.

`arrivals` and `bodyTimes` are notes that no step looks at: when each byte came, and when
the bytes came that were read for the body of the last header.
-/
import AsioServer.Net.ReadLoop
import AsioServer.Net.SessionRegistry

namespace AsioServer.Net

open AsioServer.Lib AsioServer.Core

/-- A number of seconds, in nanoseconds. -/
def seconds (n : Nat) : Nat := n * 1000000000

/-- `duration_cast<std::chrono::seconds>`. -/
def toSeconds (d : Nat) : Nat := d / 1000000000

/-- A session with its clock. -/
structure TimedSession where
  session : Session := {}
  /-- `_sessionMap` has an entry for the session. -/
  registered : Bool := false
  now : Nat
  lastMessageTime : Nat
  /-- When `_deadline` expires; `none` until `expires_after`. -/
  deadline : Option Nat := none
  recvNode : MsgNode := {}
  /-- The bytes that have come and are not read yet, each with its time. -/
  socket : List (UInt8 × Nat) := []
  bodyTimes : List Nat := []
  arrivals : List Nat := []
  deriving DecidableEq, Repr

/-- What happens to a session. -/
inductive TimedEvent where
  | tick (d : Nat)
  /-- Bytes of the peer come. -/
  | arrive (bs : Bytes)
  /-- The read coroutine is resumed; what it awaits has completed. -/
  | read
  /-- The watchdog is resumed. -/
  | watch
  /-- A step of the accept handler, an error of a read, or a call of `Close` or
  `DelSessionByUuid` by a request. -/
  | other (a : Action)
  deriving DecidableEq, Repr

/-- The actions that `read` and `watch` take. -/
def Action.timed : Action → Bool
  | .read (.normal _) | .watch _ => true
  | _ => false

namespace TimedSession

/-- `CoroutineSession::CoroutineSession`. -/
def start (now : Nat) : TimedSession := { now, lastMessageTime := now }

/-- A move of the session's points. -/
def act (x : TimedSession) (a : Action) : Option TimedSession :=
  (x.session.localStep a).map fun r =>
    { x with session := r.1, registered := r.2.entry x.registered }

/-- `async_read` of `n` bytes, when they are there. -/
def takeBytes (x : TimedSession) (n : Nat) : Option (List (UInt8 × Nat) × TimedSession) :=
  if n ≤ x.socket.length then
    some (x.socket.take n, { x with socket := x.socket.drop n })
  else none

/-- The header was read: the time is noted, then the node is converted. -/
def noteHeader (e : Endian) (head : Bytes) (x : TimedSession) : TimedSession :=
  { x with
    lastMessageTime := x.now
    recvNode := { x.recvNode with header := MessageHeader.ofMemory e head }.toHost e
    bodyTimes := [] }

/-- The next stretch of the read coroutine of `Start`. -/
def read (e : Endian) (found : UInt16 → Bool) (x : TimedSession) : Option TimedSession :=
  match x.session.reader with
  | .loopTest =>
      (x.act (.read (.normal false))).map fun y =>
        if x.session.bStop then y else { y with recvNode := y.recvNode.clear }
  | .readHeader =>
      (x.takeBytes MessageHeader.size).bind fun r =>
        (r.2.act (.read (.normal false))).map (noteHeader e (r.1.map Prod.fst))
  | .allocating =>
      (x.recvNode.allocate x.recvNode.header.length).bind fun recvNode =>
        ({ x with recvNode }).act (.read (.normal (0 < recvNode.header.length)))
  | .readBody =>
      (x.takeBytes x.recvNode.getBodyLen.toNat).bind fun r =>
        (r.2.act (.read (.normal false))).map fun y =>
          { y with
            recvNode := y.recvNode.fillBody (r.1.map Prod.fst)
            bodyTimes := y.bodyTimes ++ r.1.map Prod.snd }
  | .dispatching =>
      (x.act (.read (.normal false))).map fun y =>
        -- a service takes the node away
        { y with recvNode := if found y.recvNode.header.serviceId then {} else y.recvNode }
  | .closing | .deleting | .ended _ => x.act (.read (.normal false))

/-- The watchdog's comparison. -/
def expired (x : TimedSession) : Bool := 60 < toSeconds (x.now - x.lastMessageTime)

/-- The watchdog after its timer has expired. Nothing is awaited between `Close` and
`DelSessionByUuid`. -/
def check (x : TimedSession) : Option TimedSession :=
  (x.act (.watch x.expired)).bind fun y =>
    match y.session.watchdog with
    | .deleting => y.act (.watch false)
    | .watching | .ended => some { y with deadline := none }

/-- The next stretch of the watchdog of `StartHeartbeatCheck`. -/
def watch (x : TimedSession) : Option TimedSession :=
  match x.session.watchdog, x.deadline with
  | .watching, none =>
      -- the test of the loop, then `expires_after`
      (x.act (.watch false)).map fun y =>
        if x.session.bStop then y else { y with deadline := some (x.now + seconds 5) }
  | .watching, some deadline => if deadline ≤ x.now then x.check else none
  | .deleting, _ | .ended, _ => none

end TimedSession

/-- One step of a session with its clock. -/
def timedStep (e : Endian) (found : UInt16 → Bool) (x : TimedSession) :
    TimedEvent → Option TimedSession
  | .tick d => some { x with now := x.now + d }
  | .arrive bs =>
      some { x with
        socket := x.socket ++ bs.map fun b => (b, x.now)
        arrivals := x.arrivals ++ bs.map fun _ => x.now }
  | .read => x.read e found
  | .watch => x.watch
  | .other a => if a.timed then none else x.act a

end AsioServer.Net
