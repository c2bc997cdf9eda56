/-
AsioServer.Core.PeerLoss — the worker and the sessions that go away.

Translated from `AsyncSession::HandleMsgRead` in `net/threaded/AsyncSession.cpp`, which posts
a message with its session, and the log line of `LogicSystem::AssistProcessMsg` that asks the
socket of that session for its `remote_endpoint()`. The call throws when the peer has
disconnected or the socket is closed by then. In `LogicSystem` the label of the worker's step
says whether it returns; here it is read off the sessions that are lost.
-/
import AsioServer.Core.LogicSystem

namespace AsioServer.Core

open AsioServer.Lib

structure PeerSystem where
  logic : LogicSystem
  /-- The sessions whose peer has disconnected or whose socket is closed. -/
  lost : List Nat := []
  deriving DecidableEq, Repr

/-- The steps: those of the threads, and the loss of a session. -/
inductive PeerEvent where
  | post (i : Nat) (node : LogicNode)
  | poster (i : Nat)
  | worker
  | wake
  | destructor
  | lose (session : Nat)
  deriving DecidableEq, Repr

namespace PeerSystem

/-- `remote_endpoint()` returns for the session of the message. -/
def reaches (s : PeerSystem) (node : LogicNode) : Bool := !s.lost.contains node.session

/-- Whether it returns in the worker's next `AssistProcessMsg`. -/
def endpointOk (s : PeerSystem) : Bool := s.logic.msgQue.head?.all s.reaches

/-- The step of the threads. -/
def label (s : PeerSystem) : PeerEvent → Option LogicEvent
  | .post i node => some (.post i node)
  | .poster i => some (.poster i)
  | .worker => some (.worker s.endpointOk)
  | .wake => some .wake
  | .destructor => some .destructor
  | .lose _ => none

end PeerSystem

/-- One step. -/
def peerStep (registered : UInt16 → Bool) (s : PeerSystem) : PeerEvent → Option PeerSystem
  | .lose session => some { s with lost := session :: s.lost }
  | event => do
      let logic ← logicStep registered s.logic (← s.label event)
      return { s with logic }

def PeerInit (s : PeerSystem) : Prop := LogicInit s.logic ∧ s.lost = []

end AsioServer.Core
