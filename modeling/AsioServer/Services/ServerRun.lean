/-
AsioServer.Services.ServerRun — the steps of the server that the services see.

A step is a request that a session's coroutine handles, a step of the network
or of the `io_context` on one session, or the destruction of a session that
nothing holds any more. A handler of the communication service runs to its end
on one thread; `_mutex` and `_clientMap`'s lock make its calls atomic.

Translated from `CSession` and `CServer` in `core/` and from the dispatch in
`net/coroutine/CoroutineSession.cpp`.
-/
import AsioServer.Lib.Transition
import AsioServer.Services.Handlers

namespace AsioServer.Services

open AsioServer.Core AsioServer.Infra

/-- The steps of the server. -/
inductive ServerEvent where
  /-- A connection is accepted; its session gets a uuid that no session has. -/
  | connect (u : Uuid) (endpoint : Endpoint)
  /-- The service that is found for the message handles it. -/
  | request (env : Env) (u : Uuid) (msg : MsgNode)
  /-- The peer is gone or the socket is closed. -/
  | disconnect (u : Uuid)
  /-- `Close` by the read coroutine, the watchdog or `HandleWrite`. -/
  | close (u : Uuid)
  /-- `DelSessionByUuid` by the read coroutine or the watchdog. -/
  | delete (u : Uuid)
  /-- The next posted `DoSend` of the session runs. -/
  | runPosted (u : Uuid)
  /-- The front of the send queue is written. -/
  | written (u : Uuid)
  /-- The last reference to the session goes. -/
  | destroy (u : Uuid)

/-- The session on whose behalf a step is taken. -/
def ServerEvent.actor : ServerEvent → Option Uuid
  | request _ u _ => some u
  | destroy u => some u
  | _ => none

/-- `CSession::DoSend`. -/
def CSession.doSend (x : CSession) (m : Outgoing) : CSession :=
  if x.bStop then x
  else if maxSendQueLen ≤ x.sendQue.length then x
  else { x with sendQue := x.sendQue ++ [m] }

namespace Server

/-- The next posted `DoSend` of a session. -/
def runPosted (s : Server) (u : Uuid) : Option Server :=
  match (s.session u).posted with
  | [] => none
  | m :: rest => some (s.setSession u ({ s.session u with posted := rest }.doSend m))

/-- `CSession::~CSession`: the name in `ClientInfo` is removed, whoever has it. -/
def destroy (s : Server) (u : Uuid) : Server :=
  let s := { s with live := s.live.erase u }
  match (s.session u).clientInfo with
  | some info => if info.name.isEmpty then s else (s.removeClient info.name).2
  | none => s

end Server

/-- One step of the server. -/
def serverStep (lib : JsonLib) (s : Server) : ServerEvent → Option Server
  | .connect u endpoint =>
      if u ∈ s.live then none
      else
        some { s.setSession u { endpoint := some endpoint } with
          live := insert u s.live
          sessionMap := insert u s.sessionMap }
  | .request env u msg => if u ∈ s.live then some (s.run (handle lib env u msg)) else none
  | .disconnect u => some (s.setSession u { s.session u with endpoint := none })
  | .close u => some (s.close u)
  | .delete u => some (s.delSession u)
  | .runPosted u => s.runPosted u
  | .written u =>
      match (s.session u).sendQue with
      | [] => none
      | _ :: rest => some (s.setSession u { s.session u with sendQue := rest })
  | .destroy u =>
      if u ∈ s.live ∧ u ∉ s.sessionMap ∧ (s.session u).posted = [] then some (s.destroy u)
      else none

end AsioServer.Services
