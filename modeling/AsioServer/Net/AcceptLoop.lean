/-
AsioServer.Net.AcceptLoop — the accept loop of the server.

Translated from `CServer::StartCoroutineAccpet`, `StartAsyncAccpet` and the
constructor in `core/server/CServer.cpp`. An accept handler makes a session, starts
it on the thread of its `io_context`, asks its socket for the remote endpoint (for the
log), registers the session and starts the next `async_accept` on its last line. While
it runs, the peer may reset the connection and the IO thread may close the socket.

`remote_endpoint()` throws unless the socket is connected. An exception that leaves the
handler leaves `ioc.run()` in `main` as well, so that no handler runs any more. Which
`io_context` of the pool a socket belongs to is left out.
-/
import AsioServer.Lib.Monitor
import AsioServer.Lib.Transition

namespace AsioServer.Net

open AsioServer.Lib

/-- `ASIO_TYPE`: the class of the sessions that are made. -/
inductive AsioType where
  | async
  | coroutine
  deriving DecidableEq, Repr

/-- What has become of the socket of a session. -/
inductive SocketState where
  | connected
  /-- The peer has reset the connection. -/
  | disconnected
  /-- `_socket.close` has run on the IO thread. -/
  | closed
  deriving DecidableEq, Repr

/-- `remote_endpoint()` returns. -/
def SocketState.hasEndpoint : SocketState → Bool
  | connected => true
  | disconnected | closed => false

/-- A session that an accept handler has made and started. -/
structure AcceptedSession where
  type : AsioType
  socket : SocketState
  deriving DecidableEq, Repr

/-- The place that the accept handler has reached. -/
inductive HandlerPoint where
  /-- No handler runs. -/
  | waiting
  /-- Session `i` is started; `remote_endpoint()` comes next. -/
  | logging (type : AsioType) (i : Nat)
  /-- The insertion into `_sessionMap` comes next. -/
  | inserting (type : AsioType) (i : Nat)
  /-- The next `async_accept` comes next. -/
  | rearming (type : AsioType)
  /-- An exception has left the handler, and `ioc.run()`. -/
  | threw
  deriving DecidableEq, Repr

/-- The server, with the outstanding `async_accept` operations. A uuid is the index
of its session. -/
structure AcceptServer where
  pending : List AsioType := []
  handler : HandlerPoint := .waiting
  sessions : List AcceptedSession := []
  sessionMap : List Nat := []
  deriving DecidableEq, Repr

namespace AcceptServer

/-- `async_accept`, with a handler that makes sessions of the type. -/
def startAccept (type : AsioType) (s : AcceptServer) : AcceptServer :=
  { s with pending := s.pending ++ [type] }

def startCoroutineAccpet : AcceptServer → AcceptServer := startAccept .coroutine

def startAsyncAccpet : AcceptServer → AcceptServer := startAccept .async

/-- The call on the last line of a handler. -/
def startAgain : AsioType → AcceptServer → AcceptServer
  | .coroutine => startCoroutineAccpet
  | .async => startAsyncAccpet

/-- The constructor. -/
def make (type : AsioType) : AcceptServer :=
  match type with
  | .async => startAsyncAccpet {}
  | .coroutine => startCoroutineAccpet {}

/-- The socket of session `i` changes. -/
def setSocket (s : AcceptServer) (i : Nat) (x : AcceptedSession) (socket : SocketState) :
    AcceptServer :=
  { s with sessions := s.sessions.set i { x with socket := socket } }

end AcceptServer

/-- How an `async_accept` completes. -/
inductive AcceptResult where
  /-- The handler sleeps when there are no descriptors left. -/
  | error (noDescriptors : Bool)
  /-- With the connection as the peer has left it. -/
  | accepted (socket : SocketState)
  deriving DecidableEq, Repr

/-- The steps of the server and of what surrounds it. -/
inductive AcceptEvent where
  | complete (result : AcceptResult)
  /-- The handler takes its next step. -/
  | proceed
  /-- The peer of session `i` resets the connection. -/
  | disconnect (i : Nat)
  /-- The IO thread closes the socket of session `i`. -/
  | close (i : Nat)
  deriving DecidableEq, Repr

/-- One step of the server. -/
def acceptStep (s : AcceptServer) : AcceptEvent → Option AcceptServer
  | .complete result =>
      match s.handler, s.pending with
      | .waiting, type :: rest =>
          match result with
          | .error _ => some { s with pending := rest, handler := .rearming type }
          | .accepted socket =>
              some { s with
                pending := rest
                sessions := s.sessions ++ [{ type := type, socket := socket }]
                handler := .logging type s.sessions.length }
      | _, _ => none
  | .proceed =>
      match s.handler with
      | .waiting | .threw => none
      | .logging type i =>
          match s.sessions[i]? with
          | some x =>
              some { s with handler := if x.socket.hasEndpoint then .inserting type i else .threw }
          | none => none
      | .inserting type i =>
          some { s with sessionMap := s.sessionMap ++ [i], handler := .rearming type }
      | .rearming type => some { s.startAgain type with handler := .waiting }
  | .disconnect i =>
      match s.sessions[i]? with
      | some x => if x.socket = .connected then some (s.setSocket i x .disconnected) else none
      | none => none
  | .close i =>
      match s.sessions[i]? with
      | some x => some (s.setSocket i x .closed)
      | none => none

end AsioServer.Net
