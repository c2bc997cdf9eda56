/-
AsioServer.Net.SessionRegistry — the life of the sessions and the map of the
server that registers them.

Translated from `CServer::StartCoroutineAccpet`, `DelSessionByUuid`
(`core/server/CServer.cpp`), `CoroutineSession::Start` and
`StartHeartbeatCheck` (`net/coroutine/CoroutineSession.cpp`) and the calls of
`CSession::Close` in `HandleWrite` and `ClientClose`.

A session has three strands that run on two threads: the accept handler, which
starts the session and only then inserts it, the read coroutine, and the
watchdog. `localStep` is the next step of one of them, or a call of `Close` or
`DelSessionByUuid` from elsewhere; it yields the session's new data and what
happens to its entry in `_sessionMap`. A uuid is the index of its session.
-/
import Mathlib.Data.Finset.Basic
import AsioServer.Lib.Monitor
import AsioServer.Lib.Transition

namespace AsioServer.Net

open AsioServer.Lib

/-- The accept handler of a connection, after `newSession->Start()`. -/
inductive AcceptPoint where
  /-- `remote_endpoint()` comes next, for the log. -/
  | started
  /-- The insertion comes next. -/
  | logged
  | inserted
  /-- `remote_endpoint()` threw. -/
  | threw
  deriving DecidableEq, Repr

/-- How the read coroutine ended. -/
inductive Ending where
  /-- After `Close` and `DelSessionByUuid`. -/
  | cleaned
  /-- The loop found `_bStop` set. -/
  | left
  /-- An exception that is no `system_error` left the coroutine. -/
  | escaped
  deriving DecidableEq, Repr

/-- The point the read coroutine has reached. -/
inductive ReadPoint where
  | loopTest
  /-- `async_read` of the header is awaited. -/
  | readHeader
  /-- The header was read: `ToHost` and `Allocate` come next. -/
  | allocating
  /-- `async_read` of the body is awaited. -/
  | readBody
  /-- The message is complete: the service is looked up and `Handle` spawned. -/
  | dispatching
  /-- `Close` comes next. -/
  | closing
  /-- `DelSessionByUuid` comes next. -/
  | deleting
  | ended (how : Ending)
  deriving DecidableEq, Repr

/-- What the next stretch of the read coroutine comes to. -/
inductive Outcome where
  /-- It runs through; the flag says whether the header announced a body. -/
  | normal (hasBody : Bool)
  /-- The read completed with no bytes. -/
  | empty
  /-- A `boost::system::system_error` is thrown. -/
  | systemError
  /-- Another exception is thrown, such as `bad_alloc`. -/
  | otherError
  deriving DecidableEq, Repr

/-- The point the watchdog has reached. -/
inductive WatchPoint where
  | watching
  /-- `DelSessionByUuid` comes next. -/
  | deleting
  | ended
  deriving DecidableEq, Repr

/-- The data of a session that its life depends on. -/
structure Session where
  accept : AcceptPoint := .started
  reader : ReadPoint := .loopTest
  watchdog : WatchPoint := .watching
  bStop : Bool := false
  deriving DecidableEq, Repr

/-- What a step of a session does. -/
inductive Action where
  /-- The accept handler logs the endpoint, or `remote_endpoint()` throws. -/
  | logEndpoint (ok : Bool)
  | insert
  | read (o : Outcome)
  /-- The watchdog's timer fires, or `DelSessionByUuid` is due. -/
  | watch (expired : Bool)
  /-- `Close` is called by `HandleWrite` after an error, or by `ClientClose`. -/
  | close
  /-- `DelSessionByUuid` is called by `ClientClose`. -/
  | delete
  deriving DecidableEq, Repr

/-- What a step does to the session's entry in `_sessionMap`. -/
inductive MapEdit where
  | keep
  | insert
  | erase
  deriving DecidableEq, Repr

/-- The points of the read coroutine inside its `try` block where exceptions arise. -/
def ReadPoint.inTry : ReadPoint → Bool
  | readHeader | allocating | readBody | dispatching => true
  | _ => false

/-- The points where `async_read` is awaited. -/
def ReadPoint.isReading : ReadPoint → Bool
  | readHeader | readBody => true
  | _ => false

namespace Session

/-- The read coroutine of `CoroutineSession::Start`. -/
def read (x : Session) : Outcome → Option (Session × MapEdit)
  | .normal hasBody =>
      match x.reader with
      | .loopTest =>
          if x.bStop then some ({ x with reader := .ended .left }, .keep)
          else some ({ x with reader := .readHeader }, .keep)
      | .readHeader => some ({ x with reader := .allocating }, .keep)
      | .allocating =>
          some ({ x with reader := if hasBody then .readBody else .dispatching }, .keep)
      | .readBody => some ({ x with reader := .dispatching }, .keep)
      | .dispatching => some ({ x with reader := .loopTest }, .keep)
      | .closing => some ({ x with bStop := true, reader := .deleting }, .keep)
      | .deleting => some ({ x with reader := .ended .cleaned }, .erase)
      | .ended _ => none
  | .empty => if x.reader.isReading then some ({ x with reader := .closing }, .keep) else none
  | .systemError => if x.reader.inTry then some ({ x with reader := .closing }, .keep) else none
  -- the `catch` clause takes `boost::system::system_error` only
  | .otherError =>
      if x.reader.inTry then some ({ x with reader := .ended .escaped }, .keep) else none

/-- The watchdog of `CoroutineSession::StartHeartbeatCheck`. -/
def watch (x : Session) (expired : Bool) : Option (Session × MapEdit) :=
  match x.watchdog with
  | .watching =>
      if x.bStop then some ({ x with watchdog := .ended }, .keep)
      else if expired then some ({ x with bStop := true, watchdog := .deleting }, .keep)
      else some (x, .keep)
  | .deleting => some ({ x with watchdog := .ended }, .erase)
  | .ended => none

/-- One step of a session, and what it does to the session's entry. -/
def localStep (x : Session) : Action → Option (Session × MapEdit)
  | .logEndpoint ok =>
      match x.accept with
      | .started => some ({ x with accept := if ok then .logged else .threw }, .keep)
      | _ => none
  | .insert =>
      match x.accept with
      | .logged => some ({ x with accept := .inserted }, .insert)
      | _ => none
  | .read o => x.read o
  | .watch expired => x.watch expired
  | .close => some ({ x with bStop := true }, .keep)
  | .delete => some (x, .erase)

end Session

/-- The sessions of the server and its `_sessionMap`. -/
structure Registry where
  sessions : List Session := []
  sessionMap : Finset Nat := ∅
  deriving DecidableEq

/-- The steps of the server. -/
inductive RegistryEvent where
  /-- A connection is accepted: its session is made and started. -/
  | accept
  /-- Session `i` takes a step. -/
  | act (i : Nat) (a : Action)
  deriving DecidableEq, Repr

/-- What an edit makes of the map. -/
def MapEdit.apply (i : Nat) (m : Finset Nat) : MapEdit → Finset Nat
  | keep => m
  | insert => Insert.insert i m
  | erase => m.erase i

/-- What an edit makes of the entry of its session. -/
def MapEdit.entry (registered : Bool) : MapEdit → Bool
  | keep => registered
  | insert => true
  | erase => false

/-- One step of the server. -/
def registryStep (s : Registry) : RegistryEvent → Option Registry
  | .accept => some { s with sessions := s.sessions ++ [{}] }
  | .act i a =>
      match s.sessions[i]? with
      | some x => (x.localStep a).map fun r =>
          { sessions := s.sessions.set i r.1, sessionMap := r.2.apply i s.sessionMap }
      | none => none

end AsioServer.Net
