/-
AsioServer.Net.SessionOwners — who keeps a session alive.

Translated from `CoroutineSession::Start` and `StartHeartbeatCheck`
(`net/coroutine/CoroutineSession.cpp`) and from `Close`, `Send`, `DoSend`,
`HandleWrite` and `ClientClose` (`core/session/CSession.cpp`). The strands of a session
step as in `Net.SessionRegistry`; next to them stand the holders of a
`shared_ptr` to it. The read coroutine is not among them: it captures `this`.

A session is one state, since its owners are its own. Whether `DoSend` or
`HandleWrite` starts a write is the business of `Core.SendPipeline` and a choice of the
label here.
-/
import AsioServer.Net.SessionRegistry

namespace AsioServer.Net

open AsioServer.Lib

/-- A session with those who hold it. -/
structure OwnedSession where
  session : Session := {}
  /-- `_sessionMap` has an entry for the session. -/
  registered : Bool := false
  /-- The closure that `Close` posted has not run yet. -/
  closing : Bool := false
  /-- The closures posted by `Send` that have not run yet. -/
  sends : Nat := 0
  /-- The writes whose `HandleWrite` is still to come. -/
  writes : Nat := 0
  /-- The calls of `IService::Handle` that are running. -/
  handlers : Nat := 0
  deriving DecidableEq, Repr

/-- The steps of a session and of its owners. -/
inductive OwnerEvent where
  /-- A strand of the session takes a step, or a service handler calls `Close` or
  `DelSessionByUuid` (`ClientClose`). A message for an unknown service is dropped. -/
  | act (a : Action)
  /-- The read coroutine starts `IService::Handle`. -/
  | dispatch
  /-- A service handler returns. -/
  | handlerDone
  /-- Somebody calls `Send`. -/
  | send
  /-- A closure posted by `Send` runs `DoSend`. -/
  | runSend (starts : Bool)
  /-- A write completes, and `HandleWrite` may start the next. -/
  | writeDone (again : Bool)
  /-- A write fails: `HandleWrite` calls `Close`. -/
  | writeFailed
  /-- The closure posted by `Close` runs. -/
  | runClose
  deriving DecidableEq, Repr

/-- The calls that `ClientClose` makes from a service handler. -/
def Action.fromHandler : Action → Bool
  | close | delete => true
  | _ => false

namespace OwnedSession

/-- A strand of the session takes a step. `Close` posts its closure when it finds
`_bStop` not set. -/
def act (s : OwnedSession) (a : Action) : Option OwnedSession :=
  (s.session.localStep a).map fun r =>
    { s with
      session := r.1
      registered := r.2.entry s.registered
      closing := s.closing || (!s.session.bStop && r.1.bStop) }

/-- Somebody holds the session. -/
def owned (s : OwnedSession) : Bool :=
  s.registered || s.session.watchdog != .ended || s.closing || decide (0 < s.sends) ||
    decide (0 < s.writes) || decide (0 < s.handlers)

end OwnedSession

/-- One step of a session and its owners. -/
def ownerStep (s : OwnedSession) : OwnerEvent → Option OwnedSession
  | .act a => if a.fromHandler && s.handlers == 0 then none else s.act a
  | .dispatch =>
      if s.session.reader = .dispatching then
        (s.act (.read (.normal false))).map fun s => { s with handlers := s.handlers + 1 }
      else none
  | .handlerDone => if 0 < s.handlers then some { s with handlers := s.handlers - 1 } else none
  | .send =>
      -- the caller found the session in the map, or serves it
      if s.registered || decide (0 < s.handlers) then
        some (if s.session.bStop then s else { s with sends := s.sends + 1 })
      else none
  | .runSend starts =>
      if 0 < s.sends then
        some { s with
          sends := s.sends - 1
          writes := if starts && !s.session.bStop then s.writes + 1 else s.writes }
      else none
  | .writeDone again =>
      if 0 < s.writes then some { s with writes := if again then s.writes else s.writes - 1 }
      else none
  | .writeFailed =>
      if 0 < s.writes then (s.act .close).map fun s => { s with writes := s.writes - 1 }
      else none
  | .runClose => if s.closing then some { s with closing := false } else none

end AsioServer.Net
