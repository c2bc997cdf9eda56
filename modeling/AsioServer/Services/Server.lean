/-
AsioServer.Services.Server — the data that the services share, and the calls
they make on sessions and on the client manager.

Translated from `CSession` (`Send`, `Close`, `ClientClose`,
`SendToOtherSession`, the destructor) and `CServer` (`DelSessionByUuid`,
`GetSessionByUuid`) in `core/`, and from `ClientInfo.h`, `ClientManager.{h,cpp}`
in `services/CommunicationService/` and `core/protocol/JsonResponse.h`.

A handler runs in `Handler`: it reads and writes the `Server`, and an exception
keeps what was written before it. A uuid is 16 random bytes, and its text
determines it. `posted` holds the `DoSend` closures of a session that have not
run yet. `calls` records every call of `CSession::Send` and `clientClosed` those
of `ClientClose`; no handler reads them.
-/
import Mathlib.Data.List.AList
import Mathlib.Data.Finset.Basic
import AsioServer.Core.SendPipeline
import AsioServer.Infra.Json

namespace AsioServer.Services

open AsioServer.Core AsioServer.Infra

/-! ## The shared data -/

/-- A uuid of `boost::uuids::random_generator`. -/
abbrev Uuid := BitVec 128

/-- What `remote_endpoint()` returns. -/
structure Endpoint where
  address : Bytes
  port : UInt16
  deriving DecidableEq, Repr

/-- `ClientInfo`. `connectTime` is in nanoseconds. -/
structure ClientInfo where
  ip : Bytes
  port : Nat
  name : Bytes
  isLongConn : Bool := false
  connectTime : Int
  deriving DecidableEq, Repr

/-- A message on its way out: the header with its length set, and the body. -/
structure Outgoing where
  header : MessageHeader
  body : Bytes
  deriving DecidableEq, Repr

/-- The fields of `CSession` that the services reach. `endpoint` is `none` when
`remote_endpoint()` throws. -/
structure CSession where
  bStop : Bool := false
  endpoint : Option Endpoint := none
  clientInfo : Option ClientInfo := none
  posted : List Outgoing := []
  sendQue : List Outgoing := []
  clientClosed : Bool := false
  deriving DecidableEq, Repr

/-- One call of `CSession::Send`. `status` is the status code of a response. -/
structure SendCall where
  session : Uuid
  message : Outgoing
  status : Option Int
  /-- Not discarded because of `_bStop`. -/
  accepted : Bool
  deriving DecidableEq, Repr

/-- The sessions that exist, `CServer::_sessionMap` and
`ClientManager::_clientMap`. -/
structure Server where
  live : Finset Uuid := ∅
  session : Uuid → CSession := fun _ => {}
  sessionMap : Finset Uuid := ∅
  clientMap : AList (fun _ : Bytes => Uuid) := ∅
  calls : List SendCall := []

/-! ## JsonResponse.h -/

namespace JsonResponse

/-- A number in a response. -/
def number (n : Nat) : Json := .integer n

/-- The `header` entry of a response. -/
def headerJson (header : MessageHeader) : Json :=
  .object [(ascii "cmdId", number header.cmdId.toNat), (ascii "seq", number header.seq.toNat),
    (ascii "serviceId", number header.serviceId.toNat)]

/-- The `status` entry of a response. -/
def statusJson (code : Int) (message : Bytes) : Json :=
  .object [(ascii "code", .integer code), (ascii "message", .string message)]

/-- `JsonResponse::Ok`, with the fields of the request's header. -/
def ok (header : MessageHeader) (data : Json := .object []) : Json :=
  .object [(ascii "data", data), (ascii "header", headerJson header),
    (ascii "status", statusJson 0 (ascii "OK"))]

/-- `JsonResponse::Error`. -/
def error (header : MessageHeader) (errorCode : Int) (errorMsg : Bytes) : Json :=
  .object [(ascii "data", .null), (ascii "header", headerJson header),
    (ascii "status", statusJson errorCode errorMsg)]

/-- The status code of a response. -/
def statusCode (resp : Json) : Option Int :=
  match (resp.atKey (ascii "status")).bind fun status => status.atKey (ascii "code") with
  | some (.integer code) => some code
  | _ => none

end JsonResponse

/-! ## Sessions and the client manager -/

namespace Server

/-- The session becomes `x`. -/
def setSession (s : Server) (u : Uuid) (x : CSession) : Server :=
  { s with session := Function.update s.session u x }

/-- `CSession::Send(header, std::string)`. -/
def send (s : Server) (u : Uuid) (header : MessageHeader) (body : Bytes)
    (status : Option Int) : Server :=
  let message : Outgoing := ⟨{ header with length := UInt32.ofNat body.length }, body⟩
  let x := s.session u
  let s := { s with calls := s.calls ++ [⟨u, message, status, !x.bStop⟩] }
  if x.bStop then s else s.setSession u { x with posted := x.posted ++ [message] }

/-- `CSession::Close`. -/
def close (s : Server) (u : Uuid) : Server :=
  s.setSession u { s.session u with bStop := true }

/-- `CServer::DelSessionByUuid`. -/
def delSession (s : Server) (u : Uuid) : Server :=
  { s with sessionMap := s.sessionMap.erase u }

/-- `CSession::ClientClose`. -/
def clientClose (s : Server) (u : Uuid) : Server :=
  (s.setSession u { s.session u with bStop := true, clientClosed := true }).delSession u

/-- `CSession::SetClientInfo`. -/
def setClientInfo (s : Server) (u : Uuid) (info : ClientInfo) : Server :=
  s.setSession u { s.session u with clientInfo := some info }

/-- `ClientInfo::SetLastConnectTime` of a session's `ClientInfo`. -/
def setLastConnectTime (s : Server) (u : Uuid) (connectTime : Int) : Server :=
  s.setSession u { s.session u with
    clientInfo := (s.session u).clientInfo.map fun info => { info with connectTime } }

/-- `ClientManager::AddClient`. -/
def addClient (s : Server) (name : Bytes) (u : Uuid) : Bool × Server :=
  if (s.clientMap.lookup name).isNone then
    (true, { s with clientMap := s.clientMap.insert name u })
  else (false, s)

/-- `ClientManager::RemoveClient`. -/
def removeClient (s : Server) (name : Bytes) : Bool × Server :=
  if (s.clientMap.lookup name).isSome then
    (true, { s with clientMap := s.clientMap.erase name })
  else (false, s)

/-- `ClientManager::GetClient`; the empty string is `none`. -/
def getClient (s : Server) (name : Bytes) : Option Uuid := s.clientMap.lookup name

/-- `ClientManager::GetAllClientName`. -/
def getAllClientName (s : Server) : List Bytes := s.clientMap.keys

end Server

/-! ## Handlers -/

/-- The exceptions that a handler can meet. -/
inductive Exn where
  /-- Of the JSON library. -/
  | json
  /-- `boost::system::system_error`. -/
  | system
  deriving DecidableEq, Repr

/-- The body of a handler. -/
abbrev Handler (α : Type) := EStateM Exn Server α

namespace Handler

/-- An operation of the JSON library. -/
def ofJson {α : Type} : Option α → Handler α
  | some a => pure a
  | none => throw .json

/-- `GetSocket().remote_endpoint()`. -/
def remoteEndpoint (u : Uuid) : Handler Endpoint := do
  match ((← get).session u).endpoint with
  | some endpoint => pure endpoint
  | none => throw .system

/-- `session->Send(hdr, std::string)`. -/
def send (u : Uuid) (header : MessageHeader) (body : Bytes) : Handler Unit :=
  modify fun s => s.send u header body none

/-- `session->Send(hdr, nlohmann::json)`: the text is made before `Send` looks at
`_bStop`. -/
def sendJson (lib : JsonLib) (u : Uuid) (header : MessageHeader) (resp : Json) : Handler Unit := do
  let text ← ofJson (resp.dump4 lib)
  modify fun s => s.send u header text (JsonResponse.statusCode resp)

/-- `CSession::SendToOtherSession`. -/
def sendToOtherSession (v : Uuid) (header : MessageHeader) (body : Bytes) : Handler Bool := do
  if v ∈ (← get).sessionMap then
    -- the log line asks for the endpoint of the other session
    let _ ← remoteEndpoint v
    send v header body
    return true
  else return false

/-- `ClientManager::AddClient`. -/
def addClient (name : Bytes) (u : Uuid) : Handler Bool := modifyGet fun s => s.addClient name u

/-- `ClientManager::RemoveClient`. -/
def removeClient (name : Bytes) : Handler Bool := modifyGet fun s => s.removeClient name

end Handler

end AsioServer.Services
