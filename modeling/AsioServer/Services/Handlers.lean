/-
AsioServer.Services.Handlers — the services, their commands and the dispatch of
a request.

Translated from `HeartService.cpp`, `HelloService.cpp`, `DBService.cpp`,
`CommunicationService.cpp` in `services/`, the part of `DBExecutor` and
`DBStruct.h` that a request sees, `IService::Handle` and
`ServiceManager::GetServiceById`.

The coroutine of a request is spawned detached, so an exception that a handler
lets through ends it silently (`Server.run`). `Env` is what a request takes
from outside: the clock, the database, and whether somebody closes the session
while a statement is awaited.
-/
import AsioServer.Services.Server

namespace AsioServer.Services

open AsioServer.Core AsioServer.Infra

/-! ## Const.h -/

namespace Const

def serviceHeart : UInt16 := 0
def serviceHello : UInt16 := 1
def serviceDb : UInt16 := 2
def serviceCommunication : UInt16 := 3
def heartRecv : UInt16 := 1
def heartAck : UInt16 := 2
def helloCmdTest : UInt16 := 1
def dbExecute : UInt16 := 1
def dbClose : UInt16 := 2
def communicationRegister : UInt16 := 1
def communicationClose : UInt16 := 2
def communicationSend : UInt16 := 3
def communicationRecv : UInt16 := 4
def communicationShow : UInt16 := 5

end Const

/-! ## The database -/

/-- `DBKey`. -/
structure DBKey where
  type : Bytes := []
  ident : Bytes := []
  deriving DecidableEq, Repr

/-- `DBRequest`. -/
structure DBRequest where
  key : DBKey := {}
  sql : Bytes := []
  cmd : Bytes := ascii "execute"
  timeout : Nat := 3000
  deriving DecidableEq, Repr

/-- What a statement produced, by `DBResult::Type`. -/
inductive ResultData where
  | none
  | resultSet (columns : List Bytes) (rows : List (List Bytes))
  | execResult (affectedRows lastInsertId : Int)
  deriving DecidableEq, Repr

/-- `DBResult`. -/
structure DBResult where
  success : Bool := false
  errorMsg : Bytes := []
  data : ResultData := .none
  deriving DecidableEq, Repr

/-- `DBResult::MakeResultJson`. -/
def DBResult.makeResultJson (r : DBResult) : Json :=
  match r.data with
  | .resultSet columns rows =>
      .object [(ascii "columns", .array (columns.map .string)),
        (ascii "rowCount", .integer rows.length),
        (ascii "rows", .array (rows.map fun row => .array (row.map .string))),
        (ascii "type", .string (ascii "result_set"))]
  | .execResult affectedRows lastInsertId =>
      .object [(ascii "affectedRows", .integer affectedRows),
        (ascii "lastInsertId", .integer lastInsertId),
        (ascii "type", .string (ascii "exec_result"))]
  | .none => .object [(ascii "type", .string (ascii "ok"))]

/-- What a request takes from outside the server. -/
structure Env where
  /-- What `system_clock::now()` returns, in nanoseconds. -/
  now : Int := 0
  /-- What it returns to a handler that asks again. -/
  nowAgain : Int := 0
  /-- The pools of `DBExecutor::_connPools`. -/
  hasPool : DBKey → Bool := fun _ => false
  /-- `Acquire` returns a connection. -/
  acquired : DBKey → Bool := fun _ => false
  /-- `Execute` on a connection: what it returns, and what it leaves in `out`. -/
  statement : DBKey → Bytes → Bool × DBResult := fun _ _ => (false, {})
  /-- The session is closed while `ExecuteRequest` is awaited. -/
  closesSession : Bool := false

/-- `DBExecutor::ExecuteRequest`. -/
def executeRequest (env : Env) (request : DBRequest) : DBResult :=
  if !env.hasPool request.key then { errorMsg := ascii "Connection pool not found" }
  else if request.cmd = ascii "close" then { success := true }
  else if !env.acquired request.key then { errorMsg := ascii "Acquire connection timeout" }
  else
    let res := env.statement request.key request.sql
    { res.2 with success := res.1 }

/-- `DBService::ParseRequest`; `none` is an exception of the JSON library. -/
def parseRequest (lib : JsonLib) (msg : MsgNode) : Option DBRequest := do
  let reqJson ← lib.parse msg.text
  let target ← reqJson.atKey (ascii "target")
  let dbType ← (← target.atKey (ascii "type")).getString
  let key : DBKey ←
    if dbType = ascii "mysql" then do
      let connInfo ← target.atKey (ascii "connInfo")
      let host ← (← connInfo.atKey (ascii "host")).getString
      let port ← (← connInfo.atKey (ascii "port")).getInt
      let database ← (← connInfo.atKey (ascii "database")).getString
      pure { type := ascii "mysql"
             ident := host ++ ascii ":" ++ integerText port ++ ascii "/" ++ database }
    else pure {}
  let action ← reqJson.atKey (ascii "action")
  let sql ← (← action.atKey (ascii "sql")).getString
  return { key, sql }

/-! ## The handlers -/

open Handler in
/-- `HeartService::OnRecvHeartCallBack`. -/
def onRecvHeart (lib : JsonLib) (env : Env) (u : Uuid) (msg : MsgNode) : Handler Unit := do
  -- the log line asks for the endpoint, outside the `try` block
  let _ ← remoteEndpoint u
  let header := { msg.header with cmdId := Const.heartAck }
  tryCatch
    (do
      match ((← get).session u).clientInfo with
      | none =>
          sendJson lib u header
            (JsonResponse.error header 1 (ascii "client does not exists"))
      | some info =>
          let duration := (env.now - info.connectTime).tdiv 1000000000
          modify fun s => s.setLastConnectTime u env.nowAgain
          let data := Json.object [(ascii "time", .integer duration)]
          sendJson lib u header (JsonResponse.ok header (.object [(ascii "result", data)])))
    fun _ => sendJson lib u header (JsonResponse.error header 9999 (ascii "UNKNOWN ERROR"))

open Handler in
/-- `HelloService::OnHelloCallBack`. -/
def onHello (u : Uuid) (msg : MsgNode) : Handler Unit := do
  let text := msg.text
  let rsp : MessageHeader :=
    { magic := 0x55AA, version := 1, serviceId := Const.serviceHello
      cmdId := Const.helloCmdTest, length := UInt32.ofNat text.length, seq := msg.header.seq }
  send u rsp text

open Handler in
/-- `DBService::ExecuteCmdAndResponse`. -/
def executeCmdAndResponse (lib : JsonLib) (env : Env) (u : Uuid) (header : MessageHeader)
    (req : DBRequest) : Handler Unit := do
  let result := executeRequest env req
  if env.closesSession then modify fun s => s.close u
  let resp :=
    if result.success then
      JsonResponse.ok header (.object [(ascii "result", result.makeResultJson)])
    else JsonResponse.error header 10001 result.errorMsg
  sendJson lib u header resp

open Handler in
/-- `DBService::OnExecuteCallBack`. -/
def onExecute (lib : JsonLib) (env : Env) (u : Uuid) (msg : MsgNode) : Handler Unit := do
  let req ← ofJson (parseRequest lib msg)
  executeCmdAndResponse lib env u msg.header req

open Handler in
/-- `DBService::OnCloseCallBack`. -/
def onDbClose (lib : JsonLib) (env : Env) (u : Uuid) (msg : MsgNode) : Handler Unit := do
  let req ← ofJson (parseRequest lib msg)
  executeCmdAndResponse lib env u msg.header { req with cmd := ascii "close" }

open Handler in
/-- `CommunicationService::OnCreateCallBack`. -/
def onCreate (lib : JsonLib) (env : Env) (u : Uuid) (msg : MsgNode) : Handler Unit :=
  let header := msg.header
  tryCatch
    (do
      let endpoint ← remoteEndpoint u
      let reqJson ← ofJson (lib.parse msg.text)
      let target ← ofJson (reqJson.atKey (ascii "target"))
      let name ← ofJson ((target.atKey (ascii "name")).bind Json.getString)
      modify fun s => s.setClientInfo u
        { ip := endpoint.address, port := endpoint.port.toNat, name, connectTime := env.now }
      let success ← addClient name u
      let resp :=
        if success then JsonResponse.ok header
        else JsonResponse.error header 20001 (ascii "client name already exists")
      sendJson lib u header resp)
    fun _ => sendJson lib u header (JsonResponse.error header 29999 (ascii "invalid request json"))

open Handler in
/-- `CommunicationService::OnCloseCallBack`. -/
def onClose (lib : JsonLib) (u : Uuid) (msg : MsgNode) : Handler Unit :=
  let header := msg.header
  tryCatch
    (do
      let reqJson ← ofJson (lib.parse msg.text)
      let target ← ofJson (reqJson.atKey (ascii "target"))
      let name ← ofJson ((target.atKey (ascii "name")).bind Json.getString)
      modify fun s => s.clientClose u
      let success ← removeClient name
      let resp :=
        if success then JsonResponse.ok header
        else JsonResponse.error header 20002 (ascii "client name not exists")
      sendJson lib u header resp)
    fun _ => sendJson lib u header (JsonResponse.error header 29999 (ascii "invalid request json"))

/-- The push that carries a message to its recipient. -/
def pushJson (sender message : Bytes) : Json :=
  .object [(ascii "from", .string sender), (ascii "message", .string message)]

/-- The header of a push. -/
def forwardHeader (header : MessageHeader) : MessageHeader :=
  { header with cmdId := Const.communicationRecv, seq := 0 }

open Handler in
/-- `CommunicationService::OnSendCallBack`. -/
def onSend (lib : JsonLib) (u : Uuid) (msg : MsgNode) : Handler Unit :=
  let header := msg.header
  tryCatch
    (do
      let reqJson ← ofJson (lib.parse msg.text)
      let target ← ofJson (reqJson.atKey (ascii "target"))
      let sender :=
        match ((← get).session u).clientInfo with
        | some info => info.name
        | none => ascii "Unknown"
      let clientName ← ofJson ((target.atKey (ascii "client")).bind Json.getString)
      let message ← ofJson ((target.atKey (ascii "message")).bind Json.getString)
      match (← get).getClient clientName with
      | none =>
          sendJson lib u header
            (JsonResponse.error header 20002 (ascii "client name not exists"))
      | some v =>
          let text ← ofJson ((pushJson sender message).dump lib)
          let success ← sendToOtherSession v (forwardHeader header) text
          if success then sendJson lib u header (JsonResponse.ok header)
          else
            sendJson lib u header
              (JsonResponse.error header 20003 (ascii "client name or session not exists")))
    fun _ => sendJson lib u header (JsonResponse.error header 29999 (ascii "invalid request json"))

open Handler in
/-- `CommunicationService::OnShowCallBack`. -/
def onShow (lib : JsonLib) (u : Uuid) (msg : MsgNode) : Handler Unit :=
  let header := msg.header
  tryCatch
    (do
      let clients := (← get).getAllClientName
      let data := Json.object [(ascii "clients", .array (clients.map .string)),
        (ascii "count", .integer clients.length)]
      sendJson lib u header (JsonResponse.ok header (.object [(ascii "result", data)])))
    fun _ => sendJson lib u header (JsonResponse.error header 29999 (ascii "UNKNOWN ERROR"))

/-! ## Dispatch -/

/-- The services that `main` and the static registrations register. -/
inductive Service where
  | heart
  | hello
  | db
  | communication
  deriving DecidableEq, Repr

/-- `GetServiceId` of each service. -/
def Service.getServiceId : Service → UInt16
  | heart => Const.serviceHeart
  | hello => Const.serviceHello
  | db => Const.serviceDb
  | communication => Const.serviceCommunication

/-- `ServiceManager::GetServiceById`. -/
def getServiceById (serviceId : UInt16) : Option Service :=
  if serviceId = Const.serviceHeart then some .heart
  else if serviceId = Const.serviceHello then some .hello
  else if serviceId = Const.serviceDb then some .db
  else if serviceId = Const.serviceCommunication then some .communication
  else none

/-- The commands that the services enter into their `_cmdMap`. -/
inductive Command where
  | heart
  | hello
  | execute
  | dbClose
  | register
  | close
  | send
  | showClients
  deriving DecidableEq, Repr

/-- The `_cmdMap` that `RegisterCmd` fills. -/
def Service.cmdMap (service : Service) (cmdId : UInt16) : Option Command :=
  match service with
  | heart => if cmdId = Const.heartRecv then some .heart else none
  | hello => if cmdId = Const.helloCmdTest then some .hello else none
  | db =>
      if cmdId = Const.dbExecute then some .execute
      else if cmdId = Const.dbClose then some .dbClose
      else none
  | communication =>
      if cmdId = Const.communicationRegister then some .register
      else if cmdId = Const.communicationClose then some .close
      else if cmdId = Const.communicationSend then some .send
      else if cmdId = Const.communicationShow then some .showClients
      else none

/-- The callback of a command. -/
def Command.callback (lib : JsonLib) (env : Env) (u : Uuid) (msg : MsgNode) :
    Command → Handler Unit
  | heart => onRecvHeart lib env u msg
  | hello => onHello u msg
  | execute => onExecute lib env u msg
  | dbClose => onDbClose lib env u msg
  | register => onCreate lib env u msg
  | close => onClose lib u msg
  | send => onSend lib u msg
  | showClients => onShow lib u msg

/-- The command of a request, when its service and the command are registered. -/
def commandOf (header : MessageHeader) : Option Command :=
  (getServiceById header.serviceId).bind fun service => service.cmdMap header.cmdId

/-- `IService::Handle` of the service that is found for the message. -/
def handle (lib : JsonLib) (env : Env) (u : Uuid) (msg : MsgNode) : Handler Unit :=
  match commandOf msg.header with
  | some command => command.callback lib env u msg
  | none => pure ()

/-- The state after a detached coroutine has run. -/
def Server.run {α : Type} (s : Server) (h : Handler α) : Server :=
  match h s with
  | .ok _ t => t
  | .error _ t => t

end AsioServer.Services
