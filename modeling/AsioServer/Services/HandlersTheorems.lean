/-
AsioServer.Services.HandlersTheorems — what each handler comes to.

A handler is a program with exceptions; each lemma of the section on the
handlers computes one of them to the state it leaves, by the outcome of its
reads (`targetString`, the endpoint, the maps). The lemmas about the services
build on these and do not unfold a handler again.
-/
import AsioServer.Infra.JsonTheorems
import AsioServer.Services.Handlers
import AsioServer.Services.ServerTheorems

namespace AsioServer.Services

open AsioServer.Core AsioServer.Infra

variable {lib : JsonLib} {env : Env} {s : Server} {u v : Uuid} {msg : MsgNode}

/-! ## Running a handler -/

namespace Handler

variable {α β : Type}

theorem bind_of_ok {x : Handler α} {f : α → Handler β} {s t : Server} {a : α}
    (h : x s = .ok a t) : (x >>= f) s = f a t := by
  show EStateM.bind x f s = _
  rw [EStateM.bind, h]

theorem bind_of_error {x : Handler α} {f : α → Handler β} {s t : Server} {e : Exn}
    (h : x s = .error e t) : (x >>= f) s = .error e t := by
  show EStateM.bind x f s = _
  rw [EStateM.bind, h]

theorem tryCatch_of_ok {x : Handler α} {c : Exn → Handler α} {s t : Server} {a : α}
    (h : x s = .ok a t) : (tryCatch x c) s = .ok a t := by
  show EStateM.tryCatch x c s = _
  rw [EStateM.tryCatch, h]

theorem tryCatch_of_error {x : Handler α} {c : Exn → Handler α} {s t : Server} {e : Exn}
    (h : x s = .error e t) : (tryCatch x c) s = c e t := by
  show EStateM.tryCatch x c s = _
  rw [EStateM.tryCatch, h]
  rfl

theorem tryCatch_congr {x y : Handler α} {c : Exn → Handler α} {s : Server} (h : x s = y s) :
    (tryCatch x c) s = (tryCatch y c) s := by
  show EStateM.tryCatch x c s = EStateM.tryCatch y c s
  rw [EStateM.tryCatch, EStateM.tryCatch, h]

theorem get_eq (s : Server) : (get : Handler Server) s = .ok s s := rfl

theorem modify_eq (f : Server → Server) (s : Server) :
    (modify f : Handler Unit) s = .ok () (f s) := rfl

theorem ofJson_some (a : α) (s : Server) : ofJson (some a) s = .ok a s := rfl

theorem ofJson_none (s : Server) : (ofJson none : Handler α) s = .error .json s := rfl

end Handler

/-! ## Replies -/

/-- A response is sent: its text goes to `Send`. -/
def Server.reply (s : Server) (lib : JsonLib) (u : Uuid) (header : MessageHeader)
    (resp : Json) : Server :=
  s.send u header ((resp.dump4 lib).getD []) (JsonResponse.statusCode resp)

namespace JsonResponse

theorem isText_ok (header : MessageHeader) (data : Json) :
    (ok header data).isText = data.isText := by
  have hkeys : isUtf8 (ascii "data") = true ∧ isUtf8 (ascii "header") = true ∧
      isUtf8 (ascii "status") = true := by decide
  have hheader : (headerJson header).isText = true := by
    simp only [headerJson, number, Json.isText, isTextFields, Bool.and_true]
    decide
  have hstatus : (statusJson 0 (ascii "OK")).isText = true := by decide
  simp [ok, Json.isText, isTextFields, hkeys, hheader, hstatus]

theorem isText_error (header : MessageHeader) (errorCode : Int) (errorMsg : Bytes) :
    (error header errorCode errorMsg).isText = isUtf8 errorMsg := by
  have hkeys : isUtf8 (ascii "data") = true ∧ isUtf8 (ascii "header") = true ∧
      isUtf8 (ascii "status") = true ∧ isUtf8 (ascii "code") = true ∧
      isUtf8 (ascii "message") = true := by decide
  have hheader : (headerJson header).isText = true := by
    simp only [headerJson, number, Json.isText, isTextFields, Bool.and_true]
    decide
  simp [error, statusJson, Json.isText, isTextFields, hkeys, hheader]

theorem statusCode_ok (header : MessageHeader) (data : Json) :
    statusCode (ok header data) = some 0 := rfl

theorem statusCode_error (header : MessageHeader) (errorCode : Int) (errorMsg : Bytes) :
    statusCode (error header errorCode errorMsg) = some errorCode := rfl

end JsonResponse

namespace Handler

/-- A response whose strings are UTF-8 is sent. -/
theorem sendJson_of_isText {header : MessageHeader} {resp : Json} (h : resp.isText = true)
    (s : Server) : sendJson lib u header resp s = .ok () (s.reply lib u header resp) := by
  obtain ⟨text, htext⟩ := dump4_eq_some_iff.mpr h
  rw [sendJson, htext, bind_of_ok (ofJson_some text s), modify_eq, Server.reply, htext]
  rfl

/-- A response with another string is an exception. -/
theorem sendJson_of_not_isText {header : MessageHeader} {resp : Json}
    (h : resp.isText = false) (s : Server) :
    sendJson lib u header resp s = .error .json s := by
  have hnone : resp.dump4 lib = none := by
    rw [Option.eq_none_iff_forall_not_mem]
    intro text htext
    have hsome := dump4_eq_some_iff.mp ⟨text, htext⟩
    simp [h] at hsome
  rw [sendJson, hnone, bind_of_error (ofJson_none s)]

theorem sendJson_ok (header : MessageHeader) (s : Server) :
    sendJson lib u header (JsonResponse.ok header) s =
      .ok () (s.reply lib u header (JsonResponse.ok header)) :=
  sendJson_of_isText (JsonResponse.isText_ok header _) s

theorem sendJson_error {header : MessageHeader} {errorCode : Int} {errorMsg : Bytes}
    (h : isUtf8 errorMsg = true) (s : Server) :
    sendJson lib u header (JsonResponse.error header errorCode errorMsg) s =
      .ok () (s.reply lib u header (JsonResponse.error header errorCode errorMsg)) :=
  sendJson_of_isText ((JsonResponse.isText_error header errorCode errorMsg).trans h) s

theorem sendJson_ite {header : MessageHeader} {errorCode : Int} {errorMsg : Bytes}
    (h : isUtf8 errorMsg = true) (success : Bool) (s : Server) :
    sendJson lib u header (if success then JsonResponse.ok header
      else JsonResponse.error header errorCode errorMsg) s =
      .ok () (s.reply lib u header (if success then JsonResponse.ok header
        else JsonResponse.error header errorCode errorMsg)) := by
  cases success with
  | true => exact sendJson_ok header s
  | false => exact sendJson_error h s

theorem addClient_eq (name : Bytes) (s : Server) :
    addClient name u s = .ok (s.addClient name u).1 (s.addClient name u).2 := rfl

theorem removeClient_eq (name : Bytes) (s : Server) :
    removeClient name s = .ok (s.removeClient name).1 (s.removeClient name).2 := rfl

end Handler

/-! ## The handlers -/

/-- The string that a request holds under `target` and the key. -/
def targetString (lib : JsonLib) (msg : MsgNode) (key : Bytes) : Option Bytes :=
  (lib.parse msg.text).bind fun reqJson =>
    (reqJson.atKey (ascii "target")).bind fun target => (target.atKey key).bind Json.getString

/-- The reply to a request that the handler cannot read. -/
def Server.replyInvalid (s : Server) (lib : JsonLib) (u : Uuid) (header : MessageHeader) :
    Server :=
  s.reply lib u header (JsonResponse.error header 29999 (ascii "invalid request json"))

namespace Handler

variable {α : Type} {key name : Bytes} {f : Bytes → Handler α}

/-- Reading a string out of the request. -/
theorem readTarget_some (h : targetString lib msg key = some name) (s : Server) :
    (do
      let reqJson ← ofJson (lib.parse msg.text)
      let target ← ofJson (reqJson.atKey (ascii "target"))
      let name ← ofJson ((target.atKey key).bind Json.getString)
      f name) s = f name s := by
  obtain ⟨reqJson, hparse, h⟩ := Option.bind_eq_some_iff.mp h
  obtain ⟨target, htarget, h⟩ := Option.bind_eq_some_iff.mp h
  rw [hparse, bind_of_ok (ofJson_some reqJson s), htarget, bind_of_ok (ofJson_some target s), h,
    bind_of_ok (ofJson_some name s)]

theorem readTarget_none (h : targetString lib msg key = none) (s : Server) :
    (do
      let reqJson ← ofJson (lib.parse msg.text)
      let target ← ofJson (reqJson.atKey (ascii "target"))
      let name ← ofJson ((target.atKey key).bind Json.getString)
      f name) s = .error .json s := by
  cases hparse : lib.parse msg.text with
  | none => rw [bind_of_error (ofJson_none s)]
  | some reqJson =>
      rw [bind_of_ok (ofJson_some reqJson s)]
      cases htarget : reqJson.atKey (ascii "target") with
      | none => rw [bind_of_error (ofJson_none s)]
      | some target =>
          have hname : (target.atKey key).bind Json.getString = none := by
            simpa [targetString, hparse, htarget] using h
          rw [bind_of_ok (ofJson_some target s), hname, bind_of_error (ofJson_none s)]

theorem remoteEndpoint_some {endpoint : Endpoint} (h : (s.session u).endpoint = some endpoint) :
    remoteEndpoint u s = .ok endpoint s := by
  rw [remoteEndpoint, bind_of_ok (get_eq s), h]
  rfl

theorem remoteEndpoint_none (h : (s.session u).endpoint = none) :
    remoteEndpoint u s = .error .system s := by
  rw [remoteEndpoint, bind_of_ok (get_eq s), h]
  rfl

end Handler

section Communication

open Handler

variable {header : MessageHeader}

/-- A handler that catches an exception tells the client that it cannot read the
request. -/
theorem catch_invalid {x : Handler Unit} {t : Server} {e : Exn} (h : x s = .error e t) :
    (tryCatch x fun _ =>
      sendJson lib u header (JsonResponse.error header 29999 (ascii "invalid request json"))) s =
      .ok () (t.replyInvalid lib u header) := by
  rw [tryCatch_of_error h]
  exact sendJson_error (by decide) t

/-- **REGISTER.** A request that can be read sets the session's `ClientInfo`
before it is known whether the name is free. -/
theorem onCreate_registers {endpoint : Endpoint} {name : Bytes}
    (he : (s.session u).endpoint = some endpoint)
    (hn : targetString lib msg (ascii "name") = some name) :
    onCreate lib env u msg s = .ok ()
      (let r := (s.setClientInfo u { ip := endpoint.address, port := endpoint.port.toNat, name
                                     connectTime := env.now }).addClient name u
       r.2.reply lib u msg.header
        (if r.1 then JsonResponse.ok msg.header
          else JsonResponse.error msg.header 20001 (ascii "client name already exists"))) := by
  refine tryCatch_of_ok ?_
  rw [bind_of_ok (remoteEndpoint_some he), readTarget_some hn, bind_of_ok (modify_eq _ s),
    bind_of_ok (addClient_eq name _)]
  exact sendJson_ite (by decide) _ _

theorem onCreate_invalid
    (h : (s.session u).endpoint = none ∨ targetString lib msg (ascii "name") = none) :
    onCreate lib env u msg s = .ok () (s.replyInvalid lib u msg.header) := by
  cases he : (s.session u).endpoint with
  | none => exact catch_invalid (bind_of_error (remoteEndpoint_none he))
  | some endpoint =>
      have hn := h.resolve_left (by simp [he])
      exact catch_invalid ((bind_of_ok (remoteEndpoint_some he)).trans (readTarget_none hn s))

/-- **CLOSE.** The session is closed before its reply is sent. -/
theorem onClose_closes {name : Bytes} (hn : targetString lib msg (ascii "name") = some name) :
    onClose lib u msg s = .ok ()
      (let r := (s.clientClose u).removeClient name
       r.2.reply lib u msg.header
        (if r.1 then JsonResponse.ok msg.header
          else JsonResponse.error msg.header 20002 (ascii "client name not exists"))) := by
  refine tryCatch_of_ok ?_
  rw [readTarget_some hn, bind_of_ok (modify_eq _ s), bind_of_ok (removeClient_eq name _)]
  exact sendJson_ite (by decide) _ _

theorem onClose_invalid (hn : targetString lib msg (ascii "name") = none) :
    onClose lib u msg s = .ok () (s.replyInvalid lib u msg.header) :=
  catch_invalid (readTarget_none hn s)

/-- The name under which a session sends. -/
def Server.senderName (s : Server) (u : Uuid) : Bytes :=
  match (s.session u).clientInfo with
  | some info => info.name
  | none => ascii "Unknown"

/-- The recipient and the message of a SEND request. -/
def sendRequest (lib : JsonLib) (msg : MsgNode) : Option (Bytes × Bytes) :=
  (targetString lib msg (ascii "client")).bind fun client =>
    (targetString lib msg (ascii "message")).map fun message => (client, message)

/-- What the SEND handler does once it has read the request. -/
def forwardMessage (lib : JsonLib) (u : Uuid) (header : MessageHeader)
    (sender client message : Bytes) : Handler Unit := do
  match (← get).getClient client with
  | none =>
      sendJson lib u header (JsonResponse.error header 20002 (ascii "client name not exists"))
  | some v =>
      let text ← ofJson ((pushJson sender message).dump lib)
      let success ← sendToOtherSession v (forwardHeader header) text
      if success then sendJson lib u header (JsonResponse.ok header)
      else
        sendJson lib u header
          (JsonResponse.error header 20003 (ascii "client name or session not exists"))

theorem onSend_of_read {client message : Bytes}
    (h : sendRequest lib msg = some (client, message)) :
    onSend lib u msg s =
      (tryCatch (forwardMessage lib u msg.header (s.senderName u) client message) fun _ =>
        sendJson lib u msg.header
          (JsonResponse.error msg.header 29999 (ascii "invalid request json"))) s := by
  obtain ⟨client', hc, h⟩ := Option.bind_eq_some_iff.mp h
  obtain ⟨message', hm, h⟩ := Option.map_eq_some_iff.mp h
  obtain ⟨rfl, rfl⟩ := Prod.mk.inj h
  obtain ⟨reqJson, hparse, hc⟩ := Option.bind_eq_some_iff.mp hc
  obtain ⟨target, htarget, hc⟩ := Option.bind_eq_some_iff.mp hc
  simp only [targetString, hparse, htarget, Option.bind_some] at hm
  refine tryCatch_congr ?_
  rw [hparse, bind_of_ok (ofJson_some reqJson s), htarget, bind_of_ok (ofJson_some target s),
    bind_of_ok (get_eq s), hc, bind_of_ok (ofJson_some client' s), hm,
    bind_of_ok (ofJson_some message' s)]
  rfl

theorem onSend_invalid (h : sendRequest lib msg = none) :
    onSend lib u msg s = .ok () (s.replyInvalid lib u msg.header) := by
  refine catch_invalid (e := .json) ?_
  cases hparse : lib.parse msg.text with
  | none => rw [bind_of_error (ofJson_none s)]
  | some reqJson =>
      rw [bind_of_ok (ofJson_some reqJson s)]
      cases htarget : reqJson.atKey (ascii "target") with
      | none => rw [bind_of_error (ofJson_none s)]
      | some target =>
          rw [bind_of_ok (ofJson_some target s), bind_of_ok (get_eq s)]
          simp only [sendRequest, targetString, hparse, htarget, Option.bind_some] at h
          cases hc : (target.atKey (ascii "client")).bind Json.getString with
          | none => rw [bind_of_error (ofJson_none s)]
          | some client =>
              rw [bind_of_ok (ofJson_some client s)]
              cases hm : (target.atKey (ascii "message")).bind Json.getString with
              | none => rw [bind_of_error (ofJson_none s)]
              | some message => simp [hc, hm] at h

variable {client message : Bytes}

theorem onSend_unknown (h : sendRequest lib msg = some (client, message))
    (hc : s.getClient client = none) :
    onSend lib u msg s = .ok () (s.reply lib u msg.header
      (JsonResponse.error msg.header 20002 (ascii "client name not exists"))) := by
  rw [onSend_of_read h]
  refine tryCatch_of_ok ?_
  rw [forwardMessage, bind_of_ok (get_eq s), hc]
  exact sendJson_error (by decide) s

theorem onSend_unwritable (h : sendRequest lib msg = some (client, message))
    (hc : s.getClient client = some v)
    (ht : (pushJson (s.senderName u) message).dump lib = none) :
    onSend lib u msg s = .ok () (s.replyInvalid lib u msg.header) := by
  rw [onSend_of_read h]
  refine catch_invalid (e := .json) ?_
  rw [forwardMessage, bind_of_ok (get_eq s), hc]
  simp only [ht]
  exact bind_of_error (ofJson_none s)

theorem onSend_absent {text : Bytes} (h : sendRequest lib msg = some (client, message))
    (hc : s.getClient client = some v)
    (ht : (pushJson (s.senderName u) message).dump lib = some text) (hv : v ∉ s.sessionMap) :
    onSend lib u msg s = .ok () (s.reply lib u msg.header
      (JsonResponse.error msg.header 20003 (ascii "client name or session not exists"))) := by
  have hsend : sendToOtherSession v (forwardHeader msg.header) text s = .ok false s := by
    rw [sendToOtherSession, bind_of_ok (get_eq s), if_neg hv]
    rfl
  rw [onSend_of_read h]
  refine tryCatch_of_ok ?_
  rw [forwardMessage, bind_of_ok (get_eq s), hc]
  simp only [ht]
  rw [bind_of_ok (ofJson_some text s), bind_of_ok hsend]
  exact sendJson_error (by decide) s

theorem onSend_disconnected {text : Bytes} (h : sendRequest lib msg = some (client, message))
    (hc : s.getClient client = some v)
    (ht : (pushJson (s.senderName u) message).dump lib = some text) (hv : v ∈ s.sessionMap)
    (he : (s.session v).endpoint = none) :
    onSend lib u msg s = .ok () (s.replyInvalid lib u msg.header) := by
  have hsend : sendToOtherSession v (forwardHeader msg.header) text s = .error .system s := by
    rw [sendToOtherSession, bind_of_ok (get_eq s), if_pos hv,
      bind_of_error (remoteEndpoint_none he)]
  rw [onSend_of_read h]
  refine catch_invalid (e := .system) ?_
  rw [forwardMessage, bind_of_ok (get_eq s), hc]
  simp only [ht]
  rw [bind_of_ok (ofJson_some text s), bind_of_error hsend]

/-- **SEND to a session in the map.** The answer is OK whatever `Send` does with
the push. -/
theorem onSend_forwards {text : Bytes} {endpoint : Endpoint}
    (h : sendRequest lib msg = some (client, message)) (hc : s.getClient client = some v)
    (ht : (pushJson (s.senderName u) message).dump lib = some text) (hv : v ∈ s.sessionMap)
    (he : (s.session v).endpoint = some endpoint) :
    onSend lib u msg s = .ok ()
      ((s.send v (forwardHeader msg.header) text none).reply lib u msg.header
        (JsonResponse.ok msg.header)) := by
  have hsend : sendToOtherSession v (forwardHeader msg.header) text s =
      .ok true (s.send v (forwardHeader msg.header) text none) := by
    rw [sendToOtherSession, bind_of_ok (get_eq s), if_pos hv,
      bind_of_ok (remoteEndpoint_some he)]
    rfl
  rw [onSend_of_read h]
  refine tryCatch_of_ok ?_
  rw [forwardMessage, bind_of_ok (get_eq s), hc]
  simp only [ht]
  rw [bind_of_ok (ofJson_some text s), bind_of_ok hsend]
  exact sendJson_ok msg.header _

/-- The names in the answer to a SHOW. -/
def clientsJson (clients : List Bytes) : Json :=
  .object [(ascii "clients", .array (clients.map .string)),
    (ascii "count", .integer clients.length)]

/-- The answer to a SHOW: the names, or an error when one of them is no text. -/
def showResponse (s : Server) (header : MessageHeader) : Json :=
  let resp := JsonResponse.ok header
    (.object [(ascii "result", clientsJson s.getAllClientName)])
  if resp.isText then resp else JsonResponse.error header 29999 (ascii "UNKNOWN ERROR")

theorem isText_showResponse (s : Server) (header : MessageHeader) :
    (showResponse s header).isText = true := by
  have hutf8 : isUtf8 (ascii "UNKNOWN ERROR") = true := by decide
  unfold showResponse
  dsimp only
  split
  · next htext => exact htext
  · exact (JsonResponse.isText_error header 29999 _).trans hutf8

theorem onShow_eq : onShow lib u msg s =
    .ok () (s.reply lib u msg.header (showResponse s msg.header)) := by
  have hsent : sendJson lib u msg.header (showResponse s msg.header) s =
      .ok () (s.reply lib u msg.header (showResponse s msg.header)) :=
    sendJson_of_isText (isText_showResponse s msg.header) s
  rw [← hsent]
  unfold showResponse
  dsimp only
  split
  · next htext =>
    refine (tryCatch_of_ok ?_).trans (sendJson_of_isText htext s).symm
    rw [bind_of_ok (get_eq s)]
    exact sendJson_of_isText htext s
  · next htext =>
    refine tryCatch_of_error (e := .json) ?_
    rw [bind_of_ok (get_eq s)]
    exact sendJson_of_not_isText (Bool.eq_false_iff.mpr htext) s

/-- **SHOW** always answers: with the names, or with an error. -/
theorem onShow_replies : ∃ resp : Json, resp.isText = true ∧
    onShow lib u msg s = .ok () (s.reply lib u msg.header resp) :=
  ⟨_, isText_showResponse s msg.header, onShow_eq⟩

end Communication

section Others

open Handler

/-- **HELLO** sends the text of the request back. -/
theorem onHello_replies : onHello u msg s = .ok () (s.send u
    { magic := 0x55AA, version := 1, serviceId := Const.serviceHello
      cmdId := Const.helloCmdTest, length := UInt32.ofNat msg.text.length
      seq := msg.header.seq } msg.text none) := rfl

/-- **HEART** asks for the endpoint before its `try` block. -/
theorem onRecvHeart_throws (he : (s.session u).endpoint = none) :
    onRecvHeart lib env u msg s = .error .system s := by
  rw [onRecvHeart, bind_of_error (remoteEndpoint_none he)]

/-- The answer to a heartbeat. -/
def heartResponse (env : Env) (s : Server) (u : Uuid) (header : MessageHeader) : Json :=
  match (s.session u).clientInfo with
  | none => JsonResponse.error header 1 (ascii "client does not exists")
  | some info =>
      let duration := (env.now - info.connectTime).tdiv 1000000000
      JsonResponse.ok header
        (.object [(ascii "result", .object [(ascii "time", .integer duration)])])

theorem isText_heartResponse (header : MessageHeader) :
    (heartResponse env s u header).isText = true := by
  unfold heartResponse
  split
  · have hutf8 : isUtf8 (ascii "client does not exists") = true := by decide
    exact (JsonResponse.isText_error header 1 _).trans hutf8
  · rw [JsonResponse.isText_ok]
    simp only [Json.isText, isTextFields, Bool.and_true]
    decide

/-- A heartbeat that is answered is noted in the `ClientInfo`, if there is one. -/
theorem onRecvHeart_eq {endpoint : Endpoint} (he : (s.session u).endpoint = some endpoint) :
    let header := { msg.header with cmdId := Const.heartAck }
    onRecvHeart lib env u msg s =
      .ok () ((s.setLastConnectTime u env.nowAgain).reply lib u header
        (heartResponse env s u header)) := by
  intro header
  have htext : (heartResponse env s u header).isText = true := isText_heartResponse header
  rw [onRecvHeart, bind_of_ok (remoteEndpoint_some he)]
  refine tryCatch_of_ok ?_
  rw [bind_of_ok (get_eq s)]
  unfold heartResponse at htext ⊢
  cases hc : (s.session u).clientInfo with
  | none =>
      rw [hc] at htext
      rw [Server.setLastConnectTime_of_none hc]
      exact sendJson_of_isText htext s
  | some info =>
      rw [hc] at htext
      exact (bind_of_ok (modify_eq _ s)).trans (sendJson_of_isText htext _)

theorem onRecvHeart_replies {endpoint : Endpoint} (he : (s.session u).endpoint = some endpoint) :
    ∃ resp : Json, resp.isText = true ∧ onRecvHeart lib env u msg s =
      .ok () ((s.setLastConnectTime u env.nowAgain).reply lib u
        { msg.header with cmdId := Const.heartAck } resp) :=
  ⟨_, isText_heartResponse _, onRecvHeart_eq he⟩

/-- The strings of a database result are UTF-8. -/
def DBResult.isText (r : DBResult) : Bool :=
  if r.success then
    match r.data with
    | .resultSet columns rows => columns.all isUtf8 && rows.all fun row => row.all isUtf8
    | _ => true
  else isUtf8 r.errorMsg

theorem isTextItems_strings (strings : List Bytes) :
    isTextItems (strings.map .string) = strings.all isUtf8 := by
  induction strings with
  | nil => rfl
  | cons x strings ih =>
      rw [List.map_cons, isTextItems, ih, List.all_cons]
      rfl

theorem isTextItems_rows (rows : List (List Bytes)) :
    isTextItems (rows.map fun row => .array (row.map .string)) =
      rows.all fun row => row.all isUtf8 := by
  induction rows with
  | nil => rfl
  | cons row rows ih =>
      rw [List.map_cons, isTextItems, ih, List.all_cons, Json.isText, isTextItems_strings]

theorem isText_makeResultJson (r : DBResult) : r.makeResultJson.isText =
    match r.data with
    | .resultSet columns rows => columns.all isUtf8 && rows.all fun row => row.all isUtf8
    | _ => true := by
  cases hd : r.data with
  | none =>
      simp only [DBResult.makeResultJson, hd]
      decide
  | resultSet columns rows =>
      have hkeys : isUtf8 (ascii "columns") = true ∧ isUtf8 (ascii "rowCount") = true ∧
          isUtf8 (ascii "rows") = true ∧ isUtf8 (ascii "type") = true ∧
          isUtf8 (ascii "result_set") = true := by decide
      simp [DBResult.makeResultJson, hd, Json.isText, isTextFields, isTextItems_strings,
        isTextItems_rows, hkeys]
  | execResult affectedRows lastInsertId =>
      simp only [DBResult.makeResultJson, hd, Json.isText, isTextFields, Bool.and_true]
      decide

/-- The response to a database request. -/
def DBResult.response (r : DBResult) (header : MessageHeader) : Json :=
  if r.success then JsonResponse.ok header (.object [(ascii "result", r.makeResultJson)])
  else JsonResponse.error header 10001 r.errorMsg

theorem DBResult.isText_response (r : DBResult) (header : MessageHeader) :
    (r.response header).isText = r.isText := by
  unfold DBResult.response DBResult.isText
  split
  · have hkey : isUtf8 (ascii "result") = true := by decide
    rw [JsonResponse.isText_ok, ← isText_makeResultJson r]
    simp [Json.isText, isTextFields, hkey]
  · exact JsonResponse.isText_error header 10001 r.errorMsg

/-- The state in which a database request sends its response. -/
def Server.awaited (s : Server) (env : Env) (u : Uuid) : Server :=
  if env.closesSession then s.close u else s

theorem executeCmdAndResponse_eq (header : MessageHeader) (req : DBRequest) :
    executeCmdAndResponse lib env u header req s =
      sendJson lib u header ((executeRequest env req).response header) (s.awaited env u) := by
  unfold executeCmdAndResponse Server.awaited
  cases env.closesSession <;> rfl

/-- **DB.** The handlers have no `try` block. -/
theorem onExecute_of_some {req : DBRequest} (h : parseRequest lib msg = some req) :
    onExecute lib env u msg s = executeCmdAndResponse lib env u msg.header req s := by
  rw [onExecute, h, bind_of_ok (ofJson_some req s)]

theorem onExecute_of_none (h : parseRequest lib msg = none) :
    onExecute lib env u msg s = .error .json s := by
  rw [onExecute, h, bind_of_error (ofJson_none s)]

theorem onDbClose_of_some {req : DBRequest} (h : parseRequest lib msg = some req) :
    onDbClose lib env u msg s =
      executeCmdAndResponse lib env u msg.header { req with cmd := ascii "close" } s := by
  rw [onDbClose, h, bind_of_ok (ofJson_some req s)]

theorem onDbClose_of_none (h : parseRequest lib msg = none) :
    onDbClose lib env u msg s = .error .json s := by
  rw [onDbClose, h, bind_of_error (ofJson_none s)]

end Others

end AsioServer.Services
