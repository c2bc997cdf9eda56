/-
AsioServer.Services.RequestTheorems — what a request leaves behind.

`RequestOutcome` lists the states that a handled request can lead to, with what the
request must look like for each: silence, one reply, a registration, a close, or
a forwarded message with its reply. `outcome_request` says that the list is
complete; it is the one place where the commands are told apart. `ServerEffect`
does the same for all steps of the server. The results about names and about
delivery go through the two.
-/
import AsioServer.Services.HandlersTheorems
import AsioServer.Services.ServerRun
import AsioServer.Services.ServerTheorems

namespace AsioServer.Services

open AsioServer.Core AsioServer.Infra

variable {lib : JsonLib} {env : Env} {s t : Server} {u v : Uuid} {msg : MsgNode} {n : Bytes}

/-! ## Pushes -/

/-- The header of a RECV frame. -/
def isPush (header : MessageHeader) : Bool :=
  header.serviceId == Const.serviceCommunication && header.cmdId == Const.communicationRecv

/-- No registered command is RECV, so a reply is no push. -/
theorem isPush_of_commandOf {header : MessageHeader} {command : Command}
    (h : commandOf header = some command) : isPush header = false := by
  rw [Bool.eq_false_iff]
  intro hpush
  simp only [isPush, Bool.and_eq_true, beq_iff_eq] at hpush
  have hnone : commandOf header = none := by
    rw [commandOf, hpush.1, hpush.2]
    decide
  simp [hnone] at h

theorem isPush_forwardHeader {header : MessageHeader}
    (h : header.serviceId = Const.serviceCommunication) :
    isPush (forwardHeader header) = true := by
  simp [isPush, forwardHeader, h]

/-- The service that a command belongs to. -/
def Command.service : Command → Service
  | heart => .heart
  | hello => .hello
  | execute | dbClose => .db
  | register | close | send | showClients => .communication

theorem getServiceById_eq {serviceId : UInt16} {service : Service}
    (h : getServiceById serviceId = some service) : serviceId = service.getServiceId := by
  unfold getServiceById at h
  split_ifs at h with h0 h1 h2 h3 <;> (obtain rfl := Option.some.inj h; assumption)

theorem Service.cmdMap_service {service : Service} {cmdId : UInt16} {command : Command}
    (h : service.cmdMap cmdId = some command) : command.service = service := by
  cases service <;> simp only [Service.cmdMap] at h <;> split_ifs at h <;>
    (obtain rfl := Option.some.inj h; rfl)

/-- A request carries the id of its command's service. -/
theorem serviceId_of_commandOf {header : MessageHeader} {command : Command}
    (h : commandOf header = some command) :
    header.serviceId = command.service.getServiceId := by
  obtain ⟨service, hservice, hcmd⟩ := Option.bind_eq_some_iff.mp h
  rw [Service.cmdMap_service hcmd]
  exact getServiceById_eq hservice

/-- The header of a reply to a request. -/
structure IsReply (request header : MessageHeader) : Prop where
  isPush : isPush header = false
  serviceId : header.serviceId = request.serviceId
  seq : header.seq = request.seq

/-- A reply with the header of the request. -/
theorem IsReply.of_commandOf {header : MessageHeader} {command : Command}
    (h : commandOf header = some command) : IsReply header header :=
  ⟨isPush_of_commandOf h, rfl, rfl⟩

theorem IsReply.heartAck (header : MessageHeader) :
    IsReply header { header with cmdId := Const.heartAck } :=
  ⟨by simp [Services.isPush, Const.heartAck, Const.communicationRecv], rfl, rfl⟩

/-- HEART and the database: a part of the handler is outside any `try` block. -/
def Command.unguarded : Command → Bool
  | heart | execute | dbClose => true
  | hello | register | close | send | showClients => false

/-- A request that can end without a reply: an unguarded command, or none. -/
def Unguarded (msg : MsgNode) : Prop :=
  ∀ command, commandOf msg.header = some command → command.unguarded = true

theorem Unguarded.of_command {command : Command} (h : commandOf msg.header = some command)
    (hc : command.unguarded = true) : Unguarded msg :=
  fun _ h' => Option.some.inj (h.symm.trans h') ▸ hc

theorem Unguarded.ne {command : Command} (h : Unguarded msg) (hc : command.unguarded = false) :
    commandOf msg.header ≠ some command :=
  fun hcommand => absurd (h command hcommand) (by simp [hc])

/-! ## The names in a request -/

/-- The name that a request makes its session's, if it is a REGISTER that can be
read. -/
def registeredName (lib : JsonLib) (s : Server) (u : Uuid) (msg : MsgNode) : Option Bytes :=
  if commandOf msg.header = some .register ∧ (s.session u).endpoint.isSome then
    targetString lib msg (ascii "name")
  else none

/-- The name that a request removes, if it is a CLOSE that can be read. -/
def closedName (lib : JsonLib) (msg : MsgNode) : Option Bytes :=
  if commandOf msg.header = some .close then targetString lib msg (ascii "name") else none

theorem registeredName_of_command {command : Command} (h : commandOf msg.header = some command)
    (hc : command ≠ .register) : registeredName lib s u msg = none := by
  simp [registeredName, h, hc]

theorem closedName_of_command {command : Command} (h : commandOf msg.header = some command)
    (hc : command ≠ .close) : closedName lib msg = none := by
  simp [closedName, h, hc]

theorem Unguarded.registeredName (h : Unguarded msg) : registeredName lib s u msg = none :=
  if_neg fun hregister => h.ne rfl hregister.1

theorem Unguarded.closedName (h : Unguarded msg) : closedName lib msg = none :=
  if_neg (h.ne rfl)

/-! ## Outcomes -/

/-- A SEND that finds its recipient: the session `v` in the map, with the text
of the push. -/
structure Forwards (lib : JsonLib) (s : Server) (u : Uuid) (msg : MsgNode)
    (v : Uuid) (text : Bytes) : Prop where
  command : commandOf msg.header = some .send
  request : ∃ client message, sendRequest lib msg = some (client, message) ∧
    s.getClient client = some v ∧ (pushJson (s.senderName u) message).dump lib = some text
  present : v ∈ s.sessionMap
  connected : (s.session v).endpoint.isSome = true

theorem Forwards.unique {text text' : Bytes} (h : Forwards lib s u msg v text) {v' : Uuid}
    (h' : Forwards lib s u msg v' text') : v = v' := by
  obtain ⟨client, message, hread, hv, -⟩ := h.request
  obtain ⟨client', message', hread', hv', -⟩ := h'.request
  obtain ⟨rfl, rfl⟩ := Prod.mk.inj (Option.some.inj (hread.symm.trans hread'))
  exact Option.some.inj (hv.symm.trans hv')

/-- The state once a message has been forwarded and the sender been answered. -/
def Server.forward (s : Server) (lib : JsonLib) (u : Uuid) (header : MessageHeader) (v : Uuid)
    (text : Bytes) : Server :=
  (s.send v (forwardHeader header) text none).reply lib u header (JsonResponse.ok header)

/-- What a request leaves of the state before it answers or ends, if it is no
REGISTER and no CLOSE: somebody may have closed the session while the database was
awaited, and HEART notes the time. -/
inductive ReplyBase (s : Server) (u : Uuid) (msg : MsgNode) : Server → Prop where
  | same : ReplyBase s u msg s
  | closed (hunguarded : Unguarded msg) : ReplyBase s u msg (s.close u)
  | beaten {connectTime : Int} (hunguarded : Unguarded msg) :
      ReplyBase s u msg (s.setLastConnectTime u connectTime)

theorem ReplyBase.clientMap {base : Server} (h : ReplyBase s u msg base) :
    base.clientMap = s.clientMap := by
  cases h <;> rfl

/-- What a request can lead to. -/
inductive RequestOutcome (lib : JsonLib) (s : Server) (u : Uuid) (msg : MsgNode) :
    Server → Prop where
  /-- No reply. -/
  | silent {base : Server} (hbase : ReplyBase s u msg base) (hunguarded : Unguarded msg) :
      RequestOutcome lib s u msg base
  /-- One reply and no other effect. -/
  | replied {base : Server} {header : MessageHeader} {body : Bytes} {status : Option Int}
      (hbase : ReplyBase s u msg base) (hheader : IsReply msg.header header)
      (hregister : registeredName lib s u msg = none) (hclose : closedName lib msg = none)
      (hsend : commandOf msg.header = some .send →
        status ≠ some 0 ∧ ∀ v text, ¬ Forwards lib s u msg v text) :
      RequestOutcome lib s u msg (base.send u header body status)
  /-- REGISTER. -/
  | registered {info : ClientInfo} {resp : Json} (hcommand : commandOf msg.header = some .register)
      (hname : registeredName lib s u msg = some info.name) :
      RequestOutcome lib s u msg
        (((s.setClientInfo u info).addClient info.name u).2.reply lib u msg.header resp)
  /-- CLOSE. -/
  | closed {name : Bytes} {resp : Json} (hcommand : commandOf msg.header = some .close)
      (hname : closedName lib msg = some name) :
      RequestOutcome lib s u msg
        (((s.clientClose u).removeClient name).2.reply lib u msg.header resp)
  /-- SEND to a session in the map. -/
  | forwarded {v : Uuid} {text : Bytes} (h : Forwards lib s u msg v text) :
      RequestOutcome lib s u msg (s.forward lib u msg.header v text)

namespace RequestOutcome

/-- A reply with the request's own header. -/
theorem of_reply {command : Command} {resp : Json}
    (hcommand : commandOf msg.header = some command)
    (hregister : registeredName lib s u msg = none) (hclose : closedName lib msg = none)
    (hsend : commandOf msg.header = some .send →
      JsonResponse.statusCode resp ≠ some 0 ∧ ∀ v text, ¬ Forwards lib s u msg v text) :
    RequestOutcome lib s u msg (s.reply lib u msg.header resp) :=
  replied .same (.of_commandOf hcommand) hregister hclose hsend

end RequestOutcome

section Commands

variable {command : Command}

theorem Server.run_of_ok {h : Handler Unit} (hok : h s = .ok () t) : s.run h = t := by
  rw [Server.run, hok]

theorem Server.run_of_error {h : Handler Unit} {e : Exn} (herror : h s = .error e t) :
    s.run h = t := by
  rw [Server.run, herror]

theorem Server.run_congr {h h' : Handler Unit} (heq : h s = h' s) : s.run h = s.run h' := by
  rw [Server.run, heq, Server.run]

/-- A request runs the callback of its command. -/
theorem Server.run_command (hc : commandOf msg.header = some command) :
    s.run (handle lib env u msg) = s.run (command.callback lib env u msg) := by
  rw [handle, hc]

theorem outcome_onCreate (hc : commandOf msg.header = some .register) :
    RequestOutcome lib s u msg (s.run (onCreate lib env u msg)) := by
  have hclose : closedName lib msg = none := closedName_of_command hc (by decide)
  have hsend : commandOf msg.header ≠ some .send := by simp [hc]
  cases he : (s.session u).endpoint with
  | none =>
      rw [Server.run_of_ok (onCreate_invalid (.inl he))]
      exact .of_reply hc (by simp [registeredName, he]) hclose fun h => absurd h hsend
  | some endpoint =>
      cases hn : targetString lib msg (ascii "name") with
      | none =>
          rw [Server.run_of_ok (onCreate_invalid (.inr hn))]
          exact .of_reply hc (by simp [registeredName, hn]) hclose fun h => absurd h hsend
      | some name =>
          rw [Server.run_of_ok (onCreate_registers he hn)]
          exact .registered hc (by simp [registeredName, hc, he, hn])

theorem outcome_onClose (hc : commandOf msg.header = some .close) :
    RequestOutcome lib s u msg (s.run (onClose lib u msg)) := by
  have hregister : registeredName lib s u msg = none := registeredName_of_command hc (by decide)
  cases hn : targetString lib msg (ascii "name") with
  | none =>
      rw [Server.run_of_ok (onClose_invalid hn)]
      exact .of_reply hc hregister (by simp [closedName, hn]) fun h => by simp [hc] at h
  | some name =>
      rw [Server.run_of_ok (onClose_closes hn)]
      exact .closed hc (by simp [closedName, hc, hn])

theorem outcome_onSend (hc : commandOf msg.header = some .send) :
    RequestOutcome lib s u msg (s.run (onSend lib u msg)) := by
  have hregister : registeredName lib s u msg = none := registeredName_of_command hc (by decide)
  have hclose : closedName lib msg = none := closedName_of_command hc (by decide)
  -- the replies that are no push: their code is not 0, and nothing is forwarded
  have hreply : ∀ errorCode errorMsg, errorCode ≠ 0 →
      (∀ v text, ¬ Forwards lib s u msg v text) →
      RequestOutcome lib s u msg
        (s.reply lib u msg.header (JsonResponse.error msg.header errorCode errorMsg)) := by
    intro errorCode errorMsg hcode hnot
    refine .of_reply hc hregister hclose fun _ => ⟨?_, hnot⟩
    rw [JsonResponse.statusCode_error]
    simpa using hcode
  cases hread : sendRequest lib msg with
  | none =>
      rw [Server.run_of_ok (onSend_invalid hread)]
      refine hreply _ _ (by decide) fun v text h => ?_
      obtain ⟨client, message, hr, -⟩ := h.request
      simp [hread] at hr
  | some request =>
      obtain ⟨client, message⟩ := request
      -- a forwarding reads the same request
      have hforwards : ∀ {v text}, Forwards lib s u msg v text → s.getClient client = some v ∧
          (pushJson (s.senderName u) message).dump lib = some text := by
        intro v text h
        obtain ⟨client', message', hr, hv, htext⟩ := h.request
        obtain ⟨rfl, rfl⟩ := Prod.mk.inj (Option.some.inj (hread.symm.trans hr))
        exact ⟨hv, htext⟩
      cases hv : s.getClient client with
      | none =>
          rw [Server.run_of_ok (onSend_unknown hread hv)]
          refine hreply _ _ (by decide) fun v text h => ?_
          simp [hv] at hforwards
          exact hforwards h
      | some v =>
          have hsame : ∀ {v' text}, Forwards lib s u msg v' text → v = v' := fun h =>
            Option.some.inj (hv.symm.trans (hforwards h).1)
          cases htext : (pushJson (s.senderName u) message).dump lib with
          | none =>
              rw [Server.run_of_ok (onSend_unwritable hread hv htext)]
              refine hreply _ _ (by decide) fun v' text h => ?_
              have := (hforwards h).2
              simp [htext] at this
          | some text =>
              by_cases hmap : v ∈ s.sessionMap
              · cases he : (s.session v).endpoint with
                | none =>
                    rw [Server.run_of_ok (onSend_disconnected hread hv htext hmap he)]
                    refine hreply _ _ (by decide) fun v' text' h => ?_
                    have hconnected := h.connected
                    rw [← hsame h, he] at hconnected
                    simp at hconnected
                | some endpoint =>
                    rw [Server.run_of_ok (onSend_forwards hread hv htext hmap he)]
                    exact .forwarded ⟨hc, ⟨client, message, hread, hv, htext⟩, hmap, by simp [he]⟩
              · rw [Server.run_of_ok (onSend_absent hread hv htext hmap)]
                refine hreply _ _ (by decide) fun v' text' h => ?_
                exact hmap (hsame h ▸ h.present)

theorem outcome_onShow (hc : commandOf msg.header = some .showClients) :
    RequestOutcome lib s u msg (s.run (onShow lib u msg)) := by
  obtain ⟨resp, -, hrun⟩ := @onShow_replies lib s u msg
  rw [Server.run_of_ok hrun]
  exact .of_reply hc (registeredName_of_command hc (by decide))
    (closedName_of_command hc (by decide)) fun h => by simp [hc] at h

theorem outcome_onHello (hc : commandOf msg.header = some .hello) :
    RequestOutcome lib s u msg (s.run (onHello u msg)) := by
  have hreply : IsReply msg.header
      { magic := 0x55AA, version := 1, serviceId := Const.serviceHello
        cmdId := Const.helloCmdTest, length := UInt32.ofNat msg.text.length
        seq := msg.header.seq } :=
    ⟨by simp [isPush, Const.serviceHello, Const.serviceCommunication],
      (serviceId_of_commandOf hc).symm, rfl⟩
  rw [Server.run_of_ok onHello_replies]
  exact .replied .same hreply (registeredName_of_command hc (by decide))
    (closedName_of_command hc (by decide)) fun h => by simp [hc] at h

theorem outcome_onRecvHeart (hc : commandOf msg.header = some .heart) :
    RequestOutcome lib s u msg (s.run (onRecvHeart lib env u msg)) := by
  have hunguarded : Unguarded msg := .of_command hc rfl
  cases he : (s.session u).endpoint with
  | none =>
      rw [Server.run_of_error (onRecvHeart_throws he)]
      exact .silent .same hunguarded
  | some endpoint =>
      obtain ⟨resp, -, hrun⟩ := @onRecvHeart_replies lib env s u msg endpoint he
      rw [Server.run_of_ok hrun]
      exact .replied (.beaten hunguarded) (.heartAck msg.header) hunguarded.registeredName
        hunguarded.closedName fun h => absurd h (hunguarded.ne rfl)

theorem outcome_executeCmdAndResponse (hc : commandOf msg.header = some command)
    (hunguarded : Unguarded msg) (req : DBRequest) :
    RequestOutcome lib s u msg (s.run (executeCmdAndResponse lib env u msg.header req)) := by
  have hbase : ReplyBase s u msg (s.awaited env u) := by
    unfold Server.awaited
    split
    · exact .closed hunguarded
    · exact .same
  have hrun := @executeCmdAndResponse_eq lib env s u msg.header req
  cases htext : ((executeRequest env req).response msg.header).isText with
  | true =>
      rw [Server.run_of_ok (hrun.trans (Handler.sendJson_of_isText htext _))]
      exact .replied hbase (.of_commandOf hc)
        hunguarded.registeredName hunguarded.closedName fun h => absurd h (hunguarded.ne rfl)
  | false =>
      rw [Server.run_of_error (hrun.trans (Handler.sendJson_of_not_isText htext _))]
      exact .silent hbase hunguarded

theorem outcome_onExecute (hc : commandOf msg.header = some .execute) :
    RequestOutcome lib s u msg (s.run (onExecute lib env u msg)) := by
  have hunguarded : Unguarded msg := .of_command hc rfl
  cases hreq : parseRequest lib msg with
  | none =>
      rw [Server.run_of_error (onExecute_of_none hreq)]
      exact .silent .same hunguarded
  | some req =>
      rw [Server.run_congr (onExecute_of_some hreq)]
      exact outcome_executeCmdAndResponse hc hunguarded req

theorem outcome_onDbClose (hc : commandOf msg.header = some .dbClose) :
    RequestOutcome lib s u msg (s.run (onDbClose lib env u msg)) := by
  have hunguarded : Unguarded msg := .of_command hc rfl
  cases hreq : parseRequest lib msg with
  | none =>
      rw [Server.run_of_error (onDbClose_of_none hreq)]
      exact .silent .same hunguarded
  | some req =>
      rw [Server.run_congr (onDbClose_of_some hreq)]
      exact outcome_executeCmdAndResponse hc hunguarded _

/-- **Every request** has one of the outcomes. -/
theorem outcome_request : RequestOutcome lib s u msg (s.run (handle lib env u msg)) := by
  unfold handle
  cases hc : commandOf msg.header with
  | none =>
      exact .silent .same fun command h => by simp [hc] at h
  | some command =>
      cases command with
      | heart => exact outcome_onRecvHeart hc
      | hello => exact outcome_onHello hc
      | execute => exact outcome_onExecute hc
      | dbClose => exact outcome_onDbClose hc
      | register => exact outcome_onCreate hc
      | close => exact outcome_onClose hc
      | send => exact outcome_onSend hc
      | showClients => exact outcome_onShow hc

end Commands

/-! ## Calls, sessions and queues -/

/-- The one call of `Send` of a handler that has made none before. -/
theorem Server.newCalls_send {base : Server} {header : MessageHeader} {body : Bytes}
    {status : Option Int} (hcalls : base.calls = s.calls) :
    (base.send u header body status).calls.drop s.calls.length =
      [⟨u, Server.outgoing header body, status, !(base.session u).bStop⟩] := by
  rw [Server.send_calls, hcalls, List.drop_left]

/-- The two calls of a SEND that forwards: the push, then the answer. -/
theorem Server.newCalls_forward {header : MessageHeader} {text : Bytes} :
    (s.forward lib u header v text).calls.drop s.calls.length =
      [⟨v, Server.outgoing (forwardHeader header) text, none, !(s.session v).bStop⟩,
        ⟨u, Server.outgoing header (((JsonResponse.ok header).dump4 lib).getD []), some 0,
          !(s.session u).bStop⟩] := by
  have hopen : ((s.send v (forwardHeader header) text none).session u).bStop =
      (s.session u).bStop := Server.send_field CSession.bStop (fun _ _ => rfl) u
  rw [Server.forward, Server.reply, Server.send_calls, Server.send_calls, List.append_assoc,
    List.drop_left, hopen, JsonResponse.statusCode_ok, List.singleton_append]

/-- What a handler does before it answers: it may close its session, set its
`ClientInfo` or change the client manager, but it calls no `Send`. -/
structure Prepared (s base : Server) : Prop where
  calls : base.calls = s.calls
  live : base.live = s.live
  sessionMap : base.sessionMap ⊆ s.sessionMap
  posted : ∀ w, (base.session w).posted = (s.session w).posted
  sendQue : ∀ w, (base.session w).sendQue = (s.session w).sendQue

theorem Prepared.refl (s : Server) : Prepared s s :=
  ⟨rfl, rfl, Finset.Subset.refl _, fun _ => rfl, fun _ => rfl⟩

theorem Prepared.close (s : Server) (u : Uuid) : Prepared s (s.close u) :=
  ⟨rfl, rfl, Finset.Subset.refl _, Server.close_field CSession.posted fun _ _ => rfl,
    Server.close_field CSession.sendQue fun _ _ => rfl⟩

theorem Prepared.setLastConnectTime (s : Server) (u : Uuid) (connectTime : Int) :
    Prepared s (s.setLastConnectTime u connectTime) :=
  ⟨rfl, rfl, Finset.Subset.refl _, Server.setLastConnectTime_field CSession.posted fun _ => rfl,
    Server.setLastConnectTime_field CSession.sendQue fun _ => rfl⟩

theorem Prepared.of_base {base : Server} (h : ReplyBase s u msg base) : Prepared s base := by
  cases h with
  | same => exact .refl s
  | closed => exact .close s u
  | beaten => exact .setLastConnectTime s u _

theorem Prepared.register (s : Server) (u : Uuid) (info : ClientInfo) :
    Prepared s ((s.setClientInfo u info).addClient info.name u).2 where
  calls := Server.addClient_calls
  live := Server.addClient_live
  sessionMap := by rw [Server.addClient_sessionMap, Server.setClientInfo_sessionMap]
  posted w := by
    rw [Server.addClient_session]
    exact Server.setClientInfo_field CSession.posted (fun _ _ => rfl) w
  sendQue w := by
    rw [Server.addClient_session]
    exact Server.setClientInfo_field CSession.sendQue (fun _ _ => rfl) w

theorem Prepared.clientClose (s : Server) (u : Uuid) (name : Bytes) :
    Prepared s ((s.clientClose u).removeClient name).2 where
  calls := Server.removeClient_calls
  live := Server.removeClient_live
  sessionMap := by
    rw [Server.removeClient_sessionMap, Server.clientClose_sessionMap]
    exact Finset.erase_subset u s.sessionMap
  posted w := by
    rw [Server.removeClient_session]
    exact Server.setSession_field CSession.posted (by rfl) w
  sendQue w := by
    rw [Server.removeClient_session]
    exact Server.setSession_field CSession.sendQue (by rfl) w

/-- A request that forwards nothing makes at most one call of `Send`, and that is
no push. The answer to a SEND then has another code than 0. -/
structure Answers (lib : JsonLib) (s : Server) (u : Uuid) (msg : MsgNode) (base t : Server) :
    Prop where
  prepared : Prepared s base
  sent : (commandOf msg.header ≠ some .send ∧ t = base) ∨
    ∃ header body status, isPush header = false ∧
      (commandOf msg.header = some .send →
        status ≠ some 0 ∧ ∀ v text, ¬ Forwards lib s u msg v text) ∧
      t = base.send u header body status

theorem Answers.not_forwards {base : Server} {text : Bytes} (h : Answers lib s u msg base t) :
    ¬ Forwards lib s u msg v text := by
  intro hforwards
  obtain ⟨-, ⟨hnot, -⟩ | ⟨_, _, _, -, hstatus, -⟩⟩ := h
  · exact hnot hforwards.command
  · exact (hstatus hforwards.command).2 v text hforwards

/-- **A request forwards or it only answers.** -/
theorem RequestOutcome.forwards_or_answers (h : RequestOutcome lib s u msg t) :
    (∃ v text, Forwards lib s u msg v text ∧ t = s.forward lib u msg.header v text) ∨
      ∃ base, Answers lib s u msg base t := by
  cases h with
  | silent hbase hunguarded =>
      exact .inr ⟨t, .of_base hbase, .inl ⟨hunguarded.ne rfl, rfl⟩⟩
  | replied hbase hheader _ _ hsend =>
      exact .inr ⟨_, .of_base hbase, .inr ⟨_, _, _, hheader.isPush, hsend, rfl⟩⟩
  | registered hcommand =>
      exact .inr ⟨_, .register s u _, .inr ⟨_, _, _, isPush_of_commandOf hcommand,
        fun h => by simp [hcommand] at h, rfl⟩⟩
  | closed hcommand =>
      exact .inr ⟨_, .clientClose s u _, .inr ⟨_, _, _, isPush_of_commandOf hcommand,
        fun h => by simp [hcommand] at h, rfl⟩⟩
  | forwarded hforwards => exact .inl ⟨_, _, hforwards, rfl⟩

theorem Server.forward_live {text : Bytes} {header : MessageHeader} :
    (s.forward lib u header v text).live = s.live := by
  rw [Server.forward, Server.reply, Server.send_live, Server.send_live]

theorem RequestOutcome.live (h : RequestOutcome lib s u msg t) : t.live = s.live := by
  obtain ⟨v, text, -, rfl⟩ | ⟨base, hprepared, ⟨-, rfl⟩ | ⟨_, _, _, -, -, rfl⟩⟩ :=
    h.forwards_or_answers
  · exact Server.forward_live
  · exact hprepared.live
  · rw [Server.send_live, hprepared.live]

/-- Only a SEND forwards. -/
theorem RequestOutcome.command_of_push (h : RequestOutcome lib s u msg t) {c : SendCall}
    (hc : c ∈ t.calls.drop s.calls.length) (hpush : isPush c.message.header = true) :
    commandOf msg.header = some .send := by
  obtain ⟨v, text, hforwards, -⟩ | ⟨base, hprepared, ⟨-, rfl⟩ | ⟨_, _, _, hheader, -, rfl⟩⟩ :=
    h.forwards_or_answers
  · exact hforwards.command
  · simp [hprepared.calls] at hc
  · rw [Server.newCalls_send hprepared.calls, List.mem_singleton] at hc
    subst hc
    exact absurd (hpush.symm.trans hheader) (by decide)

/-! ## Steps -/

/-- What a step can do, guards included. -/
inductive ServerEffect (lib : JsonLib) (s : Server) : ServerEvent → Server → Prop where
  | connect {u : Uuid} {endpoint : Endpoint} (hu : u ∉ s.live) :
      ServerEffect lib s (.connect u endpoint)
        { s.setSession u { endpoint := some endpoint } with
          live := insert u s.live
          sessionMap := insert u s.sessionMap }
  | request {env : Env} {u : Uuid} {msg : MsgNode} {t : Server} (hu : u ∈ s.live)
      (h : RequestOutcome lib s u msg t) : ServerEffect lib s (.request env u msg) t
  | disconnect {u : Uuid} :
      ServerEffect lib s (.disconnect u) (s.setSession u { s.session u with endpoint := none })
  | close {u : Uuid} : ServerEffect lib s (.close u) (s.close u)
  | delete {u : Uuid} : ServerEffect lib s (.delete u) (s.delSession u)
  | runPosted {u : Uuid} {m : Outgoing} {rest : List Outgoing}
      (h : (s.session u).posted = m :: rest) :
      ServerEffect lib s (.runPosted u)
        (s.setSession u ({ s.session u with posted := rest }.doSend m))
  | written {u : Uuid} {m : Outgoing} {rest : List Outgoing}
      (h : (s.session u).sendQue = m :: rest) :
      ServerEffect lib s (.written u) (s.setSession u { s.session u with sendQue := rest })
  | destroy {u : Uuid} (hu : u ∈ s.live) (hmap : u ∉ s.sessionMap)
      (hposted : (s.session u).posted = []) : ServerEffect lib s (.destroy u) (s.destroy u)

/-- **Every step** has one of the effects. -/
theorem effect_of_serverStep {a : ServerEvent} (h : serverStep lib s a = some t) :
    ServerEffect lib s a t := by
  cases a with
  | connect u endpoint =>
      simp only [serverStep] at h
      split_ifs at h with hu
      obtain rfl := Option.some.inj h
      exact .connect hu
  | request env u msg =>
      simp only [serverStep] at h
      split_ifs at h with hu
      obtain rfl := Option.some.inj h
      exact .request hu outcome_request
  | disconnect u =>
      obtain rfl := Option.some.inj h
      exact .disconnect
  | close u =>
      obtain rfl := Option.some.inj h
      exact .close
  | delete u =>
      obtain rfl := Option.some.inj h
      exact .delete
  | runPosted u =>
      simp only [serverStep, Server.runPosted] at h
      split at h
      · simp at h
      · next m rest hposted =>
          obtain rfl := Option.some.inj h
          exact .runPosted hposted
  | written u =>
      simp only [serverStep] at h
      split at h
      · simp at h
      · next m rest hque =>
          obtain rfl := Option.some.inj h
          exact .written hque
  | destroy u =>
      simp only [serverStep] at h
      split_ifs at h with henabled
      obtain rfl := Option.some.inj h
      exact .destroy henabled.1 henabled.2.1 henabled.2.2

theorem effect_of_request (h : serverStep lib s (.request env u msg) = some t) :
    u ∈ s.live ∧ RequestOutcome lib s u msg t := by
  cases effect_of_serverStep h with
  | request hu houtcome => exact ⟨hu, houtcome⟩

/-- The name that the destructor of a session removes. -/
def destroyedName (s : Server) (u : Uuid) : Option Bytes :=
  match (s.session u).clientInfo with
  | some info => if info.name.isEmpty then none else some info.name
  | none => none

theorem Server.destroy_of_name (h : destroyedName s u = some n) :
    s.destroy u = (Server.removeClient { s with live := s.live.erase u } n).2 := by
  unfold destroyedName at h
  split at h
  · next info hinfo =>
      split_ifs at h with hempty
      obtain rfl := Option.some.inj h
      simp only [Server.destroy, hinfo, hempty]
      rfl
  · simp at h

theorem Server.destroy_of_none (h : destroyedName s u = none) :
    s.destroy u = { s with live := s.live.erase u } := by
  unfold destroyedName at h
  split at h
  · next info hinfo =>
      split_ifs at h with hempty
      simp only [Server.destroy, hinfo, hempty, if_true]
  · next hinfo => simp only [Server.destroy, hinfo]

theorem Server.destroy_live : (s.destroy u).live = s.live.erase u := by
  cases hd : destroyedName s u with
  | none => rw [Server.destroy_of_none hd]
  | some n => rw [Server.destroy_of_name hd, Server.removeClient_live]

theorem Server.destroy_sessionMap : (s.destroy u).sessionMap = s.sessionMap := by
  cases hd : destroyedName s u with
  | none => rw [Server.destroy_of_none hd]
  | some n => rw [Server.destroy_of_name hd, Server.removeClient_sessionMap]

theorem Server.destroy_session : (s.destroy u).session = s.session := by
  cases hd : destroyedName s u with
  | none => rw [Server.destroy_of_none hd]
  | some n => rw [Server.destroy_of_name hd, Server.removeClient_session]

/-! ## Requests on the wire -/

/-- A request of the communication service, as the read loop hands it over. -/
def clientRequest (cmdId : UInt16) (text : Bytes) : MsgNode where
  header := { magic := 0x55AA, version := 1, serviceId := Const.serviceCommunication, cmdId
              length := UInt32.ofNat text.length, seq := 1 }
  body := text ++ [0]

/-- The body of a REGISTER or a CLOSE. -/
def nameBody (name : Bytes) : Bytes :=
  ascii "\x7b\"target\":\x7b\"name\":\"" ++ name ++ ascii "\"\x7d\x7d"

/-- The body of a SEND. -/
def sendBody (client : Bytes) : Bytes :=
  ascii "\x7b\"target\":\x7b\"client\":\"" ++ client ++ ascii "\",\"message\":\"hi\"\x7d\x7d"

/-- The library, as far as the runs on fixed requests need it. -/
def tableLib : JsonLib :=
  .ofTable [(nameBody (ascii "a"), .object [(ascii "target",
      .object [(ascii "name", .string (ascii "a"))])]),
    (nameBody (ascii "b"), .object [(ascii "target",
      .object [(ascii "name", .string (ascii "b"))])]),
    (sendBody (ascii "a"), .object [(ascii "target",
      .object [(ascii "client", .string (ascii "a")), (ascii "message", .string (ascii "hi"))])])]
    (by decide +kernel)

end AsioServer.Services
