/-
AsioServer.Services.ErrorCodeTheorems — what the error codes of a client mean.

REGISTER, CLOSE and SEND have one `catch` block each, and it answers 29999, "invalid
request json", whatever the exception was. Two calls inside can throw without the
request being malformed: REGISTER asks for the endpoint of its own session, and a SEND for
that of its recipient. A third deviation has no exception: `Send` discards a message for
a session that is stopped, and the sender is told that all went well.

`SendOutcome` lists what a SEND comes to, `error_codes_iff` says for which runs every
answer has the code of its cause, and `lost_recipient_is_malformed` is a run where a
well-formed SEND is called malformed. The text of a push can always be written, since a
name comes out of a request that was parsed (`NamesText`).
-/
import AsioServer.Services.NameSurvivalTheorems
import AsioServer.Services.RegistrationTheorems

namespace AsioServer.Services

open AsioServer.Core AsioServer.Infra AsioServer.Lib

variable {lib : JsonLib} {env : Env} {s t base : Server} {a : ServerEvent} {u v : Uuid}
  {msg : MsgNode} {n : Bytes} {code : Int}

/-! ## The property and its condition -/

/-- The session has been given an answer with the code. -/
def Answered (s t : Server) (u : Uuid) (code : Int) : Prop :=
  ∃ c ∈ t.calls.drop s.calls.length, c.session = u ∧ c.status = some code

/-- A RECV frame has been handed to the session. -/
def HandedTo (s t : Server) (v : Uuid) : Prop :=
  ∃ c ∈ t.calls.drop s.calls.length, c.session = v ∧ isPush c.message.header = true ∧
    c.accepted = true

/-- The string fields of `target` that a command reads. -/
def Command.stringFields : Command → List Bytes
  | register | close => [ascii "name"]
  | send => [ascii "client", ascii "message"]
  | heart | hello | execute | dbClose | showClients => []

/-- The body is not JSON, or it lacks a string field that the command reads. -/
def Malformed (lib : JsonLib) (msg : MsgNode) (command : Command) : Prop :=
  ∃ key ∈ command.stringFields, targetString lib msg key = none

/-- The name that a well-formed SEND addresses. -/
def recipientName (lib : JsonLib) (msg : MsgNode) : Option Bytes :=
  (sendRequest lib msg).map Prod.fst

/-- The session that a well-formed SEND addresses. -/
def recipient (lib : JsonLib) (s : Server) (msg : MsgNode) : Option Uuid :=
  (recipientName lib msg).bind s.getClient

/-- The answer to a SEND has the code of its cause. -/
structure SendCodes (lib : JsonLib) (s : Server) (u : Uuid) (msg : MsgNode) (t : Server) :
    Prop where
  invalid : Answered s t u 29999 ↔ Malformed lib msg .send
  unknown : Answered s t u 20002 ↔
    ∃ client, recipientName lib msg = some client ∧ s.getClient client = none
  unreached : Answered s t u 20003 ↔ ∃ v, recipient lib s msg = some v ∧ ¬ HandedTo s t v

/-- The answers to REGISTER, CLOSE and SEND have the codes of their causes. -/
structure CodesExact (lib : JsonLib) (s : Server) (a : ServerEvent) (t : Server) : Prop where
  invalid : ∀ env u msg command, a = .request env u msg → commandOf msg.header = some command →
    command = .register ∨ command = .close →
      (Answered s t u 29999 ↔ Malformed lib msg command)
  send : ∀ env u msg, a = .request env u msg → commandOf msg.header = some .send →
    SendCodes lib s u msg t

/-- The handlers can read the endpoints they ask for, and no recipient is stopped. -/
structure SocketsOpen (lib : JsonLib) (s : Server) (a : ServerEvent) (_ : Server) : Prop where
  register : ∀ env u msg, a = .request env u msg → commandOf msg.header = some .register →
    ¬ Malformed lib msg .register → (s.session u).endpoint ≠ none
  send : ∀ env u msg v, a = .request env u msg → commandOf msg.header = some .send →
    recipient lib s msg = some v → v ∈ s.sessionMap →
      (s.session v).endpoint ≠ none ∧ (s.session v).bStop = false

/-! ## Reading a request -/

theorem malformed_register : Malformed lib msg .register ↔
    targetString lib msg (ascii "name") = none := by
  simp [Malformed, Command.stringFields]

theorem malformed_close : Malformed lib msg .close ↔
    targetString lib msg (ascii "name") = none := by
  simp [Malformed, Command.stringFields]

theorem malformed_send : Malformed lib msg .send ↔ sendRequest lib msg = none := by
  simp only [Malformed, Command.stringFields, List.mem_cons, List.not_mem_nil, or_false,
    exists_eq_or_imp, exists_eq_left, sendRequest]
  cases targetString lib msg (ascii "client") with
  | none => simp
  | some client => simp

theorem recipient_of_sendRequest {client message : Bytes}
    (h : sendRequest lib msg = some (client, message)) :
    recipient lib s msg = s.getClient client := by
  rw [recipient, recipientName, h]
  rfl

/-! ## The names are texts -/

/-- What a request holds is UTF-8. -/
theorem isUtf8_of_targetString {key : Bytes} (h : targetString lib msg key = some n) :
    isUtf8 n = true := by
  obtain ⟨reqJson, hparse, h⟩ := Option.bind_eq_some_iff.mp h
  obtain ⟨target, htarget, h⟩ := Option.bind_eq_some_iff.mp h
  obtain ⟨member, hmember, hname⟩ := Option.bind_eq_some_iff.mp h
  have hbody : reqJson.isText = true := lib.parse_isText hparse
  exact isUtf8_of_getString (isText_of_atKey (isText_of_atKey hbody htarget) hmember) hname

theorem isUtf8_of_sendRequest {client message : Bytes}
    (h : sendRequest lib msg = some (client, message)) : isUtf8 message = true := by
  obtain ⟨client', -, h⟩ := Option.bind_eq_some_iff.mp h
  obtain ⟨message', hm, h⟩ := Option.map_eq_some_iff.mp h
  obtain ⟨-, rfl⟩ := Prod.mk.inj h
  exact isUtf8_of_targetString hm

/-- The names that the sessions remember are UTF-8. -/
def NamesText (s : Server) : Prop :=
  ∀ v n, (s.session v).clientName = some n → isUtf8 n = true

/-- A session has the name that it had, or the one that it has registered. -/
theorem RequestOutcome.clientName (h : RequestOutcome lib s u msg t)
    (hn : (t.session v).clientName = some n) :
    (s.session v).clientName = some n ∨ registeredName lib s u msg = some n := by
  cases h with
  | silent hbase => exact .inl ((hbase.clientName v).symm.trans hn)
  | replied hbase =>
      rw [CSession.clientName, Server.send_clientInfo] at hn
      exact .inl ((hbase.clientName v).symm.trans hn)
  | registered _ hname =>
      rw [CSession.clientName, Server.reply, Server.send_clientInfo,
        Server.addClient_session] at hn
      by_cases hv : v = u
      · rw [hv, Server.setClientInfo_session_self] at hn
        exact .inr (hname.trans hn)
      · rw [Server.setClientInfo_session_ne hv] at hn
        exact .inl hn
  | closed =>
      rw [CSession.clientName, Server.reply, Server.send_clientInfo,
        Server.removeClient_session, Server.clientClose_clientInfo] at hn
      exact .inl hn
  | forwarded =>
      rw [CSession.clientName, Server.forward, Server.reply, Server.send_clientInfo,
        Server.send_clientInfo] at hn
      exact .inl hn

theorem isUtf8_of_registeredName (h : registeredName lib s u msg = some n) : isUtf8 n = true := by
  unfold registeredName at h
  split_ifs at h
  exact isUtf8_of_targetString h

/-- **Every step** leaves names that are texts. -/
theorem NamesText.step (h : NamesText s) (hs : serverStep lib s a = some t) : NamesText t := by
  intro v n hn
  cases effect_of_serverStep hs with
  | @connect u =>
      by_cases hv : v = u
      · subst hv
        simp [CSession.clientName] at hn
      · exact h v n ((congrArg CSession.clientName (Server.setSession_session_ne hv)).symm.trans hn)
  | request _ hout =>
      obtain hsame | hname := hout.clientName hn
      · exact h v n hsame
      · exact isUtf8_of_registeredName hname
  | disconnect | close | written =>
      exact h v n ((Server.setSession_field CSession.clientName (by rfl) v).symm.trans hn)
  | delete => exact h v n hn
  | runPosted =>
      refine h v n ((Server.setSession_field CSession.clientName ?_ v).symm.trans hn)
      exact congrArg Prod.fst (CSession.doSend_identity _ _)
  | destroy =>
      rw [Server.destroy_session] at hn
      exact h v n hn

theorem NamesText.senderName (h : NamesText s) (u : Uuid) : isUtf8 (s.senderName u) = true := by
  unfold Server.senderName
  split
  · next info hinfo => exact h u info.name (congrArg (Option.map ClientInfo.name) hinfo)
  · decide

/-- A push of texts can be written. -/
theorem exists_pushText {sender message : Bytes} (hsender : isUtf8 sender = true)
    (hmessage : isUtf8 message = true) :
    ∃ text, (pushJson sender message).dump lib = some text := by
  have hkeys : isUtf8 (ascii "from") = true ∧ isUtf8 (ascii "message") = true := by decide
  have htext : (pushJson sender message).isText = true := by
    simp [pushJson, Json.isText, isTextFields, hkeys, hsender, hmessage]
  rw [← isSome_text lib none 0] at htext
  exact Option.isSome_iff_exists.mp htext

/-! ## Answers -/

/-- A handler that calls `Send` for its answer only answers with the code of the answer. -/
theorem answered_reply {header : MessageHeader} {resp : Json} (hcalls : base.calls = s.calls) :
    Answered s (base.reply lib u header resp) u code ↔
      JsonResponse.statusCode resp = some code := by
  rw [Answered, Server.reply, Server.newCalls_send hcalls]
  simp

theorem answered_error {header : MessageHeader} {errorCode : Int} {errorMsg : Bytes} :
    Answered s (s.reply lib u header (JsonResponse.error header errorCode errorMsg)) u code ↔
      errorCode = code := by
  rw [answered_reply rfl, JsonResponse.statusCode_error, Option.some.injEq]

/-- An answer is no push. -/
theorem not_handedTo_reply {resp : Json} {command : Command}
    (hc : commandOf msg.header = some command) :
    ¬ HandedTo s (s.reply lib u msg.header resp) v := by
  have hheader : ∀ body, isPush (Server.outgoing msg.header body).header = false :=
    fun _ => isPush_of_commandOf hc
  rw [HandedTo, Server.reply, Server.newCalls_send rfl]
  simp [hheader]

/-- **A SEND that forwards** is answered with 0, whatever became of the push. -/
theorem answered_forward {text : Bytes} :
    Answered s (s.forward lib u msg.header v text) u code ↔ code = 0 := by
  rw [Answered, Server.newCalls_forward]
  simp [eq_comm]

/-- The push is handed over exactly if the recipient is not stopped. -/
theorem handedTo_forward {text : Bytes} (hc : commandOf msg.header = some .send) :
    HandedTo s (s.forward lib u msg.header v text) v ↔ (s.session v).bStop = false := by
  have hpush : isPush (Server.outgoing (forwardHeader msg.header) text).header = true :=
    isPush_forwardHeader (serviceId_of_commandOf hc)
  have hheader : ∀ body, isPush (Server.outgoing msg.header body).header = false :=
    fun _ => isPush_of_commandOf hc
  rw [HandedTo, Server.newCalls_forward]
  simp [hpush, hheader]

/-! ## REGISTER and CLOSE -/

/-- **REGISTER** answers 29999 for a malformed request and for an endpoint that it cannot
read. -/
theorem register_invalid_iff (hc : commandOf msg.header = some .register) :
    Answered s (s.run (handle lib env u msg)) u 29999 ↔
      Malformed lib msg .register ∨ (s.session u).endpoint = none := by
  rw [malformed_register]
  cases hinfo : registeredInfo lib env s u msg with
  | none =>
      rw [Server.run_unread hc hinfo, Server.replyInvalid, answered_error]
      refine iff_of_true rfl ?_
      rw [registeredInfo, if_pos hc, Option.bind_eq_none_iff] at hinfo
      cases he : (s.session u).endpoint with
      | none => exact .inr rfl
      | some endpoint => exact .inl (Option.map_eq_none_iff.mp (hinfo endpoint he))
  | some info =>
      have hcalls : ((s.setClientInfo u info).addClient info.name u).2.calls = s.calls :=
        (Prepared.register s u info).calls
      rw [Server.run_read hinfo, answered_reply hcalls]
      rw [registeredInfo, if_pos hc] at hinfo
      obtain ⟨endpoint, he, hinfo⟩ := Option.bind_eq_some_iff.mp hinfo
      obtain ⟨name, hname, -⟩ := Option.map_eq_some_iff.mp hinfo
      refine iff_of_false ?_ (by simp [he, hname])
      split
      · simp [JsonResponse.statusCode_ok]
      · simp [JsonResponse.statusCode_error]

/-- **CLOSE** answers 29999 exactly for a malformed request. -/
theorem close_invalid_iff (hc : commandOf msg.header = some .close) :
    Answered s (s.run (handle lib env u msg)) u 29999 ↔ Malformed lib msg .close := by
  rw [Server.run_command hc, Command.callback, malformed_close]
  cases hname : targetString lib msg (ascii "name") with
  | none =>
      rw [Server.run_of_ok (onClose_invalid hname), Server.replyInvalid, answered_error]
      exact iff_of_true rfl rfl
  | some name =>
      have hcalls : ((s.clientClose u).removeClient name).2.calls = s.calls :=
        (Prepared.clientClose s u name).calls
      rw [Server.run_of_ok (onClose_closes hname), answered_reply hcalls]
      refine iff_of_false ?_ (by simp)
      split
      · simp [JsonResponse.statusCode_ok]
      · simp [JsonResponse.statusCode_error]

/-! ## SEND -/

/-- What a SEND comes to, by the cause. -/
inductive SendOutcome (lib : JsonLib) (s : Server) (u : Uuid) (msg : MsgNode) :
    Server → Prop where
  | malformed (h : Malformed lib msg .send) :
      SendOutcome lib s u msg (s.replyInvalid lib u msg.header)
  | unknown {client : Bytes} (hname : recipientName lib msg = some client)
      (hclient : s.getClient client = none) :
      SendOutcome lib s u msg (s.reply lib u msg.header
        (JsonResponse.error msg.header 20002 (ascii "client name not exists")))
  | absent {v : Uuid} (hv : recipient lib s msg = some v) (hmap : v ∉ s.sessionMap) :
      SendOutcome lib s u msg (s.reply lib u msg.header
        (JsonResponse.error msg.header 20003 (ascii "client name or session not exists")))
  | lost {v : Uuid} (hv : recipient lib s msg = some v) (hmap : v ∈ s.sessionMap)
      (he : (s.session v).endpoint = none) :
      SendOutcome lib s u msg (s.replyInvalid lib u msg.header)
  | forwarded {v : Uuid} {text : Bytes} (hv : recipient lib s msg = some v)
      (hmap : v ∈ s.sessionMap) (he : (s.session v).endpoint ≠ none) :
      SendOutcome lib s u msg (s.forward lib u msg.header v text)

/-- **Every SEND** has one of the outcomes: the text of the push is no cause. -/
theorem NamesText.sendOutcome (h : NamesText s) (hc : commandOf msg.header = some .send) :
    SendOutcome lib s u msg (s.run (handle lib env u msg)) := by
  rw [Server.run_command hc, Command.callback]
  cases hread : sendRequest lib msg with
  | none =>
      rw [Server.run_of_ok (onSend_invalid hread)]
      exact .malformed (malformed_send.mpr hread)
  | some request =>
      obtain ⟨client, message⟩ := request
      have hname : recipientName lib msg = some client := congrArg (Option.map Prod.fst) hread
      cases hclient : s.getClient client with
      | none =>
          rw [Server.run_of_ok (onSend_unknown hread hclient)]
          exact .unknown hname hclient
      | some v =>
          have hv : recipient lib s msg = some v := (recipient_of_sendRequest hread).trans hclient
          obtain ⟨text, htext⟩ :=
            @exists_pushText lib _ _ (h.senderName u) (isUtf8_of_sendRequest hread)
          by_cases hmap : v ∈ s.sessionMap
          · cases he : (s.session v).endpoint with
            | none =>
                rw [Server.run_of_ok (onSend_disconnected hread hclient htext hmap he)]
                exact .lost hv hmap he
            | some endpoint =>
                rw [Server.run_of_ok (onSend_forwards hread hclient htext hmap he)]
                exact .forwarded hv hmap (by simp [he])
          · rw [Server.run_of_ok (onSend_absent hread hclient htext hmap)]
            exact .absent hv hmap

theorem recipientName_of_malformed (h : Malformed lib msg .send) :
    recipientName lib msg = none := by
  rw [recipientName, malformed_send.mp h]
  rfl

/-- A SEND that addresses a session is well formed, and its name is registered. -/
theorem not_malformed_of_recipient (hv : recipient lib s msg = some v) :
    ¬ Malformed lib msg .send := by
  intro h
  rw [recipient, recipientName_of_malformed h] at hv
  simp at hv

theorem getClient_of_recipient (hv : recipient lib s msg = some v) :
    ¬ ∃ client, recipientName lib msg = some client ∧ s.getClient client = none := by
  rintro ⟨client, hname, hnone⟩
  rw [recipient, hname, Option.bind_some, hnone] at hv
  simp at hv

/-- **A SEND** has the code of its cause exactly if its recipient, when it is in the map, can
be reached. -/
theorem SendOutcome.codes_iff (h : SendOutcome lib s u msg t)
    (hc : commandOf msg.header = some .send) :
    SendCodes lib s u msg t ↔ ∀ v, recipient lib s msg = some v → v ∈ s.sessionMap →
      (s.session v).endpoint ≠ none ∧ (s.session v).bStop = false := by
  cases h with
  | malformed hmalformed =>
      have hname := recipientName_of_malformed hmalformed
      have hnone : recipient lib s msg = none := by rw [recipient, hname, Option.bind_none]
      refine iff_of_true ⟨?_, ?_, ?_⟩ (by simp [hnone])
      · exact iff_of_true (answered_error.mpr rfl) hmalformed
      · exact iff_of_false (by simp [Server.replyInvalid, answered_error]) (by simp [hname])
      · exact iff_of_false (by simp [Server.replyInvalid, answered_error]) (by simp [hnone])
  | @unknown client hname hclient =>
      have hnone : recipient lib s msg = none := by
        rw [recipient, hname, Option.bind_some, hclient]
      have hwell : ¬ Malformed lib msg .send := fun hmalformed => by
        simp [recipientName_of_malformed hmalformed] at hname
      refine iff_of_true ⟨?_, ?_, ?_⟩ (by simp [hnone])
      · exact iff_of_false (by simp [answered_error]) hwell
      · exact iff_of_true (answered_error.mpr rfl) ⟨client, hname, hclient⟩
      · exact iff_of_false (by simp [answered_error]) (by simp [hnone])
  | @absent v hv hmap =>
      refine iff_of_true ⟨?_, ?_, ?_⟩ fun v' hv' hmap' => ?_
      · exact iff_of_false (by simp [answered_error]) (not_malformed_of_recipient hv)
      · exact iff_of_false (by simp [answered_error]) (getClient_of_recipient hv)
      · exact iff_of_true (answered_error.mpr rfl) ⟨v, hv, not_handedTo_reply hc⟩
      · obtain rfl := Option.some.inj (hv.symm.trans hv')
        exact absurd hmap' hmap
  | @lost v hv hmap he =>
      refine iff_of_false (fun hcodes => ?_) fun hopen => (hopen v hv hmap).1 he
      exact not_malformed_of_recipient hv (hcodes.invalid.mp (answered_error.mpr rfl))
  | @forwarded v text hv hmap he =>
      constructor
      · intro hcodes v' hv' _
        obtain rfl := Option.some.inj (hv.symm.trans hv')
        refine ⟨he, ?_⟩
        by_contra hstopped
        have hnot : ¬ HandedTo s (s.forward lib u msg.header v text) v :=
          fun hhanded => hstopped ((handedTo_forward hc).mp hhanded)
        have hanswered := hcodes.unreached.mpr ⟨v, hv, hnot⟩
        exact absurd (answered_forward.mp hanswered) (by decide)
      · intro hopen
        have hhanded : HandedTo s (s.forward lib u msg.header v text) v :=
          (handedTo_forward hc).mpr (hopen v hv hmap).2
        refine ⟨?_, ?_, ?_⟩
        · exact iff_of_false (by simp [answered_forward]) (not_malformed_of_recipient hv)
        · exact iff_of_false (by simp [answered_forward]) (getClient_of_recipient hv)
        · refine iff_of_false (by simp [answered_forward]) ?_
          rintro ⟨v', hv', hnot⟩
          obtain rfl := Option.some.inj (hv.symm.trans hv')
          exact hnot hhanded

/-! ## Steps -/

/-- **One step** answers with the codes of the causes exactly if the sockets are open. -/
theorem codesExact_iff (h : NamesText s) (hs : serverStep lib s a = some t) :
    CodesExact lib s a t ↔ SocketsOpen lib s a t := by
  cases a with
  | request env u msg =>
      simp only [serverStep] at hs
      split_ifs at hs with hu
      obtain rfl := Option.some.inj hs
      constructor
      · intro hcodes
        refine ⟨?_, ?_⟩
        · rintro _ _ _ ⟨⟩ hc hwell hnone
          have hanswered : Answered s (s.run (handle lib env u msg)) u 29999 :=
            (register_invalid_iff hc).mpr (.inr hnone)
          exact hwell ((hcodes.invalid env u msg _ rfl hc (.inl rfl)).mp hanswered)
        · rintro _ _ _ v ⟨⟩ hc hv hmap
          exact ((h.sendOutcome hc).codes_iff hc).mp (hcodes.send env u msg rfl hc) v hv hmap
      · intro hopen
        refine ⟨?_, ?_⟩
        · rintro _ _ _ command ⟨⟩ hc (rfl | rfl)
          · rw [register_invalid_iff hc]
            refine ⟨fun hinvalid => ?_, .inl⟩
            by_contra hwell
            exact hopen.register env u msg rfl hc hwell (hinvalid.resolve_left hwell)
          · exact close_invalid_iff hc
        · rintro _ _ _ ⟨⟩ hc
          exact ((h.sendOutcome hc).codes_iff hc).mpr fun v => hopen.send env u msg v rfl hc
  | connect | disconnect | close | delete | runPosted | written | destroy =>
      exact iff_of_true ⟨fun _ _ _ _ heq => by simp at heq, fun _ _ _ heq => by simp at heq⟩
        ⟨fun _ _ _ heq => by simp at heq, fun _ _ _ _ heq => by simp at heq⟩

/-! ## Whole runs -/

/-- **The error codes, exactly.** In every run from the start of the server: REGISTER, CLOSE
and SEND answer 29999 exactly for the requests that are malformed, and SEND answers 20002
exactly for a name that is not registered and 20003 exactly when nothing is handed to the
session of a registered one, if and only if no well-formed REGISTER meets a session whose
endpoint cannot be read, and no SEND a recipient in the map whose endpoint cannot be read
or that is stopped. -/
theorem error_codes_iff (lib : JsonLib) (as : List ServerEvent) :
    AllSteps (serverStep lib) (CodesExact lib) {} as ↔
      AllSteps (serverStep lib) (SocketsOpen lib) {} as := by
  have hinit : NamesText {} := by
    intro v n hn
    simp [CSession.clientName] at hn
  have hinv : ∀ s a t, NamesText s → serverStep lib s a = some t → NamesText t :=
    fun _ _ _ h hs => h.step hs
  exact allSteps_congr hinv (fun _ _ _ h hs => codesExact_iff h hs) as {} hinit

/-- Session 0 registers a name and loses its peer. A SEND to the name is well formed and is
answered with 29999. -/
theorem lost_recipient_is_malformed : ¬ ∀ (lib : JsonLib) (as : List ServerEvent),
    AllSteps (serverStep lib) (CodesExact lib) {} as := by
  let events : List ServerEvent := [.connect 0 ⟨ascii "10.0.0.1", 50000⟩,
    .connect 1 ⟨ascii "10.0.0.2", 50001⟩,
    .request {} 0 (clientRequest Const.communicationRegister (nameBody (ascii "a"))),
    .disconnect 0]
  let msg := clientRequest Const.communicationSend (sendBody (ascii "a"))
  have hrun : ((run (serverStep tableLib) {} events).bind fun s =>
      (serverStep tableLib s (.request {} 1 msg)).map fun t =>
        ((sendRequest tableLib msg).isSome, (t.calls.drop s.calls.length).any fun c =>
          c.session == 1 && c.status == some 29999)) = some (true, true) := by
    decide +kernel
  obtain ⟨s, hs, hrun⟩ := Option.bind_eq_some_iff.mp hrun
  obtain ⟨t, ht, hview⟩ := Option.map_eq_some_iff.mp hrun
  simp only [Prod.mk.injEq, List.any_eq_true, Bool.and_eq_true, beq_iff_eq] at hview
  obtain ⟨hwell, c, hc, hsession, hstatus⟩ := hview
  have hnot : ¬ CodesExact tableLib s (.request {} 1 msg) t := by
    intro hcodes
    have hsend := hcodes.send _ 1 _ rfl (by decide +kernel)
    have hmalformed := hsend.invalid.mp ⟨c, hc, hsession, hstatus⟩
    rw [malformed_send.mp hmalformed] at hwell
    exact absurd hwell (by decide)
  exact fun h => not_allSteps hs ht hnot (h tableLib (events ++ [.request {} 1 msg]))

end AsioServer.Services
