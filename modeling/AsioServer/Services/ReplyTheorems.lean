/-
AsioServer.Services.ReplyTheorems — one reply per request.

`repliesTo` counts the frames that a request makes `Send` accept for its
session, with the request's service and seq. `one_reply_iff` says, command by
command, when there is exactly one. HELLO, REGISTER, SEND and SHOW always answer
an open session: all their exceptions are caught and answered. HEART and the
database commands lose their reply to an exception outside any `try` block, and
CLOSE closes the session before it sends.
-/
import AsioServer.Services.RequestTheorems

namespace AsioServer.Services

open AsioServer.Core AsioServer.Infra AsioServer.Lib

variable {lib : JsonLib} {env : Env} {s t base : Server} {u v : Uuid} {msg : MsgNode}
  {command : Command} {req : DBRequest}

/-! ## Counting replies -/

/-- The replies to a request that `Send` has accepted for the session. A push
that the session sends to itself is none. -/
def repliesTo (s t : Server) (u : Uuid) (request : MessageHeader) : Nat :=
  (t.calls.drop s.calls.length).countP fun c =>
    c.session == u && c.accepted && !isPush c.message.header &&
      c.message.header.serviceId == request.serviceId && c.message.header.seq == request.seq

theorem ite_eq_one_iff (answered stopped : Bool) :
    (if answered && !stopped then 1 else 0) = 1 ↔ stopped = false ∧ answered = true := by
  cases answered <;> cases stopped <;> decide

theorem repliesTo_of_calls_eq (h : t.calls = s.calls) : repliesTo s t u msg.header = 0 := by
  rw [repliesTo, h, List.drop_length, List.countP_nil]

/-- A reply counts exactly if the session is open. -/
theorem repliesTo_send {header : MessageHeader} {body : Bytes} {status : Option Int}
    (hcalls : base.calls = s.calls) (hreply : IsReply msg.header header) :
    repliesTo s (base.send u header body status) u msg.header =
      if (base.session u).bStop then 0 else 1 := by
  have hpush : isPush (Server.outgoing header body).header = false := hreply.isPush
  have hservice : (Server.outgoing header body).header.serviceId = msg.header.serviceId :=
    hreply.serviceId
  have hseq : (Server.outgoing header body).header.seq = msg.header.seq := hreply.seq
  rw [repliesTo, Server.newCalls_send hcalls, List.countP_singleton]
  cases (base.session u).bStop <;> simp [hpush, hservice, hseq]

/-- A push does not count. -/
theorem repliesTo_forward {text : Bytes} (h : Forwards lib s u msg v text) :
    repliesTo s (s.forward lib u msg.header v text) u msg.header =
      if (s.session u).bStop then 0 else 1 := by
  have hpush : isPush (Server.outgoing (forwardHeader msg.header) text).header = true :=
    isPush_forwardHeader (serviceId_of_commandOf h.command)
  have hnot : ∀ body, isPush (Server.outgoing msg.header body).header = false :=
    fun _ => isPush_of_commandOf h.command
  have hservice : ∀ body, (Server.outgoing msg.header body).header.serviceId =
      msg.header.serviceId := fun _ => rfl
  have hseq : ∀ body, (Server.outgoing msg.header body).header.seq = msg.header.seq :=
    fun _ => rfl
  rw [repliesTo, Server.newCalls_forward, List.countP_cons, List.countP_singleton]
  cases (s.session u).bStop <;> simp [hpush, hnot, hservice, hseq]

/-! ## The guarded commands -/

/-- **A guarded command** that does not close its session answers if the session
is open. -/
theorem RequestOutcome.repliesTo_guarded (h : RequestOutcome lib s u msg t)
    (hc : commandOf msg.header = some command) (hguarded : command.unguarded = false)
    (hclose : closedName lib msg = none) :
    repliesTo s t u msg.header = if (s.session u).bStop then 0 else 1 := by
  cases h with
  | silent _ hunguarded => exact absurd hc (hunguarded.ne hguarded)
  | replied hbase hheader =>
      cases hbase with
      | same => exact repliesTo_send rfl hheader
      | closed hunguarded | beaten hunguarded => exact absurd hc (hunguarded.ne hguarded)
  | @registered info =>
      have hopen : ((((s.setClientInfo u info).addClient info.name u).2).session u).bStop =
          (s.session u).bStop := by
        rw [Server.addClient_session, Server.setClientInfo_session_self]
      rw [Server.reply, repliesTo_send (Prepared.register s u info).calls (.of_commandOf hc), hopen]
  | closed _ hname => simp [hclose] at hname
  | forwarded hforwards => exact repliesTo_forward hforwards

/-- **CLOSE** does not answer when it closes: `ClientClose` sets `_bStop` first. -/
theorem RequestOutcome.repliesTo_closed (h : RequestOutcome lib s u msg t) {name : Bytes}
    (hclose : closedName lib msg = some name) : repliesTo s t u msg.header = 0 := by
  cases h with
  | silent _ hunguarded => simp [hunguarded.closedName] at hclose
  | replied _ _ _ hnone => simp [hnone] at hclose
  | registered hcommand => simp [closedName_of_command hcommand] at hclose
  | @closed name _ hcommand =>
      have hstopped : ((((s.clientClose u).removeClient name).2).session u).bStop = true := by
        rw [Server.removeClient_session, Server.clientClose_session_self]
      rw [Server.reply,
        repliesTo_send (Prepared.clientClose s u name).calls (.of_commandOf hcommand), hstopped,
        if_pos rfl]
  | forwarded hforwards => simp [closedName_of_command hforwards.command] at hclose

/-! ## HEART and the database -/

theorem repliesTo_heart :
    repliesTo s (s.run (onRecvHeart lib env u msg)) u msg.header =
      if (s.session u).endpoint.isSome && !(s.session u).bStop then 1 else 0 := by
  cases he : (s.session u).endpoint with
  | none => rw [Server.run_of_error (onRecvHeart_throws he), repliesTo_of_calls_eq rfl]; rfl
  | some endpoint =>
      obtain ⟨resp, -, hrun⟩ := @onRecvHeart_replies lib env s u msg endpoint he
      have hopen : ((s.setLastConnectTime u env.nowAgain).session u).bStop =
          (s.session u).bStop :=
        Server.setLastConnectTime_field CSession.bStop (fun _ => rfl) u
      have hcalls : (s.setLastConnectTime u env.nowAgain).calls = s.calls := rfl
      rw [Server.run_of_ok hrun, Server.reply, repliesTo_send hcalls (.heartAck msg.header), hopen]
      cases (s.session u).bStop <;> rfl

/-- What the database returns is UTF-8. -/
def Env.textual (env : Env) (req : DBRequest) : Bool :=
  let res := env.statement req.key req.sql
  !env.hasPool req.key || !env.acquired req.key || { res.2 with success := res.1 }.isText

theorem isText_executeRequest (h : req.cmd = ascii "execute") :
    (executeRequest env req).isText = env.textual req := by
  have hcmd : req.cmd ≠ ascii "close" := by
    rw [h]
    decide
  have hpool : isUtf8 (ascii "Connection pool not found") = true := by decide
  have htimeout : isUtf8 (ascii "Acquire connection timeout") = true := by decide
  unfold executeRequest Env.textual
  rw [if_neg hcmd]
  cases env.hasPool req.key with
  | false =>
      simp only [Bool.not_false, if_true, Bool.true_or, DBResult.isText, Bool.false_eq_true,
        if_false, hpool]
  | true =>
      cases env.acquired req.key with
      | false =>
          simp only [Bool.not_true, Bool.not_false, if_true, Bool.false_or, Bool.true_or,
            DBResult.isText, Bool.false_eq_true, if_false, htimeout]
      | true => rfl

/-- The result of closing a pool is plain. -/
theorem isText_executeRequest_close :
    (executeRequest env { req with cmd := ascii "close" }).isText = true := by
  have hpool : isUtf8 (ascii "Connection pool not found") = true := by decide
  unfold executeRequest
  cases env.hasPool req.key with
  | false =>
      simp only [Bool.not_false, if_true, DBResult.isText, Bool.false_eq_true, if_false, hpool]
  | true => rfl

/-- What holds of all results of the continuation holds of those of a `bind`. -/
theorem forall_bind {α β : Type} {P : β → Prop} {x : Option α} {f : α → Option β}
    (h : ∀ a b, f a = some b → P b) : ∀ b, x.bind f = some b → P b := by
  intro b hb
  obtain ⟨a, -, hb⟩ := Option.bind_eq_some_iff.mp hb
  exact h a b hb

/-- A request that is parsed has the default command. -/
theorem parseRequest_cmd (h : parseRequest lib msg = some req) : req.cmd = ascii "execute" := by
  -- the reads that follow the key
  have hsql : ∀ (reqJson : Json) (key : DBKey) (req : DBRequest),
      ((reqJson.atKey (ascii "action")).bind fun action =>
        (action.atKey (ascii "sql")).bind fun sqlJson =>
          sqlJson.getString.bind fun sql => some { key, sql }) = some req →
      req.cmd = ascii "execute" := by
    intro reqJson key
    refine forall_bind fun _ => forall_bind fun _ => forall_bind fun sql req h => ?_
    obtain rfl := Option.some.inj h
    rfl
  suffices hall : ∀ req, parseRequest lib msg = some req → req.cmd = ascii "execute" from
    hall req h
  refine forall_bind fun reqJson => forall_bind fun _ => forall_bind fun _ =>
    forall_bind fun dbType => ?_
  split_ifs
  · exact forall_bind fun _ => forall_bind fun _ => forall_bind fun _ => forall_bind fun _ =>
      forall_bind fun _ => forall_bind fun _ => forall_bind fun _ => forall_bind (hsql reqJson)
  · exact forall_bind (hsql reqJson)

theorem repliesTo_executeCmdAndResponse (hc : commandOf msg.header = some command) :
    repliesTo s (s.run (executeCmdAndResponse lib env u msg.header req)) u msg.header =
      if (executeRequest env req).isText && !env.closesSession && !(s.session u).bStop
      then 1 else 0 := by
  have hrun := @executeCmdAndResponse_eq lib env s u msg.header req
  have hcalls : (s.awaited env u).calls = s.calls := by
    unfold Server.awaited
    split <;> rfl
  have hstopped : ((s.awaited env u).session u).bStop =
      (env.closesSession || (s.session u).bStop) := by
    unfold Server.awaited
    cases env.closesSession <;> simp [Server.close]
  rw [← DBResult.isText_response (executeRequest env req) msg.header]
  cases htext : ((executeRequest env req).response msg.header).isText with
  | true =>
      rw [Server.run_of_ok (hrun.trans (Handler.sendJson_of_isText htext _)), Server.reply,
        repliesTo_send hcalls (.of_commandOf hc), hstopped]
      cases env.closesSession <;> cases (s.session u).bStop <;> rfl
  | false =>
      rw [Server.run_of_error (hrun.trans (Handler.sendJson_of_not_isText htext _)),
        repliesTo_of_calls_eq hcalls]
      rfl

/-! ## When a request is answered -/

/-- The condition on a request, beside an open session. -/
def answerable (lib : JsonLib) (env : Env) (s : Server) (u : Uuid) (msg : MsgNode) :
    Command → Bool
  | .heart => (s.session u).endpoint.isSome
  | .execute => (parseRequest lib msg).any env.textual && !env.closesSession
  | .dbClose => (parseRequest lib msg).isSome && !env.closesSession
  | .close => (targetString lib msg (ascii "name")).isNone
  | .hello | .register | .send | .showClients => true

/-- **One reply per request, exactly.** A request for a registered command is
answered once if and only if its session is open when the handler starts and the
request is answerable. -/
theorem one_reply_iff (lib : JsonLib) (env : Env) (s : Server) (u : Uuid) (msg : MsgNode)
    {command : Command} (hc : commandOf msg.header = some command) :
    repliesTo s (s.run (handle lib env u msg)) u msg.header = 1 ↔
      (s.session u).bStop = false ∧ answerable lib env s u msg command = true := by
  have houtcome : RequestOutcome lib s u msg (s.run (handle lib env u msg)) := outcome_request
  have hrun : s.run (handle lib env u msg) = s.run (command.callback lib env u msg) :=
    Server.run_command hc
  cases command with
  | heart =>
      rw [hrun, Command.callback, repliesTo_heart, ite_eq_one_iff, answerable]
  | execute =>
      rw [hrun, Command.callback]
      cases hreq : parseRequest lib msg with
      | none =>
          rw [Server.run_of_error (onExecute_of_none hreq), repliesTo_of_calls_eq rfl]
          simp [answerable, hreq]
      | some req =>
          rw [Server.run_congr (onExecute_of_some hreq), repliesTo_executeCmdAndResponse hc,
            isText_executeRequest (parseRequest_cmd hreq), ite_eq_one_iff]
          simp [answerable, hreq]
  | dbClose =>
      rw [hrun, Command.callback]
      cases hreq : parseRequest lib msg with
      | none =>
          rw [Server.run_of_error (onDbClose_of_none hreq), repliesTo_of_calls_eq rfl]
          simp [answerable, hreq]
      | some req =>
          rw [Server.run_congr (onDbClose_of_some hreq), repliesTo_executeCmdAndResponse hc,
            isText_executeRequest_close, ite_eq_one_iff]
          simp [answerable, hreq]
  | close =>
      cases hname : targetString lib msg (ascii "name") with
      | none =>
          have hclose : closedName lib msg = none := by simp [closedName, hname]
          rw [houtcome.repliesTo_guarded hc rfl hclose]
          simp [answerable, hname]
      | some name =>
          have hclose : closedName lib msg = some name := by simp [closedName, hc, hname]
          rw [houtcome.repliesTo_closed hclose]
          simp [answerable, hname]
  | hello | register | send | showClients =>
      rw [houtcome.repliesTo_guarded hc rfl (closedName_of_command hc (by decide))]
      simp [answerable]

/-- A REGISTER of an open session whose name is taken is answered once. -/
theorem one_reply_register :
    let msg := clientRequest Const.communicationRegister (nameBody (ascii "a"))
    let s : Server := { clientMap := AList.singleton (ascii "a") 1 }
    repliesTo s (s.run (handle tableLib {} 0 msg)) 0 msg.header = 1 :=
  (one_reply_iff tableLib {} { clientMap := AList.singleton (ascii "a") 1 } 0
    (clientRequest Const.communicationRegister (nameBody (ascii "a")))
    (by decide +kernel : _ = some Command.register)).mpr ⟨rfl, rfl⟩

/-- The reply to a well-formed CLOSE of an open session is discarded. -/
theorem close_is_not_answered : ¬ ∀ (lib : JsonLib) (env : Env) (as : List ServerEvent)
    (s : Server) (u : Uuid) (msg : MsgNode) (command : Command),
    run (serverStep lib) {} as = some s → commandOf msg.header = some command →
      (s.session u).bStop = false →
        repliesTo s (s.run (handle lib env u msg)) u msg.header = 1 := by
  let events : List ServerEvent := [.connect 0 ⟨ascii "10.0.0.1", 50000⟩,
    .request {} 0 (clientRequest Const.communicationRegister (nameBody (ascii "a")))]
  let msg := clientRequest Const.communicationClose (nameBody (ascii "a"))
  have hrun : ((run (serverStep tableLib) {} events).map fun s => ((s.session 0).bStop,
      repliesTo s (s.run (handle tableLib {} 0 msg)) 0 msg.header)) = some (false, 0) := by
    decide +kernel
  obtain ⟨s, hs, hview⟩ := Option.map_eq_some_iff.mp hrun
  obtain ⟨hopen, hreplies⟩ := Prod.mk.inj hview
  intro h
  have hone := h tableLib {} events s 0 msg .close hs (by decide +kernel) hopen
  rw [hreplies] at hone
  exact absurd hone (by decide)

end AsioServer.Services
