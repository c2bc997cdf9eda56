/-
AsioServer.Services.DatabaseAnswerTheorems — the database as a client sees it through the
server.

`CallAnswer` is what a caller of `ExecuteRequest` learns from its result. A client learns it from
the frame of a response: `readDatabase` parses the text, looks at the status and reads
the data by its `type`.

`database_answers_arrive` compares the two over whole runs. The responses that are sent to a
session give the answers of the executor to its requests, all of them that a text can carry
and nothing else, and the client reads these in the order in which the requests were handled.
-/
import AsioServer.Services.ConversationTheorems
import AsioServer.Services.ReplyTextTheorems
import AsioServer.Services.RoutingTheorems

namespace AsioServer.Services

open AsioServer.Core AsioServer.Infra AsioServer.Lib AsioServer.Net

/-! ## Answers -/

/-- What a database request tells its caller. -/
inductive CallAnswer where
  | done
  | selected (columns : List Bytes) (rows : List (List Bytes))
  | changed (affectedRows lastInsertId : Int)
  | failed (errorMsg : Bytes)
  deriving DecidableEq, Repr

/-- What a result says. The data of a failed statement do not count. -/
def DBResult.answer (r : DBResult) : CallAnswer :=
  if r.success then
    match r.data with
    | .none => .done
    | .resultSet columns rows => .selected columns rows
    | .execResult affectedRows lastInsertId => .changed affectedRows lastInsertId
  else .failed r.errorMsg

/-! ### The client's side -/

/-- A list of strings. -/
def readStrings : Json → Option (List Bytes)
  | .array items => items.mapM Json.getString
  | _ => none

/-- A list of rows. -/
def readRows : Json → Option (List (List Bytes))
  | .array items => items.mapM readStrings
  | _ => none

/-- A number, as it is written. -/
def readInteger : Json → Option Int
  | .integer i => some i
  | _ => none

/-- The result of a statement, by its `type`. -/
def readResult (result : Json) : Option CallAnswer := do
  let type ← (← result.atKey (ascii "type")).getString
  if type = ascii "result_set" then
    let columns ← readStrings (← result.atKey (ascii "columns"))
    let rows ← readRows (← result.atKey (ascii "rows"))
    return .selected columns rows
  else if type = ascii "exec_result" then
    let affectedRows ← readInteger (← result.atKey (ascii "affectedRows"))
    let lastInsertId ← readInteger (← result.atKey (ascii "lastInsertId"))
    return .changed affectedRows lastInsertId
  else return .done

/-- The answer in a response. -/
def readAnswer (resp : Json) : Option CallAnswer := do
  let code ← JsonResponse.statusCode resp
  if code = 0 then
    let data ← resp.atKey (ascii "data")
    readResult (← data.atKey (ascii "result"))
  else
    let status ← resp.atKey (ascii "status")
    return .failed (← (← status.atKey (ascii "message")).getString)

/-- The answer in a frame, with the number of its request. -/
def readDatabase (lib : JsonLib) (m : MessageHeader × Bytes) : Option (UInt32 × CallAnswer) :=
  if m.1.serviceId = Const.serviceDb then
    ((lib.parse m.2).bind readAnswer).map fun answer => (m.1.seq, answer)
  else none

/-! ### The server's side -/

/-- The request to the executor that a message is. -/
def databaseRequest (lib : JsonLib) (msg : MsgNode) : Option DBRequest :=
  match commandOf msg.header with
  | some .execute => parseRequest lib msg
  | some .dbClose => (parseRequest lib msg).map fun req => { req with cmd := ascii "close" }
  | _ => none

/-- The answer of the executor, when a text can carry it. -/
def textAnswer (env : Env) (req : DBRequest) : Option CallAnswer :=
  let result := executeRequest env req
  if result.isText then some result.answer else none

/-- The answer that session `u` is due for an event. -/
def ServerEvent.databaseAnswer (lib : JsonLib) (u : Uuid) :
    ServerEvent → List (UInt32 × CallAnswer)
  | .request env v msg =>
      if v = u then
        (((databaseRequest lib msg).bind (textAnswer env)).map fun answer =>
          (msg.header.seq, answer)).toList
      else []
  | _ => []

/-- The answers that session `u` is due, in the order in which its requests are handled. -/
def databaseAnswers (lib : JsonLib) (u : Uuid) (as : List ServerEvent) :
    List (UInt32 × CallAnswer) :=
  as.flatMap (ServerEvent.databaseAnswer lib u)

/-- The answers in the frames that `Send` was given for session `u`. -/
def answersSent (lib : JsonLib) (u : Uuid) (s : Server) : List (UInt32 × CallAnswer) :=
  (s.sentTo u).filterMap fun m => readDatabase lib (m.header, m.body)

variable {lib : JsonLib} {env : Env} {s t base : Server} {a : ServerEvent} {u v : Uuid}
  {msg : MsgNode} {header : MessageHeader} {req : DBRequest}

/-! ## One response -/

theorem readStrings_strings (strings : List Bytes) :
    readStrings (.array (strings.map .string)) = some strings := by
  rw [readStrings]
  induction strings with
  | nil => rfl
  | cons x strings ih =>
      rw [List.map_cons, List.mapM_cons, ih]
      rfl

theorem readRows_rows (rows : List (List Bytes)) :
    readRows (.array (rows.map fun row => .array (row.map .string))) = some rows := by
  rw [readRows]
  induction rows with
  | nil => rfl
  | cons row rows ih =>
      rw [List.map_cons, List.mapM_cons, readStrings_strings, ih]
      rfl

/-- The `type` tells the results apart. -/
theorem readResult_makeResultJson {r : DBResult} (h : r.success = true) :
    readResult r.makeResultJson = some r.answer := by
  rw [DBResult.answer, if_pos h]
  unfold DBResult.makeResultJson
  cases r.data with
  | none => rfl
  | resultSet columns rows =>
      have hcolumns := readStrings_strings columns
      have hrows := readRows_rows rows
      show (readStrings _).bind _ = _
      rw [hcolumns]
      show (readRows _).bind _ = _
      rw [hrows]
      rfl
  | execResult affectedRows lastInsertId => rfl

/-- **A response tells what the result says.** -/
theorem readAnswer_response (r : DBResult) (header : MessageHeader) :
    readAnswer (r.response header) = some r.answer := by
  unfold DBResult.response
  split
  · next hsuccess => exact readResult_makeResultJson hsuccess
  · next hfailed => rw [DBResult.answer, if_neg hfailed]; rfl

section

variable {strtod : Bytes → Option Rat} {floatText : Rat → Bytes}

/-- **The frame of a response** is read as the answer, with the number of its request. -/
theorem readDatabase_response {r : DBResult} (hservice : header.serviceId = Const.serviceDb)
    (htext : r.isText = true) (hfits : r.data.Fits) :
    readDatabase (.nlohmann strtod floatText)
        (header, ((r.response header).dump4 (.nlohmann strtod floatText)).getD []) =
      some (header.seq, r.answer) := by
  have hwritten : ∃ text, (r.response header).dump4 (.nlohmann strtod floatText) = some text :=
    dump4_eq_some_iff.mpr ((DBResult.isText_response r header).trans htext)
  have hresp : IsResponse header (r.response header) := DBResult.isResponse htext hfits
  obtain ⟨text, hdump⟩ := hwritten
  have hparse := parse_of_plain hresp.plain hdump
  rw [readDatabase, if_pos hservice, hdump, Option.getD_some, hparse, Option.bind_some,
    readAnswer_response, Option.map_some]

end

/-- The frames of the other services tell nothing about the database. -/
theorem readDatabase_other {body : Bytes} (h : header.serviceId ≠ Const.serviceDb) :
    readDatabase lib (header, body) = none := if_neg h

/-! ## What a request sends -/

theorem answersSent_of_calls (h : t.calls = s.calls) :
    answersSent lib u t = answersSent lib u s := by
  rw [answersSent, Server.sentTo_of_calls h, answersSent]

theorem answersSent_send {body : Bytes} {status : Option Int} :
    answersSent lib u (s.send v header body status) =
      answersSent lib u s ++ (if v = u then (readDatabase lib (header, body)).toList else []) := by
  have hread : readDatabase lib ((Server.outgoing header body).header,
      (Server.outgoing header body).body) = readDatabase lib (header, body) := rfl
  rw [answersSent, Server.sentTo_send, List.filterMap_append, answersSent]
  congr 1
  split
  · rw [List.filterMap_cons, hread]
    cases readDatabase lib (header, body) <;> rfl
  · rfl

/-- A frame of another service. -/
theorem answersSent_other {body : Bytes} {status : Option Int}
    (h : header.serviceId ≠ Const.serviceDb) :
    answersSent lib u (s.send v header body status) = answersSent lib u s := by
  rw [answersSent_send, readDatabase_other h, Option.toList_none, ite_self, List.append_nil]

/-- **A request to another service** sends no answer of the database. -/
theorem answersSent_of_outcome (ht : RequestOutcome lib s v msg t)
    (hservice : msg.header.serviceId ≠ Const.serviceDb) :
    answersSent lib u t = answersSent lib u s := by
  cases ht with
  | silent hbase => exact answersSent_of_calls (Prepared.of_base hbase).calls
  | replied hbase hheader =>
      rw [answersSent_other (hheader.serviceId ▸ hservice),
        answersSent_of_calls (Prepared.of_base hbase).calls]
  | registered =>
      rw [Server.reply, answersSent_other hservice,
        answersSent_of_calls (Prepared.register s v _).calls]
  | closed =>
      rw [Server.reply, answersSent_other hservice,
        answersSent_of_calls (Prepared.clientClose s v _).calls]
  | forwarded =>
      have hpush : (forwardHeader msg.header).serviceId ≠ Const.serviceDb := hservice
      rw [Server.forward, Server.reply, answersSent_other hservice, answersSent_other hpush]

theorem databaseRequest_of_command {command : Command} (h : commandOf msg.header = some command)
    (hservice : command.service ≠ .db) : databaseRequest lib msg = none := by
  rw [databaseRequest, h]
  cases command <;> first | rfl | exact absurd rfl hservice

theorem ServerEvent.databaseAnswer_of_none (h : databaseRequest lib msg = none) :
    (ServerEvent.request env v msg).databaseAnswer lib u = [] := by
  rw [ServerEvent.databaseAnswer, h]
  exact ite_self _

section

variable {strtod : Bytes → Option Rat} {floatText : Rat → Bytes}

/-- **A request to the database** sends its answer, if a text can carry it. -/
theorem answersSent_executeCmdAndResponse (henv : env.Fits) (req : DBRequest)
    (hservice : header.serviceId = Const.serviceDb) :
    answersSent (.nlohmann strtod floatText) u
        (s.run (executeCmdAndResponse (.nlohmann strtod floatText) env v header req)) =
      answersSent (.nlohmann strtod floatText) u s ++
        (if v = u then ((textAnswer env req).map fun answer => (header.seq, answer)).toList
          else []) := by
  have hawaited : (s.awaited env v).calls = s.calls := by
    unfold Server.awaited
    split <;> rfl
  have hrun := @executeCmdAndResponse_eq (.nlohmann strtod floatText) env s v header req
  cases htext : (executeRequest env req).isText with
  | true =>
      have hresp := (DBResult.isText_response (executeRequest env req) header).trans htext
      rw [Server.run_of_ok (hrun.trans (Handler.sendJson_of_isText hresp _)), Server.reply,
        answersSent_send, readDatabase_response hservice htext (fits_executeRequest henv req),
        answersSent_of_calls hawaited, textAnswer, if_pos htext]
      rfl
  | false =>
      have hresp := (DBResult.isText_response (executeRequest env req) header).trans htext
      have hnone : textAnswer env req = none := if_neg (Bool.eq_false_iff.mp htext)
      rw [Server.run_of_error (hrun.trans (Handler.sendJson_of_not_isText hresp _)),
        answersSent_of_calls hawaited, hnone, Option.map_none, Option.toList_none, ite_self,
        List.append_nil]

/-- **One request** of any kind. -/
theorem answersSent_request (henv : env.Fits) :
    answersSent (.nlohmann strtod floatText) u
        (s.run (handle (.nlohmann strtod floatText) env v msg)) =
      answersSent (.nlohmann strtod floatText) u s ++
        (ServerEvent.request env v msg).databaseAnswer (.nlohmann strtod floatText) u := by
  cases hc : commandOf msg.header with
  | none =>
      have hrequest : databaseRequest (.nlohmann strtod floatText) msg = none := by
        rw [databaseRequest, hc]
      rw [Server.run_of_ok (h := handle _ env v msg) (t := s) (by rw [handle, hc]; rfl),
        ServerEvent.databaseAnswer_of_none hrequest, List.append_nil]
  | some command =>
      have hid := serviceId_of_commandOf hc
      by_cases hservice : command.service = .db
      · rw [hservice] at hid
        cases hreq : parseRequest (.nlohmann strtod floatText) msg with
        | none =>
            -- the handlers of the database let the exception through
            have hnone : databaseRequest (.nlohmann strtod floatText) msg = none := by
              rw [databaseRequest, hc, hreq]
              cases command <;> rfl
            rw [ServerEvent.databaseAnswer_of_none hnone, List.append_nil,
              Server.run_command hc]
            cases command with
            | execute => rw [Command.callback, Server.run_of_error (onExecute_of_none hreq)]
            | dbClose => rw [Command.callback, Server.run_of_error (onDbClose_of_none hreq)]
            | heart | hello | register | close | send | showClients =>
                exact absurd hservice (by decide)
        | some req =>
            rw [Server.run_command hc, ServerEvent.databaseAnswer, databaseRequest, hc, hreq]
            cases command with
            | execute =>
                rw [Command.callback, Server.run_congr (onExecute_of_some hreq)]
                exact answersSent_executeCmdAndResponse henv req hid
            | dbClose =>
                rw [Command.callback, Server.run_congr (onDbClose_of_some hreq)]
                exact answersSent_executeCmdAndResponse henv _ hid
            | heart | hello | register | close | send | showClients =>
                exact absurd hservice (by decide)
      · have hother : msg.header.serviceId ≠ Const.serviceDb := by
          rw [hid]
          cases command <;> first | decide | exact absurd rfl hservice
        rw [answersSent_of_outcome outcome_request hother,
          ServerEvent.databaseAnswer_of_none (databaseRequest_of_command hc hservice),
          List.append_nil]

/-! ### Whole runs -/

/-- **One step.** -/
theorem answersSent_step (hfits : a.Fits)
    (hs : serverStep (.nlohmann strtod floatText) s a = some t) :
    answersSent (.nlohmann strtod floatText) u t =
      answersSent (.nlohmann strtod floatText) u s ++
        a.databaseAnswer (.nlohmann strtod floatText) u := by
  by_cases ha : ∃ env v msg, a = .request env v msg
  · obtain ⟨env, v, msg, rfl⟩ := ha
    simp only [serverStep] at hs
    split_ifs at hs
    exact Option.some.inj hs ▸ answersSent_request hfits
  · obtain ⟨hcalls, -⟩ := quiet_step hs fun env v msg heq => ha ⟨env, v, msg, heq⟩
    have hnone : a.databaseAnswer (.nlohmann strtod floatText) u = [] := by
      cases a with
      | request env v msg => exact absurd ⟨env, v, msg, rfl⟩ ha
      | _ => rfl
    rw [hnone, List.append_nil, answersSent_of_calls hcalls]

/-- **A run** sends the answers that the session is due. -/
theorem answersSent_run {as : List ServerEvent} (hfits : ∀ a ∈ as, a.Fits)
    (hr : run (serverStep (.nlohmann strtod floatText)) {} as = some s) :
    answersSent (.nlohmann strtod floatText) u s =
      databaseAnswers (.nlohmann strtod floatText) u as := by
  have hstep : AllSteps (serverStep (.nlohmann strtod floatText))
      (fun s a t => serverStep (.nlohmann strtod floatText) s a = some t) {} as :=
    .of_step (fun _ _ _ hs => hs) as _
  have hsends : AllSteps (serverStep (.nlohmann strtod floatText))
      (fun s a t => answersSent (.nlohmann strtod floatText) u t =
        answersSent (.nlohmann strtod floatText) u s ++
          a.databaseAnswer (.nlohmann strtod floatText) u) {} as :=
    ((AllSteps.of_labels hfits).and hstep).mono fun _ _ _ h => answersSent_step h.1 h.2
  have hrecord := record_eq_gather hsends hr
  rwa [gather_labels hr] at hrecord

/-- **What has arrived** gives the client some of the answers that were sent. -/
theorem answers_received {as : List ServerEvent} {e e' : Endian} {found : UInt16 → Bool}
    (hr : run (serverStep lib) {} as = some s)
    (hsmall : ∀ c ∈ s.calls, c.message.body.length < 2 ^ 32 - 1) {received : Bytes}
    (hreceived : received <+: wireTo lib e u as) :
    ((decode e' found received).1.filterMap (readDatabase lib)).Sublist (answersSent lib u s) := by
  have hframes : (decode e' found received).1.Sublist
      ((s.sentTo u).map fun m => delivered (m.header, m.body)) :=
    received_in_order hr hsmall hreceived
  have hread : (((s.sentTo u).map fun m => delivered (m.header, m.body)).filterMap
      (readDatabase lib)) = answersSent lib u s := by
    rw [List.filterMap_map]
    rfl
  exact hread ▸ hframes.filterMap (readDatabase lib)

/-- **The client reads what the database answers.** Whatever the other sessions do, `Send` is
given the answers of the executor to the requests of the session, in the order in which they
are handled, all of them that a text can carry and no others; and in any part of its bytes
that has arrived, the client finds some of these, each once at most and in that order. -/
theorem database_answers_arrive {as : List ServerEvent} (e e' : Endian) (found : UInt16 → Bool)
    (hfits : ∀ a ∈ as, a.Fits)
    (hr : run (serverStep (.nlohmann strtod floatText)) {} as = some s)
    (hsmall : ∀ c ∈ s.calls, c.message.body.length < 2 ^ 32 - 1) {received : Bytes}
    (hreceived : received <+: wireTo (.nlohmann strtod floatText) e u as) :
    answersSent (.nlohmann strtod floatText) u s =
        databaseAnswers (.nlohmann strtod floatText) u as ∧
      ((decode e' found received).1.filterMap
        (readDatabase (.nlohmann strtod floatText))).Sublist
          (databaseAnswers (.nlohmann strtod floatText) u as) := by
  have hsent := answersSent_run (u := u) hfits hr
  exact ⟨hsent, hsent ▸ answers_received hr hsmall hreceived⟩

/-- A database with one table. -/
def oneRow : Env where
  hasPool key := decide (key.ident = ascii "h:3306/d")
  acquired _ := true
  statement _ _ := (true, { data := .resultSet [ascii "n"] [[ascii "1"]] })

/-- A session that asks it, and reads all of the reply. -/
def selectOne : List ServerEvent :=
  [.connect 0 ⟨ascii "10.0.0.1", 50000⟩,
    .request oneRow 0 (executeRequestNode (ascii "h") 3306 (ascii "d")), .runPosted 0, .written 0]

theorem fits_oneRow : oneRow.Fits := by
  have hclock : FitsClock 0 := by constructor <;> decide
  exact ⟨hclock, hclock, fun _ _ => (by decide : (1 : Nat) < 2 ^ 64)⟩

theorem fits_selectOne : ∀ a ∈ selectOne, a.Fits := by
  intro a ha
  simp only [selectOne, List.mem_cons, List.not_mem_nil, or_false] at ha
  rcases ha with rfl | rfl | rfl | rfl
  exacts [trivial, fits_oneRow, trivial, trivial]

theorem database_answers_arrive_select : ∃ s : Server,
    databaseAnswers (.nlohmann (fun _ => none) fun _ => []) 0 selectOne =
      [(1, .selected [ascii "n"] [[ascii "1"]])] ∧
    answersSent (.nlohmann (fun _ => none) fun _ => []) 0 s =
      databaseAnswers (.nlohmann (fun _ => none) fun _ => []) 0 selectOne := by
  have hrun : ((run (serverStep (.nlohmann (fun _ => none) fun _ => [])) {} selectOne).map
      fun s => s.calls.all fun c => decide (c.message.body.length < 2 ^ 32 - 1)) = some true := by
    decide +kernel
  have hanswers : databaseAnswers (.nlohmann (fun _ => none) fun _ => []) 0 selectOne =
      [(1, .selected [ascii "n"] [[ascii "1"]])] := by decide +kernel
  obtain ⟨s, hs, hsmall⟩ := Option.map_eq_some_iff.mp hrun
  have hbodies : ∀ c ∈ s.calls, c.message.body.length < 2 ^ 32 - 1 := fun c hc =>
    of_decide_eq_true (List.all_eq_true.mp hsmall c hc)
  exact ⟨s, hanswers, (database_answers_arrive .little .big (fun _ => false) fits_selectOne hs
    hbodies (List.prefix_refl _)).1⟩

end

end AsioServer.Services
